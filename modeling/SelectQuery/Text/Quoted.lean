/-!
# Text/Quoted — text between delimiters

A text is put between an opening and a closing character; inside it every closing character is
written twice, so the first closing character that is not doubled ends the quotation. Names of
tables and columns and text literals are all written this way.
-/

namespace SelectQuery.Text

/-- Writes every `close` twice and all else once. -/
def double (close : Char) : List Char → List Char
  | [] => []
  | c :: cs => if c = close then close :: close :: double close cs else c :: double close cs

/-- Undoes `double`; a `close` that stands alone is refused. -/
def undouble (close : Char) : List Char → Option (List Char)
  | [] => some []
  | [c] => if c = close then none else some [c]
  | c :: d :: cs =>
    if c = close then
      if d = close then (undouble close cs).map (close :: ·) else none
    else (undouble close (d :: cs)).map (c :: ·)

/-- The text between its delimiters. -/
def quote (openChar close : Char) (s : String) : String :=
  String.ofList (openChar :: (double close s.toList ++ [close]))

end SelectQuery.Text
