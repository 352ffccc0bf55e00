import SelectQuery.Value.Basic
import SelectQuery.Text.Hex
import SelectQuery.Text.Quoted

/-!
# Value/Literal — values as SQL literals

`Value.literal` writes a value as it would stand in a statement: NULL, TRUE and FALSE, numbers in
decimal, bytes as a hexadecimal string and all else between single quotes. Statements made by this
library never hold literals; they are for logs and for tools.
-/

namespace SelectQuery

/-- Hexadecimal in groups of eight, four, four, four and twelve digits. -/
def Uuid.chars (u : Uuid) : List Char :=
  let digits (first count : Nat) : List Char :=
    Text.lowerHex ((u.bytes.toList.drop first).take count)
  digits 0 4 ++ '-' ::
    (digits 4 2 ++ '-' :: (digits 6 2 ++ '-' :: (digits 8 2 ++ '-' :: digits 10 6)))

/-- The text between single quotes, each quote inside it doubled. -/
def quoteText (s : String) : String := Text.quote '\'' '\'' s

/-- The characters between single quotes as they are. -/
def encloseChars (cs : List Char) : String := String.ofList ('\'' :: (cs ++ ['\'']))

/-- The literal of a scalar. -/
def Scalar.literal : Scalar → String
  | bool b => if b then "TRUE" else "FALSE"
  | int8 n => toString n.toInt
  | int16 n => toString n.toInt
  | int32 n => toString n.toInt
  | int64 n => toString n.toInt
  | uint8 n => toString n.toNat
  | uint16 n => toString n.toNat
  | uint32 n => toString n.toNat
  | uint64 n => toString n.toNat
  | single x => x.literal
  | double x => x.literal
  | char c => quoteText (String.singleton c)
  | text s => quoteText s
  | bytes bs => "X" ++ encloseChars (Text.upperHex bs)
  | date d => encloseChars d.chars
  | time t => encloseChars t.chars
  | dateTime t => encloseChars (t.chars ' ')
  | instant t => encloseChars (t.chars 'T' ++ "+00:00".toList)
  | uuid u => encloseChars u.chars
  | json doc => quoteText doc.compact

namespace Value

/-- The literal of a value; every NULL is written alike. -/
def literal : Value → String
  | null _ => "NULL"
  | scalar x => x.literal

instance : ToString Value := ⟨literal⟩

end Value

end SelectQuery
