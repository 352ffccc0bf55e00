import SelectQuery.Text.Hex

/-!
# Toml/Printer — the text of keys and values

A key and its value take a line. A string is written in the first form in which it can stand as it
is, and only if there is none with escapes; a string of several lines keeps its lines.
-/

namespace SelectQuery.Toml

/-- A control character that no string can hold as it is. -/
def needsEscape (c : Char) : Bool :=
  (c.toNat < 0x20 && c != '\t' && c != '\n') || c == '\x7F'

/-- Somewhere in the text three of the quotes are in a row. -/
def hasThree (quote : Char) : List Char → Bool
  | a :: b :: c :: cs => (a == quote && b == quote && c == quote) || hasThree quote (b :: c :: cs)
  | _ => false

/-- A control character or a backslash behind a backslash. -/
def escaped (c : Char) : List Char :=
  match c with
  | '\x08' => ['\\', 'b']
  | '\t' => ['\\', 't']
  | '\n' => ['\\', 'n']
  | '\x0c' => ['\\', 'f']
  | '\r' => ['\\', 'r']
  | '"' => ['\\', '"']
  | '\\' => ['\\', '\\']
  | c => '\\' :: 'u' :: '0' :: '0' :: Text.hexOf Text.upperHexDigit [UInt8.ofNat c.toNat]

/-- A string between double quotes on one line. -/
def oneLine (cs : List Char) : List Char :=
  cs.flatMap fun c =>
    if needsEscape c || c == '\t' || c == '\n' || c == '"' || c == '\\' then escaped c else [c]

/-- A string between triple double quotes. Of quotes in a row each third is escaped; `run` counts
those before that are not. -/
def manyLines (run : Nat) : List Char → List Char
  | [] => []
  | c :: cs =>
    if c = '"' then if run < 2 then c :: manyLines (run + 1) cs else escaped c ++ manyLines 0 cs
    else if needsEscape c || c == '\t' || c == '\\' then escaped c ++ manyLines 0 cs
    else c :: manyLines 0 cs

/-- The forms of a string. -/
inductive Form where
  /-- Between double quotes. -/
  | basic
  /-- Between single quotes. -/
  | literal
  /-- Between triple double quotes. -/
  | basicLines
  /-- Between triple single quotes. -/
  | literalLines
  deriving DecidableEq, Repr

/-- The form in which a string is written. -/
def formOf (cs : List Char) : Form :=
  let clean := ! cs.any needsEscape
  let broken := cs.contains '\n'
  if clean && ! cs.contains '\\' && ! cs.contains '"' && ! broken then .basic
  else if clean && ! cs.contains '\'' && ! broken then .literal
  else if clean && ! cs.contains '\\' && ! hasThree '"' cs then .basicLines
  else if clean && ! hasThree '\'' cs then .literalLines
  else if broken then .basicLines
  else .basic

/-- A string in its quotes. -/
def quoted (cs : List Char) : List Char :=
  let opening := if cs.contains '\n' then ['\n'] else []
  match formOf cs with
  | .basic => '"' :: (oneLine cs ++ ['"'])
  | .literal => '\'' :: (cs ++ ['\''])
  | .basicLines => "\"\"\"".toList ++ opening ++ manyLines 0 cs ++ "\"\"\"".toList
  | .literalLines => "'''".toList ++ opening ++ cs ++ "'''".toList

/-- The line of a key with a value already written. -/
def line (key : String) (value : String) : String := key ++ " = " ++ value ++ "\n"

/-- The line of a key with a text. -/
def textLine (key s : String) : String := line key (String.ofList (quoted s.toList))

end SelectQuery.Toml
