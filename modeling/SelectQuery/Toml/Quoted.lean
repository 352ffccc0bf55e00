import SelectQuery.Text.Hex
import SelectQuery.Text.Reader

/-!
# Toml/Quoted — strings in the four forms

A string stands between double quotes, where a backslash begins an escape, or between single quotes,
where nothing does; either quote may be tripled, and then the string may have more than one line.
A line break right behind the opening of a triple form is no part of it, and up to two quotes right
before its closing are.
-/

namespace SelectQuery.Toml

open Text (Reader)

/-- A character that may stand for itself: not a control character, except for the tab. -/
def isPlain (c : Char) : Bool := c == '\t' || (0x20 ≤ c.toNat && c.toNat != 0x7F)

/-- A line break starts with this character in front of that text. -/
def startsBreak (c : Char) (rest : List Char) : Bool :=
  c == '\n' || (c == '\r' && rest.head? == some '\n')

/-- What is left without a line break at the front. -/
def dropBreak : List Char → List Char
  | '\n' :: rest => rest
  | '\r' :: '\n' :: rest => rest
  | rest => rest

/-- The character that a letter behind a backslash stands for. -/
def unescape? : Char → Option Char
  | '"' => some '"'
  | '\\' => some '\\'
  | 'b' => some '\x08'
  | 'e' => some '\x1b'
  | 'f' => some '\x0c'
  | 'n' => some '\n'
  | 'r' => some '\r'
  | 't' => some '\t'
  | _ => none

/-- The character of a code point in hexadecimal, if it is one. -/
def ofCode? (digits : List Char) : Option Char := do
  let n ← Text.hexNumber? digits
  if n.isValidChar then return Char.ofNat n else none

/-- A character in front of what else was read. -/
def before (c : Char) (r : Option (List Char × List Char)) : Option (List Char × List Char) :=
  r.map fun (cs, rest) => (c :: cs, rest)

/-- Up to two more of the quotes that have closed a triple form belong to the string. -/
def closing (quote : Char) : List Char → List Char × List Char
  | a :: b :: rest =>
    if a ≠ quote then ([], a :: b :: rest)
    else if b = quote then ([a, b], rest)
    else ([a], b :: rest)
  | [a] => if a = quote then ([a], []) else ([], [a])
  | [] => ([], [])

/-- What a quote ends, if it does end the string: on one line every quote, and in a triple form one
that two more follow. -/
def ending? (quote : Char) (triple : Bool) (rest : List Char) : Option (List Char × List Char) :=
  if triple then
    match rest with
    | a :: b :: rest => if a = quote ∧ b = quote then some (closing quote rest) else none
    | _ => none
  else some ([], rest)

/-- Where a reading is within blanks that are no part of a string. -/
inductive Trim where
  /-- It is not. -/
  | no
  /-- Behind a backslash, in front of the end of the line. -/
  | lineEnd
  /-- Behind that end of line. -/
  | blanks
  deriving DecidableEq

/-- A string between double quotes from behind the opening: what it stands for, and what is left.
A backslash at the end of a line takes the line break and all blanks behind it out of a triple
form. -/
def basic (triple : Bool) : Trim → List Char → Option (List Char × List Char)
  | _, [] => none
  | trim, c :: rest =>
    if trim = .lineEnd then
      if c = '\n' then basic triple .blanks rest
      else if c = ' ' ∨ c = '\t' ∨ startsBreak c rest then basic triple .lineEnd rest
      else none
    else if trim = .blanks ∧ (c = ' ' ∨ c = '\t' ∨ startsBreak c rest) then
      basic triple .blanks rest
    else if c = '"' then
      match ending? '"' triple rest with
      | some r => some r
      | none => before '"' (basic triple .no rest)
    else if c = '\\' then
      match rest with
      | 'x' :: i :: j :: rest => do before (← ofCode? [i, j]) (basic triple .no rest)
      | 'u' :: i :: j :: k :: l :: rest => do
        before (← ofCode? [i, j, k, l]) (basic triple .no rest)
      | 'U' :: i :: j :: k :: l :: m :: n :: o :: p :: rest => do
        before (← ofCode? [i, j, k, l, m, n, o, p]) (basic triple .no rest)
      | e :: rest =>
        match unescape? e with
        | some c => before c (basic triple .no rest)
        | none =>
          if triple ∧ e = '\n' then basic triple .blanks rest
          else if triple ∧ (e = ' ' ∨ e = '\t' ∨ startsBreak e rest) then
            basic triple .lineEnd rest
          else none
      | [] => none
    else if isPlain c || (triple && startsBreak c rest) then before c (basic triple .no rest)
    else none

/-- A string between single quotes from behind the opening. -/
def literal (triple : Bool) : List Char → Option (List Char × List Char)
  | [] => none
  | c :: rest =>
    if c = '\'' then
      match ending? '\'' triple rest with
      | some r => some r
      | none => before '\'' (literal triple rest)
    else if isPlain c || (triple && startsBreak c rest) then before c (literal triple rest)
    else none

/-- A string of one line. -/
def readLine : Reader String
  | '"' :: rest => (basic false .no rest).map fun (cs, rest) => (String.ofList cs, rest)
  | '\'' :: rest => (literal false rest).map fun (cs, rest) => (String.ofList cs, rest)
  | _ => none

/-- A string of any form. -/
def readText : Reader String
  | '"' :: '"' :: '"' :: rest =>
    (basic true .no (dropBreak rest)).map fun (cs, rest) => (String.ofList cs, rest)
  | '\'' :: '\'' :: '\'' :: rest =>
    (literal true (dropBreak rest)).map fun (cs, rest) => (String.ofList cs, rest)
  | rest => readLine rest

end SelectQuery.Toml
