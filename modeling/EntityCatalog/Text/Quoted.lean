/-!
# Quoted strings of JSON documents

Writing puts a string between double quotes and escapes what may not stand
there: the quote, the backslash and the controls below the blank.  Reading
accepts every escape of the JSON grammar.

A `\u` escape names a unit of sixteen bits, so it may hold only one half of a
character.  Reading therefore has two steps: `scan` finds the pieces up to the
closing quote, and `joinHalves` puts the halves together, which fails when a
half stands alone.
-/

namespace EntityCatalog.Text.Quoted

/-- One lower-case hexadecimal digit. -/
def hexDigit (digit : Nat) : Char :=
  Nat.digitChar digit

/-- How a character is written between quotes. -/
def escape (char : Char) : List Char :=
  if char = '"' then ['\\', '"']
  else if char = '\\' then ['\\', '\\']
  else if char = '\x08' then ['\\', 'b']
  else if char = '\x0c' then ['\\', 'f']
  else if char = '\n' then ['\\', 'n']
  else if char = '\r' then ['\\', 'r']
  else if char = '\t' then ['\\', 't']
  else if char.toNat < 32 then
    ['\\', 'u', '0', '0', hexDigit (char.toNat / 16), hexDigit (char.toNat % 16)]
  else [char]

/-- A string between double quotes. -/
def encode (text : String) : List Char :=
  '"' :: text.toList.flatMap escape ++ ['"']

/-- What stands between quotes, piece by piece. -/
inductive Piece where
  | char (char : Char)
  /-- One half of a character outside the basic plane. -/
  | half (unit : Nat)
  deriving DecidableEq, Repr

/-- The piece that a sixteen-bit unit stands for. -/
def Piece.ofUnit (unit : Nat) : Piece :=
  if 0xD800 ≤ unit ∧ unit < 0xE000 then .half unit else .char (Char.ofNat unit)

/-- The value of a hexadecimal digit. -/
def hexValue? (char : Char) : Option Nat :=
  if '0' ≤ char ∧ char ≤ '9' then some (char.toNat - '0'.toNat)
  else if 'a' ≤ char ∧ char ≤ 'f' then some (char.toNat - 'a'.toNat + 10)
  else if 'A' ≤ char ∧ char ≤ 'F' then some (char.toNat - 'A'.toNat + 10)
  else none

/-- The unit that four hexadecimal digits name. -/
def hexUnit? (first second third fourth : Char) : Option Nat := do
  let first ← hexValue? first
  let second ← hexValue? second
  let third ← hexValue? third
  let fourth ← hexValue? fourth
  return ((first * 16 + second) * 16 + third) * 16 + fourth

/-- The character of an escape of one letter. -/
def simpleEscape? : Char → Option Char
  | '"' => some '"'
  | '\\' => some '\\'
  | '/' => some '/'
  | 'b' => some '\x08'
  | 'f' => some '\x0c'
  | 'n' => some '\n'
  | 'r' => some '\r'
  | 't' => some '\t'
  | _ => none

/-- Read up to the closing quote: the pieces, after those already found, and
what follows the quote.  Nothing is returned when the quote never comes, an
escape is unknown or a control stands unescaped. -/
def scan (found : List Piece) : List Char → Option (List Piece × List Char)
  | [] => none
  | '"' :: rest => some (found.reverse, rest)
  | '\\' :: 'u' :: first :: second :: third :: fourth :: rest =>
    match hexUnit? first second third fourth with
    | some unit => scan (.ofUnit unit :: found) rest
    | none => none
  | '\\' :: letter :: rest =>
    match simpleEscape? letter with
    | some char => scan (.char char :: found) rest
    | none => none
  | char :: rest =>
    if char.toNat < 32 ∨ char = '\\' then none
    else scan (.char char :: found) rest

/-- Put halves together.  A half that stands alone makes the string
unreadable. -/
def joinHalves : List Piece → Option (List Char)
  | [] => some []
  | .char char :: rest => (joinHalves rest).map (char :: ·)
  | .half high :: .half low :: rest =>
    if high < 0xDC00 ∧ 0xDC00 ≤ low then
      (joinHalves rest).map
        (Char.ofNat (0x10000 + (high - 0xD800) * 0x400 + (low - 0xDC00)) :: ·)
    else none
  | .half _ :: _ => none

/-- The string that scanned pieces spell, if no half stands alone. -/
def text? (pieces : List Piece) : Option String :=
  (joinHalves pieces).map String.ofList

end EntityCatalog.Text.Quoted
