import EntityCatalog.Json.Number
import EntityCatalog.Text.Quoted

/-!
# What can be read of a text

Reading never fails: it gives as much of the document as the text spells, up
to the place where the text stops being JSON.  A decoder that walks the nodes
in order therefore meets every problem in text order, whether it is one of
grammar or one of meaning, and can report the first.

Three marks say where the grammar was left.  A node is `broken` where a value
should start and none does.  A container that is not `closed` ends early.  A
number without value, or a string without value, is well formed but names
nothing: the number is too large, the string holds half a character.
-/

namespace EntityCatalog.Json

/-- A part of a document, as far as it could be read. -/
inductive Node where
  | null
  | bool (value : Bool)
  /-- A number; without value when it is too large. -/
  | number (value : Option Number)
  /-- A string; without value when it holds half a character. -/
  | string (value : Option String)
  /-- An array with the items found, and whether its end was found. -/
  | array (items : List Node) (closed : Bool)
  /-- An object with the members found, and whether its end was found.  The
  last key is no string where something else stands in its place. -/
  | object (members : List (Node × Node)) (closed : Bool)
  /-- No value starts here. -/
  | broken
  deriving Inhabited

/-- A whole text. -/
structure Document where
  root : Node
  /-- Whether only blanks follow the value. -/
  ended : Bool

/-- Whether a character is one of the four blanks of JSON. -/
def isBlank (char : Char) : Bool :=
  char = ' ' || char = '\n' || char = '\t' || char = '\r'

/-- A text without the blanks at its start. -/
def skipBlanks (text : List Char) : List Char :=
  text.dropWhile isBlank

/-- The string whose opening quote was just read. -/
def readString (text : List Char) : Node × List Char :=
  match Text.Quoted.scan [] text with
  | some (pieces, rest) => (.string (Text.Quoted.text? pieces), rest)
  | none => (.broken, [])

/-- A word or a number. -/
def readScalar : List Char → Node × List Char
  | 'n' :: 'u' :: 'l' :: 'l' :: rest => (.null, rest)
  | 't' :: 'r' :: 'u' :: 'e' :: rest => (.bool true, rest)
  | 'f' :: 'a' :: 'l' :: 's' :: 'e' :: rest => (.bool false, rest)
  | text =>
    match readNumeral? text with
    | some (numeral, rest) => (.number numeral.value?, rest)
    | none => (.broken, [])

/-- What stands where a key should: a scalar, or a container that is not
entered. -/
def strayKey : List Char → Node
  | '[' :: _ => .array [] false
  | '\x7b' :: _ => .object [] false
  | text => (readScalar text).1

mutual

/-- The value at the start of a text without leading blanks, and the rest.
The bound is on the number of nested calls. -/
def readValue : Nat → List Char → Node × List Char
  | 0, _ => (.broken, [])
  | _ + 1, '"' :: text => readString text
  | bound + 1, '[' :: text =>
    let (items, closed, rest) := readItems bound true (skipBlanks text)
    (.array items closed, rest)
  | bound + 1, '\x7b' :: text =>
    let (members, closed, rest) := readMembers bound true (skipBlanks text)
    (.object members closed, rest)
  | _ + 1, text => readScalar text

/-- The items from here on, whether the array was closed, and the rest.  Only
the first item may be missing. -/
def readItems : Nat → Bool → List Char → List Node × Bool × List Char
  | 0, _, _ => ([], false, [])
  | _ + 1, first, ']' :: rest => ([], first, if first then rest else [])
  | bound + 1, _, text =>
    let (item, rest) := readValue bound text
    match skipBlanks rest with
    | ',' :: rest =>
      let (items, closed, rest) := readItems bound false (skipBlanks rest)
      (item :: items, closed, rest)
    | ']' :: rest => ([item], true, rest)
    | _ => ([item], false, [])

/-- The members from here on, whether the object was closed, and the rest.
Only the first member may be missing. -/
def readMembers :
    Nat → Bool → List Char → List (Node × Node) × Bool × List Char
  | 0, _, _ => ([], false, [])
  | _ + 1, first, '\x7d' :: rest => ([], first, if first then rest else [])
  | bound + 1, _, '"' :: text =>
    let (key, rest) := readString text
    match skipBlanks rest with
    | ':' :: rest =>
      let (value, rest) := readValue bound (skipBlanks rest)
      match skipBlanks rest with
      | ',' :: rest =>
        let (members, closed, rest) := readMembers bound false (skipBlanks rest)
        ((key, value) :: members, closed, rest)
      | '\x7d' :: rest => ([(key, value)], true, rest)
      | _ => ([(key, value)], false, [])
    | _ => ([(key, .broken)], false, [])
  | _ + 1, _, text => ([(strayKey text, .broken)], false, [])

end

/-- Read a text.  Every two nested calls consume a character, so the bound is
never reached. -/
def Document.ofText (text : String) : Document :=
  let characters := text.toList
  let (root, rest) :=
    readValue (2 * characters.length + 2) (skipBlanks characters)
  ⟨root, (skipBlanks rest).isEmpty⟩

namespace Node

mutual

/-- Whether the node follows the grammar throughout. -/
def wellFormed : Node → Bool
  | .broken => false
  | .array items closed => wellFormedItems items && closed
  | .object members closed => wellFormedMembers members && closed
  | _ => true

/-- Whether all items follow the grammar. -/
def wellFormedItems : List Node → Bool
  | [] => true
  | item :: rest => wellFormed item && wellFormedItems rest

/-- Whether all members follow the grammar. -/
def wellFormedMembers : List (Node × Node) → Bool
  | [] => true
  | (key, value) :: rest =>
    wellFormed key && wellFormed value && wellFormedMembers rest

end

end Node

end EntityCatalog.Json
