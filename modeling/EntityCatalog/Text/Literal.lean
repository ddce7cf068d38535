import EntityCatalog.Text.Hidden

/-!
# Strings quoted inside messages

Messages about unexpected input show strings as literals: between double
quotes, with short escapes for the usual controls and with `\u{…}` around the
code point of every other character that has no form of its own.
-/

namespace EntityCatalog.Text

/-- How a character is shown inside a literal. -/
def literalChar (char : Char) : List Char :=
  if char = '\x00' then ['\\', '0']
  else if char = '\t' then ['\\', 't']
  else if char = '\r' then ['\\', 'r']
  else if char = '\n' then ['\\', 'n']
  else if char = '"' then ['\\', '"']
  else if char = '\\' then ['\\', '\\']
  else if isHidden char then
    ['\\', 'u', '\x7b'] ++ Nat.toDigits 16 char.toNat ++ ['\x7d']
  else [char]

/-- A string as a literal. -/
def literal (text : String) : String :=
  String.ofList ('"' :: text.toList.flatMap literalChar ++ ['"'])

end EntityCatalog.Text
