import SchemaGrammar.Text.Hex

set_option autoImplicit false

/-! # Texts and characters as a grammar writes them -/

namespace SchemaGrammar

namespace Grammar

/-- One character of a literal: quotes, backslashes and line breaks are escaped. -/
def literalChar (c : Char) : List Char :=
  if c = '"' then ['\\', '"']
  else if c = '\\' then ['\\', '\\']
  else if c = '\n' then ['\\', 'n']
  else if c = '\r' then ['\\', 'r']
  else [c]

/-- A text as a grammar literal. -/
def literalText (s : String) : String :=
  String.ofList ('"' :: (s.toList.flatMap literalChar ++ ['"']))

/-- The characters that mean something inside a class, apart from control characters. -/
def classSpecials : List Char := ['\\', ']', '^', '-', '[', '"']

/-- A character as an item of a class. Whatever is special there is escaped by number. -/
def classChar (c : Char) : List Char :=
  if classSpecials.contains c || c.toNat < 0x20 || c.toNat = 0x7F then
    '\\' :: 'x' :: Text.hexDigits true 2 c.toNat
  else [c]

end Grammar

end SchemaGrammar
