import SchemaGrammar.Text.Hex
import SchemaGrammar.Text.Printable

set_option autoImplicit false

/-! # Texts quoted for messages

A message quotes a text so that it shows on one line: unprintable characters and the quote
itself are escaped. Single quotes are used, unless the text has single quotes and no double
one. -/

namespace SchemaGrammar.Text

/-- The quote that a text is put in. -/
def quoteFor (cs : List Char) : Char :=
  if cs.contains '\'' && !cs.contains '"' then '"' else '\''

/-- One character between the quotes. -/
def quoteChar (quote c : Char) : List Char :=
  if c = quote || c = '\\' then ['\\', c]
  else if c = '\n' then ['\\', 'n']
  else if c = '\r' then ['\\', 'r']
  else if c = '\t' then ['\\', 't']
  else if isPrintable c then [c]
  else if c.toNat < 0x100 then '\\' :: 'x' :: hexDigits false 2 c.toNat
  else if c.toNat < 0x10000 then '\\' :: 'u' :: hexDigits false 4 c.toNat
  else '\\' :: 'U' :: hexDigits false 8 c.toNat

/-- A text as a message quotes it. -/
def quoted (s : String) : String :=
  let quote := quoteFor s.toList
  String.ofList (quote :: (s.toList.flatMap (quoteChar quote) ++ [quote]))

end SchemaGrammar.Text
