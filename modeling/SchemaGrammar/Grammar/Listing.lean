import SchemaGrammar.Text.Blank
import SchemaGrammar.Text.Split

set_option autoImplicit false

/-! # The rules of a grammar text, line by line

A listing needs no grammar reader: a compiled grammar has a line for each rule, and the first
definition sign of a line divides the name from the body. -/

namespace SchemaGrammar

namespace Grammar

/-- The sign between a rule's name and its body, with the blanks around it. -/
def definitionSign : String := " ::= "

/-- A line as a name and a body. -/
def rowOf (line : String) : String × String :=
  let (name, body) := Text.cutAt definitionSign.toList line.toList
  (String.ofList name, String.ofList body)

/-- The names and bodies in a grammar text, in the order of its lines. -/
def listing (text : String) : List (String × String) :=
  (Text.lines text).map rowOf

end Grammar

end SchemaGrammar
