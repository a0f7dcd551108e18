import SchemaGrammar.Failure

set_option autoImplicit false

/-! # Built-in rules

The rules for plain JSON values and for the string formats that have a grammar. A built-in rule
is added to a table the first time it is needed, and the rules that its body refers to with
it. -/

namespace SchemaGrammar

/-- A rule that is known beforehand. -/
structure Builtin where
  body : String
  /-- The built-in rules that the body refers to. -/
  needs : List String
  deriving Repr, DecidableEq

namespace Builtin

/-- An expression with its counts in braces. -/
def times (item counts : String) : String :=
  item ++ "\x7b" ++ counts ++ "\x7d"

/-- The blanks allowed behind every JSON token: none, one space, or up to two line breaks and
    some indentation. -/
def space : String :=
  "| \" \" | " ++ times "\"\\n\"" "1,2" ++ " " ++ times "[ \\t]" "0,20"

/-- The name of the rule for blanks. -/
def spaceName : String := "space"

def hex : String := "[0-9a-fA-F]"

/-- The rules for JSON values. -/
def values : List (String × Builtin) :=
  [("boolean", ⟨"(\"true\" | \"false\") space", []⟩),
    ("decimal-part", ⟨times "[0-9]" "1,16", []⟩),
    ("integral-part", ⟨"[0] | [1-9] " ++ times "[0-9]" "0,15", []⟩),
    ("number",
      ⟨"(\"-\"? integral-part) (\".\" decimal-part)? ([eE] [-+]? integral-part)? space",
        ["integral-part", "decimal-part"]⟩),
    ("integer", ⟨"(\"-\"? integral-part) space", ["integral-part"]⟩),
    ("value",
      ⟨"object | array | string | number | boolean | null",
        ["object", "array", "string", "number", "boolean", "null"]⟩),
    ("object",
      ⟨"\"\x7b\" space ( string \":\" space value (\",\" space string \":\" space value)* )? "
        ++ "\"\x7d\" space", ["string", "value"]⟩),
    ("array", ⟨"\"[\" space ( value (\",\" space value)* )? \"]\" space", ["value"]⟩),
    ("uuid",
      ⟨"\"\\\"\" " ++ times hex "8" ++ " \"-\" " ++ times hex "4" ++ " \"-\" " ++ times hex "4"
        ++ " \"-\" " ++ times hex "4" ++ " \"-\" " ++ times hex "12" ++ " \"\\\"\" space", []⟩),
    ("char",
      ⟨"[^\"\\\\\\x7F\\x00-\\x1F] | [\\\\] ([\"\\\\bfnrt] | \"u\" " ++ times hex "4" ++ ")", []⟩),
    ("string", ⟨"\"\\\"\" char* \"\\\"\" space", ["char"]⟩),
    ("null", ⟨"\"null\" space", []⟩)]

/-- The rules for the formats of strings. -/
def formats : List (String × Builtin) :=
  [("date",
      ⟨times "[0-9]" "4" ++ " \"-\" ( \"0\" [1-9] | \"1\" [0-2] ) \"-\" "
        ++ "( \"0\" [1-9] | [1-2] [0-9] | \"3\" [0-1] )", []⟩),
    ("time",
      ⟨"([01] [0-9] | \"2\" [0-3]) \":\" [0-5] [0-9] \":\" [0-5] [0-9] ( \".\" "
        ++ times "[0-9]" "3" ++ " )? "
        ++ "( \"Z\" | ( \"+\" | \"-\" ) ( [01] [0-9] | \"2\" [0-3] ) \":\" [0-5] [0-9] )", []⟩),
    ("date-time", ⟨"date \"T\" time", ["date", "time"]⟩),
    ("date-string", ⟨"\"\\\"\" date \"\\\"\" space", ["date"]⟩),
    ("time-string", ⟨"\"\\\"\" time \"\\\"\" space", ["time"]⟩),
    ("date-time-string", ⟨"\"\\\"\" date-time \"\\\"\" space", ["date-time"]⟩)]

def catalog : List (String × Builtin) :=
  values ++ formats

/-- The built-in rule of a name. -/
def find? (name : String) : Option Builtin :=
  catalog.lookup name

/-- The built-in rule of a name that ought to be known. -/
def get (name : String) : Except Failure Builtin :=
  match find? name with
  | some rule => .ok rule
  | none => .error (.unknownBuiltin name)

/-- The names that a rule made from a schema may not take as they are. -/
def reservedNames : List String :=
  "root" :: catalog.map Prod.fst

/-- The kinds of values that a schema may ask for by its type alone. -/
def typeNames : List String :=
  ["string", "number", "integer", "boolean", "null", "array"]

end Builtin

end SchemaGrammar
