import SchemaGrammar.Json.Value
import SchemaGrammar.Text.Hex
import SchemaGrammar.Text.Quoted

set_option autoImplicit false

/-! # JSON values as text

Three texts of a value: compact JSON, which is what a grammar's constants match, indented JSON
for display, and the form in which messages show a value. A whole number of too many digits cannot
be written; who writes a value that may hold one asks first (`Json.isWritable`). -/

namespace SchemaGrammar

namespace Json

/-! ## What can be written -/

mutual

/-- Can a value be written? It must not hold a whole number of too many digits. -/
def isWritable : Json → Bool
  | .num x => x.isWritable
  | .arr items => itemsWritable items
  | .obj fields => fieldsWritable fields
  | _ => true

def itemsWritable : List Json → Bool
  | [] => true
  | v :: rest => isWritable v && itemsWritable rest

def fieldsWritable : List (String × Json) → Bool
  | [] => true
  | (_, v) :: rest => isWritable v && fieldsWritable rest

end

/-! ## Strings -/

/-- One character of a JSON string: quote, backslash and control characters are escaped. -/
def escapeChar (c : Char) : List Char :=
  if c = '"' then ['\\', '"']
  else if c = '\\' then ['\\', '\\']
  else if c = '\n' then ['\\', 'n']
  else if c = '\r' then ['\\', 'r']
  else if c = '\t' then ['\\', 't']
  else if c = '\x0c' then ['\\', 'f']
  else if c = '\x08' then ['\\', 'b']
  else if c.toNat < 0x20 then '\\' :: 'u' :: Text.hexDigits false 4 c.toNat
  else [c]

/-- The characters between the quotes of a JSON string. -/
def escape (cs : List Char) : List Char :=
  cs.flatMap escapeChar

def stringText (s : String) : String :=
  String.ofList ('"' :: (escape s.toList ++ ['"']))

/-! ## Compact text -/

def numberText : Number → String
  | .whole n => intText n
  | .double x => x.text Double.jsonNames

mutual

/-- JSON text without blanks; characters above ASCII stand as they are. -/
def compact : Json → String
  | .null => "null"
  | .bool b => if b then "true" else "false"
  | .num x => numberText x
  | .str s => stringText s
  | .arr items => "[" ++ ",".intercalate (compactItems items) ++ "]"
  | .obj fields => "\x7b" ++ ",".intercalate (compactFields fields) ++ "\x7d"

def compactItems : List Json → List String
  | [] => []
  | v :: rest => compact v :: compactItems rest

def compactFields : List (String × Json) → List String
  | [] => []
  | (key, v) :: rest => (stringText key ++ ":" ++ compact v) :: compactFields rest

end

/-! ## Indented text -/

/-- A line break followed by two blanks for each level. -/
def lineAt (level : Nat) : String :=
  "\n" ++ String.ofList (List.replicate (2 * level) ' ')

mutual

/-- JSON text with one item or field on a line. -/
def indentedAt (level : Nat) : Json → String
  | .arr [] => "[]"
  | .obj [] => "\x7b\x7d"
  | .arr items =>
    "[" ++ lineAt (level + 1) ++ ("," ++ lineAt (level + 1)).intercalate
      (indentedItems (level + 1) items) ++ lineAt level ++ "]"
  | .obj fields =>
    "\x7b" ++ lineAt (level + 1) ++ ("," ++ lineAt (level + 1)).intercalate
      (indentedFields (level + 1) fields) ++ lineAt level ++ "\x7d"
  | .null => "null"
  | .bool b => if b then "true" else "false"
  | .num x => numberText x
  | .str s => stringText s

def indentedItems (level : Nat) : List Json → List String
  | [] => []
  | v :: rest => indentedAt level v :: indentedItems level rest

def indentedFields (level : Nat) : List (String × Json) → List String
  | [] => []
  | (key, v) :: rest =>
    (stringText key ++ ": " ++ indentedAt level v) :: indentedFields level rest

end

def indented (v : Json) : String :=
  indentedAt 0 v

/-! ## In messages -/

mutual

/-- A value as a message shows it, with texts in quotes. -/
def shownQuoted : Json → String
  | .null => "None"
  | .bool b => if b then "True" else "False"
  | .num x => x.text
  | .str s => Text.quoted s
  | .arr items => "[" ++ ", ".intercalate (shownItems items) ++ "]"
  | .obj fields => "\x7b" ++ ", ".intercalate (shownFields fields) ++ "\x7d"

def shownItems : List Json → List String
  | [] => []
  | v :: rest => shownQuoted v :: shownItems rest

def shownFields : List (String × Json) → List String
  | [] => []
  | (key, v) :: rest => (Text.quoted key ++ ": " ++ shownQuoted v) :: shownFields rest

end

/-- A value as a message or a count shows it: a text stands bare. -/
def shown : Json → String
  | .str s => s
  | v => shownQuoted v

end Json

end SchemaGrammar
