import SchemaGrammar.Json.Value
import SchemaGrammar.Rules.Catalog

set_option autoImplicit false

/-! # The shapes of schemas

A schema can ask for several things at once. The shape says which of them decides about its
grammar: the first test that a schema passes settles it, so the shapes exclude each other. -/

namespace SchemaGrammar

namespace Schema

/-- The ways to make a grammar from a schema. -/
inductive Shape where
  | ref
  | union
  | typeUnion
  | const
  | enum
  | object
  | allOf
  | tuple
  | array
  | pattern
  | uuid
  | formatString
  | boundedString
  | intRange
  | genericObject
  | primitive
  | unrecognized
  deriving Repr, DecidableEq

def Shape.name : Shape → String
  | .ref => "ref"
  | .union => "union"
  | .typeUnion => "type_union"
  | .const => "const"
  | .enum => "enum"
  | .object => "object"
  | .allOf => "all_of"
  | .tuple => "tuple"
  | .array => "array"
  | .pattern => "pattern"
  | .uuid => "uuid"
  | .formatString => "format_string"
  | .boundedString => "bounded_string"
  | .intRange => "int_range"
  | .genericObject => "generic_object"
  | .primitive => "primitive"
  | .unrecognized => "unrecognized"

open Json (Fields)

/-- The value of a keyword; null counts as absent. -/
def given? (fields : Fields) (key : String) : Option Json :=
  match Fields.get? fields key with
  | some .null => none
  | found => found

/-- Is there no type, or is it the given one? -/
def allowsType (fields : Fields) (name : String) : Bool :=
  match given? fields "type" with
  | none => true
  | some t => t.isText name

/-- Is the type the given one? -/
def hasType (fields : Fields) (name : String) : Bool :=
  match given? fields "type" with
  | none => false
  | some t => t.isText name

def isList (fields : Fields) (key : String) : Bool :=
  match Fields.get? fields key with
  | some (.arr _) => true
  | _ => false

/-- The formats of unique identifiers: with or without a version. -/
def isUuidFormat (format : String) : Bool :=
  ["uuid", "uuid1", "uuid2", "uuid3", "uuid4", "uuid5"].contains format

/-- The rule of a string format. -/
def formatRuleName (format : String) : String :=
  format ++ "-string"

def isGrammarFormat (format : String) : Bool :=
  (Builtin.formats.lookup (formatRuleName format)).isSome

/-- Does a format that is a text pass the test? -/
def formatIs (fields : Fields) (test : String → Bool) : Bool :=
  match Fields.get? fields "format" with
  | some (.str format) => test format
  | _ => false

/-- Does the schema name properties, or restrict additional ones? -/
def describesProperties (fields : Fields) : Bool :=
  Fields.has fields "properties" || (match Fields.get? fields "additionalProperties" with
    | none => false
    | some (.bool true) => false
    | some _ => true)

/-- The keywords that bound an integer. -/
def boundKeys : List String :=
  ["minimum", "exclusiveMinimum", "maximum", "exclusiveMaximum"]

/-- Is the type the name of a kind that has a built-in rule? -/
def isPrimitive (fields : Fields) : Bool :=
  match Fields.get? fields "type" with
  | some (.str t) => Builtin.typeNames.contains t
  | _ => false

/-- The shape of a schema. -/
def shape (fields : Fields) : Shape :=
  if Fields.has fields "$ref" then .ref
  else if (given? fields "oneOf").isSome || (given? fields "anyOf").isSome then .union
  else if isList fields "type" then .typeUnion
  else if Fields.has fields "const" then .const
  else if Fields.has fields "enum" then .enum
  else if allowsType fields "object" && describesProperties fields then .object
  else if (allowsType fields "object" || hasType fields "string") && Fields.has fields "allOf"
    then .allOf
  else if allowsType fields "array" && (isList fields "prefixItems" || isList fields "items")
    then .tuple
  else if allowsType fields "array" && Fields.has fields "items" then .array
  else if allowsType fields "string" && Fields.has fields "pattern" then .pattern
  else if allowsType fields "string" && formatIs fields isUuidFormat then .uuid
  else if allowsType fields "string" && formatIs fields isGrammarFormat then .formatString
  else if hasType fields "string"
      && (Fields.has fields "minLength" || Fields.has fields "maxLength") then .boundedString
  else if hasType fields "integer" && boundKeys.any (Fields.has fields) then .intRange
  else if hasType fields "object" || fields.isEmpty then .genericObject
  else if isPrimitive fields then .primitive
  else .unrecognized

/-- The shape of any value; only an object has keywords to look at. -/
def classify : Json → Except Failure Shape
  | .obj fields => .ok (shape fields)
  | v => .error (.misuse (.lacks v.kind "get"))

end Schema

end SchemaGrammar
