import SchemaGrammar.Address
import SchemaGrammar.Assoc
import SchemaGrammar.Json.Distinct
import SchemaGrammar.Schema.Access

set_option autoImplicit false

/-! # The metaschema

The rules that JSON Schema, in its seventh draft, has for schemas themselves. They are data: a
`Check` is what one keyword of the metaschema asks of a value, and checking a value gives every
place where it falls short. Formats and defaults ask for nothing. A document may name another
dialect; what is known of these is a parameter (`Dialects`). -/

namespace SchemaGrammar

namespace Metaschema

/-- What is asked of a value. -/
inductive Check where
  | all (checks : List Check)
  /-- One of the named types. -/
  | types (names : List String)
  /-- A number that is not negative. -/
  | minimum
  /-- A number above zero. -/
  | exclusiveMinimum
  /-- A list with at least one item. -/
  | minItems
  /-- A list without equal items. -/
  | uniqueItems
  /-- Every item of a list. -/
  | items (check : Check)
  /-- The fields of an object that have these names. -/
  | properties (checks : List (String × Check))
  /-- Every field of an object. -/
  | additionalProperties (check : Check)
  /-- At least one of some checks. -/
  | anyOf (checks : List Check)
  /-- One of some texts. -/
  | enum (texts : List String)
  /-- Again a schema. -/
  | schema

namespace Check

def anything : Check := .all []

def string : Check := .types ["string"]

def boolean : Check := .types ["boolean"]

def number : Check := .types ["number"]

def list : Check := .types ["array"]

def schemaArray : Check := .all [.types ["array"], .minItems, .items .schema]

def nonNegativeInteger : Check := .all [.types ["integer"], .minimum]

def simpleTypes : Check :=
  .enum ["array", "boolean", "integer", "null", "number", "object", "string"]

def stringArray : Check := .all [.types ["array"], .items string, .uniqueItems]

/-- An object whose fields are schemas. -/
def schemas : Check := .all [.types ["object"], .additionalProperties .schema]

/-- What is asked of each keyword. -/
def keywords : List (String × Check) :=
  [("$id", string), ("$schema", string), ("$ref", string), ("$comment", string),
    ("title", string), ("description", string), ("default", anything),
    ("readOnly", boolean), ("examples", list),
    ("multipleOf", .all [number, .exclusiveMinimum]), ("maximum", number),
    ("exclusiveMaximum", number), ("minimum", number), ("exclusiveMinimum", number),
    ("maxLength", nonNegativeInteger), ("minLength", nonNegativeInteger),
    ("pattern", string), ("additionalItems", .schema),
    ("items", .anyOf [.schema, schemaArray]), ("maxItems", nonNegativeInteger),
    ("minItems", nonNegativeInteger), ("uniqueItems", boolean), ("contains", .schema),
    ("maxProperties", nonNegativeInteger), ("minProperties", nonNegativeInteger),
    ("required", stringArray), ("additionalProperties", .schema),
    ("definitions", schemas), ("properties", schemas), ("patternProperties", schemas),
    ("dependencies",
      .all [.types ["object"], .additionalProperties (.anyOf [.schema, stringArray])]),
    ("propertyNames", .schema), ("const", anything), ("enum", list),
    ("type",
      .anyOf [simpleTypes,
        .all [.types ["array"], .items simpleTypes, .minItems, .uniqueItems]]),
    ("format", string), ("contentMediaType", string), ("contentEncoding", string),
    ("if", .schema), ("then", .schema), ("else", .schema), ("allOf", schemaArray),
    ("anyOf", schemaArray), ("oneOf", schemaArray), ("not", .schema)]

/-- What a schema has to be. -/
def root : Check :=
  .all [.types ["object", "boolean"], .properties keywords]

end Check

/-! ## Checking -/

/-- Is a number whole, by value? -/
def isWhole (x : Number) : Bool :=
  match x.floor?, x.ceil? with
  | some a, some b => a == b
  | _, _ => false

/-- Is a value of the named type? Truth values are no numbers. -/
def isType (v : Json) (name : String) : Bool :=
  match v with
  | .null => name == "null"
  | .bool _ => name == "boolean"
  | .num x => name == "number" || (name == "integer" && isWhole x)
  | .str _ => name == "string"
  | .arr _ => name == "array"
  | .obj _ => name == "object"

/-- An issue of the value itself. -/
def issue (v : Json) (keyword complaint : String) : Issue :=
  ⟨[], v.shownQuoted ++ " " ++ complaint, keyword, v⟩

def issueUnless (holds : Bool) (v : Json) (keyword complaint : String) : List Issue :=
  if holds then [] else [issue v keyword complaint]

/-- Issues of a part of a value. -/
def below (step : String) (issues : List Issue) : List Issue :=
  issues.map fun i => { i with path := step :: i.path }

def quotedNames (names : List String) : String :=
  ", ".intercalate (names.map Text.quoted)

mutual

/-- The issues of a value; `again` gives those of a schema inside. -/
def issues (again : Json → List Issue) : Check → Json → List Issue
  | .all checks, v => issuesOfAll again checks v
  | .types names, v =>
    issueUnless (names.any (isType v)) v "type" ("is not of type " ++ quotedNames names)
  | .minimum, v =>
    issueUnless (match v with
      | .num x => !x.lt (.whole 0)
      | _ => true) v "minimum" "is less than the minimum of 0"
  | .exclusiveMinimum, v =>
    issueUnless (match v with
      | .num x => !(x.lt (.whole 0) || x.same (.whole 0))
      | _ => true) v "exclusiveMinimum" "is less than or equal to the minimum of 0"
  | .minItems, v =>
    issueUnless (match v with
      | .arr items => !items.isEmpty
      | _ => true) v "minItems" "should be non-empty"
  | .uniqueItems, v =>
    issueUnless (match v with
      | .arr items => Json.allDifferent items
      | _ => true) v "uniqueItems" "has non-unique elements"
  | .items check, v => match v with
    | .arr items => items.zipIdx.flatMap fun (w, i) => below (natText i) (issues again check w)
    | _ => []
  | .properties checks, v => match v with
    | .obj fields => issuesOfFields again checks fields
    | _ => []
  | .additionalProperties check, v => match v with
    | .obj fields => fields.flatMap fun (key, w) => below key (issues again check w)
    | _ => []
  | .anyOf checks, v =>
    issueUnless (holdsAny again checks v) v "anyOf" "is not valid under any of the given schemas"
  | .enum texts, v =>
    issueUnless (texts.any fun text => v.isText text) v "enum"
      ("is not one of [" ++ quotedNames texts ++ "]")
  | .schema, v => again v

def issuesOfAll (again : Json → List Issue) : List Check → Json → List Issue
  | [], _ => []
  | check :: rest, v => issues again check v ++ issuesOfAll again rest v

def issuesOfFields (again : Json → List Issue) :
    List (String × Check) → Json.Fields → List Issue
  | [], _ => []
  | (key, check) :: rest, fields =>
    (match Json.Fields.get? fields key with
      | some w => below key (issues again check w)
      | none => []) ++ issuesOfFields again rest fields

def holdsAny (again : Json → List Issue) : List Check → Json → Bool
  | [], _ => false
  | check :: rest, v => (issues again check v).isEmpty || holdsAny again rest v

end

/-- The issues of a schema. Each schema inside is a smaller value, so the size of the whole
    bounds the `depth`. -/
def schemaIssues : Nat → Json → List Issue
  | 0, _ => []
  | depth + 1, v => issues (schemaIssues depth) .root v

/-! ## Messages that cannot be written

The message of an issue shows the value that it is about. -/

mutual

/-- Can all messages be written that checking a value gives rise to? The branches of a choice have
    theirs, too, one after the other up to the first that holds. -/
def canReport (again : Json → List Issue) (inside : Json → Bool) : Check → Json → Bool
  | .all checks, v => canReportAll again inside checks v
  | .items check, v => match v with
    | .arr items => items.all (canReport again inside check)
    | _ => true
  | .properties checks, v => match v with
    | .obj fields => canReportFields again inside checks fields
    | _ => true
  | .additionalProperties check, v => match v with
    | .obj fields => fields.all fun (_, w) => canReport again inside check w
    | _ => true
  | .anyOf checks, v =>
    canReportAny again inside checks v && (holdsAny again checks v || v.isWritable)
  | .schema, v => inside v
  | check, v => (issues again check v).isEmpty || v.isWritable

def canReportAll (again : Json → List Issue) (inside : Json → Bool) : List Check → Json → Bool
  | [], _ => true
  | check :: rest, v => canReport again inside check v && canReportAll again inside rest v

def canReportFields (again : Json → List Issue) (inside : Json → Bool) :
    List (String × Check) → Json.Fields → Bool
  | [], _ => true
  | (key, check) :: rest, fields =>
    (match Json.Fields.get? fields key with
      | some w => canReport again inside check w
      | none => true) && canReportFields again inside rest fields

def canReportAny (again : Json → List Issue) (inside : Json → Bool) : List Check → Json → Bool
  | [], _ => true
  | check :: rest, v => canReport again inside check v &&
    ((issues again check v).isEmpty || canReportAny again inside rest v)

end

/-- Can all messages about a schema be written? -/
def schemaReports : Nat → Json → Bool
  | 0, _ => true
  | depth + 1, v => canReport (schemaIssues depth) (schemaReports depth) .root v

/-! ## Dialects -/

/-- A dialect of schemas, by its own metaschema. -/
structure Dialect where
  /-- The issues of a document, if their messages can be written. -/
  issues? : Json → Option (List Issue)
  /-- Only numbers of too many digits cannot be written. -/
  reports : ∀ v, v.isWritable = true → (issues? v).isSome = true

/-- The dialects that are known besides the seventh draft, by address. -/
abbrev Dialects := String → Option Dialect

/-- The dialect that a document names, if it is a known one. -/
def Dialects.of (dialects : Dialects) (v : Json) : Option Dialect :=
  match v.get? "$schema" with
  | some (.str address) => dialects address
  | _ => none

/-- The issues of a document in its dialect, which is the seventh draft unless it names another. -/
def issuesIn (dialects : Dialects) (v : Json) : Option (List Issue) :=
  match dialects.of v with
  | some dialect => dialect.issues? v
  | none =>
    if schemaReports (v.size + 1) v then some (schemaIssues (v.size + 1) v) else none

/-! ## The check of a document -/

/-- Does the path come no later than the other, step by step? -/
def pathLe : List String → List String → Bool
  | [], _ => true
  | _ :: _, [] => false
  | a :: as, b :: bs => if a == b then pathLe as bs else decide (a < b)

/-- The name of a dialect is an address, or a value that counts as absent. -/
def checkAddress : Json → Except Failure Unit
  | .str address => match Address.fault? address with
    | some fault => .error (.address fault)
    | none => .ok ()
  | v => if v.isEmptyValue then .ok () else .error (.misuse (.lacks v.kind "decode"))

/-- The dialect that a document names has to be readable, known or not. -/
def checkDialect : Json → Except Failure Unit
  | .bool _ => .ok ()
  | v => do
    if ← Schema.containsText v "$schema" then
      let dialect ← Schema.fieldOf v "$schema"
      Schema.checkKey dialect
      checkAddress dialect

/-- All issues of a document, in the order of their places. -/
def checkIn (dialects : Dialects) (v : Json) : Except Failure (List Issue) := do
  checkDialect v
  match issuesIn dialects v with
  | some found => return found.mergeSort fun a b => pathLe a.path b.path
  | none => throw .tooManyDigits

/-- The check against the seventh draft, where no other dialect is known. -/
def check (v : Json) : Except Failure (List Issue) :=
  checkIn (fun _ => none) v

end Metaschema

end SchemaGrammar
