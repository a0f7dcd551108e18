import SchemaGrammar.IntRange
import SchemaGrammar.Json.Compare
import SchemaGrammar.Metaschema
import SchemaGrammar.RunSort
import SchemaGrammar.Schema.Access

set_option autoImplicit false

/-! # Options of the compiler -/

namespace SchemaGrammar

structure Options where
  /-- The priorities of properties by name: those with lower ones come first, and those
      without any come last. -/
  priorities : Json
  /-- Does a dot in a pattern match line ends? -/
  dotAll : Bool
  /-- The ceiling of digits for integers without a bound on one side. -/
  maxDigits : Number
  /-- Is the schema checked against the metaschema first? -/
  checkSchema : Bool
  /-- The dialects that this check knows besides the seventh draft. -/
  dialects : Metaschema.Dialects

namespace Options

/-- The options when nothing is chosen. -/
def standard : Options :=
  ⟨.obj [], false, .whole IntRange.defaultMaxDigits, false, fun _ => none⟩

/-- Options set by name; the ceiling is still any value. -/
structure Choice where
  priorities : Json
  dotAll : Json
  maxDigits : Json
  checkSchema : Json
  dialects : Metaschema.Dialects

def toChoice (o : Options) : Choice :=
  ⟨o.priorities, .bool o.dotAll, .num o.maxDigits, .bool o.checkSchema, o.dialects⟩

/-- Set one option. -/
def Choice.set (c : Choice) (name : String) (v : Json) : Except Failure Choice :=
  if name == "prop_order" then .ok { c with priorities := v }
  else if name == "dotall" then .ok { c with dotAll := v }
  else if name == "max_int_digits" then .ok { c with maxDigits := v }
  else if name == "check_schema" then .ok { c with checkSchema := v }
  else .error (.misuse (.unknownOption name))

/-- The options chosen, if the ceiling is a number from one up. -/
def ofChoice (c : Choice) : Except Failure Options :=
  match c.maxDigits.number? with
  | none => .error (.misuse (.unordered "<" c.maxDigits.kind .whole))
  | some ceiling =>
    if ceiling.lt (.whole 1) then .error (Failure.digitCeiling c.maxDigits).raised
    else
      .ok ⟨c.priorities, !c.dotAll.isEmptyValue, ceiling, !c.checkSchema.isEmptyValue,
        c.dialects⟩

/-- Options with some of them set anew. -/
def replace (o : Options) (fields : Json.Fields) : Except Failure Options := do
  ofChoice (← fields.foldlM (fun c (name, v) => c.set name v) o.toChoice)

/-- The options that fields choose. -/
def ofFields (fields : Json.Fields) : Except Failure Options :=
  standard.replace fields

/-! ## The order of properties -/

/-- The priority of a property; without one it comes behind every number. -/
def priority (o : Options) (name : String) : Except Failure Json := do
  let fields ← Schema.fieldsFor "get" o.priorities
  return (Json.Fields.get? fields name).getD (.num (.double (.infinite false)))

/-- A property with its priority and its place in the declaration. -/
structure Ranked where
  name : String
  priority : Json
  index : Nat

/-- Does the one property come before the other? Equal priorities leave it to the places. -/
def Ranked.before (a b : Ranked) : Except Failure Bool :=
  if a.priority.areNan b.priority || a.priority.equal true b.priority then
    .ok (a.index < b.index)
  else match a.priority.less b.priority with
    | .ok answer => .ok answer
    | .error pair => .error (.misuse (.unordered "<" pair.left pair.right))

/-- Names in the order in which they are written. -/
def sortProperties (o : Options) (names : List String) : Except Failure (List String) := do
  let ranked ← names.zipIdx.mapM fun (name, i) => return ⟨name, ← o.priority name, i⟩
  let sorted ← RunSort.sort Ranked.before ranked
  return sorted.map Ranked.name

end Options

end SchemaGrammar
