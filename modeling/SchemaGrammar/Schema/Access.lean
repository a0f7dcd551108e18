import SchemaGrammar.Failure
import SchemaGrammar.Json.Compare

set_option autoImplicit false

/-! # Looking into values of a schema

A keyword may hold a value of another kind than it should. Lists, objects and texts can all be
gone through, item by item, key by key or character by character; what cannot be done with a
value is a misuse. -/

namespace SchemaGrammar

namespace Schema

/-- The values that one meets going through a value. -/
def elements : Json → Except Failure (List Json)
  | .arr items => .ok items
  | .obj fields => .ok ((Json.Fields.keys fields).map Json.str)
  | .str s => .ok (s.toList.map fun c => .str c.toString)
  | v => .error (.misuse (.notIterable v.kind))

/-- Does the second text occur in the first? -/
def occursIn (part : List Char) : List Char → Bool
  | [] => part.isEmpty
  | c :: rest => part.isPrefixOf (c :: rest) || occursIn part rest

/-- Does a value contain a text: as a key, as an item or as a part? -/
def containsText (v : Json) (s : String) : Except Failure Bool :=
  match v with
  | .obj fields => .ok (Json.Fields.has fields s)
  | .arr items => .ok (items.any (Json.isText s))
  | .str t => .ok (occursIn s.toList t.toList)
  | _ => .error (.misuse (.noContents v.kind))

/-- The value of a field that is contained; only objects have fields. -/
def fieldOf (v : Json) (key : String) : Except Failure Json :=
  match v with
  | .obj fields => .ok ((Json.Fields.get? fields key).getD .null)
  | _ => .error (.misuse (.noFields v.kind))

/-- The fields of a value whose operation `operation` is called for. -/
def fieldsFor (operation : String) : Json → Except Failure Json.Fields
  | .obj fields => .ok fields
  | v => .error (.misuse (.lacks v.kind operation))

/-- A value that serves as a key; lists and objects cannot. -/
def checkKey (v : Json) : Except Failure Unit :=
  match v with
  | .arr _ | .obj _ => .error (.misuse (.noKey v.kind))
  | _ => .ok ()

/-- A value that is written must not hold a number of too many digits. -/
def checkWritable (v : Json) : Except Failure Unit :=
  if v.isWritable then .ok () else .error .tooManyDigits

/-- The value, or another one in place of null, false, zero and everything empty. -/
def orElse (v : Option Json) (other : Json) : Json :=
  match v with
  | some w => if w.isEmptyValue then other else w
  | none => other

/-- The properties that an object declares, in order. -/
def declaredProperties (fields : Json.Fields) : Except Failure Json.Fields :=
  fieldsFor "items" (orElse (Json.Fields.get? fields "properties") (.obj []))

/-- The names that an object requires. -/
def requiredNames (fields : Json.Fields) : Except Failure (List String) := do
  let names ← elements (orElse (Json.Fields.get? fields "required") (.arr []))
  names.forM checkKey
  return names.filterMap fun
    | .str s => some s
    | _ => none

end Schema

end SchemaGrammar
