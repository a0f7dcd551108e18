import SchemaGrammar.Assoc
import SchemaGrammar.Number.Basic

set_option autoImplicit false

/-! # JSON values

An object keeps its fields in the order of their first appearance, because the order in which
properties are declared shows in a grammar. -/

namespace SchemaGrammar

inductive Json where
  | null
  | bool (b : Bool)
  | num (x : Number)
  | str (s : String)
  | arr (items : List Json)
  | obj (fields : List (String × Json))
  deriving Repr, Inhabited

namespace Json

/-! ## Kinds -/

/-- The kinds of values that messages tell apart. -/
inductive Kind where
  | null
  | bool
  | whole
  | double
  | text
  | list
  | object
  deriving Repr, DecidableEq

/-- The name of a kind in a message. -/
def Kind.name : Kind → String
  | .null => "NoneType"
  | .bool => "bool"
  | .whole => "int"
  | .double => "float"
  | .text => "str"
  | .list => "list"
  | .object => "dict"

def kind : Json → Kind
  | .null => .null
  | .bool _ => .bool
  | .num (.whole _) => .whole
  | .num (.double _) => .double
  | .str _ => .text
  | .arr _ => .list
  | .obj _ => .object

/-- Null, false, zero and everything empty count as absent. -/
def isEmptyValue : Json → Bool
  | .null => true
  | .bool b => !b
  | .num x => x.same (.whole 0)
  | .str s => s.isEmpty
  | .arr items => items.isEmpty
  | .obj fields => fields.isEmpty

/-- A value read as a number: truth values count as one and zero. -/
def number? : Json → Option Number
  | .bool b => some (.whole (if b then 1 else 0))
  | .num x => some x
  | _ => none

/-- Is a value the given text? -/
def isText (s : String) : Json → Bool
  | .str t => s == t
  | _ => false

/-! ## Fields -/

abbrev Fields := List (String × Json)

namespace Fields

/-- The value of a field. -/
def get? (fields : Fields) (key : String) : Option Json :=
  fields.lookup key

def has (fields : Fields) (key : String) : Bool :=
  (get? fields key).isSome

def keys (fields : Fields) : List String :=
  fields.map Prod.fst

/-- Set a field: a new one comes last, an old one keeps its place. -/
def set (fields : Fields) (key : String) (value : Json) : Fields :=
  Assoc.set fields key value

end Fields

/-- A field of an object; anything else has none. -/
def get? : Json → String → Option Json
  | .obj fields, key => Fields.get? fields key
  | _, _ => none

/-! ## Places -/

/-- One step from a value to a part of it. -/
inductive Step where
  | key (name : String)
  | index (i : Nat)
  deriving Repr, DecidableEq

/-- A place in a document: the steps that lead to it from the top. -/
abbrev Path := List Step

/-- The part of a value that a step leads to. -/
def child? : Json → Step → Option Json
  | .obj fields, .key name => Fields.get? fields name
  | .arr items, .index i => items[i]?
  | _, _ => none

def at? (v : Json) : Path → Option Json
  | [] => some v
  | step :: rest => match v.child? step with
    | some w => w.at? rest
    | none => none

/-- The value with a part replaced; a step that leads nowhere changes nothing. -/
def setChild : Json → Step → Json → Json
  | .obj fields, .key name, w =>
    if Fields.has fields name then .obj (Fields.set fields name w) else .obj fields
  | .arr items, .index i, w => .arr (items.set i w)
  | v, _, _ => v

/-- Change the value at a place. -/
def modifyAt (f : Json → Json) (v : Json) : Path → Json
  | [] => f v
  | step :: rest => match v.child? step with
    | some w => v.setChild step (w.modifyAt f rest)
    | none => v

/-! ## Size -/

mutual

/-- The number of values in a document, itself included. -/
def size : Json → Nat
  | .arr items => 1 + sizeOfItems items
  | .obj fields => 1 + sizeOfFields fields
  | _ => 1

def sizeOfItems : List Json → Nat
  | [] => 0
  | v :: rest => v.size + sizeOfItems rest

def sizeOfFields : List (String × Json) → Nat
  | [] => 0
  | (_, v) :: rest => v.size + sizeOfFields rest

end

end Json

end SchemaGrammar
