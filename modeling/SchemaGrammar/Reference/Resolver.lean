import SchemaGrammar.Diagnosis
import SchemaGrammar.Reference.Pointer

set_option autoImplicit false

/-! # Resolving references

Before a document is compiled, every reference in it is put into its full form, the
document's address and the pointer, and the part that it points at is recorded. Recording never
follows a reference into its target, so references may form cycles. Documents change while they
are being resolved; a target that is a list or an object is therefore recorded as a place and
read when it is needed, while any other value is recorded itself. -/

namespace SchemaGrammar

/-- What a reference points at. -/
inductive Target where
  | value (v : Json)
  | place (document : Nat) (path : Json.Path)
  deriving Repr

/-- Documents, and what is known about references. -/
structure Resolver where
  documents : List Json
  /-- Targets by full reference. -/
  targets : List (String × Target)
  deriving Repr

/-- Work on references that may fail; what was done before stays done. -/
abbrev ResolveM := EStateM Failure Resolver

namespace Resolver

/-- The keyword of references. -/
def refKey : String := "$ref"

def new (documents : List Json) : Resolver :=
  ⟨documents, []⟩

def knows (r : Resolver) (ref : String) : Bool :=
  Assoc.has r.targets ref

/-- The part of a document at a place. -/
def read (r : Resolver) (document : Nat) (path : Json.Path) : Json :=
  ((r.documents[document]?.getD .null).at? path).getD .null

def targetValue (r : Resolver) : Target → Json
  | .value v => v
  | .place document path => r.read document path

/-- What a full reference points at, if it has been recorded. -/
def find? (r : Resolver) (ref : String) : Option Json :=
  (r.targets.lookup ref).map r.targetValue

/-! ## The references of a document -/

/-- Has an object a reference that is a text? -/
def hasReference (fields : Json.Fields) : Bool :=
  match Json.Fields.get? fields refKey with
  | some (.str _) => true
  | _ => false

mutual

/-- The places of all objects with a reference, outer ones before inner ones. What stands
    under the keyword itself is not looked into. -/
def sites : Json → List Json.Path
  | .arr items => itemSites 0 items
  | .obj fields => (if hasReference fields then [[]] else []) ++ fieldSites fields
  | _ => []

def itemSites (i : Nat) : List Json → List Json.Path
  | [] => []
  | v :: rest => (sites v).map (.index i :: ·) ++ itemSites (i + 1) rest

def fieldSites : List (String × Json) → List Json.Path
  | [] => []
  | (key, v) :: rest =>
    (if key == refKey then [] else (sites v).map (.key key :: ·)) ++ fieldSites rest

end

/-! ## Recording -/

/-- How a target is recorded. -/
def targetOf (document : Nat) (path : Json.Path) (v : Json) : Target :=
  match v with
  | .arr _ | .obj _ => .place document path
  | _ => .value v

/-- Record what a reference points at in the part of a document at `top`, and give its full
    form. -/
def record (document : Nat) (top : Json.Path) (url ref : String) : ResolveM String := do
  if Failure.isRemote ref then throw (.remoteReference ref)
  if !Pointer.isLocal ref then throw (.unsupportedReference ref)
  let full := url ++ ref
  let r ← get
  if r.knows full then return full
  let (path, v) ←
    MonadExcept.ofExcept (Pointer.follow ref (Pointer.segments ref) (r.read document top))
  let target := targetOf document (top ++ path) v
  modify fun r => { r with targets := Assoc.set r.targets full target }
  return full

/-- Put the full form of a reference in its place. -/
def qualify (r : Resolver) (document : Nat) (path : Json.Path) (full : String) : Resolver :=
  let change (v : Json) : Json := v.setChild (.key refKey) (.str full)
  { r with documents := r.documents.modify document fun doc => doc.modifyAt change path }

/-- Resolve the reference of the object at a place. One that is a full reference already is
    left as it is. -/
def resolveSite (document : Nat) (top : Json.Path) (url : String) (site : Json.Path) :
    ResolveM Unit := do
  let r ← get
  match (r.read document (top ++ site)).get? refKey with
  | some (.str ref) =>
    if !r.knows ref then
      let full ← record document top url ref
      modify fun r => r.qualify document (top ++ site) full
  | _ => pure ()

/-- Resolve every reference in the part of a document at `top`, which is what pointers start
    from. -/
def resolve (document : Nat) (top : Json.Path) (url : String) : ResolveM Unit := do
  let r ← get
  (sites (r.read document top)).forM (resolveSite document top url)

end Resolver

end SchemaGrammar
