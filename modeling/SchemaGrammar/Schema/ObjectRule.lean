import SchemaGrammar.Grammar.Literal
import SchemaGrammar.Schema.Options
import SchemaGrammar.Schema.Session

set_option autoImplicit false

/-! # Rules for objects

Required properties stand in front in a fixed order. Optional ones follow in their order, each
of them present or not: for every optional key but the last there is a rule for the keys behind
it, which may be missing one by one. Additional properties are a last optional entry that may
repeat, whose keys are any strings but the declared names. -/

namespace SchemaGrammar

namespace Schema

open Session

/-- A way to compile a schema under a name, as the builders of rules use it. -/
abbrev Visit := Json → String → CompileM String

/-- A name below another one. -/
def subName (name suffix : String) : String :=
  if name.isEmpty then suffix else name ++ "-" ++ suffix

/-- A value as a literal. -/
def constant (v : Json) : String :=
  Grammar.literalText v.compact

/-- An optional entry of an object: the key that names the rule for what follows it, the rule
    of its pair, and whether it may repeat. -/
structure Entry where
  key : String
  pair : String
  repeats : Bool

/-- The first of some entries and, by a rule of its own, those behind it. `present` tells
    whether the first one has to be there. -/
def entriesFrom (name : String) (present : Bool) : List Entry → CompileM String
  | [] => return ""
  | entry :: rest => do
    let more := "( \",\" space " ++ entry.pair ++ " )"
    let first :=
      if present then entry.pair ++ (if entry.repeats then " " ++ more ++ "*" else "")
      else more ++ (if entry.repeats then "*" else "?")
    if rest.isEmpty then return first
    else
      let following ← entriesFrom name false rest
      let rule ← addRule (subName name (entry.key ++ "-rest")) following
      return first ++ " " ++ rule

/-- The entries that a list starts with, for each place to start at. -/
def startings (name : String) : List Entry → CompileM (List String)
  | [] => return []
  | entry :: rest => do
    let here ← entriesFrom name true (entry :: rest)
    return here :: (← startings name rest)

/-- The rule of a property's pair. -/
def pairRule (visit : Visit) (name : String) (property : String × Json) : CompileM String := do
  let (key, schema) := property
  let valueRule ← visit schema (subName name key)
  addRule (subName name (key ++ "-kv"))
    (constant (.str key) ++ " space \":\" space " ++ valueRule)

/-- The rules of all pairs by key; a key that is declared again keeps its last pair. -/
def pairRules (visit : Visit) (name : String) :
    List (String × Json) → List (String × String) → CompileM (List (String × String))
  | [], done => return done
  | property :: rest, done => do
    let rule ← pairRule visit name property
    pairRules visit name rest (Assoc.set done property.1 rule)

/-- The entry for additional properties, if they are allowed. -/
def additionalEntry (visit : Visit) (name : String) (keys : List String) (allowed : Json) :
    CompileM (List Entry) := do
  let base := subName name "additional"
  let entry (valueRule : String) : CompileM (List Entry) := do
    let keyRule ←
      if keys.isEmpty then addNamed "string" "string"
      else
        let body ← onTable (Exclusion.bodyFor (keys.map Json.str))
        addRule (base ++ "-k") body
    let pair ← addRule (base ++ "-kv") (keyRule ++ " \":\" space " ++ valueRule)
    return [⟨"*", pair, true⟩]
  match allowed with
  | .bool true => entry (← addNamed "value" "value")
  | .obj [] => entry (← addNamed "value" "value")
  | .obj fields => entry (← visit (.obj fields) (base ++ "-value"))
  | _ => return []

/-- The optional part of an object's body. -/
def optionalPart (name : String) (hasRequired : Bool) (entries : List Entry) :
    CompileM String := do
  if entries.isEmpty then return ""
  else
    let choices := " | ".intercalate (← startings name entries)
    let inner := if hasRequired then " \",\" space ( " ++ choices ++ " )" else choices
    return " (" ++ inner ++ " )?"

/-- The body of an object's rule, from its properties in the order of declaration, the names
    that are required, and what is said about additional properties. -/
def objectBody (visit : Visit) (options : Options) (name : String)
    (properties : List (String × Json)) (required : List String) (additional : Json) :
    CompileM String := do
  let keys ← orFail (options.sortProperties (Assoc.ofPairs properties |>.map Prod.fst))
  let pairs ← pairRules visit name properties []
  let pairOf (key : String) : String := (pairs.lookup key).getD ""
  let first := keys.filter required.contains
  let optional := (keys.filter fun key => !required.contains key).map fun key =>
    (⟨key, pairOf key, false⟩ : Entry)
  let extra ← additionalEntry visit name keys additional
  let rest ← optionalPart name (!first.isEmpty) (optional ++ extra)
  return "\"\x7b\" space " ++ " \",\" space ".intercalate (first.map pairOf) ++ rest
    ++ " \"\x7d\" space"

end Schema

end SchemaGrammar
