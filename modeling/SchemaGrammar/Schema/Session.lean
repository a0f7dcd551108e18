import SchemaGrammar.Exclusion.Expression
import SchemaGrammar.Pattern.Rule
import SchemaGrammar.Reference.Resolver
import SchemaGrammar.Schema.Access

set_option autoImplicit false

/-! # The state of a compilation

A compilation fills a table of rules, reads the targets of references and remembers the rule
that each reference has led to. When it fails, what it did before stays done. -/

namespace SchemaGrammar

/-- What happens to a reference. -/
inductive Event where
  /-- It claims a name, and its target is compiled next. -/
  | claimed (ref name : String)
  /-- Its target is compiled and has this rule. -/
  | settled (ref rule : String)
  /-- The rule `name`, which stands for it, leads to `rule`. -/
  | linked (ref name rule : String)
  deriving Repr, DecidableEq

structure Session where
  table : RuleTable
  resolver : Resolver
  /-- The rules of full references. -/
  ruleNames : List (String × String)
  /-- The log of references, the latest event first. -/
  history : List Event

/-- Work of a compilation. -/
abbrev CompileM := EStateM Failure Session

namespace Session

def new (documents : List Json) : Session :=
  ⟨.new, .new documents, [], []⟩

/-- Work on the table as part of a compilation. -/
def onTable {α : Type} (work : TableM α) : CompileM α := fun s =>
  match work s.table with
  | .ok a table => .ok a { s with table := table }
  | .error e table => .error e { s with table := table }

/-- Work on references as part of a compilation. -/
def onResolver {α : Type} (work : ResolveM α) : CompileM α := fun s =>
  match work s.resolver with
  | .ok a resolver => .ok a { s with resolver := resolver }
  | .error e resolver => .error e { s with resolver := resolver }

/-- A value, or the failure to get it. -/
def orFail {α : Type} (x : Except Failure α) : CompileM α :=
  MonadExcept.ofExcept x

/-- Register a rule. -/
def addRule (name body : String) : CompileM String :=
  onTable (RuleTable.addRule name body)

/-- Register a built-in rule under a name. -/
def addNamed (name builtin : String) : CompileM String :=
  onTable (RuleTable.addNamed name builtin)

/-- Claim the name of a rule. -/
def reserve (name : String) : CompileM String :=
  onTable (modifyGet fun t => t.reserve name)

/-- Give a claimed name back. -/
def release (name : String) : CompileM Unit :=
  onTable (modify fun t => t.release name)

/-- Remember the rule of a reference. -/
def nameReference (ref name : String) : CompileM Unit :=
  modify fun s => { s with ruleNames := Assoc.set s.ruleNames ref name }

/-- Log what happens to a reference. -/
def note (event : Event) : CompileM Unit :=
  modify fun s => { s with history := event :: s.history }

/-- What a reference points at. -/
def target (ref : Json) : CompileM Json := do
  orFail (Schema.checkKey ref)
  match ref with
  | .str r => match (← get).resolver.find? r with
    | some v => return v
    | none => throw (Failure.unresolvedReference ref).raised
  | _ => throw (Failure.unresolvedReference ref).raised

end Session

end SchemaGrammar
