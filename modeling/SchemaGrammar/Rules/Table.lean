import SchemaGrammar.Assoc
import SchemaGrammar.Rules.Catalog
import SchemaGrammar.Text.Digit

set_option autoImplicit false

/-! # The rules of a grammar under construction

A table holds rule bodies by name. Names come from places in a schema, so they are made
readable first; a body that is registered twice under one name is shared, and a different body
under the same name gets a number behind it. A name can be reserved before its body is known,
which is how a rule can refer to itself. Rules are never removed or changed. -/

namespace SchemaGrammar

structure RuleTable where
  /-- Bodies by name. -/
  rules : List (String × String)
  /-- The names that wait for their bodies. -/
  reserved : List String
  deriving Repr

/-- Work on a table that may fail; what was done before stays done. -/
abbrev TableM := EStateM Failure RuleTable

namespace RuleTable

/-- A new table has the rule for blanks. -/
def new : RuleTable :=
  ⟨[(Builtin.spaceName, Builtin.space)], []⟩

def find? (t : RuleTable) (name : String) : Option String :=
  t.rules.lookup name

def has (t : RuleTable) (name : String) : Bool :=
  (t.find? name).isSome

def size (t : RuleTable) : Nat :=
  t.rules.length

/-- The names of the rules in the order of their text. -/
def names (t : RuleTable) : List String :=
  Assoc.sortNames (t.rules.map Prod.fst)

/-! ## Names -/

/-- The characters that a rule's name keeps: letters, dashes and decimal digits. -/
def keepsInName (c : Char) : Bool :=
  Text.isDecimal c || ('A' ≤ c && c ≤ 'Z') || ('a' ≤ c && c ≤ 'z') || c = '-'

/-- One dash for each run of characters that are not kept; `inRun` tells whether such a run
    goes on. -/
def dashRuns (keep : Char → Bool) (inRun : Bool) : List Char → List Char
  | [] => []
  | c :: rest =>
    if keep c then c :: dashRuns keep false rest
    else if inRun then dashRuns keep true rest
    else '-' :: dashRuns keep true rest

/-- The name under which a rule can be stored. -/
def escapeName (name : String) : String :=
  String.ofList (dashRuns keepsInName false name.toList)

/-- A name with a number behind it. -/
def numbered (name : String) (i : Nat) : String :=
  name ++ natText i

/-- Can a body be stored under a name, because nothing or the same body is there? -/
def isFreeFor (t : RuleTable) (name body : String) : Bool :=
  !t.reserved.contains name && (match t.find? name with
    | some other => other == body
    | none => true)

/-- Is a name neither defined nor reserved? -/
def isUnused (t : RuleTable) (name : String) : Bool :=
  !t.reserved.contains name && !t.has name

/-- The least number whose slot passes the test. There are more numbers to try than names in
    the table, so one of them is free. -/
def leastIndex (t : RuleTable) (free : Nat → Bool) : Nat :=
  let count := t.rules.length + t.reserved.length
  ((List.range (count + 1)).find? free).getD count

/-! ## Adding rules -/

/-- Store a body; a name that waits for its body is done waiting. -/
def put (t : RuleTable) (name body : String) : RuleTable :=
  ⟨Assoc.set t.rules name body, t.reserved.filter (· != name)⟩

/-- Register a rule. The result has the name that it is stored under. -/
def add (t : RuleTable) (name body : String) : String × RuleTable :=
  let base := escapeName name
  if t.reserved.contains base then (base, t.put base body)
  else match t.find? base with
    | none => (base, t.put base body)
    | some other =>
      if other == body then (base, t)
      else
        let slot := numbered base (t.leastIndex fun i => t.isFreeFor (numbered base i) body)
        (slot, t.put slot body)

/-- Claim an unused name before its body is known. -/
def reserve (t : RuleTable) (name : String) : String × RuleTable :=
  let base := escapeName name
  let slot :=
    if t.isUnused base then base
    else numbered base (t.leastIndex fun i => t.isUnused (numbered base i))
  (slot, { t with reserved := slot :: t.reserved })

/-- Give back a claimed name that was never filled. -/
def release (t : RuleTable) (name : String) : RuleTable :=
  { t with reserved := t.reserved.filter (· != name) }

/-! ## Built-in rules -/

/-- Register a rule. -/
def addRule (name body : String) : TableM String :=
  modifyGet fun t => t.add name body

/-- Register a built-in rule and all that it needs. Each round of the recursion defines a rule
    of the catalog that was not defined before, so `depth` need not be above its size. -/
def addBuiltinFrom : Nat → String → Builtin → TableM String
  | 0, _, _ => throw .endless
  | depth + 1, name, rule => do
    let stored ← addRule name rule.body
    rule.needs.forM fun need => do
      let needed ← MonadExcept.ofExcept (Builtin.get need)
      match (← get).find? need with
      | none => let _ ← addBuiltinFrom depth need needed
      | some body => if body != needed.body then throw (.builtinTaken need)
    return stored

def addBuiltin (name : String) (rule : Builtin) : TableM String :=
  addBuiltinFrom (Builtin.catalog.length + 2) name rule

/-- Register the built-in rule `builtin` under a name. -/
def addNamed (name builtin : String) : TableM String := do
  addBuiltin name (← MonadExcept.ofExcept (Builtin.get builtin))

/-! ## Text -/

/-- The grammar text: a line for each rule, in the order of their names. -/
def text (t : RuleTable) : String :=
  String.join (t.names.map fun name => name ++ " ::= " ++ (t.find? name).getD "" ++ "\n")

end RuleTable

end SchemaGrammar
