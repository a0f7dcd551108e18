import SchemaGrammar.Grammar.Node
import SchemaGrammar.Grammar.Token

set_option autoImplicit false

/-! # Reading grammars

The reader takes the tokens of a grammar one by one. Groups that are still open wait on a stack
with what was read before them, so that reading is one pass over the tokens and every failure is
the leftmost one. A rule ends at a line break outside groups. -/

namespace SchemaGrammar

namespace Grammar

/-- The part of a rule's body read so far, the latest first. -/
structure Draft where
  branches : List Node
  items : List Node

namespace Draft

def empty : Draft := ⟨[], []⟩

def push (p : Draft) (node : Node) : Draft :=
  { p with items := node :: p.items }

/-- The items of the current branch as one node; a single item stands for itself. -/
def sequence (p : Draft) : Node :=
  match p.items.reverse with
  | [node] => node
  | nodes => .seq nodes

/-- Start a new branch. -/
def nextBranch (p : Draft) : Draft :=
  ⟨p.sequence :: p.branches, []⟩

/-- All branches as one node; a single branch stands for itself. -/
def node (p : Draft) : Node :=
  match (p.sequence :: p.branches).reverse with
  | [node] => node
  | nodes => .alt nodes

end Draft

/-- A group that is still open: where it starts, and what was read before it. -/
structure Group where
  start : Nat
  before : Draft

/-- A rule whose body is being read. -/
structure Body where
  name : String
  current : Draft
  /-- The open groups, the innermost first. -/
  groups : List Group
  /-- Does an item end right here, so that a repetition may follow? -/
  repeatable : Bool

/-- What the reader waits for. -/
inductive Stage where
  /-- The name of the next rule. -/
  | between
  /-- The sign behind a rule's name, which starts at `start`. -/
  | named (name : String) (start : Nat)
  | inside (body : Body)

structure State where
  /-- The finished rules, the latest first. -/
  done : Grammar
  stage : Stage

namespace Body

def start (name : String) : Body :=
  ⟨name, .empty, [], false⟩

/-- Add an item that a repetition may follow. -/
def item (b : Body) (node : Node) : Body :=
  { b with current := b.current.push node, repeatable := true }

/-- Repeat the latest item. -/
def again (b : Body) (min : Int) (max : Option Int) : Body :=
  match b.current.items with
  | last :: rest => { b with current := { b.current with items := .rep last min max :: rest } }
  | [] => b

end Body

/-- Take the next token of a rule's body. -/
def bodyStep (done : Grammar) (b : Body) (x : Lexeme) : Except Failure State :=
  let goOn (b : Body) : Except Failure State := .ok ⟨done, .inside b⟩
  let refuse : Except Failure State := .error (.grammar (.unexpected x.head) (some x.offset))
  match x.token with
  | .blank => goOn { b with repeatable := false }
  | .lineBreak =>
    if b.groups.isEmpty then .ok ⟨(b.name, b.current.node) :: done, .between⟩
    else goOn { b with repeatable := false }
  | .name text => goOn (b.item (.rule text))
  | .literal text => goOn (b.item (.literal text))
  | .charClass negated ranges => goOn (b.item (.charClass negated ranges))
  | .groupOpen =>
    goOn { b with
      current := .empty, groups := ⟨x.offset, b.current⟩ :: b.groups, repeatable := false }
  | .groupClose =>
    match b.groups with
    | group :: groups =>
      goOn (Body.item { b with current := group.before, groups := groups } b.current.node)
    | [] => refuse
  | .bar => goOn { b with current := b.current.nextBranch, repeatable := false }
  | .times min max => if b.repeatable then goOn (b.again min max) else refuse
  | .define => refuse
  | .stray => refuse
  | .broken failure =>
    if x.head = '\x7b' && !b.repeatable then refuse else .error failure

/-- Take the next token. -/
def step (s : State) (x : Lexeme) : Except Failure State :=
  match s.stage with
  | .between =>
    match x.token with
    | .blank | .lineBreak => .ok s
    | .name text => .ok { s with stage := .named text x.offset }
    | _ => .error (.grammar .expectedName (some x.offset))
  | .named name start =>
    match x.token with
    | .blank => .ok s
    | .define =>
      if has s.done name then .error (.grammar (.duplicateRule name) (some start))
      else .ok { s with stage := .inside (.start name) }
    | _ => .error (.grammar .expectedDefine (some x.offset))
  | .inside body => bodyStep s.done body x

/-- The rules in order when the text ends at `offset`. -/
def finish (s : State) (offset : Nat) : Except Failure Grammar :=
  match s.stage with
  | .between => .ok s.done.reverse
  | .named _ _ => .error (.grammar .expectedDefine (some offset))
  | .inside body =>
    match body.groups with
    | group :: _ => .error (.grammar .expectedClose (some group.start))
    | [] => .ok ((body.name, body.current.node) :: s.done).reverse

/-- Every rule that a body refers to has to be defined. -/
def checkReferences (g : Grammar) : Except Failure Unit :=
  match (g.flatMap fun (_, body) => body.ruleNames).find? fun name => !g.has name with
  | some name => .error (.grammar (.undefinedRule name) none)
  | none => .ok ()

/-- The grammar that a text holds. -/
def ofText (text : String) : Except Failure Grammar := do
  let s ← (lexemes text).foldlM step ⟨[], .between⟩
  let g ← finish s text.toList.length
  checkReferences g
  return g

end Grammar

end SchemaGrammar
