import SchemaGrammar.Grammar.Repetition
import SchemaGrammar.Pattern.Token
import SchemaGrammar.Rules.Table

set_option autoImplicit false

/-! # From a pattern to a rule

A pattern has to be anchored at both ends. Its tokens are taken one by one; the groups that are
still open wait on a stack. What a quantifier with counts repeats becomes a rule of its own, once
for each expression, so that large expressions are not written out several times. The rules that
were added before a fault is met stay in the table. -/

namespace SchemaGrammar

namespace Pattern

/-- A piece of grammar text; a literal stands without its quotes. -/
structure Fragment where
  text : String
  isLiteral : Bool
  deriving Repr, DecidableEq

def Fragment.rule (f : Fragment) : String :=
  if f.isLiteral then "\"" ++ f.text ++ "\"" else f.text

/-- The sign between two alternatives. -/
def Fragment.bar : Fragment := ⟨"|", false⟩

/-- Join literals that stand next to each other. -/
def joinLiterals : List Fragment → List Fragment
  | [] => []
  | f :: rest =>
    match joinLiterals rest with
    | g :: more =>
      if f.isLiteral && g.isLiteral then ⟨f.text ++ g.text, true⟩ :: more else f :: g :: more
    | [] => [f]

/-- Fragments in a row as one; a single literal stays a literal. -/
def joinFragments (fs : List Fragment) : Fragment :=
  match joinLiterals fs with
  | [f] => f
  | gs => ⟨" ".intercalate (gs.map Fragment.rule), false⟩

/-- A row of fragments that is being read: where it starts, and what it has so far, the latest
    first. -/
structure Row where
  start : Nat
  fragments : List Fragment

namespace Row

def push (r : Row) (f : Fragment) : Row :=
  { r with fragments := f :: r.fragments }

def join (r : Row) : Fragment :=
  joinFragments r.fragments.reverse

end Row

structure State where
  row : Row
  /-- The rows around the open groups, the innermost first. -/
  outer : List Row
  /-- The expressions that have a rule of their own, with its name. -/
  parts : List (String × String)

/-- What is made into a rule: the pattern without its anchors, the name of its rule, and
    whether a dot matches line ends. -/
structure Job where
  source : String
  name : String
  dotAll : Bool

namespace Job

def fault (job : Job) (fault : PatternFault) (index : Nat) : Failure :=
  .pattern fault job.source (some index)

/-- What a dot stands for. -/
def dot (job : Job) : String :=
  if job.dotAll then "[\\U00000000-\\U0010FFFF]" else "[^\\x0A\\x0D]"

/-- The latest fragment, if there is something to repeat. -/
def repeated (job : Job) (s : State) (index : Nat) : TableM (Fragment × List Fragment) :=
  match s.row.fragments with
  | f :: rest =>
    if f = .bar then throw (job.fault .nothingToRepeat index) else return (f, rest)
  | [] => throw (job.fault .nothingToRepeat index)

/-- The rule for an expression that is repeated by count. -/
def part (job : Job) (s : State) (text : String) : TableM (String × State) :=
  match s.parts.lookup text with
  | some name => return (name, s)
  | none => do
    let name ← RuleTable.addRule (job.name ++ "-" ++ natText (s.parts.length + 1)) text
    return (name, { s with parts := s.parts ++ [(text, name)] })

/-- A count as a value. -/
def countValue (n : Int) : Json := .num (.whole n)

/-- Repeat the latest fragment by count. -/
def repeatCounted (job : Job) (s : State) (index : Nat) (low : Int) (high : Option Int) :
    TableM State := do
  let (f, rest) ← job.repeated s index
  let (item, s) ← if f.isLiteral then pure (f.rule, s) else job.part s f.text
  let most := match high with
    | some n => countValue n
    | none => .null
  let text ← MonadExcept.ofExcept (Grammar.repetition item (countValue low) most)
  return { s with row := { s.row with fragments := ⟨text, false⟩ :: rest } }

/-- Take the next token. -/
def step (job : Job) (s : State) (x : Lexeme) : TableM State :=
  let push (text : String) (isLiteral : Bool) : State :=
    { s with row := s.row.push ⟨text, isLiteral⟩ }
  match x.token with
  | .dot => do return push (← RuleTable.addRule "dot" job.dot) false
  | .groupOpen => return { s with row := ⟨x.stop, []⟩, outer := s.row :: s.outer }
  | .extension => throw (job.fault (.unsupported "?") x.stop)
  | .groupClose =>
    match s.outer with
    | row :: outer =>
      return { s with row := row.push ⟨"(" ++ s.row.join.rule ++ ")", false⟩, outer := outer }
    | [] => throw (job.fault (.unbalanced "parentheses" s.row.start) x.stop)
  | .charClass text => return push text false
  | .openClass => throw (job.fault (.unbalanced "square brackets" s.row.start) x.stop)
  | .bar => return { s with row := s.row.push .bar }
  | .quantifier mark => do
    let (f, rest) ← job.repeated s x.start
    return { s with row := { s.row with fragments := ⟨f.rule.push mark, false⟩ :: rest } }
  | .counts low high => job.repeatCounted s x.start low high
  | .openBraces => do
    let _ ← job.repeated s x.start
    throw (job.fault (.unbalanced "curly brackets" s.row.start) x.stop)
  | .badCounts body => do
    let _ ← job.repeated s x.start
    throw (job.fault (.quantifier body) x.stop)
  | .literal text => return push text true
  | .broken fault => throw (job.fault fault x.stop)

/-- The expression for the whole pattern. -/
def expression (job : Job) : TableM String := do
  let cs := job.source.toList
  let s ← (lexemes cs).foldlM job.step ⟨⟨0, []⟩, [], []⟩
  if s.outer.isEmpty then return s.row.join.rule
  else throw (job.fault (.unbalanced "parentheses" s.row.start) cs.length)

end Job

/-- The pattern between its anchors. -/
def unanchored? (pattern : String) : Option String :=
  match pattern.toList with
  | '^' :: rest => if rest.getLast? = some '$' then some (String.ofList rest.dropLast) else none
  | _ => none

/-- Add a rule for the JSON strings that an anchored pattern describes. -/
def toRule (pattern name : String) (dotAll : Bool) : TableM String := do
  match unanchored? pattern with
  | none => throw (.pattern .unanchored pattern none)
  | some source =>
    let body ← Job.expression ⟨source, name, dotAll⟩
    RuleTable.addRule name ("\"\\\"\" (" ++ body ++ ") \"\\\"\" space")

end Pattern

end SchemaGrammar
