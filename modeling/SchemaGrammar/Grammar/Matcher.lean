import Std.Data.HashMap
import SchemaGrammar.Failure
import SchemaGrammar.Grammar.Node

set_option autoImplicit false

/-! # Does a text belong to a grammar?

Matching a node at an offset gives every offset at which a match can end, so that ambiguity
needs no search. What a rule gives at an offset is remembered. A rule that comes back to itself
at the same offset finds nothing there, which ends left recursion.

The offsets of a set have no order of their own, so matching is defined for any order in which
they are gone through; a text is checked in ascending order. -/

namespace SchemaGrammar

namespace Grammar

/-! ## Sets of offsets -/

/-- Offsets in ascending order, each once. -/
abbrev Offsets := List Nat

namespace Offsets

def insert (x : Nat) : Offsets → Offsets
  | [] => [x]
  | y :: rest =>
    if x < y then x :: y :: rest
    else if x = y then y :: rest
    else y :: insert x rest

def union (xs ys : Offsets) : Offsets :=
  xs.foldl (fun acc x => insert x acc) ys

/-- The offsets of the first set that are not in the second. -/
def without (xs ys : Offsets) : Offsets :=
  xs.filter fun x => !ys.contains x

end Offsets

/-- The order in which sets of offsets are gone through. Each set of a run, numbered by `turn`,
    may be arranged in its own way. -/
structure Order where
  arrange : Nat → Offsets → Offsets
  perm : ∀ turn xs, (arrange turn xs).Perm xs

/-- The order of the offsets themselves. -/
def Order.ascending : Order :=
  ⟨fun _ xs => xs, fun _ _ => .refl _⟩

/-! ## Matching -/

/-- What is known while one text is matched. -/
structure Memory where
  /-- Where a rule can end that starts at an offset. -/
  ends : Std.HashMap (String × Nat) Offsets
  /-- The furthest offset at which a literal or a class has ended. -/
  furthest : Nat
  /-- How many sets of offsets have been gone through. -/
  turn : Nat

abbrev MatchM := StateM Memory

/-- A literal or class that ends at `stop`. -/
def reach (stop : Nat) : MatchM Offsets := do
  modify fun m => { m with furthest := max m.furthest stop }
  return [stop]

/-- Do the characters from an offset on start with the given code points? -/
def startsAt (text : Array Char) (offset : Nat) : List Nat → Bool
  | [] => true
  | code :: rest =>
    match text[offset]? with
    | some c => c.toNat == code && startsAt text (offset + 1) rest
    | none => false

/-- Every end of a step that starts at one of the offsets. -/
def fromEach (order : Order) (visit : Nat → MatchM Offsets) (starts : Offsets) :
    MatchM Offsets := do
  let m ← get
  set { m with turn := m.turn + 1 }
  (order.arrange m.turn starts).foldlM (fun acc start => return acc.union (← visit start)) []

/-- May a repetition go on after so many rounds? -/
def mayGoOn (max : Option Int) (count : Nat) : Bool :=
  match max with
  | some most => (count : Int) < most
  | none => true

/-- The ends of a repetition. `current` are the ends after `count` rounds and `found` the ends
    that count. An offset that was found in an earlier round cannot lead to new ones, as fewer
    rounds only leave more to come; before the least count every offset stays. `rounds` bounds
    the loop. -/
def repeatFrom (order : Order) (visit : Nat → MatchM Offsets) (min : Int) (max : Option Int) :
    Nat → Nat → Offsets → Offsets → MatchM Offsets
  | 0, _, _, found => return found
  | rounds + 1, count, current, found => do
    if current.isEmpty || !mayGoOn max count then return found
    else
      let next ← fromEach order visit current
      if min ≤ count + 1 then
        let new := next.without found
        repeatFrom order visit min max rounds (count + 1) new (new.union found)
      else repeatFrom order visit min max rounds (count + 1) next found

section

variable (order : Order) (text : Array Char)

mutual

/-- The ends of a node that starts at `offset`; `call` gives those of a rule. -/
def matchNode (call : String → Nat → MatchM Offsets) : Node → Nat → MatchM Offsets
  | .literal codes, offset =>
    if startsAt text offset codes then reach (offset + codes.length) else return []
  | .charClass negated ranges, offset =>
    match text[offset]? with
    | some c =>
      if Node.classHolds negated ranges c.toNat then reach (offset + 1) else return []
    | none => return []
  | .rule name, offset => call name offset
  | .seq items, offset => matchSeq call items [offset]
  | .alt branches, offset => matchAlt call branches offset []
  | .rep node min max, offset =>
    repeatFrom order (matchNode call node) min max (min.toNat + text.size + 2) 0 [offset]
      (if min = 0 then [offset] else [])

/-- The ends of items in a row that start at any of the offsets. -/
def matchSeq (call : String → Nat → MatchM Offsets) : List Node → Offsets → MatchM Offsets
  | [], starts => return starts
  | node :: rest, starts => do
    let ends ← fromEach order (matchNode call node) starts
    if ends.isEmpty then return [] else matchSeq call rest ends

/-- The ends of all branches, added to those found so far. -/
def matchAlt (call : String → Nat → MatchM Offsets) :
    List Node → Nat → Offsets → MatchM Offsets
  | [], _, found => return found
  | node :: rest, offset, found => do
    let ends ← matchNode call node offset
    matchAlt call rest offset (found.union ends)

end

/-- The ends of a rule that starts at `offset`. While its body is matched the rule is held to
    end nowhere, so calls nest at most once for each rule and offset; `depth` allows for that
    many. -/
def matchRule (g : Grammar) : Nat → String → Nat → MatchM Offsets
  | 0, _, _ => return []
  | depth + 1, name, offset => do
    match (← get).ends[(name, offset)]? with
    | some ends => return ends
    | none =>
      match g.find? name with
      | none => return []
      | some body =>
        modify fun m => { m with ends := m.ends.insert (name, offset) [] }
        let ends ← matchNode order text (matchRule g depth) body offset
        modify fun m => { m with ends := m.ends.insert (name, offset) ends }
        return ends

end

/-! ## Checking a text -/

/-- The outcome for one text. -/
structure Verdict where
  accepted : Bool
  text : String
  /-- The length of an accepted text; else the furthest offset that was reached, at or right
      behind which the fault lies. -/
  furthest : Nat
  deriving Repr

/-- The text around the furthest offset. -/
def Verdict.context (v : Verdict) : String :=
  let start := v.furthest - 20
  String.ofList ((v.text.toList.take (v.furthest + 20)).drop start)

/-- Match the whole text against a rule, going through sets of offsets in the given order. -/
def checkIn (order : Order) (g : Grammar) (text : String) (rule : String) :
    Except Failure Verdict :=
  if g.has rule then
    let chars := text.toList.toArray
    let depth := g.length * (chars.size + 1) + 1
    let (ends, memory) := (matchRule order chars g depth rule 0).run ⟨∅, 0, 0⟩
    let accepted := ends.contains chars.size
    .ok ⟨accepted, text, if accepted then chars.size else memory.furthest⟩
  else .error (.grammar (.undefinedRule rule) none)

/-- Match the whole text against a rule. -/
def check (g : Grammar) (text : String) (rule : String) : Except Failure Verdict :=
  checkIn .ascending g text rule

/-- The rule that a grammar starts with. -/
def startRule : String := "root"

end Grammar

end SchemaGrammar
