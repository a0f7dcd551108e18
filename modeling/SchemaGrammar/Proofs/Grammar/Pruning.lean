import Mathlib.Data.Set.Lattice
import Mathlib.Logic.Function.Iterate
import SchemaGrammar.Proofs.Grammar.Recognition

set_option autoImplicit false

/-! # Rounds of a repetition

A repetition goes on only from offsets that no round since its least count has found before. Its
ends are still those of the rounds taken in full: every offset that some number of rounds within
the counts leads to (`rep_ends_eq_iUnion`). The item may be any node whose ends at an offset are
the same whenever it is matched there (`HasEnds`). -/

namespace SchemaGrammar

namespace Grammar

/-! ## Rounds taken in full -/

/-- Where one round ends that starts from all offsets of a set. -/
def roundFrom (f : Nat → Set Nat) (starts : Set Nat) : Set Nat :=
  ⋃ q ∈ starts, f q

variable {f : Nat → Set Nat}

/-- So many rounds lead where so many steps do. -/
theorem mem_rounds_iff {count : Nat} {starts : Set Nat} {j : Nat} :
    j ∈ (roundFrom f)^[count] starts ↔ ∃ i ∈ starts, Steps (fun q e => e ∈ f q) count i j := by
  induction count generalizing starts with
  | zero => simp [Steps]
  | succ count ih =>
    rw [Function.iterate_succ_apply, ih]
    simp only [roundFrom, Set.mem_iUnion, exists_prop]
    constructor
    · rintro ⟨k, ⟨i, hi, hk⟩, h⟩
      exact ⟨i, hi, k, hk, h⟩
    · rintro ⟨i, hi, k, hk, h⟩
      exact ⟨k, ⟨i, hi, hk⟩, h⟩

/-! ## Items with settled ends -/

/-- Whenever `visit` starts at an offset of a text, it ends at the same offsets, and these lie
    between there and the end of the text. `I` is what holds of the memory all the while. -/
structure HasEnds (size : Nat) (I : Memory → Prop) (f : Nat → Set Nat)
    (visit : Nat → MatchM Offsets) : Prop where
  ends : ∀ q ≤ size, ∀ m, I m → I (visit q m).2 ∧ ∀ j, j ∈ (visit q m).1 ↔ j ∈ f q
  bounds : ∀ q j, q ≤ size → j ∈ f q → q ≤ j ∧ j ≤ size

section HasEnds

variable {size : Nat} {I : Memory → Prop} {visit : Nat → MatchM Offsets}

theorem HasEnds.gives (h : HasEnds size I f visit) {q : Nat} (hq : q ≤ size) :
    Gives True I (· ∈ f q) (visit q) := by
  intro m hm
  obtain ⟨hm', hends⟩ := h.ends q hq m hm
  exact ⟨hm', fun j hj => (hends j).1 hj, fun _ j hj => (hends j).2 hj⟩

/-- While no rule is being matched, every node of a grammar without left recursion has the ends
    that it derives, whatever of the rules is remembered. -/
theorem hasEnds_node {g : Grammar} {order : Order} {text : Array Char} {node : Node}
    (hnat : g.hasNaturalCounts = true) (hleft : ¬ LeftRecursive g)
    (hnode : node.hasNaturalCounts = true) (depth : Nat) :
    HasEnds text.size (Sane g text True ∅ depth) (fun q => {j | Spans g text.toList node q j})
      (matchNode order text (matchRule order text g depth) node) := by
  have hclear (other : Node) (q : Nat) : Clear g ∅ other q := fun _ _ hopen => hopen.elim
  refine ⟨fun q hq m hm => ?_, fun q j hq hj => ⟨hj.le, ?_⟩⟩
  · obtain ⟨hm', hsound, hcomplete⟩ := matchNode_gives aboutEnds_sane
      (matchRule_gives hnat (fun _ => hleft) depth ∅) node q hnode hq (fun _ => hclear node q) m hm
    exact ⟨hm', fun j => ⟨hsound j, hcomplete trivial j⟩⟩
  · simpa using hj.le_length (by simpa using hq)

end HasEnds

/-! ## Repetitions -/

/-- **Leaving out what was found before loses no end.** If the ends of the item are settled, a
    repetition that starts at an offset of the text ends exactly where a number of rounds within
    its counts leads, each taken in full. -/
theorem rep_ends_eq_iUnion (order : Order) (text : Array Char)
    (call : String → Nat → MatchM Offsets) (node : Node) {I : Memory → Prop} (hI : AboutEnds I)
    (hnode : HasEnds text.size I f (matchNode order text call node)) (min : Nat)
    (max : Option Nat) {p : Nat} (hp : p ≤ text.size) {m : Memory} (hm : I m) :
    {j | j ∈ (matchNode order text call (.rep node min (max.map Int.ofNat)) p m).1} =
      ⋃ count ∈ {count : Nat | min ≤ count ∧ ∀ n ∈ max, count ≤ n}, (roundFrom f)^[count] {p} := by
  have hgives : Gives True I
      (Repeated (fun q j => j ∈ f q) (min : Int) (max.map Int.ofNat) p)
      (matchNode order text call (.rep node min (max.map Int.ofNat)) p) := by
    rw [matchNode]
    refine Gives.repeatFrom hI hnode.bounds hp (fun _ count x hsteps => ?_) (by omega) ?_
    · exact hnode.gives (Steps.bounds hnode.bounds hp hsteps).2
    · intro n hn
      obtain ⟨most, -, rfl⟩ := Option.map_eq_some_iff.1 (Option.mem_def.1 hn)
      exact Int.natCast_nonneg most
  obtain ⟨-, hsound, hcomplete⟩ := hgives m hm
  ext j
  simp only [Set.mem_ofPred_eq, Set.mem_iUnion, exists_prop, mem_rounds_iff,
    Set.mem_singleton_iff, exists_eq_left]
  constructor
  · intro hj
    obtain ⟨count, hmin, hmax, hsteps⟩ := hsound j hj
    refine ⟨count, ⟨by omega, fun n hn => ?_⟩, hsteps⟩
    exact Int.ofNat_le.1 (hmax n (Option.mem_map_of_mem Int.ofNat hn))
  · rintro ⟨count, ⟨hmin, hmax⟩, hsteps⟩
    refine hcomplete trivial j ⟨count, by omega, fun n hn => ?_, hsteps⟩
    obtain ⟨most, hmost, rfl⟩ := Option.map_eq_some_iff.1 (Option.mem_def.1 hn)
    have hle := hmax most (Option.mem_def.2 hmost)
    exact Int.ofNat_le.2 hle

/-- The grammar `item ::= ("" | "a")`. -/
def maybeLetter : Grammar :=
  [("item", .alt [.literal [], .literal [97]])]

/-- Rounds that may take nothing come back to offsets that were found before. -/
theorem rep_ends_maybeLetter :
    {j | j ∈ (matchNode .ascending #['a', 'a', 'b']
      (matchRule .ascending #['a', 'a', 'b'] maybeLetter 5)
      (.rep (.rule "item") 1 (some 2)) 0 ⟨∅, 0, 0⟩).1} = {j | j ≤ 2} := by
  have hleft : ¬ LeftRecursive maybeLetter := by
    refine not_leftRecursive_of_rank (fun _ => 0) ?_
    rintro a b ⟨body, hbody, hleads⟩
    simp only [maybeLetter, find?, List.lookup_cons, List.lookup_nil] at hbody
    split at hbody
    · obtain rfl := Option.some.inj hbody
      have hb := mem_ruleNames_of_leads hleads
      simp [Node.ruleNames, Node.ruleNamesOf] at hb
    · cases hbody
  have hstarts (q : Nat) : startsAt #['a', 'a', 'b'] q [97] = true ↔ q < 2 := by
    obtain _ | _ | _ | q := q
    · decide
    · decide
    · decide
    · simp [startsAt]
  have hnothing (q j : Nat) : Spans maybeLetter ['a', 'a', 'b'] (.literal []) q j ↔ j = q :=
    (@spans_literal_iff maybeLetter #['a', 'a', 'b'] [] q j).trans (by simp [startsAt])
  have hletter (q j : Nat) :
      Spans maybeLetter ['a', 'a', 'b'] (.literal [97]) q j ↔ q < 2 ∧ j = q + 1 :=
    (@spans_literal_iff maybeLetter #['a', 'a', 'b'] [97] q j).trans (by rw [hstarts]; rfl)
  have hfind : maybeLetter.find? "item" = some (.alt [.literal [], .literal [97]]) := rfl
  have hitem (q j : Nat) : Spans maybeLetter ['a', 'a', 'b'] (.rule "item") q j ↔
      j = q ∨ q < 2 ∧ j = q + 1 := by
    simp [spans_rule_iff, hfind, spans_alt_iff, hnothing, hletter]
  have hrep := rep_ends_eq_iUnion .ascending #['a', 'a', 'b']
    (matchRule .ascending #['a', 'a', 'b'] maybeLetter 5) (.rule "item") aboutEnds_sane
    (hasEnds_node (by decide) hleft (by decide) 5) 1 (some 2) (Nat.zero_le 3) (sane_empty 0 0)
  refine hrep.trans ?_
  ext j
  simp only [Set.mem_iUnion, exists_prop, mem_rounds_iff, Set.mem_ofPred_eq, Set.mem_singleton_iff,
    exists_eq_left, Option.mem_some_iff, hitem]
  constructor
  · rintro ⟨count, -, hsteps⟩
    have hbounds : ∀ q e : Nat, q ≤ 2 → (e = q ∨ q < 2 ∧ e = q + 1) → q ≤ e ∧ e ≤ 2 := by omega
    exact (Steps.bounds hbounds (Nat.zero_le 2) hsteps).2
  · intro hj
    rcases Nat.lt_or_ge j 2 with hlt | hge
    · exact ⟨1, by simp, j, by omega, rfl⟩
    · exact ⟨2, by simp, 1, by omega, j, by omega, rfl⟩

end Grammar

end SchemaGrammar
