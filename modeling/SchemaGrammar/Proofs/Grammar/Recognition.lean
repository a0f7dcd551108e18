import Mathlib.Data.Finset.Prod
import Mathlib.Data.Finset.Range
import SchemaGrammar.Grammar.Matcher
import SchemaGrammar.Proofs.Grammar.LeftRecursion

set_option autoImplicit false

/-! # Recognition finds the derivable texts

The recogniser is compared with derivation offset by offset: `Spans g text node i j` says that the
node derives the part of the text between two offsets. Everything found is derivable, whatever the
grammar (`sound` below). Everything derivable is found if no rule comes back to itself at the same
offset: a placeholder in the memory then never stands in for a result that is needed.

Both directions are shown in one pass. `Gives full I R x` says that `x` finds only ends in `R` and,
if `full` holds, all of them; `full` is later the absence of left recursion. -/

namespace SchemaGrammar

namespace Grammar

/-! ## Sets of offsets -/

namespace Offsets

theorem mem_insert {x y : Nat} {xs : Offsets} : y ∈ insert x xs ↔ y = x ∨ y ∈ xs := by
  induction xs with
  | nil => simp [insert]
  | cons z rest ih =>
    unfold insert
    split_ifs with hlt heq
    · simp
    · simp [heq]
    · simp only [List.mem_cons, ih]
      tauto

theorem mem_union {y : Nat} {xs ys : Offsets} : y ∈ union xs ys ↔ y ∈ xs ∨ y ∈ ys := by
  unfold union
  induction xs generalizing ys with
  | nil => simp
  | cons x rest ih =>
    rw [List.foldl_cons, ih, mem_insert, List.mem_cons]
    tauto

theorem mem_without {y : Nat} {xs ys : Offsets} : y ∈ without xs ys ↔ y ∈ xs ∧ y ∉ ys := by
  simp [without, List.mem_filter]

/-- A round that finds something new leaves more offsets found. -/
theorem card_lt_card_union_without {ends found : Offsets} (hnew : ends.without found ≠ []) :
    found.toFinset.card < ((ends.without found).union found).toFinset.card := by
  obtain ⟨y, hy⟩ := List.exists_mem_of_ne_nil _ hnew
  refine Finset.card_lt_card ((Finset.ssubset_iff_of_subset fun x hx => ?_).2 ⟨y, ?_, ?_⟩)
  · rw [List.mem_toFinset] at hx ⊢
    exact mem_union.2 (.inr hx)
  · exact List.mem_toFinset.2 (mem_union.2 (.inl hy))
  · rw [List.mem_toFinset]
    exact (mem_without.1 hy).2

/-- There are only so many offsets up to the end of a text. -/
theorem card_le_of_forall_le {size : Nat} {xs : Offsets} (h : ∀ x ∈ xs, x ≤ size) :
    xs.toFinset.card ≤ size + 1 := by
  have hsub : xs.toFinset ⊆ Finset.range (size + 1) := fun x hx =>
    Finset.mem_range.2 (Nat.lt_succ_of_le (h x (List.mem_toFinset.1 hx)))
  exact (Finset.card_le_card hsub).trans_eq (Finset.card_range _)

end Offsets

/-! ## Parts of a text that a node derives -/

/-- A node derives the part of the text between two offsets. -/
def Spans (g : Grammar) (text : List Char) (node : Node) (i j : Nat) : Prop :=
  ∃ part, part <+: text.drop i ∧ j = i + part.length ∧ Derives g node part

section Spans

variable {g : Grammar} {text : List Char} {i j : Nat}

theorem Spans.le {node : Node} (h : Spans g text node i j) : i ≤ j := by
  obtain ⟨part, -, rfl, -⟩ := h
  omega

theorem Spans.le_length {node : Node} (h : Spans g text node i j) (hi : i ≤ text.length) :
    j ≤ text.length := by
  obtain ⟨part, hp, rfl, -⟩ := h
  have := hp.length_le
  rw [List.length_drop] at this
  omega

/-- Only what derives the empty text spans nothing. -/
theorem Spans.derives_nil {node : Node} (h : Spans g text node i i) : Derives g node [] := by
  obtain ⟨part, -, hlen, hd⟩ := h
  have : part = [] := List.eq_nil_of_length_eq_zero (by omega)
  rwa [this] at hd

theorem spans_whole_iff {node : Node} :
    Spans g text node 0 text.length ↔ Derives g node text := by
  constructor
  · rintro ⟨part, hp, hlen, hd⟩
    have : part = text := by
      simpa using hp.eq_of_length (by simpa using hlen.symm)
    rwa [this] at hd
  · intro h
    exact ⟨text, by simp, by simp, h⟩

theorem spans_rule_iff {name : String} :
    Spans g text (.rule name) i j ↔ ∃ body, g.find? name = some body ∧ Spans g text body i j := by
  constructor
  · rintro ⟨part, hp, hj, hd⟩
    obtain ⟨body, hb, hd⟩ := derives_rule_iff.1 hd
    exact ⟨body, hb, part, hp, hj, hd⟩
  · rintro ⟨body, hb, part, hp, hj, hd⟩
    exact ⟨part, hp, hj, .rule hb hd⟩

theorem spans_nil_iff : Spans g text (.seq []) i j ↔ i = j := by
  constructor
  · rintro ⟨part, -, rfl, hd⟩
    rw [derives_seq_nil_iff.1 hd]
    simp
  · rintro rfl
    exact ⟨[], List.nil_prefix, rfl, .nil⟩

theorem spans_cons_iff {node : Node} {rest : List Node} :
    Spans g text (.seq (node :: rest)) i j ↔
      ∃ k, Spans g text node i k ∧ Spans g text (.seq rest) k j := by
  constructor
  · rintro ⟨part, hp, rfl, hd⟩
    obtain ⟨front, back, rfl, hf, hb⟩ := derives_seq_cons_iff.1 hd
    refine ⟨i + front.length, ⟨front, (List.prefix_append _ _).trans hp, rfl, hf⟩,
      back, ?_, by simp; omega, hb⟩
    obtain ⟨behind, hbehind⟩ := hp
    refine ⟨behind, ?_⟩
    rw [← List.drop_drop, ← hbehind, List.append_assoc, List.drop_left]
  · rintro ⟨k, ⟨front, hfp, rfl, hf⟩, back, hbp, rfl, hb⟩
    refine ⟨front ++ back, ?_, by simp; omega, .cons hf hb⟩
    obtain ⟨behind, hbehind⟩ := hfp
    rw [← List.drop_drop, ← hbehind, List.drop_left] at hbp
    rw [← hbehind]
    exact (List.prefix_append_right_inj front).2 hbp

theorem spans_alt_iff {branches : List Node} :
    Spans g text (.alt branches) i j ↔ ∃ node ∈ branches, Spans g text node i j := by
  constructor
  · rintro ⟨part, hp, hj, hd⟩
    obtain ⟨node, hn, hd⟩ := derives_alt_iff.1 hd
    exact ⟨node, hn, part, hp, hj, hd⟩
  · rintro ⟨node, hn, part, hp, hj, hd⟩
    exact ⟨part, hp, hj, .alt hn hd⟩

end Spans

/-! ## Steps in a row -/

/-- So many steps of a relation in a row. -/
def Steps (R : Nat → Nat → Prop) : Nat → Nat → Nat → Prop
  | 0, i, j => i = j
  | count + 1, i, j => ∃ k, R i k ∧ Steps R count k j

/-- One step more may as well come last. -/
theorem Steps.snoc {R : Nat → Nat → Prop} {count i j k : Nat} (h : Steps R count i j)
    (hr : R j k) : Steps R (count + 1) i k := by
  induction count generalizing i with
  | zero =>
    obtain rfl : i = j := h
    exact ⟨k, hr, rfl⟩
  | succ count ih =>
    obtain ⟨l, hl, h⟩ := h
    exact ⟨l, hl, ih h⟩

theorem Steps.bounds {R : Nat → Nat → Prop} {size : Nat}
    (hR : ∀ i j, i ≤ size → R i j → i ≤ j ∧ j ≤ size) {count i j : Nat} (hi : i ≤ size)
    (h : Steps R count i j) : i ≤ j ∧ j ≤ size := by
  induction count generalizing i with
  | zero =>
    obtain rfl : i = j := h
    exact ⟨le_rfl, hi⟩
  | succ count ih =>
    obtain ⟨k, hk, h⟩ := h
    obtain ⟨hik, hks⟩ := hR i k hi hk
    obtain ⟨hkj, hjs⟩ := ih hks h
    exact ⟨hik.trans hkj, hjs⟩

theorem spans_replicate_iff {g : Grammar} {text : List Char} {node : Node} {count i j : Nat} :
    Spans g text (.seq (List.replicate count node)) i j ↔
      Steps (Spans g text node) count i j := by
  induction count generalizing i with
  | zero => exact spans_nil_iff
  | succ count ih =>
    rw [List.replicate_succ, spans_cons_iff]
    exact exists_congr fun k => and_congr_right fun _ => ih

/-- The ends that a repetition may have: those after a number of steps within its counts. -/
def Repeated (R : Nat → Nat → Prop) (min : Int) (max : Option Int) (i j : Nat) : Prop :=
  ∃ count : Nat, min ≤ count ∧ (∀ n ∈ max, (count : Int) ≤ n) ∧ Steps R count i j

theorem spans_rep_iff {g : Grammar} {text : List Char} {node : Node} {min : Int}
    {max : Option Int} {i j : Nat} :
    Spans g text (.rep node min max) i j ↔ Repeated (Spans g text node) min max i j := by
  constructor
  · rintro ⟨part, hp, hj, hd⟩
    obtain ⟨count, hl, hm, hd⟩ := derives_rep_iff.1 hd
    exact ⟨count, hl, hm, spans_replicate_iff.1 ⟨part, hp, hj, hd⟩⟩
  · rintro ⟨count, hl, hm, h⟩
    obtain ⟨part, hp, hj, hd⟩ := spans_replicate_iff.2 h
    exact ⟨part, hp, hj, .rep count hl hm hd⟩

/-! ## Work that finds ends -/

/-- Work that keeps `I`, finds only ends in `R` and, if `full` holds, all of them. -/
def Gives (full : Prop) (I : Memory → Prop) (R : Nat → Prop) (x : MatchM Offsets) : Prop :=
  ∀ m, I m → I (x m).2 ∧ (∀ j ∈ (x m).1, R j) ∧ (full → ∀ j, R j → j ∈ (x m).1)

section Gives

variable {full : Prop} {I : Memory → Prop} {R : Nat → Prop}

theorem Gives.pure {xs : Offsets} (sound : ∀ j ∈ xs, R j) (complete : full → ∀ j, R j → j ∈ xs) :
    Gives full I R (Pure.pure xs) :=
  fun _ hm => ⟨hm, sound, complete⟩

theorem Gives.bind {P : Nat → Prop} {x : MatchM Offsets} {f : Offsets → MatchM Offsets}
    (hx : Gives full I P x)
    (hf : ∀ xs, (∀ j ∈ xs, P j) → (full → ∀ j, P j → j ∈ xs) → Gives full I R (f xs)) :
    Gives full I R (x >>= f) := by
  intro m hm
  obtain ⟨hm', hs, hc⟩ := hx m hm
  exact hf _ hs hc _ hm'

theorem Gives.congr {P : Nat → Prop} {x : MatchM Offsets} (h : Gives full I P x)
    (hPR : ∀ j, P j ↔ R j) : Gives full I R x := by
  obtain rfl : P = R := funext fun j => propext (hPR j)
  exact h

/-- An invariant that looks at nothing but the ends of rules. -/
def AboutEnds (I : Memory → Prop) : Prop :=
  ∀ m m' : Memory, m.ends = m'.ends → I m → I m'

theorem Gives.reach (hI : AboutEnds I) {stop : Nat} (h : ∀ j, R j ↔ j = stop) :
    Gives full I R (reach stop) := by
  intro m hm
  refine ⟨hI m _ rfl hm, ?_, ?_⟩
  · intro j hj
    exact (h j).2 (List.mem_singleton.1 hj)
  · intro _ j hj
    exact List.mem_singleton.2 ((h j).1 hj)

/-- Ends from each of some starts, in the order of the list. -/
theorem Gives.foldlM {visit : Nat → MatchM Offsets} {S : Nat → Nat → Prop} {starts : Offsets}
    (h : ∀ k ∈ starts, Gives full I (S k) (visit k)) {acc : Offsets} (done : Nat → Prop)
    (sound : ∀ j ∈ acc, done j) (complete : full → ∀ j, done j → j ∈ acc) :
    Gives full I (fun j => done j ∨ ∃ k ∈ starts, S k j)
      (starts.foldlM (fun acc start => return acc.union (← visit start)) acc) := by
  induction starts generalizing acc done with
  | nil =>
    rw [List.foldlM_nil]
    exact (Gives.pure sound complete).congr (by simp)
  | cons k rest ih =>
    rw [List.foldlM_cons, bind_assoc]
    refine (h k (by simp)).bind fun ends hs hc => ?_
    rw [pure_bind]
    refine (ih (fun l hl => h l (by simp [hl])) (fun j => done j ∨ S k j) ?_ ?_).congr ?_
    · intro j hj
      exact (Offsets.mem_union.1 hj).imp (sound j) (hs j)
    · intro hfull j hj
      exact Offsets.mem_union.2 (hj.imp (complete hfull j) (hc hfull j))
    · intro j
      simp only [List.mem_cons, exists_eq_or_imp, or_assoc]

/-- The order in which starts are gone through does not matter. -/
theorem Gives.fromEach (hI : AboutEnds I) {order : Order} {visit : Nat → MatchM Offsets}
    {S : Nat → Nat → Prop} {starts : Offsets}
    (h : ∀ k ∈ starts, Gives full I (S k) (visit k)) :
    Gives full I (fun j => ∃ k ∈ starts, S k j) (fromEach order visit starts) := by
  intro m hm
  have hmem : ∀ k, k ∈ order.arrange m.turn starts ↔ k ∈ starts :=
    fun k => (order.perm m.turn starts).mem_iff
  have hfold : Gives full I (fun j => False ∨ ∃ k ∈ order.arrange m.turn starts, S k j)
      ((order.arrange m.turn starts).foldlM
        (fun acc start => return acc.union (← visit start)) []) :=
    Gives.foldlM (fun k hk => h k ((hmem k).1 hk)) (fun _ => False) (by simp) (by simp)
  exact (hfold.congr (by simp [hmem])) { m with turn := m.turn + 1 } (hI m _ rfl hm)

end Gives

/-! ## Repetition -/

/-- From every offset found so far, one step leads to a found one, unless the offset is one of
    the current ones and waits for its turn. -/
def Frontier (R : Nat → Nat → Prop) (found current : Offsets) : Prop :=
  ∀ x ∈ found, x ∈ current ∨ ∀ y, R x y → y ∈ found

/-- A way out of the found offsets passes one of the current ones. -/
theorem Frontier.exit {R : Nat → Nat → Prop} {found current : Offsets}
    (h : Frontier R found current) {count x j : Nat} (hx : x ∈ found) (hs : Steps R count x j) :
    j ∈ found ∨ ∃ y ∈ current, ∃ d ≤ count, Steps R d y j := by
  induction count generalizing x with
  | zero =>
    obtain rfl : x = j := hs
    exact .inl hx
  | succ count ih =>
    obtain hcur | hnext := h x hx
    · exact .inr ⟨x, hcur, count + 1, le_rfl, hs⟩
    · obtain ⟨y, hxy, hs⟩ := hs
      obtain hj | ⟨z, hz, d, hd, hs⟩ := ih (hnext y hxy) hs
      · exact .inl hj
      · exact .inr ⟨z, hz, d, hd.trans (Nat.le_succ _), hs⟩

/-- Every end that a repetition may have is found already, or is on the way from a current
    offset with the rounds that are left. -/
def Covered (R : Nat → Nat → Prop) (min : Int) (max : Option Int) (i count : Nat)
    (current found : Offsets) : Prop :=
  ∀ (c j : Nat), min ≤ c → (∀ n ∈ max, (c : Int) ≤ n) → Steps R c i j →
    j ∈ found ∨ ∃ x ∈ current, ∃ d ≤ c - count, Steps R d x j

/-- The state of a repetition whose least count is reached. -/
structure Counting (R : Nat → Nat → Prop) (min : Int) (max : Option Int) (size i rounds count : Nat)
    (current found : Offsets) : Prop where
  current_found : ∀ x ∈ current, x ∈ found
  frontier : Frontier R found current
  covered : Covered R min max i count current found
  /-- Each round but the last finds a new offset, and there are only so many. -/
  rounds_left : current = [] ∨ size + 2 ≤ rounds + found.toFinset.card

/-- One more round, in which only new offsets are kept. -/
theorem Counting.next {R : Nat → Nat → Prop} {min : Int} {max : Option Int}
    {size i rounds count : Nat} {current found ends : Offsets}
    (h : Counting R min max size i (rounds + 1) count current found) (hne : current ≠ [])
    (hends : ∀ j, (∃ x ∈ current, R x j) → j ∈ ends) :
    Counting R min max size i rounds (count + 1) (ends.without found)
      ((ends.without found).union found) := by
  have hfrontier : Frontier R ((ends.without found).union found) (ends.without found) := by
    intro x hx
    rw [Offsets.mem_union] at hx
    obtain hx | hx := hx
    · exact .inl hx
    · refine .inr fun y hxy => Offsets.mem_union.2 ?_
      obtain hcur | hnext := h.frontier x hx
      · by_cases hy : y ∈ found
        · exact .inr hy
        · exact .inl (Offsets.mem_without.2 ⟨hends y ⟨x, hcur, hxy⟩, hy⟩)
      · exact .inr (hnext y hxy)
  refine ⟨fun x hx => Offsets.mem_union.2 (.inl hx), hfrontier, ?_, ?_⟩
  · intro c j hl hm hs
    obtain hj | ⟨x, hx, d, hd, hs⟩ := h.covered c j hl hm hs
    · exact .inl (Offsets.mem_union.2 (.inr hj))
    cases d with
    | zero =>
      obtain rfl : x = j := hs
      exact .inl (Offsets.mem_union.2 (.inr (h.current_found x hx)))
    | succ d =>
      obtain ⟨y, hxy, hs⟩ := hs
      by_cases hy : y ∈ found
      · -- an offset of an earlier round: fewer rounds only leave more to come
        obtain hj | ⟨z, hz, e, he, hs⟩ := hfrontier.exit (Offsets.mem_union.2 (.inr hy)) hs
        · exact .inl hj
        · exact .inr ⟨z, hz, e, by omega, hs⟩
      · exact .inr ⟨y, Offsets.mem_without.2 ⟨hends y ⟨x, hx, hxy⟩, hy⟩, d, by omega, hs⟩
  · by_cases hnew : ends.without found = []
    · exact .inl hnew
    · have hgrow := Offsets.card_lt_card_union_without hnew
      have := h.rounds_left.resolve_left hne
      exact .inr (by omega)

section Repetition

variable {full : Prop} {I : Memory → Prop} {R : Nat → Nat → Prop} {order : Order}
  {visit : Nat → MatchM Offsets} {min : Int} {max : Option Int} {size i : Nat}

theorem mayGoOn_iff {count : Nat} : mayGoOn max count = true ↔ ∀ n ∈ max, (count : Int) < n := by
  cases max <;> simp [mayGoOn]

/-- A repetition stops for want of offsets or because the greatest count is reached. -/
theorem stops_iff {count : Nat} {current : Offsets} :
    (current.isEmpty || !mayGoOn max count) = true ↔
      current = [] ∨ ∃ n ∈ max, n ≤ (count : Int) := by
  rw [Bool.or_eq_true, List.isEmpty_iff, Bool.not_eq_true', ← Bool.not_eq_true, mayGoOn_iff]
  simp only [not_forall, not_lt, exists_prop]

/-- The current offsets are counted, and no round is left that could find others. -/
theorem Counting.finished {rounds count : Nat} {current found : Offsets}
    (h : Counting R min max size i rounds count current found)
    (hstop : current = [] ∨ ∃ n ∈ max, n ≤ (count : Int)) {j : Nat}
    (hj : Repeated R min max i j) : j ∈ found := by
  obtain ⟨c, hl, hm, hs⟩ := hj
  obtain hj | ⟨x, hx, d, hd, hs⟩ := h.covered c j hl hm hs
  · exact hj
  · obtain rfl | ⟨n, hn, hcount⟩ := hstop
    · simp at hx
    · have := hm n hn
      obtain rfl : d = 0 := by omega
      obtain rfl : x = j := hs
      exact h.current_found x hx

/-- What a repetition gives from the round on in which its least count is reached. -/
theorem Gives.repeatFrom_counting (hI : AboutEnds I)
    (hR : ∀ x y, x ≤ size → R x y → x ≤ y ∧ y ≤ size) (hi : i ≤ size)
    (hvisit : (∀ n ∈ max, 0 < n) → ∀ count x, Steps R count i x → Gives full I (R x) (visit x))
    (rounds : Nat) : ∀ (count : Nat) (current found : Offsets), min ≤ count →
    (∀ x ∈ current, Steps R count i x) → (∀ x ∈ found, Repeated R min max i x) →
    (full → Counting R min max size i rounds count current found) →
    Gives full I (Repeated R min max i)
      (repeatFrom order visit min max rounds count current found) := by
  induction rounds with
  | zero =>
    intro count current found _ _ hfound hfull
    refine Gives.pure hfound fun hf j hj => (hfull hf).finished ?_ hj
    refine (hfull hf).rounds_left.imp_right fun hcard => ?_
    -- there are not that many offsets
    have hle : found.toFinset.card ≤ size + 1 := Offsets.card_le_of_forall_le fun x hx => by
      obtain ⟨c, -, -, hs⟩ := hfound x hx
      exact (Steps.bounds hR hi hs).2
    omega
  | succ rounds ih =>
    intro count current found hmin hcur hfound hfull
    rw [repeatFrom]
    split_ifs with hstop hcount
    · exact Gives.pure hfound fun hf j hj => (hfull hf).finished (stops_iff.1 hstop) hj
    · rw [stops_iff, not_or, not_exists] at hstop
      obtain ⟨hne, hlt⟩ := hstop
      have hmore : ∀ n ∈ max, (count : Int) < n := fun n hn => not_le.1 fun h => hlt n ⟨hn, h⟩
      have hpos : ∀ n ∈ max, 0 < n := fun n hn => (Int.natCast_nonneg count).trans_lt (hmore n hn)
      refine (Gives.fromEach hI fun x hx => hvisit hpos count x (hcur x hx)).bind
        fun ends hs hc => ?_
      have hends : ∀ x ∈ ends, Steps R (count + 1) i x := by
        intro x hx
        obtain ⟨k, hk, hkx⟩ := hs x hx
        exact (hcur k hk).snoc hkx
      refine ih (count + 1) _ _ (by omega) (fun x hx => hends x (Offsets.mem_without.1 hx).1)
        ?_ fun hf => (hfull hf).next hne (hc hf)
      intro x hx
      obtain hx | hx := Offsets.mem_union.1 hx
      · refine ⟨count + 1, by omega, fun n hn => ?_, hends x (Offsets.mem_without.1 hx).1⟩
        have := hmore n hn
        omega
      · exact hfound x hx
    · omega

/-- What a repetition gives before its least count is reached, when no offset is left out. -/
theorem Gives.repeatFrom_waiting (hI : AboutEnds I)
    (hR : ∀ x y, x ≤ size → R x y → x ≤ y ∧ y ≤ size) (hi : i ≤ size)
    (hvisit : (∀ n ∈ max, 0 < n) → ∀ count x, Steps R count i x → Gives full I (R x) (visit x))
    (rounds : Nat) : ∀ (count : Nat) (current : Offsets), (count : Int) < min →
    (∀ x ∈ current, Steps R count i x) →
    (full → min.toNat + size + 2 ≤ rounds + count ∧
      ∀ (c j : Nat), min ≤ c → Steps R c i j → ∃ x ∈ current, Steps R (c - count) x j) →
    Gives full I (Repeated R min max i)
      (repeatFrom order visit min max rounds count current []) := by
  induction rounds with
  | zero =>
    intro count current hmin _ hfull
    refine Gives.pure (by simp) fun hf => ?_
    have := (hfull hf).1
    omega
  | succ rounds ih =>
    intro count current hmin hcur hfull
    rw [repeatFrom]
    split_ifs with hstop hcount
    · refine Gives.pure (by simp) fun hf j ⟨c, hl, hm, hs⟩ => ?_
      obtain rfl | ⟨n, hn, hle⟩ := stops_iff.1 hstop
      · obtain ⟨x, hx, -⟩ := (hfull hf).2 c j hl hs
        simp at hx
      · have := hm n hn
        omega
    all_goals
      rw [stops_iff, not_or, not_exists] at hstop
      obtain ⟨hne, hlt⟩ := hstop
      have hmore : ∀ n ∈ max, (count : Int) < n := fun n hn => not_le.1 fun h => hlt n ⟨hn, h⟩
      have hpos : ∀ n ∈ max, 0 < n := fun n hn => (Int.natCast_nonneg count).trans_lt (hmore n hn)
      refine (Gives.fromEach hI fun x hx => hvisit hpos count x (hcur x hx)).bind
        fun ends hs hc => ?_
      have hends : ∀ x ∈ ends, Steps R (count + 1) i x := by
        intro x hx
        obtain ⟨k, hk, hkx⟩ := hs x hx
        exact (hcur k hk).snoc hkx
      have hahead : full → ∀ (c j : Nat), min ≤ c → Steps R c i j →
          ∃ x ∈ ends, Steps R (c - (count + 1)) x j := by
        intro hf c j hl hs
        obtain ⟨x, hx, hs⟩ := (hfull hf).2 c j hl hs
        obtain ⟨d, hd⟩ : ∃ d, c - count = d + 1 := ⟨c - count - 1, by omega⟩
        rw [hd] at hs
        obtain ⟨y, hxy, hs⟩ := hs
        exact ⟨y, hc hf y ⟨x, hx, hxy⟩, by rwa [show c - (count + 1) = d by omega]⟩
    · have hmem : ∀ x, x ∈ ends.without [] ↔ x ∈ ends := by simp [Offsets.mem_without]
      have hmem' : ∀ x, x ∈ (ends.without []).union [] ↔ x ∈ ends := by
        simp [Offsets.mem_union, hmem]
      refine Gives.repeatFrom_counting hI hR hi hvisit rounds (count + 1) _ _ (by omega)
        (fun x hx => hends x ((hmem x).1 hx)) ?_ fun hf => ⟨?_, ?_, ?_, .inr ?_⟩
      · intro x hx
        refine ⟨count + 1, by omega, fun n hn => ?_, hends x ((hmem' x).1 hx)⟩
        have := hmore n hn
        omega
      · exact fun x hx => (hmem' x).2 ((hmem x).1 hx)
      · exact fun x hx => .inl ((hmem x).2 ((hmem' x).1 hx))
      · intro c j hl _ hs
        obtain ⟨x, hx, hs⟩ := hahead hf c j hl hs
        exact .inr ⟨x, (hmem x).2 hx, _, le_rfl, hs⟩
      · have := (hfull hf).1
        omega
    · refine ih (count + 1) ends (by omega) hends fun hf => ⟨?_, hahead hf⟩
      have := (hfull hf).1
      omega

/-- **Repetition with pruning is plain repetition.** -/
theorem Gives.repeatFrom (hI : AboutEnds I)
    (hR : ∀ x y, x ≤ size → R x y → x ≤ y ∧ y ≤ size) (hi : i ≤ size)
    (hvisit : (∀ n ∈ max, 0 < n) → ∀ count x, Steps R count i x → Gives full I (R x) (visit x))
    (hmin : 0 ≤ min) (hmax : ∀ n ∈ max, 0 ≤ n) :
    Gives full I (Repeated R min max i)
      (repeatFrom order visit min max (min.toNat + size + 2) 0 [i]
        (if min = 0 then [i] else [])) := by
  have hstart : ∀ x ∈ [i], Steps R 0 i x := by simp [Steps]
  split_ifs with hzero
  · refine Gives.repeatFrom_counting hI hR hi hvisit _ 0 [i] [i] (by simp [hzero]) hstart ?_
      fun _ => ⟨fun _ hx => hx, fun _ hx => .inl hx, ?_, .inr (by simp; omega)⟩
    · intro x hx
      exact ⟨0, by simp [hzero], by simpa using hmax, hstart x hx⟩
    · intro c j _ _ hs
      exact .inr ⟨i, by simp, c, le_rfl, hs⟩
  · refine Gives.repeatFrom_waiting hI hR hi hvisit _ 0 [i] (by simp; omega) hstart
      fun _ => ⟨le_rfl, fun c j _ hs => ⟨i, by simp, hs⟩⟩

end Repetition

/-! ## Literals and classes -/

theorem startsAt_iff {text : Array Char} {i : Nat} {codes : List Nat} :
    startsAt text i codes = true ↔
      ∃ part, part <+: text.toList.drop i ∧ part.map Char.toNat = codes := by
  induction codes generalizing i with
  | nil => simp [startsAt]
  | cons code rest ih =>
    rw [startsAt, ← Array.getElem?_toList]
    cases hc : text.toList[i]? with
    | none =>
      rw [List.getElem?_eq_none_iff] at hc
      simp [List.drop_eq_nil_of_le hc]
    | some c =>
      obtain ⟨hi, rfl⟩ := List.getElem?_eq_some_iff.1 hc
      rw [List.drop_eq_getElem_cons hi]
      simp only [Bool.and_eq_true, beq_iff_eq, ih]
      constructor
      · rintro ⟨rfl, part, hp, rfl⟩
        exact ⟨_, (List.prefix_cons_inj _).2 hp, rfl⟩
      · rintro ⟨part, hp, hmap⟩
        cases part with
        | nil => simp at hmap
        | cons d part =>
          obtain ⟨rfl, hpart⟩ := List.cons_prefix_cons.1 hp
          simp only [List.map_cons, List.cons.injEq] at hmap
          exact ⟨hmap.1, part, hpart, hmap.2⟩

theorem spans_literal_iff {g : Grammar} {text : Array Char} {codes : List Nat} {i j : Nat} :
    Spans g text.toList (.literal codes) i j ↔
      startsAt text i codes = true ∧ j = i + codes.length := by
  rw [startsAt_iff]
  constructor
  · rintro ⟨part, hp, rfl, hd⟩
    have hcodes := derives_literal_iff.1 hd
    exact ⟨⟨part, hp, hcodes⟩, by simp [← hcodes]⟩
  · rintro ⟨⟨part, hp, rfl⟩, rfl⟩
    exact ⟨part, hp, by simp, .literal part⟩

theorem spans_charClass_iff {g : Grammar} {text : Array Char} {negated : Bool}
    {ranges : List (Nat × Nat)} {i j : Nat} :
    Spans g text.toList (.charClass negated ranges) i j ↔
      ∃ c, text[i]? = some c ∧ Node.classHolds negated ranges c.toNat = true ∧ j = i + 1 := by
  constructor
  · rintro ⟨part, hp, rfl, hd⟩
    obtain ⟨c, rfl, hc⟩ := derives_charClass_iff.1 hd
    refine ⟨c, ?_, hc, rfl⟩
    obtain ⟨behind, hbehind⟩ := hp
    rw [← Array.getElem?_toList, ← List.head?_drop, ← hbehind]
    rfl
  · rintro ⟨c, hi, hc, rfl⟩
    refine ⟨[c], ?_, rfl, .charClass hc⟩
    rw [← Array.getElem?_toList] at hi
    obtain ⟨hlt, rfl⟩ := List.getElem?_eq_some_iff.1 hi
    rw [List.drop_eq_getElem_cons hlt]
    exact (List.prefix_cons_inj _).2 List.nil_prefix

/-! ## Left recursion -/

/-- All rules that are being matched, with their offsets, lead to the node at `i`: they stand
    before it, or they start with whatever it starts with. -/
def Clear (g : Grammar) (opened : Set (String × Nat)) (node : Node) (i : Nat) : Prop :=
  ∀ name k, (name, k) ∈ opened →
    k < i ∨ k = i ∧ ∀ other, Leads g node other → Relation.TransGen (StartsWith g) name other

section Clear

variable {g : Grammar} {opened : Set (String × Nat)} {i : Nat}

theorem Clear.of_lt {node other : Node} {k : Nat} (h : Clear g opened node i) (hk : i < k) :
    Clear g opened other k := by
  intro name l hl
  obtain hlt | ⟨rfl, -⟩ := h name l hl
  · exact .inl (hlt.trans hk)
  · exact .inl hk

theorem Clear.mono {node other : Node} (h : Clear g opened node i)
    (hsub : ∀ name, Leads g other name → Leads g node name) : Clear g opened other i := by
  intro name k hk
  exact (h name k hk).imp_right fun ⟨he, hl⟩ => ⟨he, fun b hb => hl b (hsub b hb)⟩

/-- A rule that is called is not being matched at the same offset, unless it is left
    recursive. -/
theorem Clear.notMem {name : String} (h : Clear g opened (.rule name) i)
    (hleft : ¬ LeftRecursive g) : (name, i) ∉ opened := by
  intro hmem
  obtain hlt | ⟨-, hl⟩ := h name i hmem
  · omega
  · exact hleft ⟨name, hl name (.rule name)⟩

/-- The body of a rule that is called, with the rule among those being matched. -/
theorem Clear.body {name : String} {body : Node} (h : Clear g opened (.rule name) i)
    (hbody : g.find? name = some body) : Clear g (insert (name, i) opened) body i := by
  intro a k hk
  obtain heq | hk := hk
  · obtain ⟨rfl, rfl⟩ := Prod.mk.inj heq
    exact .inr ⟨rfl, fun b hb => .single ⟨body, hbody, hb⟩⟩
  · refine (h a k hk).imp_right fun ⟨he, hl⟩ => ⟨he, fun b hb => ?_⟩
    exact (hl name (.rule name)).tail ⟨body, hbody, hb⟩

end Clear

/-! ## Nodes -/

section Nodes

variable {g : Grammar} {order : Order} {text : Array Char} {full : Prop} {I : Memory → Prop}
  {opened : Set (String × Nat)} {call : String → Nat → MatchM Offsets}

mutual

/-- What a node gives, provided that calls of rules give what they should. -/
theorem matchNode_gives (hI : AboutEnds I)
    (hcall : ∀ name i, i ≤ text.size → (full → Clear g opened (.rule name) i) →
      Gives full I (Spans g text.toList (.rule name) i) (call name i)) :
    ∀ (node : Node) (i : Nat), node.hasNaturalCounts = true → i ≤ text.size →
      (full → Clear g opened node i) →
      Gives full I (Spans g text.toList node i) (matchNode order text call node i)
  | .literal codes, i, _, _, _ => by
    rw [matchNode]
    split_ifs with h
    · exact .reach hI fun j => by rw [spans_literal_iff, and_iff_right h]
    · exact .pure (by simp) fun _ j hj => absurd (spans_literal_iff.1 hj).1 h
  | .charClass negated ranges, i, _, _, _ => by
    rw [matchNode]
    split
    · rename_i c hc
      split_ifs with h
      · refine .reach hI fun j => ?_
        rw [spans_charClass_iff]
        simp [hc, h]
      · refine .pure (by simp) fun _ j hj => ?_
        obtain ⟨d, hd, hh, -⟩ := spans_charClass_iff.1 hj
        rw [hc, Option.some.injEq] at hd
        exact absurd (hd ▸ hh) h
    · rename_i hc
      refine .pure (by simp) fun _ j hj => ?_
      obtain ⟨d, hd, -⟩ := spans_charClass_iff.1 hj
      simp [hc] at hd
  | .rule name, i, _, hi, hclear => by
    rw [matchNode]
    exact hcall name i hi hclear
  | .seq items, i, hnat, hi, hclear => by
    rw [matchNode]
    refine (matchSeq_gives hI hcall items [i] hnat ?_).congr (by simp)
    simpa using ⟨hi, hclear⟩
  | .alt branches, i, hnat, hi, hclear => by
    rw [matchNode]
    refine (matchAlt_gives hI hcall branches i hnat hi hclear (fun _ => False) [] (by simp)
      (by simp)).congr fun j => ?_
    rw [spans_alt_iff, false_or]
  | .rep node min max, i, hnat, hi, hclear => by
    rw [matchNode]
    simp only [Node.hasNaturalCounts, Bool.and_eq_true, decide_eq_true_eq] at hnat
    obtain ⟨⟨hmin, hmax⟩, hnat⟩ := hnat
    have hbounds : ∀ x y, x ≤ text.size → Spans g text.toList node x y → x ≤ y ∧ y ≤ text.size :=
      fun x y hx h => ⟨h.le, by simpa using h.le_length (by simpa using hx)⟩
    refine (Gives.repeatFrom hI hbounds hi ?_ hmin ?_).congr fun j => spans_rep_iff.symm
    · intro hpos count x hsteps
      obtain ⟨hix, hx⟩ := Steps.bounds hbounds hi hsteps
      refine matchNode_gives hI hcall node x hnat hx fun hf => ?_
      obtain rfl | hlt := hix.eq_or_lt
      · exact (hclear hf).mono fun _ => .rep hpos
      · exact (hclear hf).of_lt hlt
    · intro n hn
      obtain rfl := Option.mem_def.1 hn
      simpa using hmax

theorem matchSeq_gives (hI : AboutEnds I)
    (hcall : ∀ name i, i ≤ text.size → (full → Clear g opened (.rule name) i) →
      Gives full I (Spans g text.toList (.rule name) i) (call name i)) :
    ∀ (items : List Node) (starts : Offsets), Node.haveNaturalCounts items = true →
      (∀ k ∈ starts, k ≤ text.size ∧ (full → Clear g opened (.seq items) k)) →
      Gives full I (fun j => ∃ k ∈ starts, Spans g text.toList (.seq items) k j)
        (matchSeq order text call items starts)
  | [], starts, _, _ => by
    rw [matchSeq]
    refine .pure (fun j hj => ⟨j, hj, spans_nil_iff.2 rfl⟩) fun _ j ⟨k, hk, hs⟩ => ?_
    rwa [← spans_nil_iff.1 hs]
  | node :: rest, starts, hnat, hstarts => by
    rw [matchSeq]
    simp only [Node.haveNaturalCounts, Bool.and_eq_true] at hnat
    refine (Gives.fromEach hI (S := Spans g text.toList node) fun k hk => ?_).bind
      fun ends hs hc => ?_
    · exact matchNode_gives hI hcall node k hnat.1 (hstarts k hk).1
        fun hf => ((hstarts k hk).2 hf).mono fun _ => .first
    have hsplit : ∀ j, (∃ k ∈ starts, Spans g text.toList (.seq (node :: rest)) k j) ↔
        ∃ l, (∃ k ∈ starts, Spans g text.toList node k l) ∧
          Spans g text.toList (.seq rest) l j := by
      intro j
      constructor
      · rintro ⟨k, hk, h⟩
        obtain ⟨l, hl, h⟩ := spans_cons_iff.1 h
        exact ⟨l, ⟨k, hk, hl⟩, h⟩
      · rintro ⟨l, ⟨k, hk, hl⟩, h⟩
        exact ⟨k, hk, spans_cons_iff.2 ⟨l, hl, h⟩⟩
    split_ifs with hempty
    · refine .pure (by simp) fun hf j hj => ?_
      obtain ⟨l, hl, -⟩ := (hsplit j).1 hj
      have := hc hf l hl
      simp [List.isEmpty_iff.1 hempty] at this
    · refine fun m hm => ?_
      refine (matchSeq_gives hI hcall rest ends hnat.2 fun l hl => ?_) m hm |>.imp_right
        fun ⟨hsound, hcomplete⟩ => ⟨fun j hj => ?_, fun hf j hj => ?_⟩
      · obtain ⟨k, hk, hspan⟩ := hs l hl
        obtain ⟨hks, hkc⟩ := hstarts k hk
        refine ⟨by simpa using hspan.le_length (by simpa using hks), fun hf => ?_⟩
        obtain rfl | hlt := hspan.le.eq_or_lt
        · exact (hkc hf).mono fun _ => .skip hspan.derives_nil
        · exact (hkc hf).of_lt hlt
      · obtain ⟨l, hl, h⟩ := hsound j hj
        exact (hsplit j).2 ⟨l, hs l hl, h⟩
      · obtain ⟨l, hl, h⟩ := (hsplit j).1 hj
        exact hcomplete hf j ⟨l, hc hf l hl, h⟩

theorem matchAlt_gives (hI : AboutEnds I)
    (hcall : ∀ name i, i ≤ text.size → (full → Clear g opened (.rule name) i) →
      Gives full I (Spans g text.toList (.rule name) i) (call name i)) :
    ∀ (branches : List Node) (i : Nat), Node.haveNaturalCounts branches = true → i ≤ text.size →
      (full → Clear g opened (.alt branches) i) → ∀ (done : Nat → Prop) (found : Offsets),
      (∀ j ∈ found, done j) → (full → ∀ j, done j → j ∈ found) →
      Gives full I (fun j => done j ∨ ∃ node ∈ branches, Spans g text.toList node i j)
        (matchAlt order text call branches i found)
  | [], i, _, _, _, done, found, hsound, hcomplete => by
    rw [matchAlt]
    exact (Gives.pure hsound hcomplete).congr (by simp)
  | node :: rest, i, hnat, hi, hclear, done, found, hsound, hcomplete => by
    rw [matchAlt]
    simp only [Node.haveNaturalCounts, Bool.and_eq_true] at hnat
    refine (matchNode_gives hI hcall node i hnat.1 hi
      fun hf => (hclear hf).mono fun _ => .alt (by simp)).bind fun ends hs hc => ?_
    refine (matchAlt_gives hI hcall rest i hnat.2 hi (fun hf => (hclear hf).mono ?_)
      (fun j => done j ∨ Spans g text.toList node i j) (found.union ends) ?_ ?_).congr ?_
    · rintro name (_ | _ | _ | ⟨hmem, h⟩)
      exact .alt (by simp [hmem]) h
    · intro j hj
      exact (Offsets.mem_union.1 hj).imp (hsound j) (hs j)
    · intro hf j hj
      exact Offsets.mem_union.2 (hj.imp (hcomplete hf j) (hc hf j))
    · intro j
      simp only [List.mem_cons, exists_eq_or_imp, or_assoc]

end

end Nodes

/-! ## Rules -/

/-- The rules and offsets for which nothing is remembered. -/
def unseen (g : Grammar) (text : Array Char) (m : Memory) : Finset (String × Nat) :=
  ((g.map Prod.fst).toFinset ×ˢ Finset.range (text.size + 1)).filter
    fun key => m.ends[key]? = none

/-- What is remembered is right: ends of rules are derivable and, but for the rules that are
    being matched, complete. `depth` is more than the calls that can still nest. -/
structure Sane (g : Grammar) (text : Array Char) (full : Prop) (opened : Set (String × Nat))
    (depth : Nat) (m : Memory) : Prop where
  sound : ∀ name i ends, m.ends[(name, i)]? = some ends →
    ∀ j ∈ ends, Spans g text.toList (.rule name) i j
  complete : full → ∀ name i ends, m.ends[(name, i)]? = some ends → (name, i) ∉ opened →
    ∀ j, Spans g text.toList (.rule name) i j → j ∈ ends
  room : full → (unseen g text m).card < depth

section Rules

variable {g : Grammar} {order : Order} {text : Array Char} {full : Prop}
  {opened : Set (String × Nat)} {depth : Nat}

theorem aboutEnds_sane : AboutEnds (Sane g text full opened depth) := by
  intro m m' h hm
  refine ⟨?_, ?_, ?_⟩
  · rw [← h]
    exact hm.sound
  · rw [← h]
    exact hm.complete
  · rw [unseen, ← h]
    exact hm.room

/-- Remembering something more leaves less unseen. -/
theorem unseen_insert_subset (m : Memory) (key : String × Nat) (ends : Offsets) :
    unseen g text { m with ends := m.ends.insert key ends } ⊆ unseen g text m := by
  intro other hother
  simp only [unseen, Finset.mem_filter, Std.HashMap.getElem?_insert] at hother ⊢
  refine ⟨hother.1, ?_⟩
  have := hother.2
  split_ifs at this
  exact this

theorem mem_names_of_find? {name : String} {body : Node} (h : g.find? name = some body) :
    name ∈ g.map Prod.fst := by
  obtain ⟨l₁, l₂, rfl, -⟩ := List.lookup_eq_some_iff.1 h
  simp

/-- Remembering something that was unseen leaves fewer unseen. -/
theorem card_unseen_insert_lt {m : Memory} {name : String} {i : Nat} {body : Node}
    (hi : i ≤ text.size) (hbody : g.find? name = some body) (hnone : m.ends[(name, i)]? = none)
    (ends : Offsets) :
    (unseen g text { m with ends := m.ends.insert (name, i) ends }).card < (unseen g text m).card := by
  have hkey : (name, i) ∈ unseen g text m := by
    simp only [unseen, Finset.mem_filter, Finset.mem_product, List.mem_toFinset, Finset.mem_range]
    exact ⟨⟨mem_names_of_find? hbody, by omega⟩, hnone⟩
  refine Finset.card_lt_card
    ((Finset.ssubset_iff_of_subset (unseen_insert_subset m _ _)).2 ⟨(name, i), hkey, ?_⟩)
  simp [unseen]

/-- A placeholder for a rule that was unseen. -/
theorem Sane.open {m : Memory} {name : String} {i : Nat} {body : Node} (hi : i ≤ text.size)
    (hbody : g.find? name = some body) (hnone : m.ends[(name, i)]? = none)
    (h : Sane g text full opened (depth + 1) m) :
    Sane g text full (insert (name, i) opened) depth
      { m with ends := m.ends.insert (name, i) [] } := by
  refine ⟨?_, ?_, ?_⟩
  · intro other k ends hends
    rw [Std.HashMap.getElem?_insert] at hends
    split_ifs at hends
    · obtain rfl := Option.some.inj hends
      simp
    · exact h.sound other k ends hends
  · intro hf other k ends hends hopen
    rw [Set.mem_insert_iff, not_or] at hopen
    rw [Std.HashMap.getElem?_insert, if_neg (by simpa using Ne.symm hopen.1)] at hends
    exact h.complete hf other k ends hends hopen.2
  · intro hf
    have hlt := card_unseen_insert_lt hi hbody hnone []
    have := h.room hf
    omega

/-- The placeholder replaced by all ends. -/
theorem Sane.close {m : Memory} {name : String} {i : Nat} {ends : Offsets}
    (hsound : ∀ j ∈ ends, Spans g text.toList (.rule name) i j)
    (hcomplete : full → ∀ j, Spans g text.toList (.rule name) i j → j ∈ ends)
    (h : Sane g text full (insert (name, i) opened) depth m) :
    Sane g text full opened (depth + 1) { m with ends := m.ends.insert (name, i) ends } := by
  refine ⟨?_, ?_, ?_⟩
  · intro other k found hfound
    rw [Std.HashMap.getElem?_insert] at hfound
    split_ifs at hfound with heq
    · obtain ⟨rfl, rfl⟩ := Prod.mk.inj (beq_iff_eq.1 heq)
      exact Option.some.inj hfound ▸ hsound
    · exact h.sound other k found hfound
  · intro hf other k found hfound hopen
    rw [Std.HashMap.getElem?_insert] at hfound
    split_ifs at hfound with heq
    · obtain ⟨rfl, rfl⟩ := Prod.mk.inj (beq_iff_eq.1 heq)
      exact Option.some.inj hfound ▸ hcomplete hf
    · refine h.complete hf other k found hfound ?_
      rw [Set.mem_insert_iff, not_or]
      exact ⟨fun h => heq (beq_iff_eq.2 h.symm), hopen⟩
  · intro hf
    exact Nat.lt_succ_of_lt
      ((Finset.card_le_card (unseen_insert_subset m _ _)).trans_lt (h.room hf))

/-- A call of a rule, with the memory spelled out. -/
theorem matchRule_succ (name : String) (i : Nat) (m : Memory) :
    matchRule order text g (depth + 1) name i m =
      match m.ends[(name, i)]? with
      | some ends => (ends, m)
      | none => match g.find? name with
        | none => ([], m)
        | some body =>
          let r := matchNode order text (matchRule order text g depth) body i
            { m with ends := m.ends.insert (name, i) [] }
          (r.1, { r.2 with ends := r.2.ends.insert (name, i) r.1 }) := by
  rw [matchRule]
  simp only [bind, StateT.bind, get, getThe, MonadStateOf.get, StateT.get, pure]
  cases m.ends[(name, i)]? with
  | some ends => rfl
  | none =>
    cases g.find? name with
    | none => rfl
    | some body => rfl

/-- What a rule gives, with calls nested up to `depth`. -/
theorem matchRule_gives (hnat : g.hasNaturalCounts = true) (hleft : full → ¬ LeftRecursive g)
    (depth : Nat) : ∀ (opened : Set (String × Nat)) (name : String) (i : Nat), i ≤ text.size →
    (full → Clear g opened (.rule name) i) →
    Gives full (Sane g text full opened depth) (Spans g text.toList (.rule name) i)
      (matchRule order text g depth name i) := by
  induction depth with
  | zero =>
    intro opened name i _ _ m hm
    exact ⟨hm, fun _ hj => absurd hj List.not_mem_nil, fun hf => absurd (hm.room hf) (Nat.not_lt_zero _)⟩
  | succ depth ih =>
    intro opened name i hi hclear m hm
    rw [matchRule_succ]
    cases hends : m.ends[(name, i)]? with
    | some ends =>
      exact ⟨hm, hm.sound name i ends hends, fun hf =>
        hm.complete hf name i ends hends ((hclear hf).notMem (hleft hf))⟩
    | none =>
      cases hbody : g.find? name with
      | none =>
        refine ⟨hm, by simp, fun _ j hj => ?_⟩
        obtain ⟨body, hb, -⟩ := spans_rule_iff.1 hj
        simp [hbody] at hb
      | some body =>
        have hspan : ∀ j, Spans g text.toList body i j ↔ Spans g text.toList (.rule name) i j := by
          intro j
          simp [spans_rule_iff, hbody]
        have hnode : body.hasNaturalCounts = true := by
          obtain ⟨l₁, l₂, rfl, -⟩ := List.lookup_eq_some_iff.1 hbody
          simp only [hasNaturalCounts, List.all_append, List.all_cons, Bool.and_eq_true] at hnat
          exact hnat.2.1
        obtain ⟨hsane, hsound, hcomplete⟩ :=
          ((matchNode_gives aboutEnds_sane (ih (insert (name, i) opened)) body i hnode hi
            fun hf => (hclear hf).body hbody).congr hspan) _ (hm.open hi hbody hends)
        exact ⟨hsane.close hsound hcomplete, hsound, hcomplete⟩

theorem card_unseen_le (m : Memory) :
    (unseen g text m).card ≤ g.length * (text.size + 1) := by
  calc (unseen g text m).card
      ≤ ((g.map Prod.fst).toFinset ×ˢ Finset.range (text.size + 1)).card :=
        Finset.card_filter_le _ _
    _ = (g.map Prod.fst).toFinset.card * (text.size + 1) := by
        rw [Finset.card_product, Finset.card_range]
    _ ≤ g.length * (text.size + 1) := by
        refine Nat.mul_le_mul_right _ ((List.toFinset_card_le _).trans ?_)
        rw [List.length_map]

/-- Nothing is known before a text is matched. -/
theorem sane_empty (furthest turn : Nat) :
    Sane g text full ∅ (g.length * (text.size + 1) + 1) ⟨∅, furthest, turn⟩ := by
  refine ⟨?_, ?_, fun _ => Nat.lt_succ_of_le (card_unseen_le _)⟩
  · intro name i ends h
    simp at h
  · intro _ name i ends h
    simp at h

end Rules

/-! ## Whole texts -/

section Check

variable {g : Grammar} {order : Order} {text rule : String}

/-- The ends of a rule at the start of a text, as a check finds them. -/
theorem matchRule_start (hnat : g.hasNaturalCounts = true) (full : Prop)
    (hleft : full → ¬ LeftRecursive g) (chars : Array Char) (name : String) :
    let ends := (matchRule order chars g (g.length * (chars.size + 1) + 1) name 0 ⟨∅, 0, 0⟩).1
    (∀ j ∈ ends, Spans g chars.toList (.rule name) 0 j) ∧
      (full → ∀ j, Spans g chars.toList (.rule name) 0 j → j ∈ ends) := by
  have hclear : full → Clear g ∅ (.rule name) 0 := fun _ _ _ h => h.elim
  exact (matchRule_gives hnat hleft _ ∅ name 0 (Nat.zero_le _) hclear _ (sane_empty 0 0)).2

/-- A check of a defined rule gives a verdict: whether the length of the text is among the ends
    of the rule. -/
theorem checkIn_eq_ok (order : Order) (text : String) (hrule : g.has rule = true) :
    ∃ v, checkIn order g text rule = .ok v ∧
      (v.accepted = true ↔ text.toList.length ∈
        (matchRule order text.toList.toArray g
          (g.length * (text.toList.toArray.size + 1) + 1) rule 0 ⟨∅, 0, 0⟩).1) := by
  rw [checkIn, if_pos hrule]
  exact ⟨_, rfl, List.contains_iff_mem⟩

/-- Only derivable texts are accepted. -/
theorem derives_of_accepted (hnat : g.hasNaturalCounts = true) (hrule : g.has rule = true)
    {v : Verdict} (hv : checkIn order g text rule = .ok v) (hacc : v.accepted = true) :
    Derives g (.rule rule) text.toList := by
  obtain ⟨w, hw, hiff⟩ := checkIn_eq_ok order text hrule
  obtain rfl : w = v := Except.ok.inj (hw.symm.trans hv)
  exact spans_whole_iff.1
    ((matchRule_start hnat False False.elim _ rule).1 _ (hiff.1 hacc))

/-- Without left recursion every derivable text is accepted. -/
theorem accepted_of_derives (hnat : g.hasNaturalCounts = true) (hrule : g.has rule = true)
    (hleft : ¬ LeftRecursive g) {v : Verdict} (hv : checkIn order g text rule = .ok v)
    (hd : Derives g (.rule rule) text.toList) : v.accepted = true := by
  obtain ⟨w, hw, hiff⟩ := checkIn_eq_ok order text hrule
  obtain rfl : w = v := Except.ok.inj (hw.symm.trans hv)
  exact hiff.2 ((matchRule_start hnat True (fun _ => hleft) _ rule).2 trivial _
    (spans_whole_iff.2 hd))

/-- **Recognition is exact.** In whatever order sets of offsets are gone through, a check of a
    defined rule gives a verdict; an accepted text is derivable from the rule, and a derivable
    text is accepted unless the grammar is left recursive. -/
theorem recognised_iff_derivable (order : Order) (g : Grammar)
    (hnat : g.hasNaturalCounts = true) (rule : String) (hrule : g.has rule = true)
    (text : String) :
    ∃ v, checkIn order g text rule = .ok v ∧
      (v.accepted = true → Derives g (.rule rule) text.toList) ∧
      (¬ LeftRecursive g → Derives g (.rule rule) text.toList → v.accepted = true) := by
  obtain ⟨v, hv, -⟩ := checkIn_eq_ok order text hrule
  exact ⟨v, hv, derives_of_accepted hnat hrule hv,
    fun hleft => accepted_of_derives hnat hrule hleft hv⟩

/-- The grammar `root ::= item*`, `item ::= "a"? end`, `end ::= "b"`. -/
def optionalPairs : Grammar :=
  [("root", .rep (.rule "item") 0 none),
    ("item", .seq [.rep (.literal [97]) 0 (some 1), .rule "end"]),
    ("end", .literal [98])]

theorem not_leftRecursive_optionalPairs : ¬ LeftRecursive optionalPairs := by
  refine not_leftRecursive_of_rank
    (fun name => if name = "root" then 2 else if name = "item" then 1 else 0) ?_
  rintro a b ⟨body, hbody, hlead⟩
  simp only [optionalPairs, find?, List.lookup_cons, List.lookup_nil] at hbody
  split at hbody
  · rename_i ha
    obtain rfl := Option.some.inj hbody
    cases hlead with
    | rep _ h =>
      cases h
      simp [beq_iff_eq.1 ha]
  split at hbody
  · rename_i ha
    obtain rfl := Option.some.inj hbody
    cases hlead with
    | first h =>
      cases h with
      | rep _ h => cases h
    | skip _ h =>
      cases h with
      | first h =>
        cases h
        simp [beq_iff_eq.1 ha]
      | skip _ h => cases h
  split at hbody
  · obtain rfl := Option.some.inj hbody
    cases hlead
  · cases hbody

theorem recognised_optionalPairs :
    ∃ v, checkIn ⟨fun _ xs => xs.reverse, fun _ xs => xs.reverse_perm⟩ optionalPairs "abb" "root"
      = .ok v ∧ v.accepted = true := by
  obtain ⟨v, hv, -, hcomplete⟩ := recognised_iff_derivable
    ⟨fun _ xs => xs.reverse, fun _ xs => xs.reverse_perm⟩ optionalPairs (by decide) "root"
    (by decide) "abb"
  refine ⟨v, hv, hcomplete not_leftRecursive_optionalPairs ?_⟩
  have hend : Derives optionalPairs (.rule "end") ['b'] := .rule rfl (.literal ['b'])
  have hskip : Derives optionalPairs (.rep (.literal [97]) 0 (some 1)) [] :=
    .rep 0 (by decide) (by decide) .nil
  have htake : Derives optionalPairs (.rep (.literal [97]) 0 (some 1)) ['a'] :=
    .rep 1 (by decide) (by decide) (.cons (.literal ['a']) .nil)
  have hlong : Derives optionalPairs (.rule "item") ['a', 'b'] :=
    .rule rfl (.cons htake (.cons hend .nil))
  have hshort : Derives optionalPairs (.rule "item") ['b'] :=
    .rule rfl (.cons hskip (.cons hend .nil))
  exact .rule rfl (.rep 2 (by decide) (by decide) (.cons hlong (.cons hshort .nil)))

end Check

end Grammar

end SchemaGrammar
