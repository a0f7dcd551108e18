import Mathlib.Algebra.Order.Field.Basic
import Mathlib.Algebra.Order.Field.Rat
import Mathlib.Data.Prod.Lex
import SchemaGrammar.Proofs.RunSort
import SchemaGrammar.Proofs.Rules.Table

set_option autoImplicit false

/-! # The order of properties

Where a comparison is that of some keys, a sort puts its items in the order of these keys
(`pairwise_sort`). Priorities are compared by their values, and places in the declaration tell
equal ones apart, so properties are written in the order of their priorities, ties in the order of
declaration (`pairwise_sortProperties`). -/

namespace SchemaGrammar

open Work (except_bind_eq_ok)

/-! ## Sorting by keys -/

namespace RunSort

variable {α ε κ : Type} [LinearOrder κ] {less : α → α → Except ε Bool} {key : α → κ}

/-- On some items a comparison is that of their keys. -/
def ComparesBy (less : α → α → Except ε Bool) (key : α → κ) (items : List α) : Prop :=
  ∀ a ∈ items, ∀ b ∈ items, less a b = .ok (decide (key a < key b))

theorem ComparesBy.subset {items others : List α} (h : ComparesBy less key items)
    (hsub : ∀ x ∈ others, x ∈ items) : ComparesBy less key others :=
  fun a ha b hb => h a (hsub a ha) b (hsub b hb)

/-- In a run each item relates to the one before it as the first two do. -/
theorem isChain_takeRun {falling : Bool} {last : α} {items run behind : List α}
    (hless : ComparesBy less key (last :: items))
    (h : takeRun less falling last items = .ok (run, behind)) :
    List.IsChain (fun a b => decide (key b < key a) = falling) (last :: run) := by
  induction items generalizing last run with
  | nil =>
    obtain ⟨rfl, rfl⟩ := Prod.mk.inj (Except.ok.inj h)
    exact .singleton _
  | cons x rest ih =>
    obtain ⟨answer, hanswer, hmore⟩ := except_bind_eq_ok.1 h
    obtain rfl := Except.ok.inj ((hless x (by simp) last (by simp)).symm.trans hanswer)
    split_ifs at hmore with hsame
    · obtain ⟨⟨front, back⟩, hrest, hlast⟩ := except_bind_eq_ok.1 hmore
      obtain ⟨rfl, rfl⟩ := Prod.mk.inj (Except.ok.inj hlast)
      have hothers := hless.subset fun y hy => List.mem_cons_of_mem last hy
      exact .cons_cons (by simpa using hsame) (ih hothers hrest)
    · obtain ⟨rfl, rfl⟩ := Prod.mk.inj (Except.ok.inj hmore)
      exact .singleton _

/-- An insertion keeps sorted items sorted: by induction on the halves that it looks into. -/
theorem pairwise_insert {x : α} (sorted : List α) {result : List α}
    (hless : ComparesBy less key (x :: sorted)) (h : insert less x sorted = .ok result)
    (hsorted : sorted.Pairwise (key · ≤ key ·)) : result.Pairwise (key · ≤ key ·) := by
  induction sorted using insert.induct generalizing result with
  | case1 =>
    rw [insert] at h
    rw [← Except.ok.inj h]
    exact List.pairwise_singleton _ _
  | case2 first rest half below above ihbelow =>
    rename_i ihabove
    rw [insert] at h
    obtain ⟨answer, hanswer, hmore⟩ := except_bind_eq_ok.1 h
    have hwhole := take_middle_drop first rest
    -- the middle splits the sorted items in two
    generalize hmiddle : ((first :: rest).drop ((first :: rest).length / 2)).headD first = middle
      at hanswer hmore hwhole
    have hmem {y : α} (hy : y ∈ below ++ middle :: above) : y ∈ first :: rest := hwhole ▸ hy
    obtain ⟨hbelow, hupper, hcross⟩ := List.pairwise_append.1 (hwhole.symm ▸ hsorted)
    obtain ⟨hleast, habove⟩ := List.pairwise_cons.1 hupper
    have hsub {others : List α} (hothers : ∀ y ∈ others, y ∈ below ++ middle :: above) :
        ComparesBy less key (x :: others) :=
      hless.subset fun y hy => by
        rcases List.mem_cons.1 hy with rfl | hy
        · exact List.mem_cons_self
        · exact List.mem_cons_of_mem _ (hmem (hothers y hy))
    obtain rfl := Except.ok.inj
      ((hless x (by simp) middle (List.mem_cons_of_mem _ (hmem (by simp)))).symm.trans hanswer)
    split_ifs at hmore with hlt
    · -- the new item goes below the middle, and so below all from there on
      obtain ⟨inner, hinner, hlast⟩ := except_bind_eq_ok.1 hmore
      have hinside := ihbelow (hsub fun y hy => List.mem_append_left _ hy) hinner hbelow
      rw [← Except.ok.inj hlast]
      refine List.pairwise_append.2 ⟨hinside, hupper, fun a ha b hb => ?_⟩
      rcases List.mem_cons.1 ((perm_insert _ hinner).mem_iff.1 ha) with rfl | ha
      · have hle : key a ≤ key middle := le_of_lt (by simpa using hlt)
        rcases List.mem_cons.1 hb with rfl | hb
        · exact hle
        · exact le_trans hle (hleast b hb)
      · exact hcross a ha b hb
    · -- it is not below the middle, and goes behind all that equal it
      obtain ⟨inner, hinner, hlast⟩ := except_bind_eq_ok.1 hmore
      have hinside := ihabove
        (hsub fun y hy => List.mem_append_right _ (List.mem_cons_of_mem _ hy)) hinner habove
      have hle : key middle ≤ key x := by simpa using hlt
      have hitems {b : α} (hb : b ∈ inner) : b = x ∨ b ∈ above :=
        List.mem_cons.1 ((perm_insert _ hinner).mem_iff.1 hb)
      rw [← Except.ok.inj hlast]
      refine List.pairwise_append.2 ⟨hbelow, List.pairwise_cons.2 ⟨fun b hb => ?_, hinside⟩,
        fun a ha b hb => ?_⟩
      · rcases hitems hb with rfl | hb
        · exact hle
        · exact hleast b hb
      · rcases List.mem_cons.1 hb with rfl | hb
        · exact hcross a ha _ List.mem_cons_self
        rcases hitems hb with rfl | hb
        · exact le_trans (hcross a ha middle List.mem_cons_self) hle
        · exact hcross a ha b (List.mem_cons_of_mem _ hb)

theorem pairwise_foldlM (behind : List α) {sorted result : List α}
    (hless : ComparesBy less key (behind ++ sorted))
    (h : behind.foldlM (fun sorted z => insert less z sorted) sorted = .ok result)
    (hsorted : sorted.Pairwise (key · ≤ key ·)) : result.Pairwise (key · ≤ key ·) := by
  induction behind generalizing sorted with
  | nil => rwa [← Except.ok.inj h]
  | cons z rest ih =>
    rw [List.foldlM_cons] at h
    obtain ⟨next, hnext, hrest⟩ := except_bind_eq_ok.1 h
    have hperm := perm_insert sorted hnext
    refine ih (hless.subset fun y hy => ?_) hrest (pairwise_insert sorted
      (hless.subset fun y hy => ?_) hnext hsorted)
    · rcases List.mem_append.1 hy with hy | hy
      · simp [hy]
      · rcases List.mem_cons.1 (hperm.mem_iff.1 hy) with rfl | hy <;> simp [*]
    · rcases List.mem_cons.1 hy with rfl | hy <;> simp [*]

/-- **Sorting sorts.** Where the comparison is that of keys, so is the order of the result. -/
theorem pairwise_sort {items result : List α} (hless : ComparesBy less key items)
    (h : sort less items = .ok result) : result.Pairwise (key · ≤ key ·) := by
  unfold sort at h
  split at h
  · rename_i x y rest
    obtain ⟨falling, hfalling, hmore⟩ := except_bind_eq_ok.1 h
    obtain ⟨⟨run, behind⟩, hrun, hlast⟩ := except_bind_eq_ok.1 hmore
    obtain rfl := Except.ok.inj ((hless y (by simp) x (by simp)).symm.trans hfalling)
    have happend := takeRun_append hrun
    have hchain := isChain_takeRun (hless.subset fun z hz => List.mem_cons_of_mem x hz) hrun
    have hfront : List.IsChain (fun a b => decide (key b < key a) = decide (key y < key x))
        (x :: y :: run) := .cons_cons rfl hchain
    refine pairwise_foldlM behind (hless.subset fun z hz => ?_) hlast ?_
    · -- turned round or not, the run and what is behind it are the items
      rw [← happend]
      split_ifs at hz <;> simp only [List.mem_append, List.mem_reverse, List.mem_cons] at hz ⊢ <;>
        tauto
    · by_cases hlt : key y < key x
      · -- the run falls, and is turned round
        rw [if_pos (by simpa using hlt), List.pairwise_reverse]
        simp only [hlt, decide_true, decide_eq_true_eq] at hfront
        have htrans : IsTrans α fun a b => key b < key a := ⟨fun a b c hab hbc => hbc.trans hab⟩
        exact (List.isChain_iff_pairwise.1 hfront).imp le_of_lt
      · rw [if_neg (by simpa using hlt)]
        simp only [hlt, decide_false, decide_eq_false_iff_not, not_lt] at hfront
        have htrans : IsTrans α fun a b => key a ≤ key b := ⟨fun a b c hab hbc => hab.trans hbc⟩
        exact List.isChain_iff_pairwise.1 hfront
  · rename_i short
    rw [← Except.ok.inj h]
    rcases items with _ | ⟨x, _ | ⟨y, rest⟩⟩
    · exact .nil
    · exact List.pairwise_singleton _ _
    · exact absurd rfl (short x y rest)

/-! ### Sorting ends well -/

theorem exists_takeRun (falling : Bool) {last : α} {items : List α}
    (hless : ComparesBy less key (last :: items)) :
    ∃ taken, takeRun less falling last items = .ok taken := by
  induction items generalizing last with
  | nil => exact ⟨_, rfl⟩
  | cons x rest ih =>
    obtain ⟨taken, htaken⟩ := ih (hless.subset fun y hy => List.mem_cons_of_mem last hy)
    rw [takeRun, hless x (by simp) last (by simp), htaken]
    dsimp only [bind, Except.bind]
    split_ifs
    · exact ⟨_, rfl⟩
    · exact ⟨_, rfl⟩

theorem exists_insert {x : α} (sorted : List α) (hless : ComparesBy less key (x :: sorted)) :
    ∃ result, insert less x sorted = .ok result := by
  induction sorted using insert.induct with
  | case1 => exact ⟨_, by rw [insert]⟩
  | case2 first rest half below above ihbelow =>
    rename_i ihabove
    have hwhole := take_middle_drop first rest
    have hmem {y : α} (hy : y ∈ below ∨ y ∈ above) : y ∈ first :: rest := by
      rw [← hwhole]
      rcases hy with hy | hy
      · exact List.mem_append_left _ hy
      · exact List.mem_append_right _ (List.mem_cons_of_mem _ hy)
    have hsub {others : List α} (hothers : ∀ y ∈ others, y ∈ below ∨ y ∈ above) :
        ComparesBy less key (x :: others) :=
      hless.subset fun y hy => by
        rcases List.mem_cons.1 hy with rfl | hy
        · exact List.mem_cons_self
        · exact List.mem_cons_of_mem _ (hmem (hothers y hy))
    obtain ⟨front, hfront⟩ := ihbelow (hsub fun y hy => .inl hy)
    obtain ⟨back, hback⟩ := ihabove (hsub fun y hy => .inr hy)
    have hmiddle : ((first :: rest).drop half).headD first ∈ first :: rest :=
      (congrArg (_ ∈ ·) hwhole).mp (List.mem_append_right _ List.mem_cons_self)
    rw [insert, hless x (by simp) _ (List.mem_cons_of_mem _ hmiddle), hfront, hback]
    dsimp only [bind, Except.bind]
    split_ifs
    · exact ⟨_, rfl⟩
    · exact ⟨_, rfl⟩

theorem exists_foldlM (behind : List α) {sorted : List α}
    (hless : ComparesBy less key (behind ++ sorted)) :
    ∃ result, behind.foldlM (fun sorted z => insert less z sorted) sorted = .ok result := by
  induction behind generalizing sorted with
  | nil => exact ⟨_, rfl⟩
  | cons z rest ih =>
    obtain ⟨next, hnext⟩ := exists_insert (x := z) sorted (hless.subset fun y hy => by
      rcases List.mem_cons.1 hy with rfl | hy <;> simp [*])
    have hperm := perm_insert sorted hnext
    have hrest : ComparesBy less key (rest ++ next) := hless.subset fun y hy => by
      rcases List.mem_append.1 hy with hy | hy
      · simp [hy]
      · rcases List.mem_cons.1 (hperm.mem_iff.1 hy) with rfl | hy <;> simp [*]
    obtain ⟨result, hresult⟩ := ih hrest
    exact ⟨result, by rw [List.foldlM_cons, hnext]; exact hresult⟩

/-- Where the comparison is that of keys, sorting does not fail. -/
theorem exists_sort {items : List α} (hless : ComparesBy less key items) :
    ∃ result, sort less items = .ok result := by
  unfold sort
  split
  · rename_i x y rest
    obtain ⟨⟨run, behind⟩, hrun⟩ := exists_takeRun (decide (key y < key x))
      (hless.subset fun z hz => List.mem_cons_of_mem x hz)
    have happend := takeRun_append hrun
    rw [hless y (by simp) x (by simp)]
    dsimp only [bind, Except.bind]
    rw [hrun]
    refine exists_foldlM behind (hless.subset fun z hz => ?_)
    rw [← happend]
    split_ifs at hz <;> simp only [List.mem_append, List.mem_reverse, List.mem_cons] at hz ⊢ <;>
      tauto
  · exact ⟨_, rfl⟩

end RunSort

/-! ## Values of numbers -/

namespace Number

/-- The value of a number between those that are below and above all others. -/
def Rank.value : Rank → WithBot (WithTop ℚ)
  | .undefined | .above => ⊤
  | .below => ⊥
  | .exact num den => ((num / den : ℚ) : WithTop ℚ)

/-- The value of a number. -/
def value (x : Number) : WithBot (WithTop ℚ) :=
  x.rank.value

theorem rank_ne_undefined {x : Number} (h : x ≠ .double .nan) : x.rank ≠ .undefined := by
  match x with
  | .whole n => simp [rank]
  | .double .nan => exact absurd rfl h
  | .double (.infinite true) => simp [rank]
  | .double (.infinite false) => simp [rank]
  | .double (.finite negative m e) => simp [rank, Double.ratio?]

theorem den_pos {x : Number} {num : Int} {den : Nat} (h : x.rank = .exact num den) : 0 < den := by
  match x with
  | .whole n =>
    obtain ⟨-, rfl⟩ := Rank.exact.inj h
    exact Nat.one_pos
  | .double .nan => cases h
  | .double (.infinite true) => cases h
  | .double (.infinite false) => cases h
  | .double (.finite negative m e) =>
    obtain ⟨-, rfl⟩ := Rank.exact.inj h
    split_ifs
    · exact Nat.one_pos
    · exact Nat.pow_pos Nat.two_pos

/-- Fractions compare as their products do. -/
theorem div_lt_div_iff_int {p r : Int} {q s : Nat} (hq : 0 < q) (hs : 0 < s) :
    (p / q : ℚ) < r / s ↔ p * s < r * q := by
  rw [div_lt_div_iff₀ (by exact_mod_cast hq) (by exact_mod_cast hs)]
  exact_mod_cast Iff.rfl

theorem div_eq_div_iff_int {p r : Int} {q s : Nat} (hq : 0 < q) (hs : 0 < s) :
    (p / q : ℚ) = r / s ↔ p * s = r * q := by
  rw [div_eq_div_iff (by exact_mod_cast hq.ne') (by exact_mod_cast hs.ne')]
  exact_mod_cast Iff.rfl

section Compare

variable {a b : Number} (ha : a ≠ .double .nan) (hb : b ≠ .double .nan)

include ha hb

/-- Numbers are compared by their values. -/
theorem lt_eq_decide : a.lt b = decide (a.value < b.value) := by
  have hdefined := rank_ne_undefined ha
  have hdefined' := rank_ne_undefined hb
  rw [lt, value, value]
  cases hx : a.rank with
  | undefined => exact absurd hx hdefined
  | below => cases hy : b.rank <;> simp_all [Rank.value, bot_lt_iff_ne_bot]
  | above => cases hy : b.rank <;> simp_all [Rank.value]
  | exact p q =>
    -- fractions are compared without dividing
    cases hy : b.rank with
    | undefined => exact absurd hy hdefined'
    | below => simp [Rank.value]
    | above => exact (decide_eq_true (WithBot.coe_lt_coe.2 (WithTop.coe_lt_top _))).symm
    | exact r s =>
      simp only [Rank.value, WithBot.coe_lt_coe, WithTop.coe_lt_coe,
        div_lt_div_iff_int (den_pos hx) (den_pos hy)]

theorem same_eq_decide : a.same b = decide (a.value = b.value) := by
  have hdefined := rank_ne_undefined ha
  have hdefined' := rank_ne_undefined hb
  rw [same, value, value]
  cases hx : a.rank with
  | undefined => exact absurd hx hdefined
  | below => cases hy : b.rank <;> simp_all [Rank.value]
  | above => cases hy : b.rank <;> simp_all [Rank.value]
  | exact p q =>
    cases hy : b.rank with
    | undefined => exact absurd hy hdefined'
    | below => simp [Rank.value]
    | above => simp [Rank.value]
    | exact r s =>
      simp only [Rank.value, WithBot.coe_inj, WithTop.coe_inj,
        div_eq_div_iff_int (den_pos hx) (den_pos hy)]
      rfl

end Compare

end Number

namespace Json

/-- What has a number is one or a truth value. -/
theorem eq_of_number? {v : Json} {x : Number} (h : v.number? = some x) :
    v = .num x ∨ ∃ b, v = .bool b ∧ x = .whole (if b then 1 else 0) := by
  cases v with
  | num y => exact .inl (congrArg Json.num (Option.some.inj h))
  | bool b => exact .inr ⟨b, rfl, (Option.some.inj h).symm⟩
  | null | str | arr | obj => cases h

section Numbers

variable {v w : Json} {x y : Number} (hx : v.number? = some x) (hy : w.number? = some y)

include hx hy

theorem equal_eq_same : v.equal true w = x.same y := by
  rcases eq_of_number? hx with rfl | ⟨a, rfl, rfl⟩ <;>
    rcases eq_of_number? hy with rfl | ⟨b, rfl, rfl⟩
  · simp [equal]
  · simp [equal]
  · simp [equal]
  · cases a <;> cases b <;> decide

theorem less_eq_lt : v.less w = .ok (x.lt y) := by
  rcases eq_of_number? hx with rfl | ⟨a, rfl, rfl⟩ <;>
    rcases eq_of_number? hy with rfl | ⟨b, rfl, rfl⟩
  · simp [less]
  · simp [less]
  · simp [less]
  · cases a <;> cases b <;> simp [less, Number.lt, Number.rank]

end Numbers

theorem areNan_eq_false {v w : Json} {x : Number} (hx : v.number? = some x)
    (hnan : x ≠ .double .nan) : v.areNan w = false := by
  rcases eq_of_number? hx with rfl | ⟨a, rfl, rfl⟩
  · unfold areNan
    split
    · rename_i heq
      exact absurd (Json.num.inj heq) hnan
    · rfl
  · rfl

end Json

/-! ## Properties -/

namespace Options

/-- Every priority is a number. -/
def HasNumbers (o : Options) : Prop :=
  ∀ name v, o.priority name = .ok v → ∃ x, v.number? = some x ∧ x ≠ .double .nan

/-- Whole numbers are numbers, and so are finite doubles. -/
theorem hasNumbers_of_fields {o : Options} {fields : Json.Fields} (ho : o.priorities = .obj fields)
    (h : ∀ x ∈ fields, ∃ n, x.2.number? = some n ∧ n ≠ .double .nan) : o.HasNumbers := by
  intro name v hv
  rw [priority, ho] at hv
  obtain rfl := Except.ok.inj hv
  cases hget : Json.Fields.get? fields name with
  | none => exact ⟨.double (.infinite false), rfl, by simp⟩
  | some v => exact h (name, v) (Assoc.mem_of_lookup hget)

/-- The value of a priority. -/
def standingOf (v : Json) : WithBot (WithTop ℚ) :=
  (v.number?.map Number.value).getD ⊤

/-- Where a property stands: at the value of its priority, and behind all others without one. -/
def standing (o : Options) (name : String) : WithBot (WithTop ℚ) :=
  match o.priority name with
  | .ok v => standingOf v
  | .error _ => ⊤

/-- Where a property is written: by where it stands and then by its place in the declaration. -/
def precedence (o : Options) (names : List String) (name : String) : WithBot (WithTop ℚ) ×ₗ Nat :=
  toLex (o.standing name, names.idxOf name)

/-- What the comparison of properties looks at. -/
def Ranked.key (r : Ranked) : WithBot (WithTop ℚ) ×ₗ Nat :=
  toLex (standingOf r.priority, r.index)

theorem before_eq {a b : Ranked} {x y : Number} (hx : a.priority.number? = some x)
    (hy : b.priority.number? = some y) (hxnan : x ≠ .double .nan) (hynan : y ≠ .double .nan) :
    a.before b = .ok (decide (a.key < b.key)) := by
  have hkey : a.key < b.key ↔ x.value < y.value ∨ x.value = y.value ∧ a.index < b.index := by
    rw [Ranked.key, Ranked.key, Prod.Lex.toLex_lt_toLex, standingOf, standingOf, hx, hy]
    rfl
  rw [Ranked.before, Json.areNan_eq_false hx hxnan, Json.equal_eq_same hx hy,
    Json.less_eq_lt hx hy, Number.same_eq_decide hxnan hynan, Number.lt_eq_decide hxnan hynan]
  by_cases hsame : x.value = y.value
  · simp [hkey, hsame]
  · simp [hkey, hsame]

/-- Each property is ranked by its priority and its place. -/
theorem ranked_of_mem {o : Options} {names : List (String × Nat)} {ranked : List Ranked}
    (h : names.mapM (fun (name, i) => return ⟨name, ← o.priority name, i⟩) =
      (.ok ranked : Except Failure (List Ranked))) :
    ∀ r ∈ ranked, (r.name, r.index) ∈ names ∧ o.priority r.name = .ok r.priority := by
  induction names generalizing ranked with
  | nil =>
    obtain rfl := Except.ok.inj h
    simp
  | cons first rest ih =>
    rw [List.mapM_cons] at h
    obtain ⟨head, hhead, hmore⟩ := except_bind_eq_ok.1 h
    obtain ⟨tail, htail, hlast⟩ := except_bind_eq_ok.1 hmore
    obtain ⟨priority, hpriority, hpure⟩ := except_bind_eq_ok.1 hhead
    obtain rfl := Except.ok.inj hpure
    obtain rfl := Except.ok.inj hlast
    intro r hr
    rcases List.mem_cons.1 hr with rfl | hr
    · exact ⟨List.mem_cons_self, hpriority⟩
    · obtain ⟨hmem, hsame⟩ := ih htail r hr
      exact ⟨List.mem_cons_of_mem _ hmem, hsame⟩

/-- Ranked properties are compared by their keys. -/
theorem comparesBy_ranked {o : Options} {names : List (String × Nat)} {ranked : List Ranked}
    (ho : o.HasNumbers) (h : names.mapM (fun (name, i) => return ⟨name, ← o.priority name, i⟩) =
      (.ok ranked : Except Failure (List Ranked))) :
    RunSort.ComparesBy Ranked.before Ranked.key ranked := by
  have hof := ranked_of_mem h
  intro a ha b hb
  obtain ⟨x, hx, hxnan⟩ := ho _ _ (hof a ha).2
  obtain ⟨y, hy, hynan⟩ := ho _ _ (hof b hb).2
  exact before_eq hx hy hxnan hynan

/-- **Properties are written by priority**, and those of the same priority as they are declared. -/
theorem pairwise_sortProperties {o : Options} {names sorted : List String} (ho : o.HasNumbers)
    (hnames : names.Nodup) (h : o.sortProperties names = .ok sorted) :
    sorted.Pairwise fun a b => o.precedence names a < o.precedence names b := by
  have hperm := perm_sortProperties h
  unfold sortProperties at h
  obtain ⟨ranked, hranked, hmore⟩ := except_bind_eq_ok.1 h
  obtain ⟨result, hresult, hlast⟩ := except_bind_eq_ok.1 hmore
  obtain rfl := Except.ok.inj hlast
  have hof := ranked_of_mem hranked
  have hless := comparesBy_ranked ho hranked
  have hkey {r : Ranked} (hr : r ∈ result) : r.key = o.precedence names r.name := by
    obtain ⟨hmem, hpriority⟩ := hof r ((RunSort.perm_sort hresult).mem_iff.1 hr)
    obtain ⟨hlt, hname⟩ := List.mem_zipIdx' hmem
    have hindex : names.idxOf r.name = r.index := by
      rw [hname, hnames.idxOf_getElem]
    rw [Ranked.key, precedence, standing, hpriority, hindex]
  have hdistinct : (result.map Ranked.name).Nodup := hperm.nodup_iff.2 hnames
  have hsorted := RunSort.pairwise_sort hless hresult
  -- sorting gives no more than an order with ties, so the names have to tell equal keys apart
  rw [List.pairwise_map]
  have hboth := hsorted.and (List.pairwise_map.1 hdistinct)
  refine hboth.imp_of_mem fun {a b} ha hb hab => ?_
  rw [← hkey ha, ← hkey hb]
  refine lt_of_le_of_ne hab.1 fun heq => hab.2 ?_
  -- equal keys are of equal places, so of one name
  rw [hkey ha, hkey hb] at heq
  have hindex : names.idxOf a.name = names.idxOf b.name := (Prod.mk.inj heq).2
  have hmem : a.name ∈ names := hperm.mem_iff.1 (List.mem_map_of_mem ha)
  exact (List.idxOf_inj hmem).1 hindex

/-- Priorities are an object of numbers. -/
def RanksByNumber (o : Options) : Prop :=
  ∃ fields, o.priorities = .obj fields ∧
    ∀ x ∈ fields, ∃ n, x.2.number? = some n ∧ n ≠ .double .nan

/-- Where priorities are numbers, all properties can be put in order. -/
theorem exists_sortProperties {o : Options} (ho : o.RanksByNumber) (names : List String) :
    ∃ sorted, o.sortProperties names = .ok sorted := by
  obtain ⟨fields, hfields, hnumbers⟩ := ho
  obtain ⟨ranked, hranked⟩ : ∃ ranked, names.zipIdx.mapM (fun (name, i) =>
      return (⟨name, ← o.priority name, i⟩ : Ranked)) = (.ok ranked : Except Failure _) := by
    induction names.zipIdx with
    | nil => exact ⟨[], rfl⟩
    | cons first rest ih =>
      obtain ⟨ranked, hranked⟩ := ih
      obtain ⟨name, i⟩ := first
      have hpriority : o.priority name =
          .ok ((Json.Fields.get? fields name).getD (.num (.double (.infinite false)))) := by
        rw [priority, hfields]
        rfl
      rw [List.mapM_cons, hranked]
      dsimp only
      rw [hpriority]
      exact ⟨_, rfl⟩
  obtain ⟨sorted, hsorted⟩ := RunSort.exists_sort
    (comparesBy_ranked (hasNumbers_of_fields hfields hnumbers) hranked)
  refine ⟨sorted.map Ranked.name, ?_⟩
  rw [sortProperties, hranked]
  dsimp only [bind, Except.bind]
  rw [hsorted]
  rfl

end Options

end SchemaGrammar
