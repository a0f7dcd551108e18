import Mathlib.Order.Bounds.Basic
import SchemaGrammar.Proofs.Grammar.Termination

set_option autoImplicit false

/-! # How far a match can get

For a text that is rejected a check reports the furthest offset at which a literal or a class has
ended. `Touches` says at which offsets one can end at all: behind parts that match the text in front
of it. Matching leaves out much that it could try. What it remembers of a rule it does not match
again, items behind one that matches nowhere it does not look at, and a repetition drops the offsets
of earlier rounds. None of this loses an offset: `Hears` says so for a piece of work, `Ahead` for the
rounds of a repetition, and the result is `furthest_isGreatest`. -/

namespace SchemaGrammar

namespace Grammar

/-! ## Where literals and classes end -/

/-- In a match of the node that starts at the first offset and may break off anywhere, a literal or
    a class ends at the second: all that stands before it matches the text before it. A repetition
    may take one more round as long as its greatest count is not reached. -/
inductive Touches (g : Grammar) (text : List Char) : Node → Nat → Nat → Prop
  | literal {codes : List Nat} {i e : Nat} (h : Spans g text (.literal codes) i e) :
      Touches g text (.literal codes) i e
  | charClass {negated : Bool} {ranges : List (Nat × Nat)} {i e : Nat}
      (h : Spans g text (.charClass negated ranges) i e) :
      Touches g text (.charClass negated ranges) i e
  | rule {name : String} {body : Node} {i e : Nat} (hbody : g.find? name = some body)
      (h : Touches g text body i e) : Touches g text (.rule name) i e
  | first {node : Node} {rest : List Node} {i e : Nat} (h : Touches g text node i e) :
      Touches g text (.seq (node :: rest)) i e
  | later {node : Node} {rest : List Node} {i k e : Nat} (before : Spans g text node i k)
      (h : Touches g text (.seq rest) k e) : Touches g text (.seq (node :: rest)) i e
  | alt {node : Node} {branches : List Node} {i e : Nat} (mem : node ∈ branches)
      (h : Touches g text node i e) : Touches g text (.alt branches) i e
  | rep {node : Node} {min : Int} {max : Option Int} {i k e : Nat} (count : Nat)
      (more : ∀ n ∈ max, (count : Int) < n)
      (before : Spans g text (.seq (List.replicate count node)) i k)
      (h : Touches g text node k e) : Touches g text (.rep node min max) i e

section Touches

variable {g : Grammar} {text : List Char} {i e : Nat}

theorem Touches.le_length {node : Node} (h : Touches g text node i e) (hi : i ≤ text.length) :
    e ≤ text.length := by
  induction h with
  | literal h => exact h.le_length hi
  | charClass h => exact h.le_length hi
  | rule _ _ ih => exact ih hi
  | first _ ih => exact ih hi
  | later before _ ih => exact ih (before.le_length hi)
  | alt _ _ ih => exact ih hi
  | rep _ _ before _ ih => exact ih (before.le_length hi)

theorem touches_literal_iff {codes : List Nat} :
    Touches g text (.literal codes) i e ↔ Spans g text (.literal codes) i e :=
  ⟨fun h => by cases h; assumption, .literal⟩

theorem touches_charClass_iff {negated : Bool} {ranges : List (Nat × Nat)} :
    Touches g text (.charClass negated ranges) i e ↔
      Spans g text (.charClass negated ranges) i e :=
  ⟨fun h => by cases h; assumption, .charClass⟩

theorem touches_rule_iff {name : String} {body : Node} (hbody : g.find? name = some body) :
    Touches g text (.rule name) i e ↔ Touches g text body i e := by
  refine ⟨fun h => ?_, .rule hbody⟩
  cases h with
  | rule hother h =>
    obtain rfl := Option.some.inj (hother.symm.trans hbody)
    exact h

theorem not_touches_nil : ¬ Touches g text (.seq []) i e := by
  rintro ⟨⟩

theorem touches_cons_iff {node : Node} {rest : List Node} :
    Touches g text (.seq (node :: rest)) i e ↔ Touches g text node i e ∨
      ∃ k, Spans g text node i k ∧ Touches g text (.seq rest) k e := by
  constructor
  · rintro (_ | _ | _ | h | ⟨before, h⟩)
    · exact .inl h
    · exact .inr ⟨_, before, h⟩
  · rintro (h | ⟨k, before, h⟩)
    · exact .first h
    · exact .later before h

theorem touches_alt_iff {branches : List Node} :
    Touches g text (.alt branches) i e ↔ ∃ node ∈ branches, Touches g text node i e := by
  constructor
  · rintro (_ | _ | _ | _ | _ | ⟨mem, h⟩)
    exact ⟨_, mem, h⟩
  · rintro ⟨node, mem, h⟩
    exact .alt mem h

/-- A repetition is touched in a round that may still be taken. -/
def TouchedInRound (R H : Nat → Nat → Prop) (max : Option Int) (i e : Nat) : Prop :=
  ∃ (count k : Nat), (∀ n ∈ max, (count : Int) < n) ∧ Steps R count i k ∧ H k e

theorem touches_rep_iff {node : Node} {min : Int} {max : Option Int} :
    Touches g text (.rep node min max) i e ↔
      TouchedInRound (Spans g text node) (Touches g text node) max i e := by
  constructor
  · rintro (_ | _ | _ | _ | _ | _ | ⟨count, more, before, h⟩)
    exact ⟨count, _, more, spans_replicate_iff.1 before, h⟩
  · rintro ⟨count, k, more, before, h⟩
    exact .rep count more (spans_replicate_iff.2 before) h

end Touches

/-! ## Work that goes further -/

/-- From one memory to another the furthest offset has come to all offsets in `V`, and to no
    other. -/
structure Marks (V : Nat → Prop) (m m' : Memory) : Prop where
  le : m.furthest ≤ m'.furthest
  all : ∀ e, V e → e ≤ m'.furthest
  only : m'.furthest = m.furthest ∨ V m'.furthest

/-- Work that keeps `J` and comes to all offsets in `V`. -/
def Hears (J : Memory → Prop) (V : Nat → Prop) (x : MatchM Offsets) : Prop :=
  ∀ m, J m → J (x m).2 ∧ Marks V m (x m).2

/-- An invariant that is kept when only the furthest offset grows. -/
def KeptFurther (J : Memory → Prop) : Prop :=
  ∀ m m' : Memory, m.ends = m'.ends → m.furthest ≤ m'.furthest → J m → J m'

section Hears

variable {I J : Memory → Prop} {P V W U : Nat → Prop} {m m₁ m₂ : Memory}

theorem Marks.refl (h : ∀ e, V e → e ≤ m.furthest) : Marks V m m :=
  ⟨le_rfl, h, .inl rfl⟩

theorem Marks.trans (h : Marks V m m₁) (h' : Marks W m₁ m₂) :
    Marks (fun e => V e ∨ W e) m m₂ := by
  refine ⟨h.le.trans h'.le, fun e he => ?_, ?_⟩
  · rcases he with he | he
    · exact (h.all e he).trans h'.le
    · exact h'.all e he
  · rcases h'.only with heq | hW
    · rw [heq]
      exact h.only.imp_right .inl
    · exact .inr (.inr hW)

theorem Marks.congr (h : Marks V m m₁) (hVW : ∀ e, V e ↔ W e) : Marks W m m₁ := by
  obtain rfl : V = W := funext fun e => propext (hVW e)
  exact h

theorem Hears.congr {x : MatchM Offsets} (h : Hears J V x) (hVW : ∀ e, V e ↔ W e) :
    Hears J W x :=
  fun m hm => (h m hm).imp_right (·.congr hVW)

/-- Work that does nothing comes to nothing new. -/
theorem Hears.pure {xs : Offsets} (h : ∀ e, ¬ V e) : Hears J V (Pure.pure xs) :=
  fun _ hm => ⟨hm, .refl fun e he => absurd he (h e)⟩

theorem Hears.reach (hJ : KeptFurther J) {stop : Nat} (h : ∀ e, V e ↔ e = stop) :
    Hears J V (reach stop) := by
  intro m hm
  have hle : m.furthest ≤ max m.furthest stop := le_max_left _ _
  refine ⟨hJ m _ rfl hle hm, hle, fun e he => ?_, ?_⟩
  · rw [(h e).1 he]
    exact le_max_right _ _
  · rcases max_choice m.furthest stop with heq | heq
    · exact .inl heq
    · exact .inr ((h _).2 heq)

/-- Two pieces of work, of which the second starts from all that the first finds. -/
theorem Hears.bind {x : MatchM Offsets} {f : Offsets → MatchM Offsets} (hJI : ∀ m, J m → I m)
    (hgives : Gives True I P x) (hx : Hears J V x)
    (hf : ∀ xs, (∀ j ∈ xs, P j) → (∀ j, P j → j ∈ xs) → Hears J W (f xs)) :
    Hears J (fun e => V e ∨ W e) (x >>= f) := by
  intro m hm
  obtain ⟨-, hsound, hcomplete⟩ := hgives m (hJI m hm)
  obtain ⟨hm₁, hfirst⟩ := hx m hm
  obtain ⟨hm₂, hsecond⟩ := hf _ hsound (hcomplete trivial) _ hm₁
  exact ⟨hm₂, hfirst.trans hsecond⟩

theorem Hears.foldlM {visit : Nat → MatchM Offsets} {H : Nat → Nat → Prop} {starts : Offsets}
    (h : ∀ k ∈ starts, Hears J (H k) (visit k)) (acc : Offsets) :
    Hears J (fun e => ∃ k ∈ starts, H k e)
      (starts.foldlM (fun acc start => return acc.union (← visit start)) acc) := by
  induction starts generalizing acc with
  | nil =>
    rw [List.foldlM_nil]
    exact .pure (by simp)
  | cons k rest ih =>
    rw [List.foldlM_cons]
    intro m hm
    obtain ⟨hm₁, hfirst⟩ := h k (by simp) m hm
    obtain ⟨hm₂, hrest⟩ := ih (fun l hl => h l (by simp [hl])) (acc.union (visit k m).1) _ hm₁
    exact ⟨hm₂, (hfirst.trans hrest).congr fun e => by simp⟩

theorem Hears.fromEach (hJ : KeptFurther J) {order : Order} {visit : Nat → MatchM Offsets}
    {H : Nat → Nat → Prop} {starts : Offsets} (h : ∀ k ∈ starts, Hears J (H k) (visit k)) :
    Hears J (fun e => ∃ k ∈ starts, H k e) (fromEach order visit starts) := by
  intro m hm
  have hmem : ∀ k, k ∈ order.arrange m.turn starts ↔ k ∈ starts :=
    fun k => (order.perm m.turn starts).mem_iff
  obtain ⟨hm', hmarks⟩ := Hears.foldlM (fun k hk => h k ((hmem k).1 hk)) [] m.turned
    (hJ m _ rfl le_rfl hm)
  have hmarks' : Marks (fun e => ∃ k ∈ starts, H k e) m.turned _ :=
    hmarks.congr fun e => by simp [hmem]
  exact ⟨hm', hmarks'.le, hmarks'.all, hmarks'.only⟩

end Hears

/-! ## Rounds of a repetition -/

/-- Every offset from which a repetition may take a round has been heard, or is on the way from
    a current one with the rounds that are left. -/
structure Ahead (R : Nat → Nat → Prop) (max : Option Int) (i : Nat) (heard : Nat → Prop)
    (count : Nat) (current found : Offsets) : Prop where
  closed : ∀ x ∈ found, x ∈ current ∨ heard x ∧ ∀ y, R x y → y ∈ found
  ahead : ∀ (c x : Nat), (∀ n ∈ max, (c : Int) < n) → Steps R c i x →
    heard x ∨ ∃ y ∈ current, ∃ d, count + d ≤ c ∧ Steps R d y x

section Rounds

variable {R : Nat → Nat → Prop} {max : Option Int} {i count : Nat} {heard heard' : Nat → Prop}
  {current found ends : Offsets}

/-- From a found offset all is heard, up to a current one. -/
theorem Ahead.exit (hclosed : ∀ x ∈ found, x ∈ current ∨ heard x ∧ ∀ y, R x y → y ∈ found)
    {steps x z : Nat} (hx : x ∈ found) (hs : Steps R steps x z) :
    heard z ∨ ∃ y ∈ current, ∃ d ≤ steps, Steps R d y z := by
  induction steps generalizing x with
  | zero =>
    obtain rfl : x = z := hs
    exact (hclosed x hx).symm.imp And.left fun hcur => ⟨x, hcur, 0, le_rfl, rfl⟩
  | succ steps ih =>
    rcases hclosed x hx with hcur | ⟨-, hnext⟩
    · exact .inr ⟨x, hcur, steps + 1, le_rfl, hs⟩
    · obtain ⟨y, hxy, hs⟩ := hs
      exact (ih (hnext y hxy) hs).imp_right fun ⟨w, hw, d, hd, hs⟩ =>
        ⟨w, hw, d, hd.trans (Nat.le_succ _), hs⟩

/-- A way that is ahead goes through the ends of the next round, unless it stops here. -/
theorem Ahead.through (h : Ahead R max i heard count current found)
    (hheard : ∀ x, heard x → heard' x) (hcurrent : ∀ x ∈ current, heard' x)
    (hends : ∀ y, (∃ x ∈ current, R x y) → y ∈ ends) {c x : Nat}
    (hmore : ∀ n ∈ max, (c : Int) < n) (hs : Steps R c i x) :
    heard' x ∨ ∃ y ∈ ends, ∃ d, count + 1 + d ≤ c ∧ Steps R d y x := by
  rcases h.ahead c x hmore hs with hx | ⟨y, hy, d, hd, hs⟩
  · exact .inl (hheard x hx)
  · cases d with
    | zero =>
      obtain rfl : y = x := hs
      exact .inl (hcurrent y hy)
    | succ d =>
      obtain ⟨z, hyz, hs⟩ := hs
      exact .inr ⟨z, hends z ⟨y, hy, hyz⟩, d, by omega, hs⟩

/-- A round before the least count is reached: all its ends are gone on from. -/
theorem Ahead.early (h : Ahead R max i heard count current [])
    (hheard : ∀ x, heard x → heard' x) (hcurrent : ∀ x ∈ current, heard' x)
    (hends : ∀ y, (∃ x ∈ current, R x y) → y ∈ ends) :
    Ahead R max i heard' (count + 1) ends [] :=
  ⟨by simp, fun _ _ hmore hs => h.through hheard hcurrent hends hmore hs⟩

/-- A round that counts: only the ends that are new are gone on from. From an end that was found
    before, fewer rounds were taken, and all that it leads to is heard or on the way. -/
theorem Ahead.next (h : Ahead R max i heard count current found)
    (hheard : ∀ x, heard x → heard' x) (hcurrent : ∀ x ∈ current, heard' x)
    (hends : ∀ y, (∃ x ∈ current, R x y) → y ∈ ends) :
    Ahead R max i heard' (count + 1) (ends.without found) ((ends.without found).union found) := by
  have hclosed : ∀ x ∈ (ends.without found).union found, x ∈ ends.without found ∨
      heard' x ∧ ∀ y, R x y → y ∈ (ends.without found).union found := by
    intro x hx
    refine (Offsets.mem_union.1 hx).imp_right fun hx => ?_
    rcases h.closed x hx with hcur | ⟨hxheard, hnext⟩
    · refine ⟨hcurrent x hcur, fun y hxy => Offsets.mem_union.2 ?_⟩
      by_cases hy : y ∈ found
      · exact .inr hy
      · exact .inl (Offsets.mem_without.2 ⟨hends y ⟨x, hcur, hxy⟩, hy⟩)
    · exact ⟨hheard x hxheard, fun y hxy => Offsets.mem_union.2 (.inr (hnext y hxy))⟩
  refine ⟨hclosed, fun c x hmore hs => ?_⟩
  rcases h.through hheard hcurrent hends hmore hs with hx | ⟨y, hy, d, hd, hs⟩
  · exact .inl hx
  · have hfound : y ∈ (ends.without found).union found := by
      by_cases hold : y ∈ found
      · exact Offsets.mem_union.2 (.inr hold)
      · exact Offsets.mem_union.2 (.inl (Offsets.mem_without.2 ⟨hy, hold⟩))
    exact (Ahead.exit hclosed hfound hs).imp_right fun ⟨w, hw, k, hk, hs⟩ =>
      ⟨w, hw, k, by omega, hs⟩

/-- When a repetition stops, every offset from which it may take a round has been heard. -/
theorem Ahead.finished (h : Ahead R max i heard count current found)
    (hstop : current = [] ∨ ∃ n ∈ max, n ≤ (count : Int)) {c x : Nat}
    (hmore : ∀ n ∈ max, (c : Int) < n) (hs : Steps R c i x) : heard x := by
  refine (h.ahead c x hmore hs).resolve_right fun ⟨y, hy, d, hd, _⟩ => ?_
  rcases hstop with rfl | ⟨n, hn, hle⟩
  · cases hy
  · have := hmore n hn
    omega

end Rounds

section Repetition

variable {I J : Memory → Prop} {R H : Nat → Nat → Prop} {order : Order}
  {visit : Nat → MatchM Offsets} {min : Int} {max : Option Int} {size i : Nat}

/-- The rounds of a repetition. Offsets that have been heard already are not heard again, so this
    is about the memory that the rounds start with. -/
theorem marks_repeatFrom (hI : AboutEnds I) (hJ : KeptFurther J) (hJI : ∀ m, J m → I m)
    (hR : ∀ x y, x ≤ size → R x y → x ≤ y ∧ y ≤ size) (hi : i ≤ size)
    (hgives : (∀ n ∈ max, 0 < n) → ∀ count x, Steps R count i x → Gives True I (R x) (visit x))
    (hhears : (∀ n ∈ max, 0 < n) → ∀ count x, Steps R count i x → Hears J (H x) (visit x))
    (rounds : Nat) : ∀ (count : Nat) (current found : Offsets) (m : Memory), J m →
      (∀ x ∈ current, Steps R count i x) → Offsets.Between 0 size found →
      Enough size min rounds count current found → ((count : Int) < min → found = []) →
      Ahead R max i (fun x => ∀ e, H x e → e ≤ m.furthest) count current found →
      J (repeatFrom order visit min max rounds count current found m).2 ∧
        Marks (TouchedInRound R H max i) m
          (repeatFrom order visit min max rounds count current found m).2 := by
  have hstopped : ∀ {count : Nat} {current found : Offsets} {m : Memory}, J m →
      (current = [] ∨ ∃ n ∈ max, n ≤ (count : Int)) →
      Ahead R max i (fun x => ∀ e, H x e → e ≤ m.furthest) count current found →
      J m ∧ Marks (TouchedInRound R H max i) m m := by
    intro count current found m hm hstop hahead
    exact ⟨hm, .refl fun e ⟨c, x, hmore, hs, he⟩ => hahead.finished hstop hmore hs e he⟩
  induction rounds with
  | zero =>
    intro count current found m hm _ hfound henough _ hahead
    exact hstopped hm (.inl (henough.eq_nil hfound)) hahead
  | succ rounds ih =>
    intro count current found m hm hcur hfound henough hwaits hahead
    rw [repeatFrom_succ]
    by_cases hstop : (current.isEmpty || !mayGoOn max count) = true
    · rw [if_pos hstop]
      exact hstopped hm (stops_iff.1 hstop) hahead
    rw [if_neg hstop]
    rw [stops_iff, not_or, not_exists] at hstop
    obtain ⟨hne, hlt⟩ := hstop
    have hmore : ∀ n ∈ max, (count : Int) < n := fun n hn => not_le.1 fun h => hlt n ⟨hn, h⟩
    have hpos : ∀ n ∈ max, 0 < n := fun n hn => (Int.natCast_nonneg count).trans_lt (hmore n hn)
    obtain ⟨-, hsound, hcomplete⟩ := Gives.fromEach hI
      (fun x hx => hgives hpos count x (hcur x hx)) m (hJI m hm)
    have hsweep : Hears J (fun e => ∃ x ∈ current, H x e) (fromEach order visit current) :=
      .fromEach hJ fun x hx => hhears hpos count x (hcur x hx)
    obtain ⟨hm₁, hround⟩ := hsweep m hm
    generalize fromEach order visit current m = r at hsound hcomplete hm₁ hround ⊢
    -- what was heard stays heard, and now the current offsets are heard, too
    have hheard : ∀ x, (∀ e, H x e → e ≤ m.furthest) → ∀ e, H x e → e ≤ r.2.furthest :=
      fun x hx e he => (hx e he).trans hround.le
    have hcurrent : ∀ x ∈ current, ∀ e, H x e → e ≤ r.2.furthest :=
      fun x hx e he => hround.all e ⟨x, hx, he⟩
    have hnext : ∀ x ∈ r.1, Steps R (count + 1) i x := by
      intro x hx
      obtain ⟨k, hk, hkx⟩ := hsound x hx
      exact (hcur k hk).snoc hkx
    have hbetween : Offsets.Between 0 size r.1 :=
      fun x hx => ⟨Nat.zero_le x, (Steps.bounds hR hi (hnext x hx)).2⟩
    have hjoin : ∀ {m₂ : Memory}, Marks (TouchedInRound R H max i) r.2 m₂ →
        Marks (TouchedInRound R H max i) m m₂ := by
      intro m₂ h
      refine (hround.trans h).congr fun e => ⟨?_, .inr⟩
      rintro (⟨x, hx, he⟩ | he)
      · exact ⟨count, x, hmore, hcur x hx, he⟩
      · exact he
    by_cases hmin : min ≤ count + 1
    · simp only [if_pos hmin]
      refine (ih (count + 1) _ _ r.2 hm₁ (fun x hx => hnext x (Offsets.mem_without.1 hx).1)
        (hbetween.without.union hfound) (henough.next hne hmin) (fun h => by omega)
        (hahead.next hheard hcurrent (hcomplete trivial))).imp_right hjoin
    · simp only [if_neg hmin]
      obtain rfl := hwaits (by omega)
      exact (ih (count + 1) _ _ r.2 hm₁ hnext hfound (henough.early hne hmin) (fun _ => rfl)
        (hahead.early hheard hcurrent (hcomplete trivial))).imp_right hjoin

/-- **Pruning loses no offset.** -/
theorem Hears.repeatFrom (hI : AboutEnds I) (hJ : KeptFurther J) (hJI : ∀ m, J m → I m)
    (hR : ∀ x y, x ≤ size → R x y → x ≤ y ∧ y ≤ size) (hi : i ≤ size)
    (hgives : (∀ n ∈ max, 0 < n) → ∀ count x, Steps R count i x → Gives True I (R x) (visit x))
    (hhears : (∀ n ∈ max, 0 < n) → ∀ count x, Steps R count i x → Hears J (H x) (visit x))
    (hmin : 0 ≤ min) :
    Hears J (TouchedInRound R H max i)
      (repeatFrom order visit min max (min.toNat + size + 2) 0 [i] (if min = 0 then [i] else [])) := by
  intro m hm
  have hstart : Offsets.Between 0 size [i] := Offsets.Between.singleton_iff.2 ⟨Nat.zero_le i, hi⟩
  have hfound : Offsets.Between 0 size (if min = 0 then [i] else []) := by
    split_ifs
    · exact hstart
    · exact .nil
  refine marks_repeatFrom hI hJ hJI hR hi hgives hhears _ 0 [i] _ m hm (by simp [Steps]) hfound
    (.inr (by omega)) (fun h => if_neg (by omega)) ⟨fun x hx => ?_, fun c x _ hs => ?_⟩
  · split_ifs at hx
    · exact .inl hx
    · cases hx
  · exact .inr ⟨i, by simp, c, by omega, hs⟩

end Repetition

/-! ## Nodes -/

section Nodes

variable {g : Grammar} {order : Order} {text : Array Char} {I J : Memory → Prop}
  {opened : Set (String × Nat)} {call : String → Nat → MatchM Offsets}

mutual

/-- How far the match of a node comes, provided that calls of rules give and come to what they
    should. -/
theorem matchNode_hears (hI : AboutEnds I) (hJ : KeptFurther J) (hJI : ∀ m, J m → I m)
    (hgives : ∀ name i, i ≤ text.size → (True → Clear g opened (.rule name) i) →
      Gives True I (Spans g text.toList (.rule name) i) (call name i))
    (hhears : ∀ name i, i ≤ text.size → Clear g opened (.rule name) i →
      Hears J (Touches g text.toList (.rule name) i) (call name i)) :
    ∀ (node : Node) (i : Nat), node.hasNaturalCounts = true → i ≤ text.size →
      Clear g opened node i →
      Hears J (Touches g text.toList node i) (matchNode order text call node i)
  | .literal codes, i, _, _, _ => by
    rw [matchNode]
    split_ifs with h
    · exact .reach hJ fun e => by
        rw [touches_literal_iff, spans_literal_iff, and_iff_right h]
    · refine .pure fun e he => ?_
      rw [touches_literal_iff, spans_literal_iff] at he
      exact h he.1
  | .charClass negated ranges, i, _, _, _ => by
    rw [matchNode]
    split
    · rename_i c hc
      split_ifs with h
      · refine .reach hJ fun e => ?_
        rw [touches_charClass_iff, spans_charClass_iff]
        simp [hc, h]
      · refine .pure fun e he => ?_
        rw [touches_charClass_iff, spans_charClass_iff] at he
        obtain ⟨d, hd, hholds, -⟩ := he
        rw [hc, Option.some.injEq] at hd
        exact h (hd ▸ hholds)
    · rename_i hc
      refine .pure fun e he => ?_
      rw [touches_charClass_iff, spans_charClass_iff] at he
      obtain ⟨d, hd, -⟩ := he
      simp [hc] at hd
  | .rule name, i, _, hi, hclear => by
    rw [matchNode]
    exact hhears name i hi hclear
  | .seq items, i, hnat, hi, hclear => by
    rw [matchNode]
    refine (matchSeq_hears hI hJ hJI hgives hhears items [i] hnat ?_).congr (by simp)
    simpa using ⟨hi, hclear⟩
  | .alt branches, i, hnat, hi, hclear => by
    rw [matchNode]
    exact (matchAlt_hears hI hJ hJI hgives hhears branches i [] hnat hi hclear).congr fun e =>
      touches_alt_iff.symm
  | .rep node min max, i, hnat, hi, hclear => by
    rw [matchNode]
    simp only [Node.hasNaturalCounts, Bool.and_eq_true, decide_eq_true_eq] at hnat
    obtain ⟨⟨hmin, -⟩, hnat⟩ := hnat
    have hbounds : ∀ x y, x ≤ text.size → Spans g text.toList node x y → x ≤ y ∧ y ≤ text.size :=
      fun x y hx h => ⟨h.le, by simpa using h.le_length (by simpa using hx)⟩
    have hround : (∀ n ∈ max, 0 < n) → ∀ count x, Steps (Spans g text.toList node) count i x →
        x ≤ text.size ∧ Clear g opened node x := by
      intro hpos count x hsteps
      obtain ⟨hix, hx⟩ := Steps.bounds hbounds hi hsteps
      refine ⟨hx, ?_⟩
      obtain rfl | hlt := hix.eq_or_lt
      · exact hclear.mono fun _ => .rep hpos
      · exact hclear.of_lt hlt
    refine (Hears.repeatFrom hI hJ hJI hbounds hi (fun hpos count x hsteps => ?_)
      (fun hpos count x hsteps => ?_) hmin).congr fun e => touches_rep_iff.symm
    · obtain ⟨hx, hclear⟩ := hround hpos count x hsteps
      exact matchNode_gives hI hgives node x hnat hx fun _ => hclear
    · obtain ⟨hx, hclear⟩ := hround hpos count x hsteps
      exact matchNode_hears hI hJ hJI hgives hhears node x hnat hx hclear

theorem matchSeq_hears (hI : AboutEnds I) (hJ : KeptFurther J) (hJI : ∀ m, J m → I m)
    (hgives : ∀ name i, i ≤ text.size → (True → Clear g opened (.rule name) i) →
      Gives True I (Spans g text.toList (.rule name) i) (call name i))
    (hhears : ∀ name i, i ≤ text.size → Clear g opened (.rule name) i →
      Hears J (Touches g text.toList (.rule name) i) (call name i)) :
    ∀ (items : List Node) (starts : Offsets), Node.haveNaturalCounts items = true →
      (∀ k ∈ starts, k ≤ text.size ∧ Clear g opened (.seq items) k) →
      Hears J (fun e => ∃ k ∈ starts, Touches g text.toList (.seq items) k e)
        (matchSeq order text call items starts)
  | [], starts, _, _ => by
    rw [matchSeq]
    exact .pure fun e ⟨_, _, h⟩ => not_touches_nil h
  | node :: rest, starts, hnat, hstarts => by
    rw [matchSeq]
    simp only [Node.haveNaturalCounts, Bool.and_eq_true] at hnat
    have hclear : ∀ k ∈ starts, k ≤ text.size ∧ Clear g opened node k := fun k hk =>
      (hstarts k hk).imp_right (·.mono fun _ => .first)
    refine ((Hears.fromEach hJ (H := Touches g text.toList node) fun k hk =>
      matchNode_hears hI hJ hJI hgives hhears node k hnat.1 (hclear k hk).1 (hclear k hk).2).bind
        hJI (Gives.fromEach hI (S := Spans g text.toList node) fun k hk =>
          matchNode_gives hI hgives node k hnat.1 (hclear k hk).1 fun _ => (hclear k hk).2)
        (W := fun e => ∃ l, (∃ k ∈ starts, Spans g text.toList node k l) ∧
          Touches g text.toList (.seq rest) l e) fun ends hs hc => ?_).congr fun e => ?_
    · split_ifs with hempty
      · refine .pure fun e ⟨l, hl, _⟩ => ?_
        have hmem := hc l hl
        simp [List.isEmpty_iff.1 hempty] at hmem
      · refine (matchSeq_hears hI hJ hJI hgives hhears rest ends hnat.2 fun l hl => ?_).congr
          fun e => ?_
        · obtain ⟨k, hk, hspan⟩ := hs l hl
          obtain ⟨hks, hkc⟩ := hstarts k hk
          refine ⟨by simpa using hspan.le_length (by simpa using hks), ?_⟩
          obtain rfl | hlt := hspan.le.eq_or_lt
          · exact hkc.mono fun _ => .skip hspan.derives_nil
          · exact hkc.of_lt hlt
        · exact ⟨fun ⟨l, hl, he⟩ => ⟨l, hs l hl, he⟩, fun ⟨l, hl, he⟩ => ⟨l, hc l hl, he⟩⟩
    · constructor
      · rintro (⟨k, hk, he⟩ | ⟨l, ⟨k, hk, hspan⟩, he⟩)
        · exact ⟨k, hk, .first he⟩
        · exact ⟨k, hk, .later hspan he⟩
      · rintro ⟨k, hk, he⟩
        rcases touches_cons_iff.1 he with he | ⟨l, hspan, he⟩
        · exact .inl ⟨k, hk, he⟩
        · exact .inr ⟨l, ⟨k, hk, hspan⟩, he⟩

theorem matchAlt_hears (hI : AboutEnds I) (hJ : KeptFurther J) (hJI : ∀ m, J m → I m)
    (hgives : ∀ name i, i ≤ text.size → (True → Clear g opened (.rule name) i) →
      Gives True I (Spans g text.toList (.rule name) i) (call name i))
    (hhears : ∀ name i, i ≤ text.size → Clear g opened (.rule name) i →
      Hears J (Touches g text.toList (.rule name) i) (call name i)) :
    ∀ (branches : List Node) (i : Nat) (found : Offsets), Node.haveNaturalCounts branches = true →
      i ≤ text.size → Clear g opened (.alt branches) i →
      Hears J (fun e => ∃ node ∈ branches, Touches g text.toList node i e)
        (matchAlt order text call branches i found)
  | [], i, found, _, _, _ => by
    rw [matchAlt]
    exact .pure (by simp)
  | node :: rest, i, found, hnat, hi, hclear => by
    rw [matchAlt]
    simp only [Node.haveNaturalCounts, Bool.and_eq_true] at hnat
    have hnode : Clear g opened node i := hclear.mono fun _ => .alt (by simp)
    have hrest : Clear g opened (.alt rest) i := hclear.mono fun name h => by
      cases h with
      | alt hmem h => exact .alt (List.mem_cons_of_mem _ hmem) h
    refine ((matchNode_hears hI hJ hJI hgives hhears node i hnat.1 hi hnode).bind hJI
      (matchNode_gives hI hgives node i hnat.1 hi fun _ => hnode) fun ends _ _ =>
        matchAlt_hears hI hJ hJI hgives hhears rest i (found.union ends) hnat.2 hi hrest).congr
      fun e => ?_
    simp only [List.mem_cons, exists_eq_or_imp]

end

end Nodes

/-! ## Rules -/

section Rules

variable {g : Grammar} {order : Order} {text : Array Char} {opened : Set (String × Nat)}
  {depth : Nat}

/-- What is remembered is right, and all that a remembered rule touches has been heard, but for the
    rules that are being matched. -/
structure Attentive (g : Grammar) (text : Array Char) (opened : Set (String × Nat)) (depth : Nat)
    (m : Memory) : Prop extends Sane g text True opened depth m where
  heard : ∀ name i ends, m.ends[(name, i)]? = some ends → (name, i) ∉ opened →
    ∀ e, Touches g text.toList (.rule name) i e → e ≤ m.furthest

theorem keptFurther_attentive : KeptFurther (Attentive g text opened depth) := by
  intro m m' hends hle hm
  refine ⟨aboutEnds_sane m m' hends hm.toSane, fun name i ends hfound hopen e he => ?_⟩
  rw [← hends] at hfound
  exact (hm.heard name i ends hfound hopen e he).trans hle

/-- How far a call comes, with calls nested up to `depth`. -/
theorem matchRule_hears (hnat : g.hasNaturalCounts = true) (hleft : ¬ LeftRecursive g)
    (depth : Nat) : ∀ (opened : Set (String × Nat)) (name : String) (i : Nat), i ≤ text.size →
      Clear g opened (.rule name) i →
      Hears (Attentive g text opened depth) (Touches g text.toList (.rule name) i)
        (matchRule order text g depth name i) := by
  induction depth with
  | zero => exact fun opened name i _ _ m hm => absurd (hm.room trivial) (Nat.not_lt_zero _)
  | succ depth ih =>
    intro opened name i hi hclear m hm
    rw [matchRule_succ]
    cases hends : m.ends[(name, i)]? with
    | some ends => exact ⟨hm, .refl (hm.heard name i ends hends (hclear.notMem hleft))⟩
    | none =>
      cases hbody : g.find? name with
      | none =>
        refine ⟨hm, .refl fun e he => ?_⟩
        cases he with
        | rule hother _ => simp [hbody] at hother
      | some body =>
        have hnode : body.hasNaturalCounts = true := by
          obtain ⟨l₁, l₂, rfl, -⟩ := List.lookup_eq_some_iff.1 hbody
          simp only [hasNaturalCounts, List.all_append, List.all_cons, Bool.and_eq_true] at hnat
          exact hnat.2.1
        have hbodyClear := hclear.body hbody
        have hgives : ∀ other k, k ≤ text.size →
            (True → Clear g (insert (name, i) opened) (.rule other) k) →
            Gives True (Sane g text True (insert (name, i) opened) depth)
              (Spans g text.toList (.rule other) k) (matchRule order text g depth other k) :=
          matchRule_gives hnat (fun _ => hleft) depth _
        have hopened : Attentive g text (insert (name, i) opened) depth
            (m.remember name i []) := by
          refine ⟨hm.toSane.open hi hbody hends, fun other k found hfound hopen e he => ?_⟩
          rw [Set.mem_insert_iff, not_or] at hopen
          rw [Memory.remember, Std.HashMap.getElem?_insert,
            if_neg (by simpa using Ne.symm hopen.1)] at hfound
          exact hm.heard other k found hfound hopen.2 e he
        obtain ⟨hsane, hmarks⟩ := matchNode_hears aboutEnds_sane keptFurther_attentive
          (fun _ h => h.toSane) hgives (ih (insert (name, i) opened)) body i hnode hi hbodyClear
          _ hopened
        obtain ⟨-, hsound, hcomplete⟩ := matchNode_gives aboutEnds_sane hgives body i hnode hi
          (fun _ => hbodyClear) _ hopened.toSane
        have hspan : ∀ j, Spans g text.toList (.rule name) i j ↔ Spans g text.toList body i j := by
          intro j
          simp [spans_rule_iff, hbody]
        have htouch : ∀ e, Touches g text.toList body i e ↔
            Touches g text.toList (.rule name) i e := fun e => (touches_rule_iff hbody).symm
        refine ⟨⟨hsane.toSane.close (fun j hj => (hspan j).2 (hsound j hj))
          (fun _ j hj => hcomplete trivial j ((hspan j).1 hj)), ?_⟩, ?_⟩
        · intro other k found hfound hopen e he
          rw [Std.HashMap.getElem?_insert] at hfound
          split_ifs at hfound with heq
          · obtain ⟨rfl, rfl⟩ := Prod.mk.inj (beq_iff_eq.1 heq)
            exact hmarks.all e ((htouch e).2 he)
          · refine hsane.heard other k found hfound ?_ e he
            rw [Set.mem_insert_iff, not_or]
            exact ⟨fun h => heq (beq_iff_eq.2 h.symm), hopen⟩
        · exact ⟨hmarks.le, (hmarks.congr htouch).all, (hmarks.congr htouch).only⟩

end Rules

/-! ## Whole texts -/

section Check

variable {g : Grammar}

/-- **The furthest offset is the greatest that can be reached.** In a grammar with natural counts
    and without left recursion, in whatever order sets of offsets are gone through, a check of
    a defined rule reports an offset within the text: for an accepted text its length, for a rejected
    one the greatest offset at which a literal or a class can end behind parts that match the text
    before it, or zero if there is none. -/
theorem furthest_isGreatest (order : Order) (hnat : g.hasNaturalCounts = true)
    (hleft : ¬ LeftRecursive g) {rule : String} (hrule : g.has rule = true) (text : String) :
    ∃ v, checkIn order g text rule = .ok v ∧ v.furthest ≤ text.toList.length ∧
      (v.accepted = true → v.furthest = text.toList.length) ∧
      (v.accepted = false →
        IsGreatest (insert 0 {e | Touches g text.toList (.rule rule) 0 e}) v.furthest) := by
  have hstart : Attentive g text.toList.toArray ∅
      (g.length * (text.toList.toArray.size + 1) + 1) .empty :=
    ⟨sane_empty 0 0, fun name i ends h => by simp [Memory.empty] at h⟩
  have hhears : Hears _ _ (matchRule order text.toList.toArray g
      (g.length * (text.toList.toArray.size + 1) + 1) rule 0) :=
    matchRule_hears hnat hleft _ ∅ rule 0 (Nat.zero_le _) fun _ _ h => h.elim
  obtain ⟨-, hmarks⟩ := hhears .empty hstart
  have hcheck : ∀ ran, matchRule order text.toList.toArray g
      (g.length * (text.toList.toArray.size + 1) + 1) rule 0 .empty = ran →
      checkIn order g text rule = .ok ⟨ran.1.contains text.toList.length, text,
        if ran.1.contains text.toList.length = true then text.toList.length
        else ran.2.furthest⟩ := by
    rintro _ rfl
    rw [checkIn, if_pos hrule]
    rfl
  generalize matchRule order text.toList.toArray g _ rule 0 .empty = ran at hmarks hcheck
  refine ⟨_, hcheck ran rfl, ?_, fun haccepted => if_pos haccepted, fun hrejected => ?_⟩
  · dsimp only
    split_ifs
    · exact Nat.le_refl _
    · rcases hmarks.only with hzero | htouches
      · exact hzero.trans_le (Nat.zero_le _)
      · exact htouches.le_length (Nat.zero_le _)
  · rw [if_neg (by rw [show ran.1.contains text.toList.length = false from hrejected]; simp)]
    refine ⟨hmarks.only, ?_⟩
    rintro e (rfl | he)
    · exact Nat.zero_le _
    · exact hmarks.all e he

/-- The grammar `root ::= "a" mark "d"`, `mark ::= [bc]`. -/
def bracketed : Grammar :=
  [("root", .seq [.literal [97], .rule "mark", .literal [100]]), ("mark", .charClass false [(98, 99)])]

/-- A rejected text of which the first two parts match. -/
theorem furthest_isGreatest_bracketed :
    ∃ v, check bracketed "abe" "root" = .ok v ∧ v.accepted = false ∧ 2 ≤ v.furthest ∧
      IsGreatest (insert 0 {e | Touches bracketed "abe".toList (.rule "root") 0 e}) v.furthest := by
  have hleft : ¬ LeftRecursive bracketed := by
    refine not_leftRecursive_of_rank (fun name => if name = "root" then 1 else 0) ?_
    rintro a b ⟨body, hbody, hleads⟩
    simp only [bracketed, find?, List.lookup_cons, List.lookup_nil] at hbody
    split at hbody
    · rename_i ha
      obtain rfl := Option.some.inj hbody
      have hb := mem_ruleNames_of_leads hleads
      rw [show Node.ruleNames _ = ["mark"] from rfl, List.mem_singleton] at hb
      simp [beq_iff_eq.1 ha, hb]
    split at hbody
    · obtain rfl := Option.some.inj hbody
      cases hleads
    · cases hbody
  have hroot : has bracketed "root" = true := by decide
  obtain ⟨v, hv, -, -, hrejected⟩ :=
    furthest_isGreatest .ascending (by decide) hleft hroot "abe"
  have hfalse : v.accepted = false := by
    rw [Bool.eq_false_iff]
    intro haccepted
    obtain ⟨body, hbody, hd⟩ := derives_rule_iff.1
      (derives_of_accepted (by decide) (by decide) hv haccepted)
    obtain rfl := Option.some.inj hbody
    obtain ⟨front, rest, htext, hfront, hrest⟩ := derives_seq_cons_iff.1 hd
    obtain ⟨middle, last, rfl, hmiddle, hlast⟩ := derives_seq_cons_iff.1 hrest
    obtain ⟨mark, behind, rfl, hmark, hbehind⟩ := derives_seq_cons_iff.1 hlast
    -- the last character would have to be the one of the last literal
    have hlastCode := congrArg (fun cs => (cs.map Char.toNat).getLast?) htext
    simp [derives_literal_iff.1 hmark, derives_seq_nil_iff.1 hbehind] at hlastCode
  have htouches : Touches bracketed "abe".toList (.rule "root") 0 2 := by
    refine .rule rfl (.later (k := 1) ⟨['a'], by decide, rfl, .literal ['a']⟩
      (.first (.rule rfl (.charClass ⟨['b'], by decide, rfl, .charClass (by decide)⟩))))
  exact ⟨v, hv, hfalse, (hrejected hfalse).2 (.inr htouches), hrejected hfalse⟩

end Check

end Grammar

end SchemaGrammar
