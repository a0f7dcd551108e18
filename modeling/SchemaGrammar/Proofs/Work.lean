import Mathlib.Data.List.Forall2
import Mathlib.Order.RelClasses

set_option autoImplicit false

/-! # Work that succeeds

Taking apart work with a state that ended well: each step of it ended well, in a state that the
next step starts from. What every step keeps, the whole work keeps (`Keeps`). Work that may fail
leaves a state behind, too; `Within` says where it can go, and `FailsWith` what its failures say. -/

namespace SchemaGrammar

namespace Work

variable {ε σ α β : Type}

theorem bind_eq_ok {x : EStateM ε σ α} {f : α → EStateM ε σ β} {s s'' : σ} {b : β} :
    (x >>= f) s = .ok b s'' ↔ ∃ a s', x s = .ok a s' ∧ f a s' = .ok b s'' := by
  change EStateM.bind x f s = _ ↔ _
  unfold EStateM.bind
  cases x s with
  | ok a s' => simp
  | error e s' => simp

theorem bind_eq_error {x : EStateM ε σ α} {f : α → EStateM ε σ β} {s s'' : σ} {e : ε} :
    (x >>= f) s = .error e s'' ↔
      x s = .error e s'' ∨ ∃ a s', x s = .ok a s' ∧ f a s' = .error e s'' := by
  change EStateM.bind x f s = _ ↔ _
  unfold EStateM.bind
  cases x s with
  | ok a s' => simp
  | error e' s' => simp

theorem pure_eq_ok {a b : α} {s s' : σ} :
    (pure a : EStateM ε σ α) s = .ok b s' ↔ a = b ∧ s = s' := by
  change EStateM.Result.ok a s = _ ↔ _
  simp

theorem get_eq_ok {s s' t : σ} : (get : EStateM ε σ σ) s = .ok t s' ↔ s = t ∧ s = s' := by
  change EStateM.Result.ok s s = _ ↔ _
  simp

theorem modify_eq_ok {f : σ → σ} {s s' : σ} {u : Unit} :
    (modify f : EStateM ε σ Unit) s = .ok u s' ↔ s' = f s := by
  change EStateM.Result.ok () (f s) = _ ↔ _
  simp [eq_comm]

theorem throw_ne_ok {e : ε} {a : α} {s s' : σ} :
    (throw e : EStateM ε σ α) s ≠ .ok a s' := by
  change EStateM.Result.error e s ≠ _
  simp

theorem ofExcept_eq_ok {x : Except ε α} {a : α} {s s' : σ} :
    (MonadExcept.ofExcept x : EStateM ε σ α) s = .ok a s' ↔ x = .ok a ∧ s = s' := by
  cases x with
  | ok b =>
    change (pure b : EStateM ε σ α) s = _ ↔ _
    rw [pure_eq_ok]
    simp
  | error e =>
    change (throw e : EStateM ε σ α) s = _ ↔ _
    simp [throw_ne_ok]

theorem except_bind_eq_ok {x : Except ε α} {f : α → Except ε β} {b : β} :
    (x >>= f) = .ok b ↔ ∃ a, x = .ok a ∧ f a = .ok b := by
  cases x with
  | error e => simp [bind, Except.bind]
  | ok a => simp [bind, Except.bind]

theorem except_bind_eq_error {x : Except ε α} {f : α → Except ε β} {e : ε} :
    (x >>= f) = .error e ↔ x = .error e ∨ ∃ a, x = .ok a ∧ f a = .error e := by
  cases x with
  | error e => simp [bind, Except.bind]
  | ok a => simp [bind, Except.bind]

/-- There is a result where there is one to make it from. -/
theorem exists_bind_pure_iff {x : Except ε α} {f : α → β} :
    (∃ b, (do return f (← x)) = (.ok b : Except ε β)) ↔ ∃ a, x = .ok a := by
  cases x with
  | error e => simp [bind, Except.bind]
  | ok a => simp [bind, Except.bind, pure, Except.pure]

theorem except_foldlM_error {f : β → α → Except ε β} {items : List α} {b : β} {e : ε}
    (h : items.foldlM f b = .error e) : ∃ c, ∃ a ∈ items, f c a = .error e := by
  induction items generalizing b with
  | nil => cases h
  | cons a rest ih =>
    rw [List.foldlM_cons] at h
    rcases except_bind_eq_error.1 h with hfirst | ⟨c, -, hrest⟩
    · exact ⟨b, a, List.mem_cons_self, hfirst⟩
    · obtain ⟨c, a', ha', hfails⟩ := ih hrest
      exact ⟨c, a', List.mem_cons_of_mem _ ha', hfails⟩

/-- What each step of a loop reaches and later steps keep, the whole loop reaches. -/
theorem forM_reaches {I : σ → Prop} {Q : α → σ → Prop} {f : α → EStateM ε σ Unit} {items : List α}
    (h : ∀ a ∈ items, ∀ s s' u, I s → f a s = .ok u s' →
      I s' ∧ Q a s' ∧ ∀ b, Q b s → Q b s') {s s' : σ} {u : Unit}
    (hs : I s) (hrun : items.forM f s = .ok u s') :
    I s' ∧ (∀ a ∈ items, Q a s') ∧ ∀ b, Q b s → Q b s' := by
  induction items generalizing s with
  | nil =>
    obtain ⟨-, rfl⟩ := pure_eq_ok.1 hrun
    exact ⟨hs, by simp, fun _ hb => hb⟩
  | cons a rest ih =>
    obtain ⟨v, s₁, ha, hrest⟩ := bind_eq_ok.1 hrun
    obtain ⟨hs₁, hQ, hkeep⟩ := h a (by simp) s s₁ v hs ha
    obtain ⟨hs', hall, hkeep'⟩ := ih (fun b hb => h b (List.mem_cons_of_mem _ hb)) hs₁ hrest
    refine ⟨hs', fun b hb => ?_, fun b hb => hkeep' b (hkeep b hb)⟩
    rcases List.mem_cons.1 hb with rfl | hb
    · exact hkeep' b hQ
    · exact hall b hb

/-- A loop along two lists goes along the first and then along the second. -/
theorem forM_append_eq_ok {f : α → EStateM ε σ Unit} {front back : List α} {s s' : σ} {u : Unit} :
    (front ++ back).forM f s = .ok u s' ↔
      ∃ s₁, front.forM f s = .ok () s₁ ∧ back.forM f s₁ = .ok u s' := by
  induction front generalizing s with
  | nil =>
    constructor
    · exact fun h => ⟨s, rfl, h⟩
    · rintro ⟨s₁, hnil, h⟩
      obtain ⟨-, rfl⟩ := pure_eq_ok.1 hnil
      exact h
  | cons a rest ih =>
    rw [List.cons_append]
    change (f a >>= fun _ => (rest ++ back).forM f) s = _ ↔
      ∃ s₁, (f a >>= fun _ => rest.forM f) s = _ ∧ _
    simp only [bind_eq_ok, ih]
    constructor
    · rintro ⟨v, s₁, ha, s₂, hrest, hback⟩
      exact ⟨s₂, ⟨v, s₁, ha, hrest⟩, hback⟩
    · rintro ⟨s₂, ⟨v, s₁, ha, hrest⟩, hback⟩
      exact ⟨v, s₁, ha, s₂, hrest, hback⟩

/-- A loop fails where one of its steps does. -/
theorem forM_error {I : σ → Prop} {f : α → EStateM ε σ Unit} {items : List α} {e : ε}
    (h : ∀ a ∈ items, ∀ s s' u, I s → f a s = .ok u s' → I s') {s s' : σ} (hs : I s)
    (hrun : items.forM f s = .error e s') :
    ∃ a ∈ items, ∃ s₁, I s₁ ∧ f a s₁ = .error e s' := by
  induction items generalizing s with
  | nil => cases hrun
  | cons a rest ih =>
    rcases bind_eq_error.1 hrun with hfirst | ⟨u, s₁, hfirst, hrest⟩
    · exact ⟨a, by simp, s, hs, hfirst⟩
    · obtain ⟨b, hb, found⟩ := ih (fun b hb => h b (List.mem_cons_of_mem _ hb))
        (h a (by simp) s s₁ u hs hfirst) hrest
      exact ⟨b, List.mem_cons_of_mem _ hb, found⟩

/-- Work along a list fails if the step at one of its members always does. -/
theorem foldlM_fails {f : β → α → EStateM ε σ β} {items : List α} {a : α} (ha : a ∈ items)
    (hf : ∀ b s, ∃ e s', f b a s = .error e s') (b : β) (s : σ) :
    ∃ e s', items.foldlM f b s = .error e s' := by
  induction items generalizing b s with
  | nil => cases ha
  | cons first rest ih =>
    rw [List.foldlM_cons]
    rcases List.mem_cons.1 ha with rfl | hrest
    · obtain ⟨e, s', hfailed⟩ := hf b s
      exact ⟨e, s', bind_eq_error.2 (.inl hfailed)⟩
    · cases hfirst : f b first s with
      | error e s' => exact ⟨e, s', bind_eq_error.2 (.inl hfirst)⟩
      | ok c s₁ =>
        obtain ⟨e, s', hfailed⟩ := ih hrest c s₁
        exact ⟨e, s', bind_eq_error.2 (.inr ⟨c, s₁, hfirst, hfailed⟩)⟩

/-- Two steps end well if the first does and the second does wherever that leads. -/
theorem bind_succeeds {I : σ → Prop} {x : EStateM ε σ α} {f : α → EStateM ε σ β} {s : σ}
    (hx : ∃ a s₁, x s = .ok a s₁ ∧ I s₁) (hf : ∀ a s₁, I s₁ → ∃ b s₂, f a s₁ = .ok b s₂) :
    ∃ b s₂, (x >>= f) s = .ok b s₂ := by
  obtain ⟨a, s₁, hx, hI⟩ := hx
  obtain ⟨b, s₂, hf⟩ := hf a s₁ hI
  exact ⟨b, s₂, bind_eq_ok.2 ⟨a, s₁, hx, hf⟩⟩

/-- A loop ends well if each step does and keeps what the next one rests on. -/
theorem forM_succeeds {I : σ → Prop} {f : α → EStateM ε σ PUnit} {items : List α}
    (h : ∀ a ∈ items, ∀ s, I s → ∃ u s', f a s = .ok u s' ∧ I s') {s : σ} (hs : I s) :
    ∃ u s', items.forM f s = .ok u s' ∧ I s' := by
  induction items generalizing s with
  | nil => exact ⟨_, s, rfl, hs⟩
  | cons a rest ih =>
    obtain ⟨u, s₁, ha, hs₁⟩ := h a (by simp) s hs
    obtain ⟨v, s₂, hrest, hs₂⟩ := ih (fun b hb => h b (List.mem_cons_of_mem _ hb)) hs₁
    exact ⟨v, s₂, bind_eq_ok.2 ⟨u, s₁, ha, hrest⟩, hs₂⟩

/-- What work that ends well comes to. -/
def result? : EStateM.Result ε σ α → Option α
  | .ok a _ => some a
  | .error _ _ => none

theorem exists_of_result? {ran : EStateM.Result ε σ α} {a : α} (h : result? ran = some a) :
    ∃ s, ran = .ok a s := by
  cases ran with
  | ok b s => exact ⟨s, by rw [← Option.some.inj h]⟩
  | error e s => cases h

/-! ## What work keeps -/

/-- Work that, where it ends well, keeps what holds of the state and has a result of some kind. -/
def Keeps (I : σ → Prop) (Q : α → Prop) (x : EStateM ε σ α) : Prop :=
  ∀ s a s', I s → x s = .ok a s' → I s' ∧ Q a

section Keeps

variable {I : σ → Prop} {Q : α → Prop} {Q' : β → Prop}

theorem Keeps.pure {a : α} (h : Q a) : Keeps I Q (Pure.pure a : EStateM ε σ α) := by
  intro s b s' hs hrun
  obtain ⟨rfl, rfl⟩ := pure_eq_ok.1 hrun
  exact ⟨hs, h⟩

theorem Keeps.throw (e : ε) : Keeps I Q (MonadExcept.throw e : EStateM ε σ α) :=
  fun _ _ _ _ hrun => absurd hrun throw_ne_ok

theorem Keeps.ofExcept {x : Except ε α} (h : ∀ a, x = .ok a → Q a) :
    Keeps I Q (MonadExcept.ofExcept x : EStateM ε σ α) := by
  intro s a s' hs hrun
  obtain ⟨hx, rfl⟩ := ofExcept_eq_ok.1 hrun
  exact ⟨hs, h a hx⟩

theorem Keeps.get : Keeps I I (MonadState.get : EStateM ε σ σ) := by
  intro s a s' hs hrun
  obtain ⟨rfl, rfl⟩ := get_eq_ok.1 hrun
  exact ⟨hs, hs⟩

theorem Keeps.modify {f : σ → σ} (h : ∀ s, I s → I (f s)) :
    Keeps I (fun _ => True) (modify f : EStateM ε σ Unit) := by
  intro s u s' hs hrun
  obtain rfl := modify_eq_ok.1 hrun
  exact ⟨h s hs, trivial⟩

theorem Keeps.bind {x : EStateM ε σ α} {f : α → EStateM ε σ β} (hx : Keeps I Q x)
    (hf : ∀ a, Q a → Keeps I Q' (f a)) : Keeps I Q' (x >>= f) := by
  intro s b s' hs hrun
  obtain ⟨a, s₁, hfirst, hrest⟩ := bind_eq_ok.1 hrun
  obtain ⟨hs₁, ha⟩ := hx s a s₁ hs hfirst
  exact hf a ha s₁ b s' hs₁ hrest

theorem Keeps.forM {f : α → EStateM ε σ PUnit} {items : List α}
    (h : ∀ a ∈ items, Keeps I (fun _ => True) (f a)) : Keeps I (fun _ => True) (items.forM f) := by
  induction items with
  | nil => exact .pure trivial
  | cons a rest ih => exact (h a (by simp)).bind fun _ _ => ih fun b hb => h b (by simp [hb])

theorem Keeps.mapM {f : α → EStateM ε σ β} {items : List α} (h : ∀ a ∈ items, Keeps I Q' (f a)) :
    Keeps I (fun results => ∀ b ∈ results, Q' b) (items.mapM f) := by
  induction items with
  | nil => exact .pure (by simp)
  | cons a rest ih =>
    rw [List.mapM_cons]
    refine (h a (by simp)).bind fun b hb => ?_
    refine (ih fun c hc => h c (by simp [hc])).bind fun others hothers => ?_
    exact .pure (by simpa using ⟨hb, hothers⟩)

theorem Keeps.foldlM {f : β → α → EStateM ε σ β} {items : List α} {b : β}
    (h : ∀ b, Q' b → ∀ a ∈ items, Keeps I Q' (f b a)) (hb : Q' b) :
    Keeps I Q' (items.foldlM f b) := by
  induction items generalizing b with
  | nil => exact .pure hb
  | cons a rest ih =>
    rw [List.foldlM_cons]
    exact (h b hb a (by simp)).bind fun c hc => ih (fun d hd e he => h d hd e (by simp [he])) hc

end Keeps

/-! ## Work that may fail -/

/-- The state that work leaves behind, whether it ends well or not. -/
def leaves (x : EStateM ε σ α) (s : σ) : σ :=
  match x s with
  | .ok _ s' => s'
  | .error _ s' => s'

/-- Work that goes only where a relation leads, whether it ends well or not. -/
def Within (R : σ → σ → Prop) (x : EStateM ε σ α) : Prop :=
  ∀ s, R s (leaves x s)

section Within

variable {R : σ → σ → Prop} [IsPreorder σ R]

theorem Within.pure (a : α) : Within R (Pure.pure a : EStateM ε σ α) :=
  fun s => refl_of R s

theorem Within.throw (e : ε) : Within R (MonadExcept.throw e : EStateM ε σ α) :=
  fun s => refl_of R s

theorem Within.get : Within R (MonadState.get : EStateM ε σ σ) :=
  fun s => refl_of R s

theorem Within.ofExcept (x : Except ε α) :
    Within R (MonadExcept.ofExcept x : EStateM ε σ α) := by
  cases x with
  | ok a => exact Within.pure a
  | error e => exact Within.throw e

theorem Within.bind {x : EStateM ε σ α} {f : α → EStateM ε σ β} (hx : Within R x)
    (hf : ∀ a, Within R (f a)) : Within R (x >>= f) := by
  intro s
  have hfirst := hx s
  change R s (match EStateM.bind x f s with
    | .ok _ s' => s'
    | .error _ s' => s')
  unfold leaves at hfirst
  unfold EStateM.bind
  cases h : x s with
  | ok a s' =>
    rw [h] at hfirst
    exact trans_of R hfirst (hf a s')
  | error e s' =>
    rw [h] at hfirst
    exact hfirst

theorem Within.forM {f : α → EStateM ε σ PUnit} {items : List α}
    (h : ∀ a ∈ items, Within R (f a)) : Within R (items.forM f) := by
  induction items with
  | nil => exact Within.pure PUnit.unit
  | cons a rest ih =>
    exact (h a (by simp)).bind fun _ => ih fun b hb => h b (List.mem_cons_of_mem _ hb)

/-- What one call does, a run of calls does. -/
theorem Within.foldl {γ : Type} {work : γ → EStateM ε σ α} (h : ∀ c, Within R (work c))
    (calls : List γ) (s : σ) : R s (calls.foldl (fun s c => leaves (work c) s) s) := by
  induction calls generalizing s with
  | nil => exact refl_of R s
  | cons c rest ih => exact trans_of R (h c s) (ih _)

end Within

/-! ## What failures say -/

/-- Work that fails with nothing but what `E` allows. -/
def FailsWith (E : ε → Prop) (x : EStateM ε σ α) : Prop :=
  ∀ s e s', x s = .error e s' → E e

section FailsWith

variable {E : ε → Prop}

theorem FailsWith.pure (a : α) : FailsWith E (Pure.pure a : EStateM ε σ α) := by
  rintro s e s' ⟨⟩

theorem FailsWith.throw {e : ε} (h : E e) : FailsWith E (MonadExcept.throw e : EStateM ε σ α) := by
  rintro s e' s' ⟨⟩
  exact h

theorem FailsWith.modifyGet (f : σ → α × σ) :
    FailsWith E (MonadState.modifyGet f : EStateM ε σ α) := by
  rintro s e s' ⟨⟩

theorem FailsWith.ofExcept {x : Except ε α} (h : ∀ e, x = .error e → E e) :
    FailsWith E (MonadExcept.ofExcept x : EStateM ε σ α) := by
  cases x with
  | ok a => exact .pure a
  | error e => exact .throw (h e rfl)

theorem FailsWith.bind {x : EStateM ε σ α} {f : α → EStateM ε σ β} (hx : FailsWith E x)
    (hf : ∀ a, FailsWith E (f a)) : FailsWith E (x >>= f) := by
  intro s e s' h
  rcases bind_eq_error.1 h with hfirst | ⟨a, s₁, -, hrest⟩
  · exact hx s e s' hfirst
  · exact hf a s₁ e s' hrest

theorem FailsWith.foldlM {f : β → α → EStateM ε σ β} {items : List α}
    (h : ∀ a ∈ items, ∀ b, FailsWith E (f b a)) (b : β) : FailsWith E (items.foldlM f b) := by
  induction items generalizing b with
  | nil => exact .pure b
  | cons a rest ih =>
    rw [List.foldlM_cons]
    exact (h a (by simp) b).bind fun c => ih (fun d hd => h d (List.mem_cons_of_mem _ hd)) c

end FailsWith

/-! ## Where work leads -/

/-- From a state, work that ends well goes where `R` leads with a result that `Q` allows, and work
    that fails goes where `F` leads with a failure that `E` allows. -/
def Leads (R F : σ → σ → Prop) (E : ε → Prop) (Q : α → σ → Prop) (x : EStateM ε σ α) (s : σ) :
    Prop :=
  match x s with
  | .ok a s' => R s s' ∧ Q a s'
  | .error e s' => F s s' ∧ E e

section Leads

variable {R F : σ → σ → Prop} {E : ε → Prop} {Q : α → σ → Prop} {s : σ}

theorem leads_iff {x : EStateM ε σ α} : Leads R F E Q x s ↔
    (∀ a s', x s = .ok a s' → R s s' ∧ Q a s') ∧ ∀ e s', x s = .error e s' → F s s' ∧ E e := by
  unfold Leads
  cases x s with
  | ok a s' => simp
  | error e s' => simp

theorem leads_of_ok {x : EStateM ε σ α} {a : α} {s' : σ} (hrun : x s = .ok a s') (hR : R s s')
    (hQ : Q a s') : Leads R F E Q x s := by
  unfold Leads
  rw [hrun]
  exact ⟨hR, hQ⟩

theorem leads_of_error {x : EStateM ε σ α} {e : ε} {s' : σ} (hrun : x s = .error e s')
    (hF : F s s') (hE : E e) : Leads R F E Q x s := by
  unfold Leads
  rw [hrun]
  exact ⟨hF, hE⟩

theorem leads_ofExcept {x : Except ε α} (hR : R s s) (hF : F s s)
    (hok : ∀ a, x = .ok a → Q a s) (herror : ∀ e, x = .error e → E e) :
    Leads R F E Q (MonadExcept.ofExcept x) s := by
  cases x with
  | ok a => exact leads_of_ok rfl hR (hok a rfl)
  | error e => exact leads_of_error rfl hF (herror e rfl)

theorem Leads.bind {x : EStateM ε σ α} {f : α → EStateM ε σ β} {Q' : β → σ → Prop}
    (hR : ∀ s₁ s₂, R s s₁ → R s₁ s₂ → R s s₂) (hF : ∀ s₁ s₂, R s s₁ → F s₁ s₂ → F s s₂)
    (hx : Leads R F E Q x s) (hf : ∀ a s', R s s' → Q a s' → Leads R F E Q' (f a) s') :
    Leads R F E Q' (x >>= f) s := by
  obtain ⟨hok, herror⟩ := leads_iff.1 hx
  cases hrun : x s with
  | ok a s₁ =>
    obtain ⟨hfirst, hQ⟩ := hok a s₁ hrun
    have hbind : (x >>= f) s = f a s₁ := by
      change EStateM.bind x f s = _
      rw [EStateM.bind, hrun]
    obtain ⟨hok', herror'⟩ := leads_iff.1 (hf a s₁ hfirst hQ)
    refine leads_iff.2 ⟨fun b s₂ h => ?_, fun e s₂ h => ?_⟩ <;> rw [hbind] at h
    · exact ⟨hR s₁ s₂ hfirst (hok' b s₂ h).1, (hok' b s₂ h).2⟩
    · exact ⟨hF s₁ s₂ hfirst (herror' e s₂ h).1, (herror' e s₂ h).2⟩
  | error e s₁ =>
    have hbind : (x >>= f) s = .error e s₁ := by
      change EStateM.bind x f s = _
      rw [EStateM.bind, hrun]
    exact leads_of_error hbind (herror e s₁ hrun).1 (herror e s₁ hrun).2

theorem Leads.mono {x : EStateM ε σ α} {Q' : α → σ → Prop} (h : Leads R F E Q x s)
    (hQ : ∀ a s', R s s' → Q a s' → Q' a s') : Leads R F E Q' x s := by
  obtain ⟨hok, herror⟩ := leads_iff.1 h
  exact leads_iff.2 ⟨fun a s' hrun => ⟨(hok a s' hrun).1, hQ a s' (hok a s' hrun).1 (hok a s' hrun).2⟩,
    herror⟩

end Leads

end Work

end SchemaGrammar
