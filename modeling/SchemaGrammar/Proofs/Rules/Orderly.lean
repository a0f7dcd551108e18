import SchemaGrammar.Proofs.Grammar.Settling
import SchemaGrammar.Proofs.Rules.Bodies
import SchemaGrammar.Proofs.Rules.Request
import SchemaGrammar.Proofs.Rules.Supply

set_option autoImplicit false

/-! # Orderly tables

An orderly table agrees with the catalog, and only names that are free for it are claimed. Where
bodies are kept `tidy`, they are rows of tokens over names that are defined or claimed. Whatever the
builders do, the table stays orderly, also where they fail. From an orderly table in which no name
is claimed, a grammar can be read, or its text has a fault of syntax (`Orderly.ofText_settles`). -/

namespace SchemaGrammar

open Grammar (IsText)

/-- A failure that a schema is to blame for: no fault of the catalog and no lack of an end. -/
def Failure.IsOfSchema (e : Failure) : Prop :=
  (∀ name, e ≠ .unknownBuiltin name ∧ e ≠ .builtinTaken name) ∧ e ≠ .endless

/-- A failure of a schema that does not depend on what references point at. -/
def Failure.IsOrdinary (e : Failure) : Prop :=
  e.IsOfSchema ∧ ∀ ref, e ≠ .unresolvedReference ref

theorem Failure.isOrdinary_tooManyDigits : (Failure.tooManyDigits).IsOrdinary := by
  simp [Failure.IsOrdinary, Failure.IsOfSchema]

/-- What is raised is the failure itself, if its message can be written. -/
theorem Failure.raised_eq (e : Failure) : e.raised = e ∨ e.raised = .tooManyDigits := by
  unfold Failure.raised
  split_ifs
  · exact .inl rfl
  · exact .inr rfl

theorem Failure.raised_of_isWritable {e : Failure} (h : ∀ v ∈ e.shownValues, v.isWritable = true) :
    e.raised = e :=
  if_pos (List.all_eq_true.2 h)

theorem Failure.IsOrdinary.raised {e : Failure} (h : e.IsOrdinary) : e.raised.IsOrdinary := by
  rcases e.raised_eq with heq | heq
  · rwa [heq]
  · rw [heq]
    exact Failure.isOrdinary_tooManyDigits

/-- A value is used as its kind does not allow. -/
def Failure.IsMisuse (e : Failure) : Prop :=
  ∃ cause, e = .misuse cause

theorem Failure.IsMisuse.isOrdinary {e : Failure} (h : e.IsMisuse) : e.IsOrdinary := by
  obtain ⟨cause, rfl⟩ := h
  simp [Failure.IsOrdinary, Failure.IsOfSchema]

theorem Failure.IsMisuse.ne_tooManyDigits {e : Failure} (h : e.IsMisuse) : e ≠ .tooManyDigits := by
  obtain ⟨cause, rfl⟩ := h
  simp

/-- Reading fails only in some ways. -/
def Fails {α : Type} (P : Failure → Prop) (x : Except Failure α) : Prop :=
  ∀ e, x = .error e → P e

/-- Reading fails only in ordinary ways. -/
abbrev FailsOrdinarily {α : Type} (x : Except Failure α) : Prop :=
  Fails Failure.IsOrdinary x

namespace Fails

variable {α β : Type} {P Q : Failure → Prop}

theorem ok (a : α) : Fails P (.ok a : Except Failure α) :=
  fun _ h => absurd h (by simp)

theorem error {e : Failure} (h : P e) : Fails P (.error e : Except Failure α) := by
  intro e' heq
  obtain rfl := Except.error.inj heq
  exact h

theorem misuse (cause : Misuse) : Fails Failure.IsMisuse (.error (.misuse cause) : Except Failure α) :=
  error ⟨cause, rfl⟩

theorem mono {x : Except Failure α} (hPQ : ∀ e, P e → Q e) (h : Fails P x) : Fails Q x :=
  fun e he => hPQ e (h e he)

/-- Using values as their kinds do not allow is an ordinary way to fail. -/
theorem ordinarily {x : Except Failure α} (h : Fails Failure.IsMisuse x) : FailsOrdinarily x :=
  h.mono fun _ => Failure.IsMisuse.isOrdinary

theorem bind {x : Except Failure α} {f : α → Except Failure β} (hx : Fails P x)
    (hf : ∀ a, Fails P (f a)) : Fails P (x >>= f) := by
  cases x with
  | error e => exact error (hx e rfl)
  | ok a => exact hf a

theorem forM {f : α → Except Failure PUnit} (h : ∀ a, Fails P (f a)) (items : List α) :
    Fails P (items.forM f) := by
  induction items with
  | nil => exact ok _
  | cons a rest ih => exact (h a).bind fun _ => ih

theorem mapM {f : α → Except Failure β} (h : ∀ a, Fails P (f a)) (items : List α) :
    Fails P (items.mapM f) := by
  induction items with
  | nil => exact ok _
  | cons a rest ih =>
    rw [List.mapM_cons]
    exact (h a).bind fun _ => ih.bind fun _ => ok _

theorem foldlM {f : β → α → Except Failure β} (h : ∀ b a, Fails P (f b a)) (items : List α)
    (b : β) : Fails P (items.foldlM f b) := by
  induction items generalizing b with
  | nil => exact ok _
  | cons a rest ih =>
    rw [List.foldlM_cons]
    exact (h b a).bind fun b' => ih b'

end Fails

namespace RuleTable

/-- A name that bodies may refer to: it is defined, or claimed and still to be defined. -/
def Promises (t : RuleTable) (name : String) : Prop :=
  t.has name = true ∨ name ∈ t.reserved

structure Orderly (tidy : Prop) (t : RuleTable) : Prop where
  coherent : t.Coherent False fun _ => False
  /-- Claimed names are kept as they are, and the root is never claimed. -/
  claims : ∀ name ∈ t.reserved, escapeName name = name ∧ name ≠ "" ∧ name ≠ "root"
  bodies : tidy → ∀ name body, t.find? name = some body → IsText t.Promises body

/-- What work on a table does: rules are added, and claimed names may be filled. Where it is
    `quiet`, the root stays as it is. -/
structure Advances (tidy quiet : Prop) (t t' : RuleTable) : Prop where
  orderly : t'.Orderly tidy
  extends_ : t.Extends t'
  reserved : ∀ name ∈ t'.reserved, name ∈ t.reserved
  promises : ∀ name, t.Promises name → t'.Promises name
  root : quiet → t'.find? "root" = t.find? "root"

section Orderly

variable {tidy quiet : Prop} {t t' t'' : RuleTable} {name body slot own : String}

theorem orderly_new : new.Orderly tidy := by
  refine ⟨coherent_new False, by simp [new], fun _ name body hbody => ?_⟩
  have hmem := Assoc.mem_of_lookup hbody
  obtain ⟨rfl, rfl⟩ : name = Builtin.spaceName ∧ body = Builtin.space := by simpa [new] using hmem
  exact isText_space

theorem Advances.refl (h : t.Orderly tidy) : Advances tidy quiet t t :=
  ⟨h, .refl t, fun _ => id, fun _ => id, fun _ => rfl⟩

theorem Advances.trans (h : Advances tidy quiet t t') (h' : Advances tidy quiet t' t'') :
    Advances tidy quiet t t'' :=
  ⟨h'.orderly, h.extends_.trans h'.extends_, fun name hname => h.reserved name (h'.reserved name hname),
    fun name hname => h'.promises name (h.promises name hname),
    fun hquiet => (h'.root hquiet).trans (h.root hquiet)⟩

theorem Advances.weaken (h : Advances tidy True t t') : Advances tidy quiet t t' :=
  ⟨h.orderly, h.extends_, h.reserved, h.promises, fun _ => h.root trivial⟩

theorem Promises.extend (h : t.Extends t') (hreserved : t'.reserved = t.reserved.filter (· != slot))
    (hslot : t'.has slot = true) {n : String} (hn : t.Promises n) : t'.Promises n := by
  rcases hn with hn | hn
  · exact .inl (h.has hn)
  · by_cases heq : n = slot
    · exact .inl (heq ▸ hslot)
    · exact .inr (by rw [hreserved]; exact List.mem_filter.2 ⟨hn, by simpa using heq⟩)

/-- A rule under a name that can be asked for. -/
theorem Orderly.add (h : t.Orderly tidy) (hname : Requestable False name)
    (hbody : tidy → IsText t.Promises body) (hroot : quiet → escapeName name ≠ "root")
    (hrun : t.add name body = (slot, t')) :
    Advances tidy quiet t t' ∧ t'.find? slot = some body ∧
      t'.reserved = t.reserved.filter (· != slot) := by
  have hadds := adds_add h.coherent.wellFormed name body
  rw [hrun] at hadds
  have hpromises {n : String} (hn : t.Promises n) : t'.Promises n :=
    .extend hadds.extends hadds.reserved (has_of_find? hadds.find?) hn
  have hreserved : ∀ n ∈ t'.reserved, n ∈ t.reserved := by
    intro n hn
    rw [hadds.reserved] at hn
    exact List.mem_of_mem_filter hn
  refine ⟨⟨⟨?_, fun n hn => h.claims n (hreserved n hn), fun htidy n content hn => ?_⟩,
    hadds.extends, hreserved, fun n => hpromises, fun hquiet => ?_⟩, hadds.find?, hadds.reserved⟩
  · exact h.coherent.add hadds hname.nonempty hname.free False.elim
  · by_cases heq : n = slot
    · subst heq
      obtain rfl := Option.some.inj (hadds.find?.symm.trans hn)
      exact (hbody htidy).mono fun _ => hpromises
    · rw [hadds.find?_of_ne heq] at hn
      exact (h.bodies htidy n content hn).mono fun _ => hpromises
  · exact hadds.find?_of_ne (hadds.isSlot.ne_root (hroot hquiet)).symm

/-- What comes with a built-in rule. -/
structure SuppliesBuiltin (t : RuleTable) (name own slot : String) (t' : RuleTable) : Prop where
  has : t'.has slot = true
  slot_eq : slot = (t.add name ((Builtin.find? own).map Builtin.body |>.getD "")).1
  reserved : t'.reserved = t.reserved.filter (· != slot)
  /-- All bodies that are new refer to rules that are there. -/
  bodies : ∀ n body, t'.find? n = some body →
    t.find? n = some body ∨ IsText (fun other => t'.has other = true) body

/-- A built-in rule, under its own name or one that can be asked for. -/
theorem Orderly.addNamed (h : t.Orderly tidy) {rule : Builtin} (hown : Builtin.find? own = some rule)
    (hname : name = own ∨ Requestable False name) (hroot : quiet → escapeName name ≠ "root") :
    ∃ slot t', RuleTable.addNamed name own t = .ok slot t' ∧ Advances tidy quiet t t' ∧
      SuppliesBuiltin t name own slot t' := by
  have hne : name ≠ "" := by
    rcases hname with rfl | hname
    · exact (escapeName_builtin hown).1
    · exact hname.nonempty
  obtain ⟨slot, t', hrun, hadds⟩ := h.coherent.addNamed hown hne (hname.imp_right Requestable.free)
  have hslot : slot = (t.add name rule.body).1 := by
    obtain ⟨rule', t₁, hread, hadd⟩ := Work.bind_eq_ok.1 hrun
    obtain ⟨hget, rfl⟩ := Work.ofExcept_eq_ok.1 hread
    have hsame := Option.some.inj ((Builtin.find?_of_get hget).symm.trans hown)
    rw [hsame] at hadd
    exact (addBuiltinFrom_slot hadd).symm
  have hspace : t'.has Builtin.spaceName = true := has_of_find? hadds.coherent.space
  have hcatalog : ∀ n rule', Builtin.find? n = some rule' → t'.has n = true →
      IsText (fun other => t'.has other = true) rule'.body := by
    intro n rule' hrule hhas
    refine isText_builtin hrule hspace fun need hneed => ?_
    simpa using (hadds.coherent.builtin n rule' hrule hhas).2 need hneed
  have hnew : ∀ n body, t'.find? n = some body →
      t.find? n = some body ∨ IsText (fun other => t'.has other = true) body := by
    intro n body hbody
    have hhas := has_of_find? hbody
    rcases hadds.only n hhas with hold | rfl | hmem
    · obtain ⟨content, hcontent⟩ := Option.isSome_iff_exists.1 hold
      exact .inl (by rw [← hbody, hadds.extends_.find? hcontent, hcontent])
    · obtain rfl := Option.some.inj (hadds.find?.symm.trans hbody)
      exact .inr (isText_builtin hown hspace hadds.needs)
    · obtain ⟨⟨other, content⟩, hother, rfl⟩ := List.mem_map.1 hmem
      rcases List.mem_cons.1 hother with hpair | hother
      · obtain ⟨rfl, rfl⟩ := Prod.mk.inj hpair
        obtain rfl := Option.some.inj (hadds.coherent.space.symm.trans hbody)
        exact .inr isText_space
      · obtain ⟨⟨n, rule'⟩, hrule, hpair⟩ := List.mem_map.1 hother
        obtain ⟨rfl, rfl⟩ := Prod.mk.inj hpair
        have hnodup : (Builtin.catalog.map Prod.fst).Nodup := by decide
        have hfound : Builtin.find? n = some rule' := Assoc.lookup_of_mem hnodup hrule
        obtain rfl := Option.some.inj ((hadds.coherent.builtin n rule' hfound hhas).1.symm.trans hbody)
        exact .inr (hcatalog n rule' hfound hhas)
  have hpromises {n : String} (hn : t.Promises n) : t'.Promises n :=
    .extend hadds.extends_ hadds.reserved (has_of_find? hadds.find?) hn
  have hreserved : ∀ n ∈ t'.reserved, n ∈ t.reserved := by
    intro n hn
    rw [hadds.reserved] at hn
    exact List.mem_of_mem_filter hn
  refine ⟨slot, t', hrun, ⟨⟨hadds.coherent, fun n hn => h.claims n (hreserved n hn), ?_⟩,
    hadds.extends_, hreserved, fun _ => hpromises, fun hquiet => ?_⟩,
    ⟨has_of_find? hadds.find?, by rw [hown]; exact hslot, hadds.reserved, hnew⟩⟩
  · intro htidy n body hbody
    rcases hnew n body hbody with hold | htext
    · exact (h.bodies htidy n body hold).mono fun _ => hpromises
    · exact htext.mono fun _ => .inl
  · cases hfind : t.find? "root" with
    | some body => exact hadds.extends_.find? hfind
    | none =>
      by_contra hsome
      rcases hadds.only "root" (Option.isSome_iff_ne_none.2 hsome) with hhas | heq | hmem
      · rw [has, hfind] at hhas
        exact absurd hhas (by simp)
      · exact hadds.isSlot.ne_root (hroot hquiet) heq.symm
      · exact Builtin.root_notMem_names hmem

/-! ## Work on orderly tables -/

/-- Work that keeps a table orderly, also where it fails. -/
def Runs {α : Type} (tidy quiet : Prop) (E : Failure → Prop) (Q : α → RuleTable → Prop)
    (x : TableM α) (t : RuleTable) : Prop :=
  Work.Leads (Advances tidy quiet) (Advances tidy quiet) E Q x t

section Runs

variable {α β : Type} {E : Failure → Prop} {Q : α → RuleTable → Prop}

theorem Runs.bind {x : TableM α} {f : α → TableM β} {Q' : β → RuleTable → Prop}
    (hx : Runs tidy quiet E Q x t)
    (hf : ∀ a t', Advances tidy quiet t t' → Q a t' → Runs tidy quiet E Q' (f a) t') :
    Runs tidy quiet E Q' (x >>= f) t :=
  Work.Leads.bind (fun _ _ => .trans) (fun _ _ => .trans) hx hf

theorem Runs.weaken {x : TableM α} (h : Runs tidy True E Q x t) : Runs tidy quiet E Q x t := by
  obtain ⟨hok, herror⟩ := Work.leads_iff.1 h
  refine Work.leads_iff.2 ⟨fun a t' hrun => ?_, fun e t' hrun => ?_⟩
  · exact ⟨(hok a t' hrun).1.weaken, (hok a t' hrun).2⟩
  · exact ⟨(herror e t' hrun).1.weaken, (herror e t' hrun).2⟩

theorem runs_pure {a : α} (h : t.Orderly tidy) (hQ : Q a t) : Runs tidy quiet E Q (pure a) t :=
  Work.leads_of_ok rfl (.refl h) hQ

theorem runs_throw {e : Failure} (h : t.Orderly tidy) (he : E e) :
    Runs tidy quiet E Q (throw e) t :=
  Work.leads_of_error rfl (.refl h) he

theorem runs_ofExcept {x : Except Failure α} (h : t.Orderly tidy) (hok : ∀ a, x = .ok a → Q a t)
    (herror : ∀ e, x = .error e → E e) :
    Runs tidy quiet E Q (MonadExcept.ofExcept x) t :=
  Work.leads_ofExcept (.refl h) (.refl h) hok herror

theorem runs_addRule (h : t.Orderly tidy) (hname : Requestable False name)
    (hbody : tidy → IsText t.Promises body) (hroot : quiet → escapeName name ≠ "root") :
    Runs tidy quiet E (fun slot t' => t'.has slot = true) (RuleTable.addRule name body) t := by
  obtain ⟨hadvances, hfind, -⟩ := h.add hname hbody hroot rfl
  exact Work.leads_of_ok rfl hadvances (has_of_find? hfind)

/-- A built-in rule under its own name. -/
theorem runs_addNamed (h : t.Orderly tidy) {rule : Builtin} (hown : Builtin.find? own = some rule) :
    Runs tidy quiet E (fun slot t' => t'.has slot = true) (RuleTable.addNamed own own) t := by
  have hroot : escapeName own ≠ "root" := by
    rw [(escapeName_builtin hown).2]
    rintro rfl
    have hnone : Builtin.find? "root" = none := by decide
    exact absurd (hnone.symm.trans hown) (by simp)
  obtain ⟨slot, t', hrun, hadvances, hsupplies⟩ := h.addNamed hown (.inl rfl) fun _ => hroot
  exact Work.leads_of_ok hrun hadvances hsupplies.has

/-- The rule of a whole schema is there, its name waits no longer, and the root is taken as long as
    it is free. -/
structure Filed (t : RuleTable) (name slot : String) (t' : RuleTable) : Prop where
  has : t'.has slot = true
  filled : escapeName name ∉ t'.reserved
  first : escapeName name = "root" → t.find? "root" = none → slot = "root"

theorem Orderly.filed (h : t.Orderly tidy) (name body : String) :
    Filed t name (t.add name body).1 (t.add name body).2 := by
  have hadds := adds_add h.coherent.wellFormed name body
  refine ⟨has_of_find? hadds.find?, fun hmem => ?_, fun heq hnone => ?_⟩
  · have hold : escapeName name ∈ t.reserved := by
      rw [hadds.reserved] at hmem
      exact List.mem_of_mem_filter hmem
    have hslot : (t.add name body).1 = escapeName name := by
      unfold RuleTable.add
      dsimp only
      rw [if_pos (List.contains_iff_mem.2 hold)]
    rw [hadds.reserved, hslot] at hmem
    exact absurd (List.of_mem_filter hmem) (by simp)
  · rw [add_of_find?_eq_none t name body (by rw [heq]; exact hnone), heq]

/-- A loop whose steps keep what the next ones rest on. -/
theorem runs_foldlM {I : β → RuleTable → Prop} {f : β → α → TableM β} {items : List α}
    (hstep : ∀ b, ∀ a ∈ items, ∀ t, t.Orderly tidy → I b t → Runs tidy quiet E I (f b a) t)
    {b : β} (h : t.Orderly tidy) (hI : I b t) : Runs tidy quiet E I (items.foldlM f b) t := by
  induction items generalizing b t with
  | nil => exact runs_pure h hI
  | cons a rest ih =>
    rw [List.foldlM_cons]
    refine (hstep b a (by simp) t h hI).bind fun b' t' hadvances hI' => ?_
    exact ih (fun b a ha => hstep b a (List.mem_cons_of_mem _ ha)) hadvances.orderly hI'

end Runs

/-! ## Reading -/

/-- **A table without claimed names** is read as a grammar, or its text has a fault of syntax. -/
theorem Orderly.ofText_settles (h : t.Orderly True) (hreserved : t.reserved = []) :
    (∃ g, Grammar.ofText t.text = .ok g ∧ g.map Prod.fst = t.names) ∨
      ∃ e, e.IsSyntactic ∧ Grammar.ofText t.text = .error e := by
  refine (ofText_text_settles h.coherent.wellFormed h.coherent.storable fun name body hbody => ?_).imp
    (fun ⟨g, hg, hnames, _⟩ => ⟨g, hg, hnames⟩) id
  have htext : IsText (· ∈ t.names) body := by
    refine (h.bodies trivial name body hbody).mono fun other hother => ?_
    rw [Promises, hreserved] at hother
    exact mem_names_iff.2 (hother.resolve_right (by simp))
  exact htext.isBodyLike fun n hn =>
    isNameLike_of_isStorable (h.coherent.storable n (mem_names_iff.1 hn))

end Orderly

end RuleTable

end SchemaGrammar
