import SchemaGrammar.Proofs.Rules.Orderly
import SchemaGrammar.Proofs.Schema.Invariant

set_option autoImplicit false

/-! # Orderly sessions

The table of an orderly session is orderly, references have rules that are there or promised, and
each rule that stands for a reference leads to the rule that the reference has. This is kept by all
work on schemas, whether it ends well (`Session.Advances`) or fails on the way (`Session.Moves`).
Where it ends well, no name stays claimed that was not claimed before. -/

namespace SchemaGrammar

open Grammar (IsText)

namespace Session

/-- A rule of another schema has got the name that a reference had claimed for its target. -/
def IsStolen (s : Session) (ref : String) : Prop :=
  ∃ claimed found, Event.claimed ref claimed ∈ s.history ∧ Event.settled ref found ∈ s.history ∧
    found ≠ claimed ∧ s.table.has claimed = true

structure Orderly (tidy : Prop) (s : Session) : Prop where
  table : s.table.Orderly tidy
  names : tidy → ∀ ref name, s.ruleNames.lookup ref = some name → s.table.Promises name
  /-- A rule that stands for a reference is kept, and so is what it leads to, unless that name was
      stolen from the reference. -/
  links : ∀ ref name rule, Event.linked ref name rule ∈ s.history →
    s.table.find? name = some rule ∧
      ∃ now, s.ruleNames.lookup ref = some now ∧ (now = rule ∨ s.IsStolen ref)

/-- Where work on schemas goes. -/
structure Moves (tidy quiet : Prop) (s s' : Session) : Prop where
  orderly : s'.Orderly tidy
  extends_ : s.table.Extends s'.table
  promises : ∀ name, s.table.Promises name → s'.table.Promises name
  resolver : s'.resolver = s.resolver
  remembers : s.Remembers s'
  history : s.history <:+ s'.history
  root : quiet → s'.table.find? "root" = s.table.find? "root"

/-- Where work on schemas that ends well goes. -/
structure Advances (tidy quiet : Prop) (s s' : Session) : Prop extends Moves tidy quiet s s' where
  reserved : ∀ name ∈ s'.table.reserved, name ∈ s.table.reserved

section Relations

variable {tidy quiet quiet' : Prop} {s s' s'' : Session} {ref name : String}

theorem IsStolen.mono (h : s.IsStolen ref) (hextends : s.table.Extends s'.table)
    (hhistory : s.history <:+ s'.history) : s'.IsStolen ref := by
  obtain ⟨claimed, found, hclaimed, hfound, hne, hhas⟩ := h
  exact ⟨claimed, found, hhistory.subset hclaimed, hhistory.subset hfound, hne, hextends.has hhas⟩

theorem Moves.refl (h : s.Orderly tidy) : Moves tidy quiet s s :=
  ⟨h, .refl _, fun _ => id, rfl, .refl s, List.suffix_refl _, fun _ => rfl⟩

theorem Moves.trans (h : Moves tidy quiet s s') (h' : Moves tidy quiet s' s'') :
    Moves tidy quiet s s'' :=
  ⟨h'.orderly, h.extends_.trans h'.extends_, fun name hname => h'.promises name (h.promises name hname),
    h'.resolver.trans h.resolver, h.remembers.trans h'.remembers,
    h.history.trans h'.history, fun hquiet => (h'.root hquiet).trans (h.root hquiet)⟩

theorem Moves.weaken (h : Moves tidy quiet' s s') (hquiet : quiet → quiet') :
    Moves tidy quiet s s' :=
  ⟨h.orderly, h.extends_, h.promises, h.resolver, h.remembers, h.history, fun hq => h.root (hquiet hq)⟩

theorem Advances.refl (h : s.Orderly tidy) : Advances tidy quiet s s :=
  ⟨.refl h, fun _ => id⟩

theorem Advances.trans (h : Advances tidy quiet s s') (h' : Advances tidy quiet s' s'') :
    Advances tidy quiet s s'' :=
  ⟨h.toMoves.trans h'.toMoves, fun name hname => h.reserved name (h'.reserved name hname)⟩

theorem Advances.weaken (h : Advances tidy quiet' s s') (hquiet : quiet → quiet') :
    Advances tidy quiet s s' :=
  ⟨h.toMoves.weaken hquiet, h.reserved⟩

/-- Work on the table alone. -/
theorem Orderly.withTable (h : s.Orderly tidy) {t : RuleTable}
    (ht : RuleTable.Advances tidy quiet s.table t) :
    Advances tidy quiet s { s with table := t } := by
  refine ⟨⟨⟨ht.orderly, fun htidy ref name hname => ?_, fun ref name rule hlink => ?_⟩,
    ht.extends_, ht.promises, rfl, .refl s, List.suffix_refl _, ht.root⟩, ht.reserved⟩
  · exact ht.promises name (h.names htidy ref name hname)
  · obtain ⟨hfind, now, hnow, hrule⟩ := h.links ref name rule hlink
    exact ⟨ht.extends_.find? hfind, now, hnow,
      hrule.imp_right fun hstolen => hstolen.mono ht.extends_ (List.suffix_refl _)⟩

theorem orderly_new (documents : List Json) : (new documents).Orderly tidy :=
  ⟨RuleTable.orderly_new, by simp [new], by simp [new]⟩

end Relations

/-! ## Work on orderly sessions -/

/-- Work that keeps a session orderly, also where it fails. -/
def Runs {α : Type} (tidy quiet : Prop) (E : Failure → Prop) (Q : α → Session → Prop)
    (x : CompileM α) (s : Session) : Prop :=
  Work.Leads (Advances tidy quiet) (Moves tidy quiet) E Q x s

section Runs

variable {α β : Type} {tidy quiet quiet' : Prop} {E : Failure → Prop} {Q : α → Session → Prop}
variable {s : Session}

theorem Runs.weaken {x : CompileM α} (h : Runs tidy quiet' E Q x s) (hquiet : quiet → quiet') :
    Runs tidy quiet E Q x s := by
  obtain ⟨hok, herror⟩ := Work.leads_iff.1 h
  refine Work.leads_iff.2 ⟨fun a s' hrun => ?_, fun e s' hrun => ?_⟩
  · exact ⟨(hok a s' hrun).1.weaken hquiet, (hok a s' hrun).2⟩
  · exact ⟨(herror e s' hrun).1.weaken hquiet, (herror e s' hrun).2⟩

theorem Runs.mono {x : CompileM α} {Q' : α → Session → Prop} (h : Runs tidy quiet E Q x s)
    (hQ : ∀ a s', Advances tidy quiet s s' → Q a s' → Q' a s') : Runs tidy quiet E Q' x s :=
  Work.Leads.mono h hQ

/-- One step and the work behind it; the step may promise more about the root. -/
theorem Runs.bind {x : CompileM α} {f : α → CompileM β} {Q' : β → Session → Prop}
    (hx : Runs tidy quiet' E Q x s) (hquiet : quiet → quiet')
    (hf : ∀ a s', Advances tidy quiet' s s' → Q a s' → Runs tidy quiet E Q' (f a) s') :
    Runs tidy quiet E Q' (x >>= f) s := by
  have hall : Runs tidy quiet E (fun a s' => Advances tidy quiet' s s' ∧ Q a s') x s := by
    obtain ⟨hok, herror⟩ := Work.leads_iff.1 hx
    refine Work.leads_iff.2 ⟨fun a s' hrun => ?_, fun e s' hrun => ?_⟩
    · exact ⟨(hok a s' hrun).1.weaken hquiet, hok a s' hrun⟩
    · exact ⟨(herror e s' hrun).1.weaken hquiet, (herror e s' hrun).2⟩
  exact Work.Leads.bind (fun _ _ => .trans) (fun _ _ h h' => h.toMoves.trans h') hall
    fun a s' _ h => hf a s' h.1 h.2

theorem runs_pure {a : α} (h : s.Orderly tidy) (hQ : Q a s) : Runs tidy quiet E Q (pure a) s :=
  Work.leads_of_ok rfl (.refl h) hQ

theorem runs_throw {e : Failure} (h : s.Orderly tidy) (he : E e) :
    Runs tidy quiet E Q (throw e) s :=
  Work.leads_of_error rfl (.refl h) he

theorem runs_orFail {x : Except Failure α} (h : s.Orderly tidy) (hok : ∀ a, x = .ok a → Q a s)
    (herror : ∀ e, x = .error e → E e) : Runs tidy quiet E Q (orFail x) s :=
  Work.leads_ofExcept (.refl h) (.refl h) hok herror

theorem runs_get_bind {f : Session → CompileM α} (h : Runs tidy quiet E Q (f s) s) :
    Runs tidy quiet E Q (get >>= f) s :=
  h

/-- Work on the table keeps everything else. -/
theorem runs_onTable {work : TableM α} {P : α → RuleTable → Prop} (h : s.Orderly tidy)
    (hwork : RuleTable.Runs tidy quiet E P work s.table) :
    Runs tidy quiet E (fun a s' => P a s'.table ∧ s' = { s with table := s'.table })
      (onTable work) s := by
  obtain ⟨hok, herror⟩ := Work.leads_iff.1 hwork
  unfold Runs Work.Leads onTable
  cases hrun : work s.table with
  | ok a t => exact ⟨h.withTable (hok a t hrun).1, (hok a t hrun).2, rfl⟩
  | error e t => exact ⟨(h.withTable (herror e t hrun).1).toMoves, (herror e t hrun).2⟩

/-- Work on one item after the other, each of which gives the name of a rule. -/
theorem runs_mapM {f : α → CompileM String} {items : List α} (h : s.Orderly tidy)
    (hstep : ∀ a ∈ items, ∀ s₁, Advances tidy quiet s s₁ →
      Runs tidy quiet E (fun name s' => s'.table.has name = true) (f a) s₁) :
    Runs tidy quiet E (fun names s' => ∀ name ∈ names, s'.table.has name = true)
      (items.mapM f) s := by
  induction items generalizing s with
  | nil => exact runs_pure h (by simp)
  | cons a rest ih =>
    rw [List.mapM_cons]
    refine (hstep a (by simp) s (.refl h)).bind id fun name s₁ hfirst hname => ?_
    have hrest := ih hfirst.orderly fun b hb s₂ hmore =>
      hstep b (List.mem_cons_of_mem _ hb) s₂ (hfirst.trans hmore)
    refine hrest.bind id fun names s₂ hmore hnames => ?_
    refine runs_pure hmore.orderly fun other hother => ?_
    rcases List.mem_cons.1 hother with rfl | hother
    · exact hmore.extends_.has hname
    · exact hnames other hother

end Runs

end Session

/-! ## Reading what a schema holds -/

namespace RunSort

variable {α : Type} {less : α → α → Except Failure Bool} {P : Failure → Prop}

theorem fails_takeRun (h : ∀ a b, Fails P (less a b)) (falling : Bool) (last : α)
    (items : List α) : Fails P (takeRun less falling last items) := by
  induction items generalizing last with
  | nil => exact .ok _
  | cons x rest ih =>
    refine (h x last).bind fun answer => ?_
    split_ifs
    · exact (ih x).bind fun _ => .ok _
    · exact .ok _

theorem fails_insert (h : ∀ a b, Fails P (less a b)) (x : α) (sorted : List α) :
    Fails P (insert less x sorted) := by
  induction sorted using insert.induct with
  | case1 =>
    rw [insert]
    exact .ok _
  | case2 first rest half below above ihbelow =>
    rename_i ihabove
    rw [insert]
    refine (h x _).bind fun answer => ?_
    split_ifs
    · exact ihbelow.bind fun _ => .ok _
    · exact ihabove.bind fun _ => .ok _

/-- Sorting fails only where comparing does. -/
theorem fails_sort (h : ∀ a b, Fails P (less a b)) (items : List α) :
    Fails P (sort less items) := by
  unfold sort
  split
  · refine (h _ _).bind fun falling => ?_
    refine (fails_takeRun h _ _ _).bind fun taken => ?_
    exact .foldlM (fun sorted z => fails_insert h z sorted) _ _
  · exact .ok _

end RunSort

namespace Schema

open Fails (ok misuse)

theorem misuses_elements (v : Json) : Fails Failure.IsMisuse (elements v) := by
  cases v with
  | arr _ | obj _ | str _ => exact ok _
  | _ => exact misuse _

theorem misuses_containsText (v : Json) (s : String) :
    Fails Failure.IsMisuse (containsText v s) := by
  cases v with
  | arr _ | obj _ | str _ => exact ok _
  | _ => exact misuse _

theorem misuses_fieldOf (v : Json) (key : String) : Fails Failure.IsMisuse (fieldOf v key) := by
  cases v with
  | obj _ => exact ok _
  | _ => exact misuse _

theorem misuses_fieldsFor (operation : String) (v : Json) :
    Fails Failure.IsMisuse (fieldsFor operation v) := by
  cases v with
  | obj _ => exact ok _
  | _ => exact misuse _

theorem misuses_checkKey (v : Json) : Fails Failure.IsMisuse (checkKey v) := by
  cases v with
  | arr _ | obj _ => exact misuse _
  | _ => exact ok _

theorem misuses_declaredProperties (fields : Json.Fields) :
    Fails Failure.IsMisuse (declaredProperties fields) :=
  misuses_fieldsFor _ _

theorem misuses_requiredNames (fields : Json.Fields) :
    Fails Failure.IsMisuse (requiredNames fields) :=
  (misuses_elements _).bind fun names =>
    (Fails.forM misuses_checkKey names).bind fun _ => ok _

theorem misuses_sortProperties (options : Options) (names : List String) :
    Fails Failure.IsMisuse (options.sortProperties names) := by
  have hbefore (a b : Options.Ranked) : Fails Failure.IsMisuse (a.before b) := by
    unfold Options.Ranked.before
    split_ifs
    · exact ok _
    · split
      · exact ok _
      · exact misuse _
  refine Fails.bind (.mapM (fun x => ?_) _) fun ranked => ?_
  · exact ((misuses_fieldsFor _ _).bind fun _ => ok _).bind fun _ => ok _
  · exact (RunSort.fails_sort hbefore ranked).bind fun _ => ok _

theorem checkWritable_eq_error {v : Json} {e : Failure} (h : checkWritable v = .error e) :
    v.isWritable = false ∧ e = .tooManyDigits := by
  unfold checkWritable at h
  split_ifs at h with hwritable
  exact ⟨by simpa using hwritable, (Except.error.inj h).symm⟩

/-- Values are not written if one of them cannot be. -/
theorem forM_checkWritable_eq_error {values : List Json} {e : Failure}
    (h : values.forM checkWritable = .error e) :
    (∃ v ∈ values, v.isWritable = false) ∧ e = .tooManyDigits := by
  induction values with
  | nil => cases h
  | cons v rest ih =>
    obtain hfirst | ⟨_, -, hrest⟩ := Work.except_bind_eq_error.1 h
    · obtain ⟨hv, he⟩ := checkWritable_eq_error hfirst
      exact ⟨⟨v, by simp, hv⟩, he⟩
    · obtain ⟨⟨w, hw, hlong⟩, he⟩ := ih hrest
      exact ⟨⟨w, List.mem_cons_of_mem _ hw, hlong⟩, he⟩

end Schema

end SchemaGrammar
