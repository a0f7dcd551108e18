import SchemaGrammar.Proofs.Rules.Builtin
import SchemaGrammar.Proofs.Work

set_option autoImplicit false

/-! # Tables that agree with the catalog

In a coherent table the built-in names hold the built-in bodies with all that these need, and every
other body refers only to rules in front of it and to built-in ones. Adding rules keeps a table
coherent, as long as the names that are asked for are not built-in ones. From this follow all
facts about a finished table: its text can be read, it is not left recursive, and its built-in
rules have the languages that they have by themselves. -/

namespace SchemaGrammar

open Grammar (Written IsBody IsReadable Holds)

theorem Builtin.find?_of_get {name : String} {rule : Builtin} (h : Builtin.get name = .ok rule) :
    Builtin.find? name = some rule := by
  unfold Builtin.get at h
  split at h
  · rename_i found hfound
    rw [hfound, Except.ok.inj h]
  · exact absurd h (by simp)

namespace RuleTable

/-! ## Names that can be stored -/

/-- A name that the table can store: it is not empty and has only characters that are kept. -/
def IsStorable (name : String) : Prop :=
  name ≠ "" ∧ ∀ c ∈ name.toList, keepsInName c = true

theorem keepsInName_dashRuns (keep : Char → Bool) (hkeep : ∀ c, keep c = true → keepsInName c = true)
    (inRun : Bool) (cs : List Char) : ∀ c ∈ dashRuns keep inRun cs, keepsInName c = true := by
  induction cs generalizing inRun with
  | nil => simp [dashRuns]
  | cons d rest ih =>
    intro c hc
    rw [dashRuns] at hc
    split_ifs at hc with hd hrun
    · rcases List.mem_cons.1 hc with rfl | hc
      · exact hkeep _ hd
      · exact ih false c hc
    · exact ih true c hc
    · rcases List.mem_cons.1 hc with rfl | hc
      · decide
      · exact ih true c hc

theorem dashRuns_ne_nil (keep : Char → Bool) {cs : List Char} (h : cs ≠ []) :
    dashRuns keep false cs ≠ [] := by
  obtain ⟨c, rest, rfl⟩ := List.exists_cons_of_ne_nil h
  rw [dashRuns]
  split_ifs <;> simp_all

theorem isStorable_escapeName {name : String} (h : name ≠ "") : IsStorable (escapeName name) := by
  refine ⟨fun hempty => ?_, ?_⟩
  · have hnil : dashRuns keepsInName false name.toList = [] := by
      simpa [escapeName] using congrArg String.toList hempty
    exact dashRuns_ne_nil _ (by simpa using h) hnil
  · rw [escapeName, String.toList_ofList]
    exact keepsInName_dashRuns _ (fun _ hc => hc) _ _

theorem isBlank_of_keepsInName {c : Char} (h : keepsInName c = true) : Text.isBlank c = false := by
  simp only [keepsInName, Bool.or_eq_true, Bool.and_eq_true, decide_eq_true_eq] at h
  rcases h with ((h | h) | h) | rfl
  · exact Text.isBlank_of_isDecimal h
  · exact Text.isBlank_of_between h.1 h.2 (by decide)
  · exact Text.isBlank_of_between h.1 h.2 (by decide)
  · decide

theorem keepsInName_of_isDigit {c : Char} (h : c.isDigit = true) : keepsInName c = true := by
  have hall : ∀ c ∈ Text.asciiDigits, keepsInName c = true := by decide
  exact hall c (Text.mem_asciiDigits h)

theorem IsSlot.isStorable {name slot : String} (h : IsSlot name slot) (hname : name ≠ "") :
    IsStorable slot := by
  have hbase := isStorable_escapeName hname
  rcases h with rfl | ⟨i, rfl⟩
  · exact hbase
  · refine ⟨by simp [numbered, hbase.1], fun c hc => ?_⟩
    rw [numbered, String.toList_append, List.mem_append] at hc
    rcases hc with hc | hc
    · exact hbase.2 c hc
    · rw [natText, String.toList_ofList] at hc
      exact keepsInName_of_isDigit (Text.isDigit_of_mem_toDigits hc)

/-- A number at the end makes a name that is not built in. -/
theorem find?_numbered (name : String) (i : Nat) : Builtin.find? (numbered name i) = none := by
  have hall : ∀ x ∈ Builtin.catalog, ∀ c ∈ x.1.toList.getLast?, c.isDigit = false := by decide
  rw [Builtin.find?, Assoc.lookup_eq_none_iff]
  intro hmem
  obtain ⟨x, hx, hname⟩ := List.mem_map.1 hmem
  have hdigits : (natText i).toList ≠ [] := by
    rw [natText, String.toList_ofList]
    exact Nat.toDigits_ne_nil
  have hlast : x.1.toList.getLast? = (natText i).toList.getLast? := by
    rw [hname, numbered, String.toList_append, List.getLast?_append_of_ne_nil _ hdigits]
  obtain ⟨c, hc⟩ := Option.isSome_iff_exists.1 (List.getLast?_isSome.2 hdigits)
  have hdigit : c.isDigit = true := by
    refine Text.isDigit_of_mem_toDigits (n := i) ?_
    have hmem := List.mem_of_getLast? hc
    rwa [natText, String.toList_ofList] at hmem
  rw [hall x hx c (hlast.trans hc)] at hdigit
  exact absurd hdigit Bool.false_ne_true

theorem IsSlot.find?_eq_none {name slot : String} (h : IsSlot name slot)
    (hname : Builtin.find? (escapeName name) = none) : Builtin.find? slot = none := by
  rcases h with rfl | ⟨i, rfl⟩
  · exact hname
  · exact find?_numbered _ i

/-! ## Coherent tables -/

/-- A body stands for a tree whose rules `P` allows: it is known to be read as such, or it is
    written as such. -/
def Stands (P : String → Prop) (body : String) (node : Node) : Prop :=
  IsBody body node ∧ node.Fits P ∨
    ∃ rows, Written P (.rows rows) body.toList ∧ node = Grammar.ofRows rows

section Stands

variable {P Q : String → Prop} {body : String} {node : Node}

theorem Stands.mono (h : Stands P body node) (hPQ : ∀ name, P name → Q name) :
    Stands Q body node := by
  rcases h with ⟨hbody, hfits⟩ | ⟨rows, hw, rfl⟩
  · exact .inl ⟨hbody, hfits.mono hPQ⟩
  · exact .inr ⟨rows, hw.mono hPQ, rfl⟩

theorem Stands.fits (h : Stands P body node) : node.Fits P := by
  rcases h with ⟨-, hfits⟩ | ⟨rows, hw, rfl⟩
  · exact hfits
  · exact Grammar.fits_ofRows hw.fits.1 hw.fits.2

theorem Stands.isBody (h : Stands P body node) (hP : ∀ name, P name → IsReadable name) :
    IsBody body node := by
  rcases h with ⟨hbody, -⟩ | ⟨rows, hw, rfl⟩
  · exact hbody
  · exact hw.isBody hP

end Stands

/-- The table agrees with the catalog. The names in `pending` are still to be added. Where the rules
    are `sorted`, nothing but a built-in rule can be referred to before it is there. -/
structure Coherent (sorted : Prop) (pending : String → Prop) (t : RuleTable) : Prop where
  wellFormed : t.WellFormed
  storable : ∀ name, t.has name = true → IsStorable name
  space : t.find? Builtin.spaceName = some Builtin.space
  builtin : ∀ name rule, Builtin.find? name = some rule → t.has name = true →
    t.find? name = some rule.body ∧ ∀ need ∈ rule.needs, t.has need = true ∨ pending need
  claimed : ∀ name ∈ t.reserved, Builtin.find? name = none
  /-- Bodies refer to rules in front of them and to built-in ones. -/
  ordered : sorted → ∀ front name body back, t.rules = front ++ (name, body) :: back →
    ∃ node, Stands (fun other => (t.has other = true ∨ pending other) ∧
      (other ∈ front.map Prod.fst ∨ other ∈ Builtin.names)) body node

section Coherent

variable {sorted : Prop} {pending : String → Prop} {t t' : RuleTable} {name body slot : String}

theorem Coherent.weaken (h : t.Coherent sorted pending) {other : String → Prop}
    (hsub : ∀ name, pending name → t.has name = true ∨ other name) : t.Coherent sorted other := by
  refine ⟨h.wellFormed, h.storable, h.space, ?_, h.claimed, ?_⟩
  · intro name rule hrule hhas
    obtain ⟨hbody, hneeds⟩ := h.builtin name rule hrule hhas
    exact ⟨hbody, fun need hneed => (hneeds need hneed).elim .inl (hsub need)⟩
  · intro hsorted front name body back hrules
    obtain ⟨node, hnode⟩ := h.ordered hsorted front name body back hrules
    exact ⟨node, hnode.mono fun n hn => ⟨hn.1.elim .inl (hsub n), hn.2⟩⟩

theorem coherent_new (sorted : Prop) : new.Coherent sorted (fun _ => False) := by
  refine ⟨wellFormed_new, ?_, rfl, ?_, by simp [new], ?_⟩
  · intro name hname
    obtain rfl : name = Builtin.spaceName := by simpa [has_iff_mem, new] using hname
    exact ⟨by decide, by decide⟩
  · intro name rule hrule hname
    obtain rfl : name = Builtin.spaceName := by simpa [has_iff_mem, new] using hname
    have hnone : Builtin.find? Builtin.spaceName = none := by decide
    rw [hnone] at hrule
    exact absurd hrule (by simp)
  · intro _ front name body back hrules
    obtain ⟨rfl, hpair, rfl⟩ : front = [] ∧ (name, body) = (Builtin.spaceName, Builtin.space) ∧
        back = [] := by
      cases front with
      | nil => simpa [new, eq_comm] using hrules
      | cons pair front => simp [new] at hrules
    obtain ⟨rfl, rfl⟩ := Prod.mk.inj hpair
    have hspace : (Builtin.spaceName, Builtin.space) ∈ Builtin.bodies := List.mem_cons_self
    have hnone : ∀ node, Builtin.nodes.lookup Builtin.spaceName = some node →
        node.ruleNames = [] := by
      rintro node ⟨⟩
      rfl
    obtain ⟨node, hnode, hbody⟩ := Builtin.exists_node hspace
    exact ⟨node, .inl ⟨hbody, by simp [hnone node hnode], (Builtin.fits_nodes hnode).counts⟩⟩

/-- A body behind all others leaves the order of the others as it is. -/
theorem ordered_append (h : t.Coherent sorted pending) (hsorted : sorted)
    (hext : t'.rules = t.rules ++ [(slot, body)]) {other : String → Prop} (hsub : ∀ name, pending name → t'.has name = true ∨ other name)
    {node : Node} (hnew : Stands (fun n => (t'.has n = true ∨ other n) ∧
      (t.has n = true ∨ n ∈ Builtin.names)) body node) :
    ∀ front name content back, t'.rules = front ++ (name, content) :: back →
      ∃ node, Stands (fun n => (t'.has n = true ∨ other n) ∧
        (n ∈ front.map Prod.fst ∨ n ∈ Builtin.names)) content node := by
  intro front name content back hrules
  have hextends : t.Extends t' := ⟨_, hext.symm⟩
  rw [hext] at hrules
  rcases List.eq_nil_or_concat back with rfl | ⟨back, last, rfl⟩
  · obtain ⟨rfl, hpair⟩ := List.append_inj' hrules rfl
    obtain ⟨rfl, rfl⟩ := Prod.mk.inj (List.cons.inj hpair).1
    exact ⟨node, hnew.mono fun n hn => ⟨hn.1, hn.2.imp_left has_iff_mem.1⟩⟩
  · have hold : t.rules = front ++ (name, content) :: back := by
      rw [List.concat_eq_append, ← List.cons_append, ← List.append_assoc] at hrules
      exact (List.append_inj' hrules rfl).1
    obtain ⟨old, hstands⟩ := h.ordered hsorted front name content back hold
    refine ⟨old, hstands.mono fun n hn => ⟨?_, hn.2⟩⟩
    exact hn.1.elim (fun hhas => .inl (hextends.has hhas)) (hsub n)

/-- A new rule keeps a table coherent. Under a built-in name it has to be the built-in one. -/
theorem Coherent.adds (h : t.Coherent sorted pending) (hadds : Adds t name body slot t')
    (hname : name ≠ "")
    (hslot : ∀ rule, Builtin.find? slot = some rule →
      rule.body = body ∧ ∀ need ∈ rule.needs, t'.has need = true ∨ pending need)
    (hbody : sorted → ∃ node, Stands (fun n => (t'.has n = true ∨ pending n) ∧
      (t.has n = true ∨ n ∈ Builtin.names)) body node) : t'.Coherent sorted pending := by
  have hwf := hadds.wellFormed h.wellFormed
  have hclaimed : ∀ other ∈ t'.reserved, Builtin.find? other = none := by
    intro other hother
    rw [hadds.reserved] at hother
    exact h.claimed other (List.mem_of_mem_filter hother)
  rcases hadds.rules with ⟨hrules, -⟩ | ⟨hrules, hnone⟩
  · -- nothing changes but the names that wait
    have hfind (other : String) : t'.find? other = t.find? other := by rw [find?, hrules, find?]
    have hhas (other : String) : t'.has other = t.has other := by rw [has, hfind, has]
    refine ⟨hwf, ?_, ?_, ?_, hclaimed, ?_⟩
    · simpa only [hhas] using h.storable
    · rw [hfind]
      exact h.space
    · simpa only [hhas, hfind] using h.builtin
    · simpa only [hrules, hhas] using h.ordered
  · refine ⟨hwf, ?_, hadds.extends.find? h.space, ?_, hclaimed, fun hsorted => ?_⟩
    · intro other hother
      by_cases heq : other = slot
      · rw [heq]
        exact hadds.isSlot.isStorable hname
      · refine h.storable other ?_
        rwa [has, hadds.find?_of_ne heq] at hother
    · intro other rule hrule hother
      by_cases heq : other = slot
      · subst heq
        obtain ⟨rfl, hneeds⟩ := hslot rule hrule
        exact ⟨hadds.find?, hneeds⟩
      · rw [has, hadds.find?_of_ne heq] at hother
        obtain ⟨hcontent, hneeds⟩ := h.builtin other rule hrule hother
        rw [hadds.find?_of_ne heq]
        exact ⟨hcontent, fun need hneed =>
          (hneeds need hneed).imp_left fun hhas => hadds.extends.has hhas⟩
    · obtain ⟨node, hnode⟩ := hbody hsorted
      exact ordered_append h hsorted hrules (fun _ => .inr) hnode

/-- A rule that is written, under a name that is not built in. -/
theorem Coherent.add (h : t.Coherent sorted pending) (hadds : Adds t name body slot t')
    (hname : name ≠ "") (hfree : Builtin.find? (escapeName name) = none)
    (hw : sorted → ∃ L, t.Writes body L) : t'.Coherent sorted pending := by
  refine h.adds hadds hname ?_ fun hsorted => ?_
  · intro rule hrule
    rw [hadds.isSlot.find?_eq_none hfree] at hrule
    exact absurd hrule (by simp)
  · obtain ⟨L, rows, hrows, -⟩ := hw hsorted
    exact ⟨_, .inr ⟨rows, hrows.mono fun n hn => ⟨.inl (hadds.extends.has hn), .inl hn⟩, rfl⟩⟩

/-! ## Built-in rules -/

theorem mem_bodies {rule : Builtin} (h : Builtin.find? name = some rule) :
    (name, rule.body) ∈ Builtin.bodies :=
  List.mem_cons_of_mem _ (List.mem_map.2 ⟨(name, rule), Assoc.mem_of_lookup h, rfl⟩)

theorem escapeName_builtin {rule : Builtin} (h : Builtin.find? name = some rule) :
    name ≠ "" ∧ escapeName name = name := by
  have hall : ∀ x ∈ Builtin.catalog, x.1 ≠ "" ∧ escapeName x.1 = x.1 := by decide +kernel
  exact hall _ (Assoc.mem_of_lookup h)

/-- A built-in rule is always stored under its own name. -/
theorem Coherent.slot_eq {rule : Builtin} (h : t.Coherent sorted pending)
    (hrule : Builtin.find? name = some rule) : (t.add name rule.body).1 = name := by
  have hescape := (escapeName_builtin hrule).2
  have hreserved : name ∉ t.reserved := by
    intro hmem
    rw [h.claimed name hmem] at hrule
    exact absurd hrule (by simp)
  unfold RuleTable.add
  dsimp only
  rw [hescape, if_neg (by simpa using hreserved)]
  cases hfind : t.find? name with
  | none => rfl
  | some other =>
    have hbody := (h.builtin name rule hrule (has_of_find? hfind)).1
    obtain rfl : other = rule.body := Option.some.inj (hfind.symm.trans hbody)
    simp

/-- A built-in rule under its own name or one that is not built in. What it needs is pending. -/
theorem Coherent.add_builtin {own : String} {rule : Builtin} (h : t.Coherent sorted pending)
    (hown : Builtin.find? own = some rule) (hname : name ≠ "")
    (hwhich : name = own ∨ Builtin.find? (escapeName name) = none) :
    (t.add name rule.body).2.Coherent sorted fun need => pending need ∨ need ∈ rule.needs := by
  have hadds := adds_add h.wellFormed name rule.body
  refine (h.weaken fun _ => fun hn => .inr (.inl hn)).adds hadds hname ?_ ?_
  · intro other hother
    rcases hwhich with rfl | hfree
    · rw [h.slot_eq hown, hown] at hother
      obtain rfl := Option.some.inj hother
      exact ⟨rfl, fun need hneed => .inr (.inr hneed)⟩
    · rw [hadds.isSlot.find?_eq_none hfree] at hother
      exact absurd hother (by simp)
  · intro _
    obtain ⟨node, hnode, hbody⟩ := Builtin.exists_node (mem_bodies hown)
    have hfits := Builtin.fits_nodes hnode
    refine ⟨node, .inl ⟨hbody, fun n hn => ⟨?_, .inr (hfits.names n hn)⟩, hfits.counts⟩⟩
    rcases Builtin.ruleNames_subset hown hnode n hn with rfl | hneed
    · exact .inl (hadds.extends.has (has_of_find? h.space))
    · exact .inr (.inr hneed)

end Coherent

/-- What registering a built-in rule does. -/
structure AddsBuiltin (sorted : Prop) (pending : String → Prop) (t : RuleTable) (name : String)
    (rule : Builtin) (slot : String) (t' : RuleTable) : Prop where
  coherent : t'.Coherent sorted pending
  extends_ : t.Extends t'
  find? : t'.find? slot = some rule.body
  needs : ∀ need ∈ rule.needs, t'.has need = true
  isSlot : IsSlot name slot
  reserved : t'.reserved = t.reserved.filter (· != slot)
  /-- Nothing but the rule and built-in ones is new. -/
  only : ∀ other, t'.has other = true → t.has other = true ∨ other = slot ∨ other ∈ Builtin.names

theorem addRule_eq_ok {t t' : RuleTable} {name body slot : String} :
    addRule name body t = .ok slot t' ↔ t.add name body = (slot, t') := by
  change EStateM.Result.ok (t.add name body).1 (t.add name body).2 = _ ↔ _
  simp [Prod.ext_iff]

/-- The name that a built-in rule is stored under does not depend on what it needs. -/
theorem addBuiltinFrom_slot {depth : Nat} {name slot : String} {rule : Builtin} {t t' : RuleTable}
    (hrun : addBuiltinFrom depth name rule t = .ok slot t') : (t.add name rule.body).1 = slot := by
  cases depth with
  | zero => exact absurd hrun Work.throw_ne_ok
  | succ depth =>
    obtain ⟨stored, t₁, hadd, hrest⟩ := Work.bind_eq_ok.1 hrun
    obtain ⟨u, t₂, -, hpure⟩ := Work.bind_eq_ok.1 hrest
    obtain ⟨rfl, -⟩ := Work.pure_eq_ok.1 hpure
    rw [addRule_eq_ok.1 hadd]

theorem addsBuiltin_addBuiltinFrom {sorted : Prop} {depth : Nat} {pending : String → Prop}
    {t t' : RuleTable} {name own slot : String} {rule : Builtin} (h : t.Coherent sorted pending)
    (hown : Builtin.find? own = some rule) (hname : name ≠ "")
    (hwhich : name = own ∨ Builtin.find? (escapeName name) = none)
    (hrun : addBuiltinFrom depth name rule t = .ok slot t') :
    AddsBuiltin sorted pending t name rule slot t' := by
  induction depth generalizing pending t t' name own slot rule with
  | zero => exact absurd hrun Work.throw_ne_ok
  | succ depth ih =>
    obtain ⟨stored, t₁, hadd, hrest⟩ := Work.bind_eq_ok.1 hrun
    obtain ⟨rfl, rfl⟩ := Prod.mk.inj (addRule_eq_ok.1 hadd)
    obtain ⟨u, t₂, hloop, hpure⟩ := Work.bind_eq_ok.1 hrest
    obtain ⟨rfl, rfl⟩ := Work.pure_eq_ok.1 hpure
    have hadds := adds_add h.wellFormed name rule.body
    have hstart := h.add_builtin hown hname hwhich
    have hstep := Work.forM_reaches
      (I := fun s => s.Coherent sorted (fun need => pending need ∨ need ∈ rule.needs) ∧
        (t.add name rule.body).2.Extends s ∧ s.reserved = (t.add name rule.body).2.reserved ∧
        ∀ other, s.has other = true →
          (t.add name rule.body).2.has other = true ∨ other ∈ Builtin.names)
      (Q := fun need s => s.has need = true) ?_ ⟨hstart, .refl _, rfl, fun _ h => .inl h⟩ hloop
    · obtain ⟨⟨hcoherent, hextends, hreserved, honly⟩, hneeds, -⟩ := hstep
      refine ⟨hcoherent.weaken ?_, hadds.extends.trans hextends, hextends.find? hadds.find?,
        hneeds, hadds.isSlot, hreserved.trans hadds.reserved, fun other hother => ?_⟩
      · rintro need (hneed | hneed)
        · exact .inr hneed
        · exact .inl (hneeds need hneed)
      · rcases honly other hother with hother | hother
        · exact (hadds.has_iff.1 hother).imp_right .inl
        · exact .inr (.inr hother)
    · rintro need - s s' u ⟨hs, hext, hreserved, hnew⟩ hneed
      obtain ⟨needed, s₁, hget, hmore⟩ := Work.bind_eq_ok.1 hneed
      obtain ⟨hgot, rfl⟩ := Work.ofExcept_eq_ok.1 hget
      obtain ⟨s₂, s₃, hstate, hmatch⟩ := Work.bind_eq_ok.1 hmore
      obtain ⟨rfl, rfl⟩ := Work.get_eq_ok.1 hstate
      have hfound := Builtin.find?_of_get hgot
      cases hfind : s.find? need with
      | none =>
        simp only [hfind] at hmatch
        obtain ⟨stored, s₄, hrec, hlast⟩ := Work.bind_eq_ok.1 hmatch
        obtain ⟨-, rfl⟩ := Work.pure_eq_ok.1 hlast
        have hadded := ih hs hfound (escapeName_builtin hfound).1 (.inl rfl) hrec
        rw [← addBuiltinFrom_slot hrec, hs.slot_eq hfound] at hadded
        have hbuiltin : need ∈ Builtin.names := List.mem_map.2 ⟨_, mem_bodies hfound, rfl⟩
        have hkept : s.reserved.filter (· != need) = s.reserved := by
          refine List.filter_eq_self.2 fun other hother => ?_
          have hne : other ≠ need := by
            rintro rfl
            rw [hs.claimed other hother] at hfound
            exact absurd hfound (by simp)
          simpa using hne
        refine ⟨⟨hadded.coherent, hext.trans hadded.extends_,
          hadded.reserved.trans (hkept.trans hreserved), fun other hother => ?_⟩,
          has_of_find? hadded.find?, fun other => hadded.extends_.has⟩
        rcases hadded.only other hother with hother | rfl | hother
        · exact hnew other hother
        · exact .inr hbuiltin
        · exact .inr hother
      | some body =>
        have hhas : s.has need = true := has_of_find? hfind
        have hbody := (hs.builtin need needed hfound hhas).1
        obtain rfl : body = needed.body := Option.some.inj (hfind.symm.trans hbody)
        simp only [hfind, bne_self_eq_false, Bool.false_eq_true, if_false] at hmatch
        obtain ⟨-, rfl⟩ := Work.pure_eq_ok.1 hmatch
        exact ⟨⟨hs, hext, hreserved, hnew⟩, hhas, fun _ => id⟩

end RuleTable

end SchemaGrammar
