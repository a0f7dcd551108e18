import SchemaGrammar.Proofs.Grammar.Settling
import SchemaGrammar.Proofs.Rules.Standalone

set_option autoImplicit false

/-! # Asking a table for names

The names that are asked for decide what a table keeps: a name that is not built in keeps the table
complete, one without foreign digits is stored under a name that can be read, and one that is not
`root` leaves the root alone. Names with foreign digits are stored too, but then the text of the
table cannot be read (`Complete.names_of_ofText`). -/

namespace SchemaGrammar

open Grammar (IsReadable IsNameLike IsBodyLike)

namespace RuleTable

/-! ## Names without foreign digits -/

/-- All decimal digits of a text are ASCII ones. -/
def HasPlainDigits (s : String) : Prop :=
  ∀ c ∈ s.toList, Text.isDecimal c = true → c.isDigit = true

instance (s : String) : Decidable (HasPlainDigits s) :=
  inferInstanceAs (Decidable (∀ c ∈ s.toList, Text.isDecimal c = true → c.isDigit = true))

theorem HasPlainDigits.append {a b : String} (ha : HasPlainDigits a) (hb : HasPlainDigits b) :
    HasPlainDigits (a ++ b) := by
  intro c hc
  rw [String.toList_append, List.mem_append] at hc
  exact hc.elim (ha c) (hb c)

theorem mem_dashRuns {keep : Char → Bool} {inRun : Bool} {cs : List Char} {c : Char}
    (h : c ∈ dashRuns keep inRun cs) : c = '-' ∨ c ∈ cs ∧ keep c = true := by
  induction cs generalizing inRun with
  | nil => simp [dashRuns] at h
  | cons d rest ih =>
    have hrest {flag : Bool} (h : c ∈ dashRuns keep flag rest) :
        c = '-' ∨ c ∈ d :: rest ∧ keep c = true :=
      (ih h).imp_right fun h => ⟨List.mem_cons_of_mem _ h.1, h.2⟩
    rw [dashRuns] at h
    split_ifs at h with hd hrun
    · rcases List.mem_cons.1 h with rfl | h
      · exact .inr ⟨List.mem_cons_self, hd⟩
      · exact hrest h
    · exact hrest h
    · rcases List.mem_cons.1 h with rfl | h
      · exact .inl rfl
      · exact hrest h

/-- Characters that are kept are in the name under which a rule is stored. -/
theorem mem_dashRuns_of_keep {keep : Char → Bool} {c : Char} (hkeep : keep c = true) {inRun : Bool}
    {cs : List Char} (h : c ∈ cs) : c ∈ dashRuns keep inRun cs := by
  induction cs generalizing inRun with
  | nil => simp at h
  | cons d rest ih =>
    rw [dashRuns]
    rcases List.mem_cons.1 h with rfl | h
    · rw [if_pos hkeep]
      exact List.mem_cons_self
    · split_ifs
      · exact List.mem_cons_of_mem _ (ih h)
      · exact ih h
      · exact List.mem_cons_of_mem _ (ih h)

theorem IsSlot.mem {name slot : String} (h : IsSlot name slot) {c : Char}
    (hkeep : keepsInName c = true) (hc : c ∈ name.toList) : c ∈ slot.toList := by
  have hbase : c ∈ (escapeName name).toList := by
    rw [escapeName, String.toList_ofList]
    exact mem_dashRuns_of_keep hkeep hc
  rcases h with rfl | ⟨i, rfl⟩
  · exact hbase
  · rw [numbered, String.toList_append]
    exact List.mem_append_left _ hbase

theorem isDigit_of_isDecimal {c : Char} (hsmall : c.toNat < 0x80) (h : Text.isDecimal c = true) :
    c.isDigit = true := by
  rw [Text.isDecimal, Text.decimalValue?, Option.isSome_map, List.find?_isSome] at h
  obtain ⟨first, hmem, hrange⟩ := h
  have hfirst : first = 0x30 ∨ 0x80 ≤ first := by
    have hall : ∀ first ∈ Text.decimalZeros, first = 0x30 ∨ 0x80 ≤ first := by decide
    exact hall first hmem
  simp only [Bool.and_eq_true, decide_eq_true_eq] at hrange
  exact Text.isDigit_iff.2 (by omega)

theorem isNameChar_of_isDigit {c : Char} (h : c.isDigit = true) : Grammar.isNameChar c = true := by
  have hall : ∀ c ∈ Text.asciiDigits, Grammar.isNameChar c = true := by decide
  exact hall c (Text.mem_asciiDigits h)

theorem isNameChar_of_keepsInName {c : Char} (h : keepsInName c = true)
    (hdigit : Text.isDecimal c = true → c.isDigit = true) : Grammar.isNameChar c = true := by
  simp only [keepsInName, Bool.or_eq_true] at h
  rcases h with ((h | h) | h) | h
  · exact isNameChar_of_isDigit (hdigit h)
  · simp [Grammar.isNameChar, h]
  · simp [Grammar.isNameChar, h]
  · simp [Grammar.isNameChar, h]

/-- A name without foreign digits is stored under a name that can be read. -/
theorem IsSlot.isReadable {name slot : String} (h : IsSlot name slot) (hname : name ≠ "")
    (hdigits : HasPlainDigits name) : IsReadable slot := by
  have hbase : ∀ c ∈ (escapeName name).toList, Grammar.isNameChar c = true := by
    intro c hc
    rw [escapeName, String.toList_ofList] at hc
    rcases mem_dashRuns hc with rfl | ⟨hmem, hkeep⟩
    · decide
    · exact isNameChar_of_keepsInName hkeep (hdigits c hmem)
  refine ⟨by simpa using (h.isStorable hname).1, fun c hc => ?_⟩
  rcases h with rfl | ⟨i, rfl⟩
  · exact hbase c hc
  · rw [numbered, String.toList_append, List.mem_append] at hc
    rcases hc with hc | hc
    · exact hbase c hc
    · rw [natText, String.toList_ofList] at hc
      exact isNameChar_of_isDigit (Text.isDigit_of_mem_toDigits hc)

/-! ## Names that have been read -/

theorem isNameLike_of_isStorable {name : String} (h : IsStorable name) : IsNameLike name := by
  refine ⟨by simpa using h.1, fun c hc => ?_⟩
  by_cases hsmall : c.toNat < 0x80
  · exact .inl (isNameChar_of_keepsInName (h.2 c hc) (isDigit_of_isDecimal hsmall))
  · right
    omega

/-- A table is read as a grammar, and then its names can be read, or its text has a fault of
    syntax. -/
theorem ofText_text_settles {t : RuleTable} (hwf : t.WellFormed)
    (hstorable : ∀ name, t.has name = true → IsStorable name)
    (hbodies : ∀ name body, t.find? name = some body → IsBodyLike (· ∈ t.names) body) :
    (∃ g, Grammar.ofText t.text = .ok g ∧ g.map Prod.fst = t.names ∧
        ∀ name, t.has name = true → IsReadable name) ∨
      ∃ e, e.IsSyntactic ∧ Grammar.ofText t.text = .error e := by
  have hnodup : t.names.Nodup := t.perm_names.nodup_iff.2 hwf.nodup
  refine (Grammar.ofText_lines_settles hnodup fun name hname => ?_).imp_left ?_
  · have hhas := mem_names_iff.1 hname
    obtain ⟨body, hbody⟩ := Option.isSome_iff_exists.1 hhas
    refine ⟨isNameLike_of_isStorable (hstorable name hhas), ?_⟩
    rw [hbody]
    exact hbodies name body hbody
  · rintro ⟨g, hg, hnames, hread⟩
    exact ⟨g, hg, hnames, fun name hname => hread name (mem_names_iff.2 hname)⟩

/-- If the text of a complete table can be read, so can its names, and the rules have these names. -/
theorem Complete.names_of_ofText {t : RuleTable} {g : Grammar} (h : t.Complete)
    (hg : Grammar.ofText t.text = .ok g) :
    g.map Prod.fst = t.names ∧ ∀ name, t.has name = true → IsReadable name := by
  have hnames (n : String) (hn : n ∈ t.names) : IsNameLike n :=
    isNameLike_of_isStorable (h.storable n (mem_names_iff.1 hn))
  have hsettles := ofText_text_settles h.wellFormed h.storable fun name body hbody => by
    obtain ⟨node, hnode⟩ := h.exists_node name
    have hstands : Stands (· ∈ t.names) body node :=
      (hnode body hbody).mono fun n hn => mem_names_iff.2 hn.1
    rcases hstands with ⟨hread, hfits⟩ | ⟨rows, hw, -⟩
    · exact hread.isBodyLike hfits.names
    · exact hw.lexed.isBodyLike hnames
  rcases hsettles with ⟨g', hg', hnames, hread⟩ | ⟨e, -, hfault⟩
  · obtain rfl : g' = g := Except.ok.inj (hg'.symm.trans hg)
    exact ⟨hnames, hread⟩
  · exact absurd (hg.symm.trans hfault) (by simp)

/-! ## Ends of names -/

theorem dashRuns_append_kept {keep : Char → Bool} {c : Char} (hc : keep c = true)
    (cs ds : List Char) (inRun : Bool) :
    dashRuns keep inRun (cs ++ c :: ds) = dashRuns keep inRun cs ++ dashRuns keep false (c :: ds) := by
  induction cs generalizing inRun with
  | nil => simp [dashRuns, hc]
  | cons d rest ih =>
    rw [List.cons_append, dashRuns, dashRuns]
    split_ifs <;> simp [ih]

theorem dashRuns_kept {keep : Char → Bool} {cs : List Char} (h : ∀ c ∈ cs, keep c = true)
    (inRun : Bool) : dashRuns keep inRun cs = cs := by
  induction cs generalizing inRun with
  | nil => rfl
  | cons c rest ih =>
    rw [dashRuns, if_pos (h c (by simp)), ih fun d hd => h d (List.mem_cons_of_mem _ hd)]

/-- Endings of kept characters stay when a name is escaped. -/
theorem escapeName_append (name : String) {c : Char} {cs : List Char}
    (h : ∀ d ∈ c :: cs, keepsInName d = true) :
    escapeName (name ++ String.ofList (c :: cs)) = escapeName name ++ String.ofList (c :: cs) := by
  rw [← String.toList_inj, escapeName, escapeName]
  simp only [String.toList_append, String.toList_ofList]
  rw [dashRuns_append_kept (h c (by simp)), dashRuns_kept h]

/-- No built-in name ends like this, nor does the root. -/
def IsForeignEnding (ending : String) : Prop :=
  ∀ name ∈ Builtin.reservedNames, ¬ ending.toList <:+ name.toList

instance (ending : String) : Decidable (IsForeignEnding ending) :=
  inferInstanceAs (Decidable (∀ name ∈ Builtin.reservedNames, ¬ ending.toList <:+ name.toList))

theorem find?_eq_none_of_notMem {name : String} (h : name ∉ Builtin.reservedNames) :
    Builtin.find? name = none ∧ name ≠ "root" := by
  refine ⟨Assoc.lookup_eq_none_iff.2 fun hmem => h (List.mem_cons_of_mem _ hmem), ?_⟩
  rintro rfl
  exact h List.mem_cons_self

theorem notMem_reservedNames (name : String) {ending : String} (h : IsForeignEnding ending) :
    name ++ ending ∉ Builtin.reservedNames := by
  intro hmem
  exact h _ hmem ⟨name.toList, by simp⟩

/-! ## Requests -/

/-- A name that can be asked for: it is not empty and is not stored under a built-in name. Where
    names have to be read, its digits are plain. -/
structure Requestable (plain : Prop) (name : String) : Prop where
  nonempty : name ≠ ""
  free : Builtin.find? (escapeName name) = none
  digits : plain → HasPlainDigits name

/-- A name that ends in a way that no built-in name does. -/
theorem requestable_append {plain : Prop} {name : String} {c : Char} {cs : List Char}
    (hkept : ∀ d ∈ c :: cs, keepsInName d = true)
    (hending : IsForeignEnding (String.ofList (c :: cs)))
    (hdigits : plain → HasPlainDigits (name ++ String.ofList (c :: cs))) :
    Requestable plain (name ++ String.ofList (c :: cs)) ∧
      escapeName (name ++ String.ofList (c :: cs)) ≠ "root" := by
  have hfree := find?_eq_none_of_notMem (notMem_reservedNames (escapeName name) hending)
  rw [← escapeName_append name hkept] at hfree
  refine ⟨⟨?_, hfree.1, hdigits⟩, hfree.2⟩
  intro hempty
  have hlist := congrArg String.toList hempty
  simp at hlist

/-- A table that is complete and, where names have to be read, has names that can be. -/
structure Sound (plain : Prop) (t : RuleTable) : Prop where
  complete : t.Complete
  readable : plain → ∀ name, t.has name = true → IsReadable name

theorem sound_new (plain : Prop) : new.Sound plain := by
  refine ⟨coherent_new True, fun _ name hname => ?_⟩
  obtain rfl : name = Builtin.spaceName := by simpa [has_iff_mem, new] using hname
  decide

/-- Rules are added to a table, and what is known of it stays. The root is the same unless it was
    asked for. -/
structure Develops (inv : RuleTable → Prop) (t t' : RuleTable) : Prop where
  kept : inv t'
  extends_ : t.Extends t'
  root : t'.find? "root" = t.find? "root"

/-- What a sound table goes through when rules are added to it. -/
abbrev Grows (plain : Prop) : RuleTable → RuleTable → Prop :=
  Develops (Sound plain)

section Grows

variable {plain : Prop} {inv : RuleTable → Prop} {t t' t'' : RuleTable} {name body slot : String}
variable {L : Language Char}

theorem Develops.refl (h : inv t) : Develops inv t t :=
  ⟨h, .refl t, rfl⟩

theorem Develops.trans (h : Develops inv t t') (h' : Develops inv t' t'') : Develops inv t t'' :=
  ⟨h'.kept, h.extends_.trans h'.extends_, h'.root.trans h.root⟩

theorem Grows.sound (h : Grows plain t t') : t'.Sound plain :=
  h.kept

/-- A rule that is written, under a name that can be asked for. -/
theorem Sound.add (h : t.Sound plain) (hname : Requestable plain name) (hw : t.Writes body L)
    (hrun : t.add name body = (slot, t')) :
    Adds t name body slot t' ∧ t'.Sound plain ∧ t'.Denotes slot L := by
  have hadds := adds_add h.complete.wellFormed name body
  rw [hrun] at hadds
  have hcomplete := h.complete.add hadds hname.nonempty hname.free fun _ => ⟨L, hw⟩
  refine ⟨hadds, ⟨hcomplete, ?_⟩, denotes_of_adds hadds hw⟩
  intro hplain other hother
  rcases hadds.has_iff.1 hother with hother | rfl
  · exact h.readable hplain other hother
  · exact hadds.isSlot.isReadable hname.nonempty (hname.digits hplain)

/-- The root has no number at its end. -/
theorem numbered_ne_root (name : String) (i : Nat) : numbered name i ≠ "root" := by
  intro heq
  have hlast := congrArg (fun s => s.toList.getLast?) heq
  have hne : (natText i).toList ≠ [] := by
    rw [natText, String.toList_ofList]
    exact Nat.toDigits_ne_nil
  simp only [numbered, String.toList_append, List.getLast?_append_of_ne_nil _ hne] at hlast
  have hmem := List.mem_of_getLast? hlast
  rw [natText, String.toList_ofList] at hmem
  exact absurd (Text.isDigit_of_mem_toDigits hmem) (by decide)

theorem IsSlot.ne_root (h : IsSlot name slot) (hname : escapeName name ≠ "root") : slot ≠ "root" := by
  rcases h with rfl | ⟨i, rfl⟩
  · exact hname
  · exact numbered_ne_root _ i

theorem Adds.grows (h : Adds t name body slot t') (hsound : t'.Sound plain)
    (hroot : escapeName name ≠ "root") : Grows plain t t' :=
  ⟨hsound, h.extends, h.find?_of_ne (h.isSlot.ne_root hroot).symm⟩

/-- A name that nothing is stored under is given as it is. -/
theorem add_of_find?_eq_none (t : RuleTable) (name body : String)
    (h : t.find? (escapeName name) = none) : (t.add name body).1 = escapeName name := by
  unfold RuleTable.add
  dsimp only
  split_ifs
  · rfl
  · rw [h]

/-! ## Built-in rules -/

/-- A built-in rule under its own name or one that can be asked for. -/
theorem Sound.addBuiltin {own : String} {rule : Builtin} (h : t.Sound plain)
    (hrule : Builtin.find? own = some rule) (hname : name = own ∨ Requestable plain name)
    (hrun : RuleTable.addBuiltin name rule t = .ok slot t') :
    AddsBuiltin True (fun _ => False) t name rule slot t' ∧ t'.Sound plain ∧
      t'.Denotes slot (Builtin.languageOf rule.body) := by
  have hne : name ≠ "" := by
    rcases hname with rfl | hname
    · exact (escapeName_builtin hrule).1
    · exact hname.nonempty
  have hdigits : plain → HasPlainDigits name := by
    rcases hname with rfl | hname
    · have hall : ∀ x ∈ Builtin.catalog, HasPlainDigits x.1 := by decide
      exact fun _ => hall _ (Assoc.mem_of_lookup hrule)
    · exact hname.digits
  have hadds := addsBuiltin_addBuiltinFrom h.complete hrule hne
    (hname.imp_right Requestable.free) hrun
  refine ⟨hadds, ⟨hadds.coherent, fun hplain other hother => ?_⟩, hadds.denotes hrule⟩
  rcases hadds.only other hother with hother | rfl | hother
  · exact h.readable hplain other hother
  · exact hadds.isSlot.isReadable hne (hdigits hplain)
  · exact Builtin.readable_names other hother

theorem AddsBuiltin.grows {rule : Builtin} (h : AddsBuiltin True (fun _ => False) t name rule slot t')
    (hsound : t'.Sound plain) (hroot : escapeName name ≠ "root") : Grows plain t t' := by
  refine ⟨hsound, h.extends_, ?_⟩
  cases hfind : t.find? "root" with
  | some body => exact h.extends_.find? hfind
  | none =>
    by_contra hsome
    rcases h.only "root" (Option.isSome_iff_ne_none.2 hsome) with hhas | heq | hmem
    · rw [has, hfind] at hhas
      exact absurd hhas (by simp)
    · exact h.isSlot.ne_root hroot heq.symm
    · exact Builtin.root_notMem_names hmem

/-! ## Claims -/

theorem Sound.reserve (h : t.Sound plain) (hname : Builtin.find? (escapeName name) = none) :
    (t.reserve name).2.Sound plain :=
  ⟨h.complete.reserve hname, h.readable⟩

theorem Sound.release (h : t.Sound plain) (name : String) : (t.release name).Sound plain :=
  ⟨h.complete.release name, h.readable⟩

/-! ## What is known of a table -/

/-- What is known of a table stays when a rule that is written is added, under a name that can be
    asked for. -/
structure IsLasting (plain : Prop) (inv : RuleTable → Prop) : Prop where
  storable : ∀ t, inv t → ∀ name, t.has name = true → IsStorable name
  add : ∀ (t t' : RuleTable) (name body slot : String) (L : Language Char), inv t →
    Requestable plain name → t.Writes body L → t.add name body = (slot, t') →
      Adds t name body slot t' ∧ inv t'

theorem isLasting_sound (plain : Prop) : IsLasting plain (Sound plain) where
  storable _ h := h.complete.storable
  add _ _ _ _ _ _ h hname hw hrun := by
    obtain ⟨hadds, hsound, -⟩ := h.add hname hw hrun
    exact ⟨hadds, hsound⟩

/-- A rule that is written, under a name that is not the root. -/
theorem IsLasting.develops (hinv : IsLasting plain inv) (h : inv t) (hname : Requestable plain name)
    (hroot : escapeName name ≠ "root") (hw : t.Writes body L) (hrun : t.add name body = (slot, t')) :
    Develops inv t t' ∧ t'.find? slot = some body ∧ t'.Denotes slot L := by
  obtain ⟨hadds, hkept⟩ := hinv.add t t' name body slot L h hname hw hrun
  exact ⟨⟨hkept, hadds.extends, hadds.find?_of_ne (hadds.isSlot.ne_root hroot).symm⟩, hadds.find?,
    denotes_of_adds hadds hw⟩

end Grows

end RuleTable

end SchemaGrammar
