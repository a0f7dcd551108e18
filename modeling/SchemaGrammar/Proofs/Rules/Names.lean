import SchemaGrammar.Proofs.Rules.Request
import SchemaGrammar.Proofs.Rules.WriteOnce

set_option autoImplicit false

/-! # Names that can be read back

A table keeps the decimal digits of every script in a name, while a reader of grammars knows only the
ASCII ones. So what a table gives for a name is made of letters, digits and dashes, and is read back
wherever it stands, exactly if the name has no foreign digits (`slot_readable_iff`). With a foreign
digit no grammar that defines the slot can be read (`foreign_digit_is_kept`). -/

namespace SchemaGrammar

open Grammar (IsReadable IsNameLike IsBodyLike Written ofRows line)

namespace RuleTable

/-! ## Letters, digits and dashes -/

/-- The characters that names are meant to have: ASCII letters and digits, and dashes. -/
def IsWordChar (c : Char) : Prop :=
  c.isAlphanum = true ∨ c = '-'

instance (c : Char) : Decidable (IsWordChar c) :=
  inferInstanceAs (Decidable (_ ∨ _))

theorem IsWordChar.toNat_lt {c : Char} (h : IsWordChar c) : c.toNat < 0x80 := by
  rcases h with h | rfl
  · rw [Text.isAlphanum_iff, Text.isAlpha_iff, Text.isDigit_iff] at h
    omega
  · decide

/-- Of the characters that a table keeps, only foreign digits are none for names. -/
theorem isWordChar_iff {c : Char} (h : keepsInName c = true) :
    IsWordChar c ↔ (Text.isDecimal c = true → c.isDigit = true) := by
  refine ⟨fun hword => isDigit_of_isDecimal hword.toNat_lt, fun hdigit => ?_⟩
  simp only [keepsInName, Bool.or_eq_true, Bool.and_eq_true, decide_eq_true_eq] at h
  rcases h with ((hdecimal | ⟨hlow, hhigh⟩) | ⟨hlow, hhigh⟩) | hdash
  · exact .inl (Text.isAlphanum_iff.2 (.inr (hdigit hdecimal)))
  · have hupper : 65 ≤ c.toNat ∧ c.toNat ≤ 90 :=
      ⟨UInt32.le_iff_toNat_le.1 hlow, UInt32.le_iff_toNat_le.1 hhigh⟩
    exact .inl (Text.isAlphanum_iff.2 (.inl (Text.isAlpha_iff.2 (.inl hupper))))
  · have hlower : 97 ≤ c.toNat ∧ c.toNat ≤ 122 :=
      ⟨UInt32.le_iff_toNat_le.1 hlow, UInt32.le_iff_toNat_le.1 hhigh⟩
    exact .inl (Text.isAlphanum_iff.2 (.inl (Text.isAlpha_iff.2 (.inr hlower))))
  · exact .inr hdash

/-! ## Slots -/

section Slots

variable {name slot : String}

/-- A slot has the foreign digits of its name and no others. -/
theorem IsSlot.hasPlainDigits_iff (h : IsSlot name slot) : HasPlainDigits slot ↔ HasPlainDigits name := by
  constructor
  · intro hslot c hc hdecimal
    exact hslot c (h.mem (by simp [keepsInName, hdecimal]) hc) hdecimal
  · intro hname
    have hbase : HasPlainDigits (escapeName name) := by
      intro c hc
      rw [escapeName, String.toList_ofList] at hc
      rcases mem_dashRuns hc with rfl | ⟨hmem, -⟩
      · decide
      · exact hname c hmem
    -- escaping puts in dashes only, and a number behind the name is written in plain digits
    rcases h with rfl | ⟨i, rfl⟩
    · exact hbase
    · refine hbase.append fun c hc _ => ?_
      rw [natText, String.toList_ofList] at hc
      exact Text.isDigit_of_mem_toDigits hc

theorem IsSlot.isWordChar_iff (h : IsSlot name slot) (hname : name ≠ "") :
    (∀ c ∈ slot.toList, IsWordChar c) ↔ HasPlainDigits name := by
  rw [← h.hasPlainDigits_iff]
  exact forall₂_congr fun c hc => RuleTable.isWordChar_iff ((h.isStorable hname).2 c hc)

theorem IsSlot.isReadable_iff (h : IsSlot name slot) (hname : name ≠ "") :
    IsReadable slot ↔ HasPlainDigits name := by
  refine ⟨fun hread => ?_, h.isReadable hname⟩
  rw [← h.hasPlainDigits_iff]
  intro c hc
  refine isDigit_of_isDecimal (Nat.lt_of_not_le fun hforeign => ?_)
  simpa [Grammar.isNameChar_of_foreign hforeign] using hread.2 c hc

end Slots

/-! ## Texts with the name -/

section Lines

variable {names : List String} {body : String → String} {rows : String → List (List Node)}

/-- Lines whose names can be read are read as the rules of these names. -/
theorem ofText_written (hnodup : names.Nodup) (hread : ∀ name ∈ names, IsReadable name)
    (hbody : ∀ name ∈ names, Written (· ∈ names) (.rows (rows name)) (body name).toList) :
    Grammar.ofText (String.join (names.map fun name => line name (body name))) =
      .ok (names.map fun name => (name, ofRows (rows name))) := by
  refine Grammar.ofText_lines hnodup (fun name hname => ?_) fun name hname => ?_
  · exact ⟨hread name hname, (hbody name hname).isBody hread⟩
  · obtain ⟨hne, hfits⟩ := (hbody name hname).fits
    exact (Grammar.fits_ofRows hne hfits).names

/-- If a name cannot be read, the lines have a fault of syntax. -/
theorem ofText_unreadable (hnodup : names.Nodup) (hnames : ∀ name ∈ names, IsNameLike name)
    (hbody : ∀ name ∈ names, Written (· ∈ names) (.rows (rows name)) (body name).toList)
    (hforeign : ∃ name ∈ names, ¬ IsReadable name) :
    ∃ failure, failure.IsSyntactic ∧
      Grammar.ofText (String.join (names.map fun name => line name (body name))) =
        .error failure := by
  obtain ⟨name, hname, hunread⟩ := hforeign
  have hsettles := Grammar.ofText_lines_settles hnodup fun n hn =>
    ⟨hnames n hn, (hbody n hn).lexed.isBodyLike hnames⟩
  exact hsettles.resolve_left fun ⟨_, _, _, hread⟩ => hunread (hread name hname)

end Lines

/-! ## Names that a table gives -/

/-- **A name without foreign digits can be read.** Take a table that some operations have made from a
    new one, and the slot that it gives for a name, be it to add a rule or to reserve it. If all digits
    of the name are plain, and only then, the slot has ASCII letters, digits and dashes only. Put it
    among other names that can be read, and write a body for each of them that refers to these names.
    If all digits are plain, the lines are read as the rules of exactly these names, with a reference
    wherever one was written; otherwise they have a fault of syntax. -/
theorem slot_readable_iff (operations : List Operation) (name slot : String) (hname : name ≠ "")
    (hslot : (∃ body, slot = ((run operations new).add name body).1) ∨
      slot = ((run operations new).reserve name).1) :
    ((∀ c ∈ slot.toList, IsWordChar c) ↔ HasPlainDigits name) ∧
    ∀ (names : List String) (body : String → String) (rows : String → List (List Node)),
      names.Nodup → slot ∈ names → (∀ other ∈ names, other ≠ slot → IsReadable other) →
      (∀ n ∈ names, Written (· ∈ names) (.rows (rows n)) (body n).toList) →
        (HasPlainDigits name →
          Grammar.ofText (String.join (names.map fun n => line n (body n))) =
            .ok (names.map fun n => (n, ofRows (rows n)))) ∧
        (¬ HasPlainDigits name → ∃ failure, failure.IsSyntactic ∧
          Grammar.ofText (String.join (names.map fun n => line n (body n))) = .error failure) := by
  have ht : (run operations new).WellFormed := (evolves_run operations new wellFormed_new).1
  have hisSlot : IsSlot name slot := by
    rcases hslot with ⟨body, rfl⟩ | rfl
    · exact (adds_add ht name body).isSlot
    · exact isSlot_reserve _ name
  refine ⟨hisSlot.isWordChar_iff hname, fun names body rows hnodup hmem hothers hbody => ?_⟩
  -- the other names can be read, so the lines stand and fall with the slot
  constructor
  · intro hplain
    refine ofText_written hnodup (fun n hn => ?_) hbody
    by_cases heq : n = slot
    · rw [heq]
      exact hisSlot.isReadable hname hplain
    · exact hothers n hn heq
  · intro hforeign
    refine ofText_unreadable hnodup (fun n hn => ?_) hbody
      ⟨slot, hmem, mt (hisSlot.isReadable_iff hname).1 hforeign⟩
    by_cases heq : n = slot
    · rw [heq]
      exact isNameLike_of_isStorable (hisSlot.isStorable hname)
    · exact ⟨(hothers n hn heq).1, fun c hc => .inl ((hothers n hn heq).2 c hc)⟩

/-- A name with a blank is stored with a dash, and a rule of this name that refers to itself is read
    back. -/
theorem slot_readable_blank :
    (∀ c ∈ "tree-node".toList, IsWordChar c) ∧
      Grammar.ofText (line "tree-node" "tree-node") = .ok [("tree-node", .rule "tree-node")] := by
  have hplain : HasPlainDigits "tree node" := by decide
  obtain ⟨hword, hread⟩ := slot_readable_iff [] "tree node" "tree-node" (by decide)
    (.inl ⟨"tree-node", by decide⟩)
  refine ⟨hword.2 hplain, ?_⟩
  have hbody : Written (· ∈ ["tree-node"]) (.rows [[.rule "tree-node"]]) "tree-node".toList :=
    .single (.name (by decide))
  have htext := (hread ["tree-node"] (fun _ => "tree-node") (fun _ => [[.rule "tree-node"]]) (by simp)
    (by simp) (by simp) (by simpa using hbody)).1 hplain
  have hrow : ofRows [[.rule "tree-node"]] = .rule "tree-node" := rfl
  simpa [hrow] using htext

/-- A digit of another script is kept, and a rule with this name cannot be read. -/
theorem foreign_digit_is_kept :
    (new.add "\u0663" "\"a\"").1 = "\u0663" ∧ (new.reserve "\u0663").1 = "\u0663" ∧
      ¬ IsWordChar '\u0663' ∧
      Grammar.ofText (line "\u0663" "\"a\"") = .error (.grammar .expectedName (some 0)) :=
  ⟨by decide, by decide, by decide, rfl⟩

end RuleTable

end SchemaGrammar
