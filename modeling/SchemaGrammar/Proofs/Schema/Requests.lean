import SchemaGrammar.Proofs.Rules.Request
import SchemaGrammar.Schema.Visit

set_option autoImplicit false

/-! # What the builders ask a table for

Builders make names from the hints that they are given and from the keys of properties. None of
these names is built in, and only the empty hint asks for the root. -/

namespace SchemaGrammar

open RuleTable (HasPlainDigits Requestable IsForeignEnding escapeName IsSlot)

namespace Schema

variable {plain : Prop}

/-! ## Names below a hint -/

theorem hasPlainDigits_natText (n : Nat) : HasPlainDigits (natText n) := by
  intro c hc _
  rw [natText, String.toList_ofList] at hc
  exact Text.isDigit_of_mem_toDigits hc

theorem hasPlainDigits_subName {name suffix : String} (hname : HasPlainDigits name)
    (hsuffix : HasPlainDigits suffix) : HasPlainDigits (subName name suffix) := by
  rw [subName]
  split_ifs
  · exact hsuffix
  · exact (hname.append (by decide)).append hsuffix

theorem subName_append (name suffix ending : String) :
    subName name (suffix ++ ending) = subName name suffix ++ ending := by
  rw [subName, subName]
  split_ifs
  · rfl
  · simp [String.append_assoc]

theorem subName_ne_empty {name suffix : String} (h : name ≠ "" ∨ suffix ≠ "") :
    subName name suffix ≠ "" := by
  rw [subName]
  split_ifs with hname
  · exact h.resolve_left fun hne => hne (by simpa using hname)
  · simp

theorem subName_eq_empty {name suffix : String} (h : subName name suffix = "") :
    name = "" ∧ suffix = "" := by
  by_contra hne
  exact subName_ne_empty (not_and_or.1 hne) h

/-- The name of a rule that belongs to a key. -/
theorem requestable_ending {name key : String} (c : Char) (cs : List Char)
    (hkept : ∀ d ∈ c :: cs, RuleTable.keepsInName d = true)
    (hending : IsForeignEnding (String.ofList (c :: cs)))
    (hplain : HasPlainDigits (String.ofList (c :: cs)))
    (hname : plain → HasPlainDigits name) (hkey : plain → HasPlainDigits key) :
    Requestable plain (subName name (key ++ String.ofList (c :: cs))) ∧
      escapeName (subName name (key ++ String.ofList (c :: cs))) ≠ "root" := by
  rw [subName_append]
  refine RuleTable.requestable_append hkept hending fun hp => ?_
  exact (hasPlainDigits_subName (hname hp) (hkey hp)).append hplain

theorem requestable_key {name key ending : String} (h : ending ∈ ["-kv", "-rest", "-k"])
    (hname : plain → HasPlainDigits name) (hkey : plain → HasPlainDigits key) :
    Requestable plain (subName name (key ++ ending)) ∧
      escapeName (subName name (key ++ ending)) ≠ "root" := by
  simp only [List.mem_cons, List.not_mem_nil, or_false] at h
  rcases h with rfl | rfl | rfl
  · exact requestable_ending '-' ['k', 'v'] (by decide) (by decide) (by decide) hname hkey
  · exact requestable_ending '-' ['r', 'e', 's', 't'] (by decide) (by decide) (by decide) hname hkey
  · exact requestable_ending '-' ['k'] (by decide) (by decide) (by decide) hname hkey

/-- The name of a rule that belongs to the additional pairs. -/
theorem requestable_additional {name ending : String} (h : ending ∈ ["-kv", "-rest", "-k"])
    (hname : plain → HasPlainDigits name) :
    Requestable plain (subName name "additional" ++ ending) ∧
      escapeName (subName name "additional" ++ ending) ≠ "root" := by
  rw [← subName_append]
  exact requestable_key h hname fun _ => by decide

/-! ## The name of a schema's rule -/

theorem escapeName_of_mem {name : String} (h : name ∈ Builtin.reservedNames) :
    escapeName (name ++ "-") = name ++ "-" ∧ HasPlainDigits (name ++ "-") := by
  have hall : ∀ name ∈ Builtin.reservedNames, escapeName (name ++ "-") = name ++ "-" ∧
      ∀ c ∈ (name ++ "-").toList, Text.isDecimal c = true → c.isDigit = true := by decide +kernel
  exact hall name h

theorem requestable_ruleNameFor {hint : String} (hhint : plain → HasPlainDigits hint) :
    Requestable plain (ruleNameFor hint) := by
  rw [ruleNameFor]
  split_ifs with hreserved hempty
  · obtain ⟨hescape, hdigits⟩ := escapeName_of_mem (List.contains_iff_mem.1 hreserved)
    have hforeign : IsForeignEnding "-" := by decide
    refine ⟨by simp, ?_, fun _ => hdigits⟩
    rw [hescape]
    exact (RuleTable.find?_eq_none_of_notMem (RuleTable.notMem_reservedNames _ hforeign)).1
  · exact ⟨by decide, by decide, fun _ => by decide⟩
  · refine ⟨by simpa using hempty, ?_, hhint⟩
    exact (RuleTable.find?_eq_none_of_notMem (by simpa using hreserved)).1

theorem ruleNameFor_empty : ruleNameFor "" = "root" := by
  decide

theorem escapeName_ruleNameFor {hint : String} (h : hint ≠ "") :
    escapeName (ruleNameFor hint) ≠ "root" := by
  rw [ruleNameFor]
  split_ifs with hreserved hempty
  · obtain ⟨hescape, -⟩ := escapeName_of_mem (List.contains_iff_mem.1 hreserved)
    have hforeign : IsForeignEnding "-" := by decide
    rw [hescape]
    exact (RuleTable.find?_eq_none_of_notMem (RuleTable.notMem_reservedNames _ hforeign)).2
  · exact absurd (by simpa using hempty) h
  · exact (RuleTable.find?_eq_none_of_notMem (by simpa using hreserved)).2

theorem ruleNameFor_eq_root {hint : String} : ruleNameFor hint = "root" ↔ hint = "" := by
  constructor
  · intro h
    by_contra hne
    refine escapeName_ruleNameFor hne ?_
    rw [h]
    decide
  · rintro rfl
    exact ruleNameFor_empty

/-! ## The name of a reference's rule -/

theorem keepsInReference_spec {c : Char} (h : keepsInReference c = true) :
    RuleTable.keepsInName c = true ∧ c.toNat < 0x80 := by
  have hcases : (((c.isUpper || c.isLower) || c.isDigit) || c == '-') = true := h
  simp only [Bool.or_eq_true] at hcases
  rcases hcases with ((hupper | hlower) | hdigit) | hdash
  · have hupper := of_decide_eq_true hupper
    have hletter : 'A' ≤ c ∧ c ≤ 'Z' := hupper
    refine ⟨by simp [RuleTable.keepsInName, hletter], ?_⟩
    exact lt_of_le_of_lt (UInt32.le_iff_toNat_le.1 hupper.2) (by decide)
  · have hlower := (Bool.and_eq_true _ _).mp hlower |>.imp of_decide_eq_true of_decide_eq_true
    have hletter : 'a' ≤ c ∧ c ≤ 'z' := hlower
    refine ⟨by simp [RuleTable.keepsInName, hletter], ?_⟩
    exact lt_of_le_of_lt (UInt32.le_iff_toNat_le.1 hlower.2) (by decide)
  · have hall : ∀ c ∈ Text.asciiDigits, c.toNat < 0x80 := by decide
    exact ⟨RuleTable.keepsInName_of_isDigit hdigit, hall c (Text.mem_asciiDigits hdigit)⟩
  · obtain rfl := of_decide_eq_true hdash
    decide

/-- The name of a reference is kept as it is, is not built in and has plain digits. -/
theorem referenceName_spec (ref : String) :
    escapeName (referenceName ref) = referenceName ref ∧
      Builtin.find? (referenceName ref) = none ∧ referenceName ref ≠ "" ∧
      HasPlainDigits (referenceName ref) := by
  generalize hfragment : ((Text.splitAt '#' ref.toList).getLast?).getD [] = fragment
  have hname : referenceName ref =
      "ref" ++ String.ofList (RuleTable.dashRuns keepsInReference false fragment) := by
    rw [referenceName, hfragment]
  have hmem : ∀ c ∈ (referenceName ref).toList, RuleTable.keepsInName c = true ∧ c.toNat < 0x80 := by
    intro c hc
    rw [hname, String.toList_append, List.mem_append] at hc
    rcases hc with hc | hc
    · have hall : ∀ c ∈ "ref".toList, RuleTable.keepsInName c = true ∧ c.toNat < 0x80 := by decide
      exact hall c hc
    · rw [String.toList_ofList] at hc
      rcases RuleTable.mem_dashRuns hc with rfl | ⟨-, hkeep⟩
      · decide
      · exact keepsInReference_spec hkeep
  refine ⟨?_, ?_, ?_, fun c hc => RuleTable.isDigit_of_isDecimal (hmem c hc).2⟩
  · rw [escapeName, RuleTable.dashRuns_kept fun c hc => (hmem c hc).1, String.ofList_toList]
  · have hstart : ∀ x ∈ Builtin.catalog, ¬ "ref".toList <+: x.1.toList := by decide
    rw [Builtin.find?, Assoc.lookup_eq_none_iff]
    intro hin
    obtain ⟨x, hx, heq⟩ := List.mem_map.1 hin
    refine hstart x hx ?_
    rw [heq, hname, String.toList_append]
    exact List.prefix_append _ _
  · rw [hname]
    simp

end Schema

/-! ## Sessions -/

namespace Session

variable {plain : Prop}

theorem onTable_eq_ok {α : Type} {work : TableM α} {s s' : Session} {a : α} :
    onTable work s = .ok a s' ↔
      ∃ t, work s.table = .ok a t ∧ s' = { s with table := t } := by
  unfold onTable
  cases work s.table with
  | ok b t => simp [eq_comm]
  | error e t => simp

/-- Only the table of a session changes, and it grows. -/
structure Grows (plain : Prop) (s s' : Session) : Prop where
  table : RuleTable.Grows plain s.table s'.table
  same : s' = { s with table := s'.table }

theorem Grows.refl {s : Session} (h : s.table.Sound plain) : Grows plain s s :=
  ⟨.refl h, rfl⟩

theorem Grows.trans {s s' s'' : Session} (h : Grows plain s s') (h' : Grows plain s' s'') :
    Grows plain s s'' := by
  refine ⟨h.table.trans h'.table, ?_⟩
  rw [h'.same, h.same]

variable {s s' : Session} {name body slot : String} {L : Language Char}

theorem addRule_eq_ok : addRule name body s = .ok slot s' ↔
    ∃ t, s.table.add name body = (slot, t) ∧ s' = { s with table := t } := by
  rw [addRule, onTable_eq_ok]
  simp only [RuleTable.addRule_eq_ok]

theorem reserve_eq_ok : reserve name s = .ok slot s' ↔
    ∃ t, s.table.reserve name = (slot, t) ∧ s' = { s with table := t } := by
  rw [reserve, onTable_eq_ok]
  refine exists_congr fun t => and_congr_left fun _ => ?_
  change EStateM.Result.ok (s.table.reserve name).1 (s.table.reserve name).2 = _ ↔ _
  rw [EStateM.Result.ok.injEq, Prod.ext_iff]

theorem release_eq_ok {u : Unit} : release name s = .ok u s' ↔
    s' = { s with table := s.table.release name } := by
  rw [release, onTable_eq_ok]
  simp only [Work.modify_eq_ok, exists_eq_left]

/-- A rule that is written, under a name that is not the root. -/
theorem addRule_grows (h : s.table.Sound plain) (hname : Requestable plain name)
    (hroot : escapeName name ≠ "root") (hw : s.table.Writes body L)
    (hrun : addRule name body s = .ok slot s') :
    Grows plain s s' ∧ s'.table.Denotes slot L := by
  obtain ⟨t, hadd, rfl⟩ := addRule_eq_ok.1 hrun
  obtain ⟨hadds, hsound, hdenotes⟩ := h.add hname hw hadd
  exact ⟨⟨hadds.grows hsound hroot, rfl⟩, hdenotes⟩

/-- A built-in rule under its own name. -/
theorem addNamed_grows {own : String} (h : s.table.Sound plain)
    (hrun : addNamed own own s = .ok slot s') :
    ∃ rule, Builtin.find? own = some rule ∧ slot = own ∧ Grows plain s s' ∧
      s'.table.Denotes own (Builtin.languageOf rule.body) := by
  obtain ⟨t, hwork, rfl⟩ := onTable_eq_ok.1 hrun
  obtain ⟨rule, hrule, hadd⟩ := RuleTable.addNamed_eq_ok hwork
  obtain ⟨hadds, hsound, hdenotes⟩ := h.addBuiltin hrule (.inl rfl) hadd
  obtain rfl : own = slot := (h.complete.slot_eq hrule).symm.trans (RuleTable.addBuiltinFrom_slot hadd)
  refine ⟨rule, hrule, rfl, ⟨hadds.grows hsound ?_, rfl⟩, hdenotes⟩
  rw [(RuleTable.escapeName_builtin hrule).2]
  rintro rfl
  have hnone : Builtin.find? "root" = none := by decide
  rw [hnone] at hrule
  exact absurd hrule (by simp)

end Session

end SchemaGrammar
