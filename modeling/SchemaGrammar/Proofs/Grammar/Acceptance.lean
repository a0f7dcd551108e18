import SchemaGrammar.Proofs.Grammar.Lexing
import SchemaGrammar.Proofs.Grammar.Parsing

set_option autoImplicit false

/-! # What the reader accepts

A text is read as a grammar if and only if it is a way to write it with the numerals that are read,
and the grammar is well-formed (`ofText_eq_ok_iff`). -/

namespace SchemaGrammar

namespace Grammar

open Text (Cursor)

/-! ## References -/

theorem checkReferences_eq_ok_iff {g : Grammar} {u : Unit} :
    checkReferences g = .ok u ↔ IsClosed g := by
  unfold checkReferences
  split
  · rename_i name hname
    refine ⟨fun h => absurd h (by simp), fun hclosed => ?_⟩
    have hmem := List.mem_of_find?_eq_some hname
    obtain ⟨rule, hrule, hmem⟩ := List.mem_flatMap.1 hmem
    have hnot := List.find?_some hname
    simp [hclosed rule hrule name hmem] at hnot
  · rename_i hnone
    refine ⟨fun _ rule hrule name hname => ?_, fun _ => rfl⟩
    have hmem : name ∈ g.flatMap fun rule => rule.2.ruleNames :=
      List.mem_flatMap.2 ⟨rule, hrule, hname⟩
    simpa using List.find?_eq_none.1 hnone name hmem

/-! ## Texts that are read -/

theorem isSound_of_step {s s' : State} {x : Lexeme} (h : step s x = .ok s') : x.token.IsSound := by
  refine ⟨fun hstray => ?_, fun failure hbroken => ?_⟩
  · unfold step at h
    cases hstage : s.stage <;> simp [hstage, hstray, bodyStep] at h
  · unfold step at h
    cases hstage : s.stage <;> simp [hstage, hbroken, bodyStep] at h
    split_ifs at h

theorem isSound_of_run {xs : List Lexeme} {s s' : State} (h : xs.foldlM step s = .ok s') :
    ∀ x ∈ xs, x.token.IsSound := by
  induction xs generalizing s with
  | nil => simp
  | cons x rest ih =>
    rw [List.foldlM_cons] at h
    obtain ⟨mid, hmid, hrest⟩ := Work.except_bind_eq_ok.1 h
    exact List.forall_mem_cons.2 ⟨isSound_of_step hmid, ih hrest⟩

/-- **What is read is what is written.** A text is read as a grammar if and only if it is a way to
    write it with the numerals that are read, and the grammar is well-formed. -/
theorem ofText_eq_ok_iff {text : String} {g : Grammar} :
    ofText text = .ok g ↔ Numerals.lenient.Renders text.toList g ∧ IsWellFormed g := by
  constructor
  · intro h
    unfold ofText at h
    obtain ⟨s, hrun, h⟩ := Work.except_bind_eq_ok.1 h
    obtain ⟨g', hfinish, h⟩ := Work.except_bind_eq_ok.1 h
    obtain ⟨u, hcheck, h⟩ := Work.except_bind_eq_ok.1 h
    obtain rfl : g' = g := Except.ok.inj h
    obtain ⟨hdocument, hnodup⟩ := document_of_reads hrun hfinish
    have hlexical := lexical_of_lexemes text.toList.length 0 text.toList le_rfl (isSound_of_run hrun)
    exact ⟨⟨_, hlexical, hdocument⟩, hnodup, checkReferences_eq_ok_iff.1 hcheck⟩
  · rintro ⟨⟨tokens, hlexical, hdocument⟩, hnodup, hclosed⟩
    obtain ⟨s, hmoves, hfinish⟩ := hdocument.reads hnodup text.toList.length
    have hrun : (lexemes text).foldlM step ⟨[], .between⟩ = .ok s :=
      hmoves _ (hlexical.lexemes text.toList.length 0 le_rfl)
    have hcheck : checkReferences g = .ok () := checkReferences_eq_ok_iff.2 hclosed
    simp [ofText, hrun, hfinish, hcheck, bind, Except.bind, pure, Except.pure]

/-! ## Texts that are not read -/

theorem step_eq_error {s : State} {x : Lexeme} {e : Failure} (h : step s x = .error e) :
    (∃ fault position, e = .grammar fault position) ∨ x.token = .broken e := by
  obtain ⟨done, stage⟩ := s
  cases stage with
  | between =>
    cases htoken : x.token <;> simp only [step, htoken] at h <;>
      first | exact .inl ⟨_, _, (Except.error.inj h).symm⟩ | cases h
  | named name start =>
    cases htoken : x.token <;> simp only [step, htoken] at h
    case define =>
      split_ifs at h
      exact .inl ⟨_, _, (Except.error.inj h).symm⟩
    all_goals first | exact .inl ⟨_, _, (Except.error.inj h).symm⟩ | cases h
  | inside b =>
    cases htoken : x.token <;> simp only [step, bodyStep, htoken] at h
    case lineBreak => split_ifs at h
    case groupClose =>
      split at h
      · cases h
      · exact .inl ⟨_, _, (Except.error.inj h).symm⟩
    case times =>
      split_ifs at h
      exact .inl ⟨_, _, (Except.error.inj h).symm⟩
    case broken failure =>
      split_ifs at h
      · exact .inl ⟨_, _, (Except.error.inj h).symm⟩
      · exact .inr (congrArg _ (Except.error.inj h))
    all_goals first | exact .inl ⟨_, _, (Except.error.inj h).symm⟩ | cases h

theorem run_eq_error {xs : List Lexeme} {s : State} {e : Failure}
    (h : xs.foldlM step s = .error e) :
    (∃ fault position, e = .grammar fault position) ∨ ∃ x ∈ xs, x.token = .broken e := by
  induction xs generalizing s with
  | nil => cases h
  | cons x rest ih =>
    rw [List.foldlM_cons] at h
    cases hstep : step s x with
    | error e' =>
      rw [hstep] at h
      obtain rfl : e' = e := Except.error.inj h
      exact (step_eq_error hstep).imp_right fun hbroken => ⟨x, by simp, hbroken⟩
    | ok mid =>
      rw [hstep] at h
      exact (ih h).imp_right fun ⟨y, hy, hbroken⟩ => ⟨y, by simp [hy], hbroken⟩

/-- **The reader fails with its own fault**, unless an escape asks for a code point out of all
    bounds. -/
theorem faulty_of_ofText {text : String} {e : Failure} (h : ofText text = .error e) :
    Faulty text.toList e := by
  unfold ofText at h
  cases hrun : (lexemes text).foldlM step ⟨[], .between⟩ with
  | error e' =>
    rw [hrun] at h
    obtain rfl : e' = e := Except.error.inj h
    obtain ⟨fault, position, rfl⟩ | ⟨x, hx, hbroken⟩ := run_eq_error hrun
    · exact .grammar fault position
    · exact faulty_of_lexemes text.toList.length (.start text.toList) x hx hbroken
  | ok s =>
    rw [hrun] at h
    cases hfinish : finish s text.toList.length with
    | error e' =>
      simp only [hfinish, bind, Except.bind] at h
      obtain rfl : e' = e := Except.error.inj h
      unfold finish at hfinish
      split at hfinish
      · cases hfinish
      · obtain rfl := Except.error.inj hfinish
        exact .grammar _ _
      · split at hfinish
        · obtain rfl := Except.error.inj hfinish
          exact .grammar _ _
        · cases hfinish
    | ok g =>
      simp only [hfinish, bind, Except.bind] at h
      cases hcheck : checkReferences g with
      | error e' =>
        rw [hcheck] at h
        obtain rfl : e' = e := Except.error.inj h
        unfold checkReferences at hcheck
        split at hcheck
        · obtain rfl := Except.error.inj hcheck
          exact .grammar _ _
        · cases hcheck
      | ok u =>
        rw [hcheck] at h
        cases h

/-! ## All texts -/

/-- **The reader accepts the dialect with its wider numerals, and nothing else.** Every text that is
    refused is refused with the reader's own fault, unless an escape in it asks for a code point out of
    all bounds. -/
theorem reads_or_faults (text : String) :
    (∀ g, ofText text = .ok g ↔ Numerals.lenient.Renders text.toList g ∧ IsWellFormed g) ∧
      ∀ e, ofText text = .error e → Faulty text.toList e :=
  ⟨fun _ => ofText_eq_ok_iff, fun _ => faulty_of_ofText⟩

/-- An escape makes the reader fail with a fault that is not its own, and counts and escapes are read
    that the dialect does not have. -/
theorem numerals_go_astray :
    ofText "root ::= \"\\UFFFFFFFF\"" = .error (.misuse .codePoint) ∧
      ofText "root ::= \"a\"\x7b+2,-1\x7d" = .ok [("root", .rep (.literal [97]) 2 (some (-1)))] ∧
      ofText "root ::= \"\\x+1\"" = .ok [("root", .literal [1])] :=
  ⟨rfl, rfl, rfl⟩

end Grammar

end SchemaGrammar
