import SchemaGrammar.Pattern.Rule
import SchemaGrammar.Proofs.Rules.Orderly

set_option autoImplicit false

/-! # Rules for patterns

A pattern is cut into tokens whose texts stay between their own quotes and brackets
(`isTidy_lexemes`). Putting them together, with a rule of its own for what is repeated by count,
keeps the table orderly, whether the pattern turns out to be at fault or not
(`Job.runs_expression`). -/

namespace SchemaGrammar

open Grammar (IsText Enclosed isText_of_lexes isText_name isText_empty)

namespace Grammar

/-! ## Counted repetitions -/

/-- Counts are at fault, or something is used as a count that is none. -/
def IsCounting (e : Failure) : Prop :=
  (∃ fault, e = .count fault) ∨ e.IsMisuse

theorem IsCounting.isOrdinary {e : Failure} (h : IsCounting e) : e.IsOrdinary := by
  obtain ⟨fault, rfl⟩ | h := h
  · simp [Failure.IsOrdinary, Failure.IsOfSchema]
  · exact h.isOrdinary

theorem IsCounting.ne_tooManyDigits {e : Failure} (h : IsCounting e) : e ≠ .tooManyDigits := by
  obtain ⟨fault, rfl⟩ | h := h
  · simp
  · exact h.ne_tooManyDigits

theorem fails_countAbove (a b : Json) : Fails IsCounting (countAbove a b) := by
  unfold countAbove
  split
  · exact .ok _
  · exact .error (.inr ⟨_, rfl⟩)

theorem fails_checkCounts (low high : Json) : Fails IsCounting (checkCounts low high) := by
  unfold checkCounts
  split
  · exact .ok _
  · refine (fails_countAbove low high).bind fun answer => ?_
    split_ifs
    · exact .error (.inl ⟨_, rfl⟩)
    · exact .ok _

theorem fails_repetition (item : String) (low high : Json) :
    Fails IsCounting (repetition item low high) := by
  refine (fails_checkCounts low high).bind fun _ => ?_
  dsimp only
  split_ifs
  on_goal 5 => exact .error (.inl ⟨_, rfl⟩)
  all_goals exact .ok _

theorem fails_separatedRepetition (item separator : String) (low high : Json) :
    Fails IsCounting (separatedRepetition item separator low high) := by
  refine (fails_checkCounts low high).bind fun _ => ?_
  split
  · exact .ok _
  · split
    · exact .ok _
    · exact (fails_countAbove _ _).bind fun _ => (fails_repetition _ _ _).bind fun _ => .ok _

/-- A repetition is at fault only by its counts: by their order, or by the digits of one. -/
theorem repetition_eq_error {item : String} {low high : Json} {e : Failure}
    (h : repetition item low high = .error e) : checkCounts low high = .error e ∨
      e = .count .tooManyDigits ∧ (low.isWritable && high.isWritable) = false := by
  unfold repetition at h
  cases hcheck : checkCounts low high with
  | error e' =>
    rw [hcheck] at h
    obtain rfl : e' = e := by simpa only [bind, Except.bind, Except.error.injEq] using h
    exact .inl rfl
  | ok _ =>
    rw [hcheck] at h
    dsimp only [bind, Except.bind] at h
    split_ifs at h with _ _ _ _ hdigits
    on_goal 5 => exact .inr ⟨(Except.error.inj h).symm, by rwa [Bool.not_eq_true'] at hdigits⟩
    all_goals cases h

/-- Counts are at fault because of their order, or because they have none. -/
theorem checkCounts_eq_error {low high : Json} {e : Failure} (h : checkCounts low high = .error e) :
    e = .count (.ofCounts low high) ∨ ∃ cause, e = .misuse cause := by
  unfold checkCounts at h
  split at h
  · cases h
  · cases hless : high.less low with
    | error pair =>
      simp only [countAbove, hless, bind, Except.bind] at h
      exact .inr ⟨_, (Except.error.inj h).symm⟩
    | ok above =>
      simp only [countAbove, hless, bind, Except.bind] at h
      split_ifs at h
      · exact .inl (Except.error.inj h).symm
      · cases h

/-- A count that may be missing. -/
def IsNumberOrMissing (v : Json) : Prop :=
  v = .null ∨ ∃ x, v = .num x

theorem countAbove_of_numbers (x y : Number) : ∃ answer, countAbove (.num x) (.num y) = .ok answer :=
  ⟨y.lt x, rfl⟩

/-- Counts that are numbers are at fault only because of their order. -/
theorem checkCounts_of_numbers {low : Number} {high : Json} {e : Failure}
    (hhigh : IsNumberOrMissing high) (h : checkCounts (.num low) high = .error e) :
    ∃ fault, e = .count fault := by
  rcases hhigh with rfl | ⟨most, rfl⟩
  · cases h
  · rcases checkCounts_eq_error h with rfl | ⟨cause, rfl⟩
    · exact ⟨_, rfl⟩
    · obtain ⟨above, habove⟩ := countAbove_of_numbers low most
      rw [checkCounts, habove] at h
      · dsimp only [bind, Except.bind] at h
        split_ifs at h
        · cases h
        · cases h
      · simp

theorem isNumberOrMissing_countPred {v : Json} (h : IsNumberOrMissing v) :
    IsNumberOrMissing (countPred v) := by
  rcases h with rfl | ⟨x, rfl⟩
  · exact .inl rfl
  · exact .inr ⟨x.pred, rfl⟩

/-- So are repetitions. -/
theorem repetition_of_numbers {item : String} {low : Number} {high : Json} {e : Failure}
    (hhigh : IsNumberOrMissing high) (h : repetition item (.num low) high = .error e) :
    ∃ fault, e = .count fault := by
  obtain hcheck | ⟨rfl, -⟩ := repetition_eq_error h
  · exact checkCounts_of_numbers hhigh hcheck
  · exact ⟨_, rfl⟩

theorem separatedRepetition_of_numbers {item separator : String} {low : Number} {high : Json}
    {e : Failure} (hhigh : IsNumberOrMissing high)
    (h : separatedRepetition item separator (.num low) high = .error e) :
    ∃ fault, e = .count fault := by
  unfold separatedRepetition at h
  cases hcheck : checkCounts (.num low) high with
  | error e' =>
    rw [hcheck] at h
    obtain rfl := Except.error.inj h
    exact checkCounts_of_numbers hhigh hcheck
  | ok _ =>
    obtain ⟨above, habove⟩ := countAbove_of_numbers low (.whole 0)
    rw [hcheck, habove] at h
    dsimp only [bind, Except.bind] at h
    split_ifs at h
    · cases h
    · cases h
    -- what is left are the repetitions behind the first item
    all_goals
      split at h
      · rename_i hrest
        obtain rfl := Except.error.inj h
        exact repetition_of_numbers (isNumberOrMissing_countPred hhigh) hrest
      · cases h

/-- Whole counts are at fault only if the least one is above the greatest one. -/
theorem checkCounts_whole {low most : Int} {e : Failure}
    (h : checkCounts (.num (.whole low)) (.num (.whole most)) = .error e) :
    most < low ∧ e = .count (.ofCounts (.num (.whole low)) (.num (.whole most))) := by
  have hless : (Json.num (.whole most)).less (.num (.whole low)) = .ok (decide (most < low)) := by
    simp [Json.less, Number.lt, Number.rank]
  simp only [checkCounts, countAbove, hless, bind, Except.bind] at h
  split_ifs at h with habove
  · exact ⟨of_decide_eq_true habove, (Except.error.inj h).symm⟩
  · cases h

end Grammar

namespace Pattern

open Text (Cursor)

/-- What making a rule of a pattern may fail with: the pattern has a fault, or it repeats something
    more often at least than at most. -/
inductive Fault (pattern : String) : Failure → Prop
  | pattern {fault source index} : Fault pattern (.pattern fault source index)
  | counts {source : String} {x : Lexeme} {low most : Int} (hsource : unanchored? pattern = some source)
      (hx : x ∈ lexemes source.toList) (htoken : x.token = .counts low (some most))
      (habove : most < low) :
      Fault pattern (.count (.crossed (.num (.whole low)) (.num (.whole most))))

/-! ## Tokens -/

/-- The text of a token stays inside its brackets or quotes, and its counts can be written. -/
def Token.IsTidy : Token → Prop
  | .charClass text => ∃ cs, Enclosed ']' cs ∧ text = "[" ++ String.ofList cs ++ "]"
  | .literal text => Enclosed '"' text.toList
  | .quantifier mark => mark ∈ ['?', '*', '+']
  | .counts low high => (Number.whole low).isWritable = true ∧
      ∀ most ∈ high, (Number.whole most).isWritable = true
  | _ => True

theorem enclosed_plainText {c : Char} (h : c ≠ '\\') : Enclosed '"' (plainText c) := by
  unfold plainText
  split_ifs with hquote
  · exact .escape .nil
  · exact .escape .nil
  · exact .escape .nil
  · exact .plain hquote h .nil

theorem enclosed_escapeText {c : Char} {rest text : List Char} {length : Nat}
    (h : escapeText c rest = .ok (text, length)) : Enclosed '"' text := by
  unfold escapeText at h
  by_cases hoperator : escapedOperators.contains c = true
  · rw [if_pos hoperator] at h
    obtain ⟨rfl, -⟩ := Prod.mk.inj (Except.ok.inj h)
    have hall : ∀ c ∈ escapedOperators, c ≠ '"' ∧ c ≠ '\\' := by decide
    obtain ⟨hquote, hslash⟩ := hall c (List.contains_iff_mem.1 hoperator)
    exact .plain hquote hslash .nil
  rw [if_neg hoperator] at h
  cases hwidth : escapeWidth? c with
  | some width =>
    simp only [hwidth] at h
    split_ifs at h with hdigits
    obtain ⟨rfl, -⟩ := Prod.mk.inj (Except.ok.inj h)
    rw [Bool.and_eq_true, List.all_eq_true] at hdigits
    refine .escape ?_
    generalize rest.take width = digits at hdigits
    have hhex : ∀ d ∈ digits, Text.isHexDigit d = true := hdigits.2
    clear hdigits
    induction digits with
    | nil => exact .nil
    | cons d ds ih =>
      have hd := hhex d (by simp)
      refine .plain ?_ ?_ (ih fun c hc => hhex c (List.mem_cons_of_mem _ hc))
      · rintro rfl
        exact absurd hd (by decide)
      · rintro rfl
        exact absurd hd (by decide)
  | none =>
    simp only [hwidth] at h
    split_ifs at h with hsimple
    · obtain ⟨rfl, -⟩ := Prod.mk.inj (Except.ok.inj h)
      exact .escape .nil
    · obtain ⟨rfl, -⟩ := Prod.mk.inj (Except.ok.inj h)
      simp only [Bool.or_eq_true, decide_eq_true_eq, not_or] at hsimple
      exact .plain hsimple.2 hsimple.1.2 .nil

theorem enclosed_literalFrom {steps : Nat} {done text : List Char} {k k' : Cursor}
    (hdone : Enclosed '"' done.reverse) (h : literalFrom steps done k = .ok (text, k')) :
    Enclosed '"' text := by
  induction steps generalizing done k with
  | zero =>
    obtain ⟨rfl, -⟩ := Prod.mk.inj (Except.ok.inj h)
    exact hdone
  | succ steps ih =>
    have hstop (h : (Except.ok (done.reverse, k) : Except (PatternFault × Nat) _) =
        .ok (text, k')) : Enclosed '"' text := by
      obtain ⟨rfl, -⟩ := Prod.mk.inj (Except.ok.inj h)
      exact hdone
    unfold literalFrom at h
    split at h
    · exact hstop h
    · exact absurd h (by simp)
    · split_ifs at h
      · exact hstop h
      · split at h
        · exact absurd h (by simp)
        · rename_i found length hescape
          dsimp only at h
          split_ifs at h
          · exact hstop h
          · refine ih ?_ h
            rw [List.reverse_append, List.reverse_reverse]
            exact hdone.append (enclosed_escapeText hescape)
    · rename_i c rest hone hmore _
      split_ifs at h with hplain hclose
      · refine ih ?_ h
        rw [List.reverse_append, List.reverse_reverse]
        refine hdone.append (enclosed_plainText ?_)
        rintro rfl
        cases rest with
        | nil => exact hone rfl rfl
        | cons d ds => exact hmore d ds rfl rfl
      · refine ih ?_ h
        simp only [Bool.and_eq_true, Bool.or_eq_true, decide_eq_true_eq] at hclose
        rcases hclose.1 with rfl | rfl <;> exact .plain (by decide) (by decide) .nil
      · exact hstop h

theorem classLength_spec {cs : List Char} {n : Nat} (h : classLength cs = (n, true)) :
    Enclosed ']' (cs.take n) ∧ cs.take (n + 1) = cs.take n ++ [']'] := by
  fun_induction classLength cs generalizing n with
  | case1 => simp at h
  | case2 =>
    obtain rfl : 0 = n := (Prod.mk.inj h).1
    exact ⟨.nil, rfl⟩
  | case3 c rest m closed hrest ih =>
    obtain ⟨rfl, rfl⟩ := Prod.mk.inj h
    obtain ⟨hinside, hclose⟩ := ih hrest
    exact ⟨.escape hinside, by simpa using hclose⟩
  | case4 => simp at h
  | case5 c rest hclose hpair hslash m closed hrest ih =>
    obtain ⟨rfl, rfl⟩ := Prod.mk.inj h
    obtain ⟨hinside, hend⟩ := ih hrest
    refine ⟨.plain ?_ ?_ hinside, by simpa using hend⟩
    · rintro rfl
      exact hclose rfl
    · rintro rfl
      cases rest with
      | nil => exact hslash rfl rfl
      | cons d ds => exact hpair d ds rfl rfl

theorem isTidy_shorthand {c : Char} {text : String} (h : shorthand? c = some text) :
    (Token.charClass text).IsTidy := by
  have hall : ∀ text ∈ ["[0-9]", "[^0-9]", "[0-9A-Za-z_]", "[^0-9A-Za-z_]", "[ \\t\\n\\r]",
      "[^ \\t\\n\\r]"], Grammar.closing ']' (text.toList.drop 1) =
        some ((text.toList.drop 1).dropLast, []) ∧ text.toList.head? = some '[' := by decide
  have hmem : text ∈ ["[0-9]", "[^0-9]", "[0-9A-Za-z_]", "[^0-9A-Za-z_]", "[ \\t\\n\\r]",
      "[^ \\t\\n\\r]"] := by
    unfold shorthand? at h
    split at h <;> simp_all
  obtain ⟨hclosing, hhead⟩ := hall text hmem
  obtain ⟨hinside, hsplit⟩ := Grammar.closing_spec hclosing
  refine ⟨_, hinside, ?_⟩
  cases hlist : text.toList with
  | nil => simp [hlist] at hhead
  | cons d ds =>
    rw [hlist] at hhead hsplit
    obtain rfl : d = '[' := by simpa using hhead
    rw [← String.toList_inj, hlist]
    simpa using hsplit

theorem isTidy_literal (k : Cursor) : (literal k).1.IsTidy := by
  unfold literal
  split
  · rename_i text next hread
    change Enclosed '"' (String.ofList text).toList
    rw [String.toList_ofList]
    exact enclosed_literalFrom .nil hread
  · trivial

/-- Counts that were read can be written again. -/
theorem isTidy_counts {body : List Char} {low : Int} {high : Option Int}
    (h : countsOf body = some (low, high)) : (Token.counts low high).IsTidy := by
  unfold countsOf at h
  split at h
  · rename_i count hparts
    obtain ⟨n, hn, hpair⟩ := Option.map_eq_some_iff.1 h
    obtain ⟨rfl, rfl⟩ := Prod.mk.inj hpair
    have hwritable := Text.isWritable_of_readInt? hn
    refine ⟨hwritable, fun most hmost => ?_⟩
    obtain rfl := Option.some.inj hmost
    exact hwritable
  · rename_i least greatest hparts
    dsimp only at h
    -- either count may be missing
    split_ifs at h with hleast hgreatest hgreatest
    · obtain ⟨rfl, rfl⟩ := Prod.mk.inj (Option.some.inj h)
      exact ⟨by decide, by simp⟩
    · rw [Option.bind_eq_bind, Option.bind_some] at h
      obtain ⟨m, hm, hpair⟩ := Option.bind_eq_some_iff.1 h
      obtain ⟨most, hmost, rfl⟩ := Option.map_eq_some_iff.1 hm
      obtain ⟨rfl, rfl⟩ := Prod.mk.inj (Option.some.inj hpair)
      exact ⟨by decide, by simpa using Text.isWritable_of_readInt? hmost⟩
    · obtain ⟨n, hn, hpair⟩ := Option.bind_eq_some_iff.1 h
      obtain ⟨rfl, rfl⟩ := Prod.mk.inj (Option.some.inj hpair)
      exact ⟨Text.isWritable_of_readInt? hn, by simp⟩
    · obtain ⟨n, hn, hrest⟩ := Option.bind_eq_some_iff.1 h
      obtain ⟨m, hm, hpair⟩ := Option.bind_eq_some_iff.1 hrest
      obtain ⟨most, hmost, rfl⟩ := Option.map_eq_some_iff.1 hm
      obtain ⟨rfl, rfl⟩ := Prod.mk.inj (Option.some.inj hpair)
      exact ⟨Text.isWritable_of_readInt? hn, by simpa using Text.isWritable_of_readInt? hmost⟩
  · cases h

theorem isTidy_token (k : Cursor) : (token k).1.IsTidy := by
  unfold token
  split
  · trivial
  · trivial
  · trivial
  · trivial
  · rename_i rest hrest
    unfold charClass
    generalize hlength : classLength (k.rest.drop 1) = found
    obtain ⟨length, closed⟩ := found
    dsimp only
    split_ifs with hclosed
    · subst hclosed
      obtain ⟨hinside, hend⟩ := classLength_spec hlength
      refine ⟨_, hinside, ?_⟩
      rw [hrest] at hend ⊢
      rw [← String.toList_inj]
      simpa using hend
    · trivial
  · trivial
  · exact List.mem_of_elem_eq_true rfl
  · exact List.mem_of_elem_eq_true rfl
  · exact List.mem_of_elem_eq_true rfl
  · unfold braces
    dsimp only
    split_ifs
    · trivial
    · split
      · rename_i hcounts
        exact isTidy_counts hcounts
      · trivial
  · split
    · rename_i hshorthand
      exact isTidy_shorthand hshorthand
    · exact isTidy_literal k
  · exact isTidy_literal k

theorem isTidy_lexemesFrom (steps : Nat) (k : Cursor) :
    ∀ x ∈ lexemesFrom steps k, x.token.IsTidy := by
  induction steps generalizing k with
  | zero => simp [lexemesFrom]
  | succ steps ih =>
    intro x hx
    rw [lexemesFrom] at hx
    split_ifs at hx
    · simp at hx
    · rcases List.mem_cons.1 hx with rfl | hx
      · exact isTidy_token k
      · exact ih _ x hx

theorem isTidy_lexemes (cs : List Char) : ∀ x ∈ lexemes cs, x.token.IsTidy :=
  isTidy_lexemesFrom _ _

/-! ## Fragments -/

/-- A fragment is a row of tokens; a literal stays between its quotes. -/
structure Fragment.IsTidy (P : String → Prop) (f : Fragment) : Prop where
  text : IsText P f.rule
  literal : f.isLiteral = true → Enclosed '"' f.text.toList

section Fragments

variable {P Q : String → Prop} {f : Fragment}

theorem Fragment.IsTidy.mono (hPQ : ∀ name, P name → Q name) (h : f.IsTidy P) : f.IsTidy Q :=
  ⟨h.text.mono hPQ, h.literal⟩

theorem isTidy_quoted {text : String} (h : Enclosed '"' text.toList) :
    Fragment.IsTidy P ⟨text, true⟩ := by
  refine ⟨?_, fun _ => h⟩
  have hfirm := isFirm_quoted (P := P) h
  rw [String.ofList_toList] at hfirm
  exact hfirm.text

theorem isTidy_expression {text : String} (h : IsText P text) : Fragment.IsTidy P ⟨text, false⟩ :=
  ⟨h, fun hliteral => absurd hliteral Bool.false_ne_true⟩

theorem isTidy_joinLiterals {fs : List Fragment} (h : ∀ f ∈ fs, f.IsTidy P) :
    ∀ f ∈ joinLiterals fs, f.IsTidy P := by
  induction fs with
  | nil => simp [joinLiterals]
  | cons f rest ih =>
    have hf := h f (by simp)
    have hrest := ih fun g hg => h g (List.mem_cons_of_mem _ hg)
    rw [joinLiterals]
    split
    · rename_i g more hjoined
      rw [hjoined] at hrest
      split_ifs with hboth
      · rw [Bool.and_eq_true] at hboth
        intro k hk
        rcases List.mem_cons.1 hk with rfl | hk
        · refine isTidy_quoted ?_
          rw [String.toList_append]
          exact (hf.literal hboth.1).append ((hrest g (by simp)).literal hboth.2)
        · exact hrest k (List.mem_cons_of_mem _ hk)
      · intro k hk
        rcases List.mem_cons.1 hk with rfl | hk
        · exact hf
        · exact hrest k hk
    · simpa using hf

theorem isTidy_joinFragments {fs : List Fragment} (h : ∀ f ∈ fs, f.IsTidy P) :
    (joinFragments fs).IsTidy P := by
  have hjoined := isTidy_joinLiterals h
  unfold joinFragments
  split
  · rename_i f hone
    exact hjoined f (by simp [hone])
  · refine isTidy_expression (Grammar.isText_intercalate isFirm_blank.text (by decide) (by decide)
      (by decide) fun e he => ?_)
    obtain ⟨f, hf, rfl⟩ := List.mem_map.1 he
    exact (hjoined f hf).text

end Fragments

/-! ## The run over a pattern -/

open RuleTable (Orderly Advances Runs Requestable escapeName runs_pure runs_throw runs_addRule
  runs_ofExcept)

/-- All fragments read so far are tidy, and the expressions with a rule of their own have it. -/
structure State.IsTidy (t : RuleTable) (s : State) : Prop where
  row : ∀ f ∈ s.row.fragments, f.IsTidy t.Promises
  outer : ∀ row ∈ s.outer, ∀ f ∈ row.fragments, f.IsTidy t.Promises
  parts : ∀ part ∈ s.parts, t.Promises part.2

section Run

variable {tidy : Prop} {t t' : RuleTable} {s : State} {job : Job} {E : Failure → Prop}

theorem State.IsTidy.advance (h : s.IsTidy t) (hadvances : Advances tidy True t t') :
    s.IsTidy t' :=
  ⟨fun f hf => (h.row f hf).mono hadvances.promises,
    fun row hrow f hf => (h.outer row hrow f hf).mono hadvances.promises,
    fun part hpart => hadvances.promises _ (h.parts part hpart)⟩

theorem State.IsTidy.push (h : s.IsTidy t) {f : Fragment} (hf : f.IsTidy t.Promises) :
    State.IsTidy t { s with row := s.row.push f } := by
  refine ⟨fun g hg => ?_, h.outer, h.parts⟩
  rcases List.mem_cons.1 hg with rfl | hg
  · exact hf
  · exact h.row g hg

/-- The name of a part ends in a number, as no built-in name does. -/
theorem requestable_part (name : String) (n : Nat) :
    Requestable False (name ++ "-" ++ natText n) ∧
      escapeName (name ++ "-" ++ natText n) ≠ "root" := by
  have hkept : ∀ d ∈ '-' :: (natText n).toList, RuleTable.keepsInName d = true := by
    intro d hd
    rcases List.mem_cons.1 hd with rfl | hd
    · decide
    · rw [natText, String.toList_ofList] at hd
      exact RuleTable.keepsInName_of_isDigit (Text.isDigit_of_mem_toDigits hd)
  have hescape : escapeName (name ++ "-" ++ natText n) =
      RuleTable.numbered (escapeName name ++ "-") n := by
    have htext : name ++ "-" ++ natText n = name ++ String.ofList ('-' :: (natText n).toList) := by
      rw [← String.toList_inj]
      simp
    rw [htext, RuleTable.escapeName_append name hkept, ← String.toList_inj]
    simp [RuleTable.numbered]
  refine ⟨⟨by simp, ?_, False.elim⟩, ?_⟩ <;> rw [hescape]
  · exact RuleTable.find?_numbered _ n
  · exact RuleTable.numbered_ne_root _ n

variable (hE : ∀ fault index, E (job.fault fault index))

include hE in
/-- What a quantifier stands behind. -/
theorem runs_repeated (h : t.Orderly tidy) (hs : tidy → s.IsTidy t) (index : Nat) :
    Runs tidy True E (fun found t' => tidy → found.1.IsTidy t'.Promises ∧
      ∀ f ∈ found.2, f.IsTidy t'.Promises) (job.repeated s index) t := by
  unfold Job.repeated
  split
  · rename_i f rest hrow
    split_ifs
    · exact runs_throw h (hE _ _)
    · refine runs_pure h fun htidy => ?_
      have hall := (hs htidy).row
      rw [hrow] at hall
      exact ⟨hall f (by simp), fun g hg => hall g (List.mem_cons_of_mem _ hg)⟩
  · exact runs_throw h (hE _ _)

/-- An expression that is repeated by count has a rule. -/
theorem runs_part (h : t.Orderly tidy) (hs : tidy → s.IsTidy t) {text : String}
    (htext : tidy → IsText t.Promises text) :
    Runs tidy True E (fun found t' => tidy → t'.Promises found.1 ∧ found.2.IsTidy t')
      (job.part s text) t := by
  unfold Job.part
  split
  · rename_i name hlookup
    refine runs_pure h fun htidy => ⟨?_, hs htidy⟩
    exact (hs htidy).parts _ (Assoc.mem_of_lookup hlookup)
  · obtain ⟨hname, hroot⟩ := requestable_part job.name (s.parts.length + 1)
    refine (runs_addRule h hname htext fun _ => hroot).bind fun name t' hadvances hhas => ?_
    refine runs_pure hadvances.orderly fun htidy => ?_
    have hkept := (hs htidy).advance hadvances
    refine ⟨.inl hhas, hkept.row, hkept.outer, fun part hpart => ?_⟩
    rcases List.mem_append.1 hpart with hpart | hpart
    · exact hkept.parts part hpart
    · rw [List.mem_singleton.1 hpart]
      exact .inl hhas

theorem isCount_most (high : Option Int) : Grammar.IsCount (match high with
    | some n => Job.countValue n
    | none => .null) := by
  cases high with
  | some n => exact .inr ⟨n, rfl⟩
  | none => exact .inl rfl

include hE

theorem runs_repeatCounted (h : t.Orderly tidy) (hs : tidy → s.IsTidy t) (index : Nat) {low : Int}
    {high : Option Int} (hwritable : (Token.counts low high).IsTidy)
    (hcounts : ∀ most, high = some most → most < low →
      E (.count (.crossed (Job.countValue low) (Job.countValue most)))) :
    Runs tidy True E (fun s' t' => tidy → s'.IsTidy t') (job.repeatCounted s index low high) t := by
  unfold Job.repeatCounted
  refine (runs_repeated hE h hs index).bind fun found t₁ hadvances hfound => ?_
  obtain ⟨f, rest⟩ := found
  have hs₁ : tidy → s.IsTidy t₁ := fun htidy => (hs htidy).advance hadvances
  have hcount (n : Int) : Grammar.IsCount (Job.countValue n) := .inr ⟨n, rfl⟩
  -- what is left once the item has a name
  have hrest : ∀ (most : Json), Grammar.IsCount most →
      (∀ item e, Grammar.repetition item (Job.countValue low) most = .error e → E e) →
      ∀ (item : String) (s' : State) t₂, Advances tidy True t₁ t₂ →
        (tidy → IsText t₂.Promises item ∧ s'.IsTidy t₂) →
      Runs tidy True E (fun s' t' => tidy → s'.IsTidy t') (do
        let text ← MonadExcept.ofExcept (Grammar.repetition item (Job.countValue low) most)
        return { s' with row := { s'.row with fragments := ⟨text, false⟩ :: rest } }) t₂ := by
    intro most hmost hfault item s' t₂ hadvances' hitem
    refine RuleTable.Runs.bind (Q := fun text t' => tidy → IsText t'.Promises text)
      (runs_ofExcept hadvances'.orderly (fun text htext htidy => ?_) fun e he =>
        hfault item e he)
      fun text t₃ hadvances'' htext => ?_
    · exact (Grammar.isText_repetition (hitem htidy).1 (hcount low) hmost htext).1
    refine runs_pure hadvances''.orderly fun htidy => ?_
    have hkept := (hitem htidy).2.advance hadvances''
    refine ⟨fun g hg => ?_, hkept.outer, hkept.parts⟩
    rcases List.mem_cons.1 hg with rfl | hg
    · exact isTidy_expression (htext htidy)
    · exact ((hfound htidy).2 g hg).mono fun n hn =>
        hadvances''.promises n (hadvances'.promises n hn)
  have hmost := isCount_most high
  have hfault : ∀ item e, Grammar.repetition item (Job.countValue low) (match high with
      | some n => Job.countValue n
      | none => .null) = .error e → E e := by
    intro item e he
    have hlow : (Job.countValue low).isWritable = true := hwritable.1
    cases high with
    | none =>
      obtain hcheck | ⟨-, hdigits⟩ := Grammar.repetition_eq_error he
      · exact absurd hcheck (by simp [Grammar.checkCounts])
      · simp [hlow, Json.isWritable] at hdigits
    | some most =>
      have hmost : (Job.countValue most).isWritable = true := hwritable.2 most rfl
      obtain hcheck | ⟨-, hdigits⟩ := Grammar.repetition_eq_error he
      · obtain ⟨habove, rfl⟩ := Grammar.checkCounts_whole hcheck
        have hshown : CountFault.ofCounts (Job.countValue low) (Job.countValue most) =
            .crossed (Job.countValue low) (Job.countValue most) :=
          if_pos (by rw [hlow, hmost]; rfl)
        exact hshown ▸ hcounts most rfl habove
      · simp [hlow, hmost] at hdigits
  dsimp only
  split_ifs with hliteral
  · exact hrest _ hmost hfault f.rule s t₁ (.refl hadvances.orderly) fun htidy =>
      ⟨(hfound htidy).1.text, hs₁ htidy⟩
  · have htext : f.rule = f.text := if_neg hliteral
    refine (runs_part hadvances.orderly hs₁ fun htidy => ?_).bind fun part t₂ hadvances' hpart => ?_
    · exact htext ▸ (hfound htidy).1.text
    · exact hrest _ hmost hfault part.1 part.2 t₂ hadvances' fun htidy =>
        ⟨isText_name (hpart htidy).1, (hpart htidy).2⟩

theorem runs_step (h : t.Orderly tidy) (hs : tidy → s.IsTidy t) {x : Lexeme}
    (hx : x.token.IsTidy) (hcounts : ∀ low most, x.token = .counts low (some most) → most < low →
      E (.count (.crossed (Job.countValue low) (Job.countValue most)))) :
    Runs tidy True E (fun s' t' => tidy → s'.IsTidy t') (job.step s x) t := by
  have hpush {text : String} (htext : IsText t.Promises text) :
      Runs tidy True E (fun s' t' => tidy → s'.IsTidy t')
        (pure { s with row := s.row.push ⟨text, false⟩ } : TableM State) t :=
    runs_pure h fun htidy => (hs htidy).push (isTidy_expression htext)
  unfold Job.step
  dsimp only
  generalize hkind : x.token = kind at hx hcounts
  cases kind with
  | dot =>
    have hdot (P : String → Prop) : IsText P job.dot := by
      unfold Job.dot
      split_ifs
      · exact isText_of_lexes [] (by decide) (by simp)
      · exact isText_of_lexes [] (by decide) (by simp)
    have hname : Requestable False "dot" := ⟨by decide, by decide, False.elim⟩
    have hroot : escapeName "dot" ≠ "root" := by decide
    refine (runs_addRule h hname (fun _ => hdot _) fun _ => hroot).bind
      fun name t' hadvances hhas => ?_
    refine runs_pure hadvances.orderly fun htidy => ?_
    exact ((hs htidy).advance hadvances).push (isTidy_expression (isText_name (.inl hhas)))
  | groupOpen =>
    refine runs_pure h fun htidy => ⟨by simp, fun row hrow => ?_, (hs htidy).parts⟩
    rcases List.mem_cons.1 hrow with rfl | hrow
    · exact (hs htidy).row
    · exact (hs htidy).outer row hrow
  | extension => exact runs_throw h (hE _ _)
  | groupClose =>
    dsimp only
    split
    · rename_i row outer houter
      refine runs_pure h fun htidy => ?_
      have hall := (hs htidy).outer
      rw [houter] at hall
      have hinner : (joinFragments s.row.fragments.reverse).IsTidy t.Promises :=
        isTidy_joinFragments fun f hf => (hs htidy).row f (List.mem_reverse.1 hf)
      refine ⟨fun f hf => ?_, fun r hr => hall r (List.mem_cons_of_mem _ hr), (hs htidy).parts⟩
      rcases List.mem_cons.1 hf with rfl | hf
      · exact isTidy_expression (IsText.group hinner.text).text
      · exact hall row (by simp) f hf
    · exact runs_throw h (hE _ _)
  | charClass text =>
    obtain ⟨cs, hcs, rfl⟩ := hx
    exact hpush (isFirm_charClass hcs).text
  | openClass => exact runs_throw h (hE _ _)
  | bar => exact hpush (isText_of_lexes [] (by decide) (by simp))
  | quantifier mark =>
    refine (runs_repeated hE h hs x.start).bind fun found t' hadvances hfound => ?_
    obtain ⟨f, rest⟩ := found
    refine runs_pure hadvances.orderly fun htidy => ?_
    have hkept := (hs htidy).advance hadvances
    refine ⟨fun g hg => ?_, hkept.outer, hkept.parts⟩
    rcases List.mem_cons.1 hg with rfl | hg
    · have htext := IsText.mark (hfound htidy).1.text hx
      have hsame : f.rule.push mark = f.rule ++ String.ofList [mark] := by
        rw [← String.toList_inj]
        simp
      exact isTidy_expression (hsame ▸ htext)
    · exact (hfound htidy).2 g hg
  | counts low high =>
    refine runs_repeatCounted hE h hs x.start hx fun most hmost => ?_
    exact hcounts low most (by rw [hmost])
  | openBraces =>
    exact (runs_repeated hE h hs x.start).bind fun _ t' hadvances _ =>
      runs_throw hadvances.orderly (hE _ _)
  | badCounts body =>
    exact (runs_repeated hE h hs x.start).bind fun _ t' hadvances _ =>
      runs_throw hadvances.orderly (hE _ _)
  | literal text => exact runs_pure h fun htidy => (hs htidy).push (isTidy_quoted hx)
  | broken fault => exact runs_throw h (hE _ _)

/-- **The expression of a pattern** is a row of tokens, and the rules it needs are there. -/
theorem runs_expression (h : t.Orderly tidy)
    (hcounts : ∀ x ∈ lexemes job.source.toList, ∀ low most, x.token = .counts low (some most) →
      most < low → E (.count (.crossed (Job.countValue low) (Job.countValue most)))) :
    Runs tidy True E (fun text t' => tidy → IsText t'.Promises text) job.expression t := by
  unfold Job.expression
  have hstart : tidy → State.IsTidy t ⟨⟨0, []⟩, [], []⟩ := fun _ => ⟨by simp, by simp, by simp⟩
  refine (RuleTable.runs_foldlM (I := fun s t => tidy → s.IsTidy t)
    (fun s x hx t h hs => runs_step hE h hs (isTidy_lexemes _ x hx) (hcounts x hx)) h hstart).bind
      fun s t' hadvances hs => ?_
  split_ifs
  · refine runs_pure hadvances.orderly fun htidy => ?_
    exact (isTidy_joinFragments fun f hf => (hs htidy).row f (List.mem_reverse.1 hf)).text
  · exact runs_throw hadvances.orderly (hE _ _)

omit hE in
/-- The rule for the strings of a pattern, under a name that can be asked for. -/
theorem runs_toRule {quiet : Prop} (h : t.Orderly tidy) {pattern name : String} {dotAll : Bool}
    (hE : ∀ e, Fault pattern e → E e) (hname : Requestable False name)
    (hroot : quiet → escapeName name ≠ "root") :
    Runs tidy quiet E (fun slot t' => RuleTable.Filed t name slot t') (toRule pattern name dotAll) t := by
  unfold toRule
  split
  · exact runs_throw h (hE _ .pattern)
  · rename_i source hsource
    have hexpression : Runs tidy True E (fun text t' => t'.find? "root" = t.find? "root" ∧
        (tidy → IsText t'.Promises text)) (Job.expression ⟨source, name, dotAll⟩) t :=
      (runs_expression (fun _ _ => hE _ .pattern) h fun x hx low most htoken habove =>
        hE _ (.counts hsource hx htoken habove)).mono
          fun text t' hadvances htext => ⟨hadvances.root trivial, htext⟩
    refine hexpression.weaken.bind fun text t' hadvances hkept => ?_
    have hbody : tidy → IsText t'.Promises ("\"\\\"\" (" ++ text ++ ") \"\\\"\" space") := by
      intro htidy
      have hopen : IsText t'.Promises "\"\\\"\" (" := isText_of_lexes [] (by decide) (by simp)
      have hspace : t'.Promises "space" := .inl (RuleTable.has_of_find? hadvances.orderly.coherent.space)
      have hclose : IsText t'.Promises ") \"\\\"\" space" :=
        isText_of_lexes ["space"] (by decide) (by simpa using hspace)
      exact hopen.between (hkept.2 htidy) hclose (by decide) (by decide)
    obtain ⟨hadvances', -, -⟩ := hadvances.orderly.add hname hbody hroot rfl
    have hfiled := hadvances.orderly.filed name ("\"\\\"\" (" ++ text ++ ") \"\\\"\" space")
    refine Work.leads_of_ok rfl hadvances' ⟨hfiled.has, hfiled.filled, fun heq hnone => ?_⟩
    exact hfiled.first heq (hkept.1.trans hnone)

end Run

end Pattern

end SchemaGrammar
