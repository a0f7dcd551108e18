import SchemaGrammar.Proofs.Grammar.Texts
import SchemaGrammar.Proofs.Rules.Exclusion
import SchemaGrammar.Proofs.Rules.IntRange
import SchemaGrammar.Proofs.Work

set_option autoImplicit false

/-! # Generated expressions are rows of tokens

What the generators of expressions write is made of tokens, whatever numbers they are given: the
built-in bodies, counted repetitions, ranges of integers and strings that are to differ from given
ones. -/

namespace SchemaGrammar

open Grammar (IsText StartsFirm EndsFirm Enclosed Lexed isText_empty isText_of_lexes isText_name
  endsFirm_append startsFirm_append isText_intercalate isText_literalText)

/-! ## Firm pieces -/

/-- A row of tokens that no name can run into. -/
structure IsFirm (P : String → Prop) (s : String) : Prop where
  text : IsText P s
  starts : StartsFirm s
  ends : EndsFirm s

section Firm

variable {P : String → Prop} {a b : String}

theorem isFirm_of_lexes (names : List String) {s : String}
    (h : Grammar.lexes names s.toList.length s.toList = true) (hP : ∀ name ∈ names, P name)
    (hstarts : StartsFirm s) (hends : EndsFirm s) : IsFirm P s :=
  ⟨isText_of_lexes names h hP, hstarts, hends⟩

theorem IsFirm.append (ha : IsFirm P a) (hb : IsFirm P b) : IsFirm P (a ++ b) := by
  refine ⟨ha.text.append_firm hb.text hb.starts, ?_, ?_⟩
  · by_cases hempty : a = ""
    · rw [hempty, String.empty_append]
      exact hb.starts
    · exact startsFirm_append ha.starts hempty
  · by_cases hempty : b = ""
    · rw [hempty, String.append_empty]
      exact ha.ends
    · exact endsFirm_append hb.ends hempty

theorem isFirm_intercalate {sep : String} (hsep : IsFirm P sep) {pieces : List String}
    (h : ∀ s ∈ pieces, IsFirm P s) : IsFirm P (sep.intercalate pieces) := by
  induction pieces with
  | nil => exact ⟨isText_empty, by simp [StartsFirm], by simp [EndsFirm]⟩
  | cons s rest ih =>
    cases rest with
    | nil => simpa using h s (by simp)
    | cons s' rest =>
      rw [String.intercalate_cons_cons]
      exact ((h s (by simp)).append hsep).append (ih fun e he => h e (List.mem_cons_of_mem _ he))

theorem isFirm_bar : IsFirm P " | " :=
  isFirm_of_lexes [] (by decide) (by simp) (by decide) (by decide)

theorem isFirm_blank : IsFirm P " " :=
  isFirm_of_lexes [] (by decide) (by simp) (by decide) (by decide)

theorem isFirm_charClass {cs : List Char} (h : Enclosed ']' cs) :
    IsFirm P ("[" ++ String.ofList cs ++ "]") := by
  have htext : ("[" ++ String.ofList cs ++ "]").toList = '[' :: (cs ++ [']']) := by simp
  refine ⟨?_, fun c hc => ?_, endsFirm_append (by decide) (by decide)⟩
  · rw [IsText, htext]
    exact .charClass h
  · rw [htext] at hc
    obtain rfl : c = '[' := by simpa [eq_comm] using hc
    decide

theorem isFirm_quoted {cs : List Char} (h : Enclosed '"' cs) :
    IsFirm P ("\"" ++ String.ofList cs ++ "\"") := by
  have htext : ("\"" ++ String.ofList cs ++ "\"").toList = '"' :: (cs ++ ['"']) := by simp
  refine ⟨?_, fun c hc => ?_, endsFirm_append (by decide) (by decide)⟩
  · rw [IsText, htext]
    exact .literal h
  · rw [htext] at hc
    obtain rfl : c = '"' := by simpa [eq_comm] using hc
    decide

theorem isFirm_braces {s : String} (h : '\x7d' ∉ s.toList) : IsFirm P ("\x7b" ++ s ++ "\x7d") := by
  have htext : ("\x7b" ++ s ++ "\x7d").toList = '\x7b' :: (s.toList ++ ['\x7d']) := by simp
  refine ⟨?_, fun c hc => ?_, endsFirm_append (by decide) (by decide)⟩
  · rw [IsText, htext]
    exact .braces h
  · rw [htext] at hc
    obtain rfl : c = '\x7b' := by simpa [eq_comm] using hc
    decide

theorem IsText.group (h : IsText P a) : IsFirm P ("(" ++ a ++ ")") := by
  have hopen : IsText P "(" := isText_of_lexes [] (by decide) (by simp)
  have hclose : IsText P ")" := isText_of_lexes [] (by decide) (by simp)
  refine ⟨hopen.between h hclose (by decide) (by decide), fun c hc => ?_,
    endsFirm_append (by decide) (by decide)⟩
  obtain rfl : c = '(' := by simpa [eq_comm] using hc
  decide

/-- A sign of repetition behind an item. -/
theorem IsText.mark (h : IsText P a) {mark : Char} (hmark : mark ∈ ['?', '*', '+']) :
    IsText P (a ++ String.ofList [mark]) := by
  have hall : ∀ c ∈ ['?', '*', '+'], c ∈ Grammar.marks ∧ Grammar.isNameChar c = false := by decide
  have htoken : IsText P (String.ofList [mark]) := by
    rw [IsText, String.toList_ofList]
    exact .mark (hall mark hmark).1
  refine h.append_firm htoken fun c hc => ?_
  rw [String.toList_ofList] at hc
  obtain rfl : c = mark := by simpa [eq_comm] using hc
  exact (hall c hmark).2

end Firm

/-! ## Built-in bodies -/

theorem isText_builtin {P : String → Prop} {name : String} {rule : Builtin}
    (h : Builtin.find? name = some rule) (hspace : P Builtin.spaceName)
    (hneeds : ∀ need ∈ rule.needs, P need) : IsText P rule.body := by
  have hall : ∀ x ∈ Builtin.catalog, Grammar.lexes (Builtin.spaceName :: x.2.needs)
      x.2.body.toList.length x.2.body.toList = true := by
    -- the literals are given as characters, which the kernel need not decode then
    simp only [Builtin.catalog, Builtin.values, Builtin.formats, Builtin.times, Builtin.hex,
      List.cons_append, List.nil_append, List.forall_mem_cons, String.toList_append]
    repeat rw [String.toList_ofList]
    decide +kernel
  refine isText_of_lexes _ (hall _ (Assoc.mem_of_lookup h)) fun n hn => ?_
  rcases List.mem_cons.1 hn with rfl | hn
  · exact hspace
  · exact hneeds n hn

theorem isText_space {P : String → Prop} : IsText P Builtin.space :=
  isText_of_lexes [] (by decide +kernel) (by simp)

/-! ## Counts -/

namespace Grammar

/-- A count as a schema may give it: nothing, or a whole number. -/
def IsCount (v : Json) : Prop :=
  v = .null ∨ ∃ n, v = .num (.whole n)

theorem notMem_intText (n : Int) : '\x7d' ∉ (intText n).toList := by
  rw [intText]
  split_ifs
  · simpa using notMem_natText (c := '\x7d') rfl
  · exact notMem_natText rfl

theorem IsCount.shown {v : Json} (h : IsCount v) : '\x7d' ∉ v.shown.toList := by
  rcases h with rfl | ⟨n, rfl⟩
  · decide
  · exact notMem_intText n

theorem IsCount.pred {v : Json} (h : IsCount v) : IsCount (countPred v) := by
  rcases h with rfl | ⟨n, rfl⟩
  · exact .inl rfl
  · exact .inr ⟨n - 1, rfl⟩

variable {P : String → Prop} {item : String} {low high : Json} {e : String}

/-- A repetition is the item with counts behind it, or nothing. -/
theorem isText_repetition (hitem : IsText P item) (hlow : IsCount low) (hhigh : IsCount high)
    (h : repetition item low high = .ok e) :
    IsText P e ∧ ∀ c ∈ e.toList.getLast?, Text.isBlank c = false := by
  unfold repetition at h
  obtain ⟨_, -, h⟩ := Work.except_bind_eq_ok.1 h
  dsimp only at h
  have hmark (mark : Char) (hmark : mark ∈ ['?', '*', '+'])
      (he : item ++ String.ofList [mark] = e) :
      IsText P e ∧ ∀ c ∈ e.toList.getLast?, Text.isBlank c = false := by
    have hall : ∀ c ∈ ['?', '*', '+'], Text.isBlank c = false := by decide
    subst he
    refine ⟨IsText.mark hitem hmark, fun c hc => ?_⟩
    obtain rfl : mark = c := by simpa using hc
    exact hall mark hmark
  have hcounts (most : String) (hout : '\x7d' ∉ most.toList)
      (he : item ++ "\x7b" ++ low.shown ++ "," ++ most ++ "\x7d" = e) :
      IsText P e ∧ ∀ c ∈ e.toList.getLast?, Text.isBlank c = false := by
    have hbraces : IsFirm P ("\x7b" ++ (low.shown ++ "," ++ most) ++ "\x7d") := by
      refine isFirm_braces ?_
      simpa using ⟨hlow.shown, hout⟩
    have htext : e = item ++ ("\x7b" ++ (low.shown ++ "," ++ most) ++ "\x7d") := by
      rw [← he]
      simp [String.append_assoc]
    refine ⟨htext ▸ hitem.append_firm hbraces.text hbraces.starts, fun c hc => ?_⟩
    rw [← he, String.toList_append, show "\x7d".toList = ['\x7d'] from rfl,
      List.getLast?_concat] at hc
    obtain rfl : '\x7d' = c := Option.some.inj hc
    decide
  split_ifs at h with h0 h1 h2 h3 h4
  · obtain rfl := Except.ok.inj h
    exact ⟨isText_empty, by decide⟩
  · exact hmark '?' (by decide) (Except.ok.inj h)
  · exact hmark '+' (by decide) (Except.ok.inj h)
  · exact hmark '*' (by decide) (Except.ok.inj h)
  · exact hcounts "" (by decide) (Except.ok.inj h)
  · exact hcounts high.shown hhigh.shown (Except.ok.inj h)

theorem isText_separatedRepetition {sep : String} (hitem : IsText P item) (hsep : IsText P sep)
    (hlast : ∀ c ∈ item.toList.getLast?, Text.isBlank c = false) (hlow : IsCount low)
    (hhigh : IsCount high) (h : separatedRepetition item sep low high = .ok e) : IsText P e := by
  unfold separatedRepetition at h
  obtain ⟨_, -, h⟩ := Work.except_bind_eq_ok.1 h
  dsimp only at h
  by_cases h0 : high.isNumber 0 = true
  · rw [if_pos h0] at h
    obtain rfl := Except.ok.inj h
    exact isText_empty
  rw [if_neg h0] at h
  by_cases h1 : (low.isNumber 0 && high.isNumber 1) = true
  · rw [if_pos h1] at h
    obtain rfl := Except.ok.inj h
    have hmark : '?' ∈ ['?', '*', '+'] := by decide
    exact IsText.mark hitem hmark
  · rw [if_neg h1] at h
    obtain ⟨above, -, h⟩ := Work.except_bind_eq_ok.1 h
    generalize hfewer : (if above = true then countPred low else .num (.whole 0)) = fewer at h
    have hcount : IsCount fewer := by
      rw [← hfewer]
      split_ifs
      · exact hlow.pred
      · exact .inr ⟨0, rfl⟩
    obtain ⟨rest, hrest, h⟩ := Work.except_bind_eq_ok.1 h
    have hpair : IsText P (sep ++ " " ++ item) :=
      (hsep.append_firm isFirm_blank.text (by decide)).firm_append hitem
        (endsFirm_append (by decide) (by decide))
    have hgroup : IsText P ("(" ++ sep ++ " " ++ item ++ ")") := by
      have hfirm := IsText.group hpair
      simpa only [String.append_assoc] using hfirm.text
    obtain ⟨hmore, hend⟩ := isText_repetition hgroup hcount hhigh.pred hrest
    have hall : IsText P (Text.dropTrailingBlanks (item ++ " " ++ rest)) := by
      rw [dropTrailingBlanks_beside hlast hend]
      split_ifs
      · exact hitem
      · exact (hitem.append_firm isFirm_blank.text (by decide)).firm_append hmore
          (endsFirm_append (by decide) (by decide))
    split_ifs at h
    · have hmark : IsText P ")?" := isText_of_lexes [] (by decide) (by simp)
      have hopen : IsText P "(" := isText_of_lexes [] (by decide) (by simp)
      obtain rfl := Except.ok.inj h
      exact hopen.between hall hmark (by decide) (by decide)
    · obtain rfl := Except.ok.inj h
      exact hall

end Grammar

/-! ## Ranges of integers -/

namespace IntRange

variable {P : String → Prop}

theorem isFirm_digitRange {a b : Char} (ha : IsPlain a) (hb : IsPlain b) :
    IsFirm P (digitRange a b) := by
  have hclass (cs : List Char) (h : ∀ c ∈ cs, c ≠ ']' ∧ c ≠ '\\') : Enclosed ']' cs := by
    induction cs with
    | nil => exact .nil
    | cons c rest ih =>
      obtain ⟨hclose, hescape⟩ := h c (by simp)
      exact .plain hclose hescape (ih fun d hd => h d (List.mem_cons_of_mem _ hd))
  rw [digitRange]
  split_ifs with hab
  · have hone : Enclosed ']' [a] := hclass _ (by simpa using ⟨ha.noClose, ha.noEscape⟩)
    exact isFirm_charClass hone
  · have htext : "[" ++ a.toString ++ "-" ++ b.toString ++ "]" =
        "[" ++ String.ofList [a, '-', b] ++ "]" := by
      rw [← String.toList_inj]
      simp
    rw [htext]
    refine isFirm_charClass (hclass _ ?_)
    simpa using ⟨⟨ha.noClose, ha.noEscape⟩, hb.noClose, hb.noEscape⟩

/-- The text of a number stays inside braces. -/
theorem notMem_text (x : Number) : '\x7d' ∉ x.text.toList := by
  have hdigits (n : Nat) : '\x7d' ∉ Nat.toDigits 10 n := Text.notMem_toDigits rfl
  have hmagnitude (m : Nat) (e : Int) : '\x7d' ∉ Double.magnitudeText m e := by
    unfold Double.magnitudeText
    split_ifs
    · decide
    · generalize hds : Double.dropTrailingZeros (Nat.toDigits 10 (Double.shortest m e).digits) = ds
      have hout : '\x7d' ∉ ds := by
        rw [← hds, Double.dropTrailingZeros, List.mem_reverse]
        intro hmem
        exact hdigits _ (List.mem_reverse.1 ((List.dropWhile_sublist _).subset hmem))
      dsimp only
      rw [hds]
      split_ifs
      · unfold Double.positional
        split_ifs
        · simp [List.mem_replicate, hout]
        · simp only [List.mem_append, List.mem_cons, not_or]
          exact ⟨fun h => hout (List.mem_of_mem_take h), by decide,
            fun h => hout (List.mem_of_mem_drop h)⟩
        · simp [List.mem_replicate, hout]
      · unfold Double.scientific
        dsimp only
        have hsize (n : Nat) : '\x7d' ∉ (if (Nat.toDigits 10 n).length < 2 then
            '0' :: Nat.toDigits 10 n else Nat.toDigits 10 n) := by
          split_ifs
          · simpa using hdigits n
          · exact hdigits n
        have hsign (i : Int) : '\x7d' ≠ (if i < 0 then '-' else '+') := by
          split_ifs <;> decide
        simp only [List.mem_append, List.mem_cons, not_or]
        refine ⟨?_, by decide, hsign _, hsize _⟩
        split
        · decide
        · exact hout
        · simpa using hout
  cases x with
  | whole n => exact Grammar.notMem_intText n
  | double x =>
    have hsigned (negative : Bool) (s : String) (h : '\x7d' ∉ s.toList) :
        '\x7d' ∉ (Double.signed negative s).toList := by
      unfold Double.signed
      split_ifs
      · simpa using h
      · exact h
    cases x with
    | nan => decide
    | infinite negative => exact hsigned negative _ (by decide)
    | finite negative m e => exact hsigned negative _ (by simpa using hmagnitude m e)

theorem isFirm_anyDigits (count : Nat) : IsFirm P (anyDigits count) := by
  have hdigit : IsFirm P "[0-9]" :=
    isFirm_of_lexes [] (by decide) (by simp) (by decide) (by decide)
  rw [anyDigits]
  split_ifs with hone
  · exact hdigit
  · have hcounts : IsFirm P ("\x7b" ++ natText count ++ "\x7d") :=
      isFirm_braces (Grammar.notMem_natText rfl)
    have htext : "[0-9]\x7b" ++ natText count ++ "\x7d" =
        "[0-9]" ++ ("\x7b" ++ natText count ++ "\x7d") := by
      rw [← String.toList_inj]
      simp
    rw [htext]
    exact hdigit.append hcounts

theorem isFirm_moreDigits {least : Nat} {most : Number} {e : String}
    (h : moreDigits least most = .ok e) : IsFirm P e := by
  obtain ⟨-, rfl⟩ | ⟨-, rfl⟩ := moreDigits_eq_ok h
  · exact isFirm_anyDigits least
  · have hcounts : IsFirm P ("\x7b" ++ (natText least ++ "," ++ most.text) ++ "\x7d") := by
      refine isFirm_braces ?_
      simpa using ⟨Grammar.notMem_natText rfl, notMem_text most⟩
    have htext : "[0-9]\x7b" ++ natText least ++ "," ++ most.text ++ "\x7d" =
        "[0-9]" ++ ("\x7b" ++ (natText least ++ "," ++ most.text) ++ "\x7d") := by
      rw [← String.toList_inj]
      simp
    rw [htext]
    exact (isFirm_of_lexes [] (by decide) (by simp) (by decide) (by decide)).append hcounts

theorem isFirm_quotedDigits {ds : List Char} (h : AreDigits ds) : IsFirm P (quotedDigits ds) := by
  refine isFirm_quoted ?_
  induction ds with
  | nil => exact .nil
  | cons d rest ih =>
    have hall : ∀ d ∈ Text.asciiDigits, d ≠ '"' ∧ d ≠ '\\' := by decide
    obtain ⟨hquote, hslash⟩ := hall d (Text.mem_asciiDigits (h d (by simp)))
    exact .plain hquote hslash (ih fun c hc => h c (List.mem_cons_of_mem _ hc))

theorem isFirm_behind {lead : List Char} {e : String} (hlead : AreDigits lead)
    (h : IsFirm P e) : IsFirm P (behind lead e) := by
  rw [behind]
  split_ifs
  · exact h
  · exact ((isFirm_quotedDigits hlead).append isFirm_blank).append h

theorem isFirm_uniformFrom (lead as bs : List Char) (hlead : AreDigits lead)
    (has : AreDigits as) (hbs : AreDigits bs) : IsFirm P (uniformFrom lead as bs) := by
  induction lead, as, bs using uniformFrom.induct with
  | case1 lead as b bs ih =>
    rw [uniformFrom, if_pos rfl]
    refine ih ?_ (fun d hd => has d (by simp [hd])) (fun d hd => hbs d (by simp [hd]))
    intro d hd
    rcases List.mem_append.1 hd with hd | hd
    · exact hlead d hd
    · exact has d (by simpa using Or.inl (List.mem_singleton.1 hd))
  | case2 lead a as b bs hab hempty =>
    rw [uniformFrom, if_neg hab, if_pos hempty]
    have ha := isPlain_of_isDigit (has a (by simp))
    have hb := isPlain_of_isDigit (hbs b (by simp))
    exact isFirm_behind hlead (isFirm_digitRange ha.1 hb.1)
  | case3 lead a as b bs hab hempty rest ihzeros ihnines =>
    have ha := isPlain_of_isDigit (has a (by simp))
    have hb := isPlain_of_isDigit (hbs b (by simp))
    have has' : AreDigits as := fun d hd => has d (by simp [hd])
    have hbs' : AreDigits bs := fun d hd => hbs d (by simp [hd])
    have hany : IsFirm P (anyDigits as.length) := isFirm_anyDigits _
    have hbelow := ihzeros (by simp [AreDigits]) (areDigits_zeros _) hbs'
    have habove := ihnines (by simp [AreDigits]) has' (areDigits_nines _)
    have hhighest := ((isFirm_bar.append (isFirm_digitRange hb.1 hb.1)).append isFirm_blank).append
      hbelow
    have hlowest : IsFirm P (digitRange a a ++ " (" ++ uniformFrom [] as (nines as.length) ++ ")") := by
      have hgroup := ((isFirm_digitRange ha.1 ha.1).append isFirm_blank).append
        (IsText.group habove.text)
      have htext (e : String) : digitRange a a ++ " (" ++ e ++ ")" =
          digitRange a a ++ " " ++ ("(" ++ e ++ ")") := by
        rw [← String.toList_inj]
        simp
      rw [htext]
      exact hgroup
    have hbetween (c d : Char) (hc : IsPlain c) (hd : IsPlain d) :=
      ((isFirm_digitRange (P := P) hc hd).append isFirm_blank).append hany
    rw [uniformFrom, if_neg hab, if_neg hempty]
    refine isFirm_behind hlead (IsText.group ?_)
    dsimp only
    split_ifs
    · exact ((hbetween a _ ha.1 hb.2.2).append hhighest).text
    · have h := (hlowest.append isFirm_bar).append (hbetween _ b ha.2.1 hb.1)
      simpa only [String.append_assoc] using h.text
    · have h := ((hlowest.append isFirm_bar).append (hbetween _ _ ha.2.1 hb.2.2)).append hhighest
      simpa only [String.append_assoc] using h.text
    · exact (hlowest.append hhighest).text
  | case4 lead as bs hother =>
    unfold uniformFrom
    split
    · exact absurd rfl (hother _ _ _ _ rfl)
    · exact isFirm_quotedDigits hlead

theorem isFirm_uniform {low high : List Char} (hlow : AreDigits low) (hhigh : AreDigits high) :
    IsFirm P (uniform low high) :=
  isFirm_uniformFrom [] low high (by simp [AreDigits]) hlow hhigh

theorem isFirm_bandsFrom {high : List Char} (hhigh : AreDigits high) (longer : Nat)
    {low : List Char} (hlow : AreDigits low) : ∀ e ∈ bandsFrom high longer low, IsFirm P e := by
  induction longer generalizing low with
  | zero => simpa [bandsFrom] using isFirm_uniform hlow hhigh
  | succ longer ih =>
    have hnext : AreDigits ('1' :: zeros low.length) := by
      intro d hd
      rcases List.mem_cons.1 hd with rfl | hd
      · rfl
      · exact areDigits_zeros _ d hd
    intro e he
    rcases List.mem_cons.1 he with rfl | he
    · exact isFirm_uniform hlow (areDigits_nines low.length)
    · exact ih hnext e he

theorem isFirm_naturals (low high : Nat) : IsFirm P (naturals low high) :=
  isFirm_intercalate isFirm_bar
    (isFirm_bandsFrom (areDigits_digitsOf high) _ (areDigits_digitsOf low))

theorem isFirm_negated {e : String} (h : IsFirm P e) : IsFirm P (negated e) := by
  have hminus : IsFirm P "\"-\" " :=
    isFirm_of_lexes [] (by decide) (by simp) (by decide) (by decide)
  have hfirm := hminus.append (IsText.group h.text)
  have htext : negated e = "\"-\" " ++ ("(" ++ e ++ ")") := by
    rw [← String.toList_inj]
    simp [negated]
  rw [htext]
  exact hfirm

theorem isFirm_between (low high : Int) : IsFirm P (between low high) := by
  rw [between]
  split_ifs
  · exact isFirm_negated (isFirm_naturals _ _)
  · exact ((isFirm_negated (isFirm_naturals _ _)).append isFirm_bar).append (isFirm_naturals _ _)
  · exact isFirm_naturals _ _

theorem isFirm_naturalsFrom {ceiling : Number} {low : Nat} {e : String}
    (h : naturalsFrom ceiling low = .ok e) : IsFirm P e := by
  have hown : IsFirm P (uniform (digitsOf low) (nines (digitsOf low).length)) :=
    isFirm_uniform (areDigits_digitsOf low) (areDigits_nines _)
  have hfirst : IsFirm P " | [1-9] " :=
    isFirm_of_lexes [] (by decide) (by simp) (by decide) (by decide)
  obtain ⟨-, more, hmore, rfl⟩ | ⟨-, rfl⟩ := naturalsFrom_eq_ok h
  · exact (hown.append hfirst).append (isFirm_moreDigits hmore)
  · exact hown

/-- A range of integers is a row of tokens, whatever its ceiling is. -/
theorem isFirm_expression {low high : Option Int} {maxDigits : Number} {e : String}
    (h : expression low high maxDigits = .ok e) : IsFirm P e := by
  have hfirst : IsFirm P "\"-\" [1-9] " :=
    isFirm_of_lexes [] (by decide) (by simp) (by decide) (by decide)
  obtain ⟨-, -, hwritten⟩ := expression_eq_ok h
  cases hwritten with
  | from_ hside =>
    obtain ⟨-, rest, hrest, rfl⟩ | ⟨-, hrest⟩ := atLeast_eq_ok hside
    · exact ((isFirm_negated (isFirm_naturals _ _)).append isFirm_bar).append
        (isFirm_naturalsFrom hrest)
    · exact isFirm_naturalsFrom hrest
  | upTo hside =>
    obtain ⟨-, rest, hrest, rfl⟩ | ⟨-, more, hmore, rfl⟩ := atMost_eq_ok hside
    · exact isFirm_negated (isFirm_naturalsFrom hrest)
    · exact ((hfirst.append (isFirm_moreDigits hmore)).append isFirm_bar).append
        (isFirm_naturals _ _)
  | between _ he =>
    subst he
    exact isFirm_between _ _

end IntRange

/-! ## Strings that differ from given ones -/

namespace Exclusion

section Pieces

variable {P : String → Prop}

/-- What can be written over any rules is a row of tokens without names. -/
theorem isText_of_isItem {e : String} (h : ∀ t : RuleTable, t.IsItem e) : IsText P e := by
  obtain ⟨L, node, hwritten, -⟩ := h ⟨[], []⟩
  exact hwritten.lexed.mono fun name hname => by simp [RuleTable.Knows, RuleTable.has,
    RuleTable.find?] at hname

/-- A class that can be written over any rules. -/
theorem isFirm_of_isItem {a b : String} (h : ∀ t : RuleTable, t.IsItem (a ++ b ++ "]"))
    (hstarts : StartsFirm a) (hne : a ≠ "") : IsFirm P (a ++ b ++ "]") := by
  refine ⟨isText_of_isItem h, ?_, endsFirm_append (by decide) (by decide)⟩
  rw [String.append_assoc]
  exact startsFirm_append hstarts hne

theorem isFirm_classText (cs : List Char) : IsFirm P ("[" ++ classText cs ++ "]") :=
  isFirm_of_isItem (fun t => ⟨_, writesItem_classText t cs⟩) (by decide) (by decide)

theorem isFirm_hexTimes (count : Nat) : IsFirm P (hexTimes count) := by
  have hclass : IsFirm P Builtin.hex :=
    isFirm_of_lexes [] (by decide) (by simp) (by decide) (by decide)
  have hcounts : IsFirm P ("\x7b" ++ natText count ++ "\x7d") :=
    isFirm_braces (Grammar.notMem_natText rfl)
  simpa only [hexTimes, Builtin.times, String.append_assoc] using hclass.append hcounts

end Pieces

section Trie

variable {P : String → Prop} {char : String} (hchar : IsText P char)

include hchar

/-- Any number of characters behind a piece. -/
theorem isFirm_many {a : String} (ha : IsFirm P a) {sign : String} (hsign : sign ∈ ["*", "+"]) :
    IsFirm P (a ++ " " ++ char ++ sign) := by
  have hall : ∀ sign ∈ ["*", "+"], IsFirm P sign ∧ sign ≠ "" := by
    intro sign hmem
    simp only [List.mem_cons, List.not_mem_nil, or_false] at hmem
    rcases hmem with rfl | rfl <;>
      exact ⟨isFirm_of_lexes [] (by decide) (by simp) (by decide) (by decide), by decide⟩
  obtain ⟨hfirm, hne⟩ := hall sign hsign
  have hfront := ha.append isFirm_blank
  refine ⟨(hfront.text.firm_append hchar hfront.ends).append_firm hfirm.text hfirm.starts, ?_,
    endsFirm_append hfirm.ends hne⟩
  rw [String.append_assoc]
  exact startsFirm_append hfront.starts (by simp)

theorem isFirm_leaving (place : Place) (edges : List Char) :
    ∀ e ∈ leaving place edges char, IsFirm P e := by
  have hnumber : IsFirm P ("\"u\" " ++ hexTimes 4) := by
    have hletter : IsFirm P "\"u\" " :=
      isFirm_of_lexes [] (by decide) (by simp) (by decide) (by decide)
    exact hletter.append (isFirm_hexTimes 4)
  have hstar : "*" ∈ ["*", "+"] := by decide
  cases place with
  | boundary =>
    have hraw : IsFirm P ("[^" ++ (neverRaw ++ classText edges) ++ "]") := by
      refine isFirm_of_isItem (fun t => ?_) (by decide) (by decide)
      have hitem : t.IsItem _ := ⟨_, writesItem_raw t edges⟩
      simpa only [String.append_assoc] using hitem
    have hescape : IsFirm P ("[\\\\] ([\"\\\\bfnrt] | " ++ ("\"u\" " ++ hexTimes 4) ++ ")") := by
      have hopen : IsFirm P "[\\\\] ([\"\\\\bfnrt] | " :=
        isFirm_of_lexes [] (by decide) (by simp) (by decide) (by decide)
      have hclose : IsFirm P ")" :=
        isFirm_of_lexes [] (by decide) (by simp) (by decide) (by decide)
      exact (hopen.append hnumber).append hclose
    have htext : "[^" ++ neverRaw ++ classText edges ++ "] " ++ char ++ "*" =
        "[^" ++ (neverRaw ++ classText edges) ++ "]" ++ " " ++ char ++ "*" := by
      rw [← String.toList_inj]
      simp
    have htext' : "[\\\\] ([\"\\\\bfnrt] | \"u\" " ++ hexTimes 4 ++ ") " ++ char ++ "*" =
        "[\\\\] ([\"\\\\bfnrt] | " ++ ("\"u\" " ++ hexTimes 4) ++ ")" ++ " " ++ char ++ "*" := by
      rw [← String.toList_inj]
      simp
    have hraw' := isFirm_many hchar hraw hstar
    have hescape' := isFirm_many hchar hescape hstar
    rw [leaving, htext, htext']
    split_ifs
    · simpa using hraw'
    · simpa using ⟨hraw', hescape'⟩
  | escape =>
    have htext (cs : List Char) : "[" ++ classText cs ++ "] " ++ char ++ "*" =
        "[" ++ classText cs ++ "]" ++ " " ++ char ++ "*" := by
      rw [← String.toList_inj]
      simp
    rw [leaving, htext]
    intro e he
    rcases List.mem_append.1 he with he | he
    · split_ifs at he
      · simp at he
      · rw [List.mem_singleton.1 he]
        exact isFirm_many hchar (isFirm_classText _) hstar
    · split_ifs at he
      · simp at he
      · rw [List.mem_singleton.1 he]
        exact isFirm_many hchar hnumber hstar
  | digits missing =>
    have hplain : IsFirm P ("[" ++ String.ofList (hexLetters.filter fun c => !edges.contains c)
        ++ "]") :=
      isFirm_of_isItem (fun t => ⟨_, writesItem_hexLetters t fun c hc => List.mem_of_mem_filter hc⟩)
        (by decide) (by decide)
    rw [leaving]
    intro e he
    dsimp only at he
    split_ifs at he with hnone hmissing
    · simp at he
    · rw [List.mem_singleton.1 he]
      have hrest := (hplain.append isFirm_blank).append (isFirm_hexTimes (missing - 1))
      have h := isFirm_many hchar hrest hstar
      simpa only [String.append_assoc] using h
    · rw [List.mem_singleton.1 he]
      have h := isFirm_many hchar hplain hstar
      simpa only [String.append_assoc, String.append_empty, String.empty_append] using h

mutual

theorem isFirm_branches (place : Place) : ∀ trie : Trie, IsFirm P (branches char place trie)
  | .node ends kids => by
    rw [branches]
    refine isFirm_intercalate isFirm_bar fun e he => ?_
    rcases List.mem_append.1 he with he | he
    · obtain ⟨x, hx, rfl⟩ := List.mem_map.1 he
      have hperm := List.mergeSort_perm (edgeBranches char place kids) fun a b => decide (a.1 ≤ b.1)
      exact isFirm_edgeBranches place kids x (hperm.mem_iff.1 hx)
    · exact isFirm_leaving hchar place _ e he

theorem isFirm_edgeBranches (place : Place) :
    ∀ kids : List (Char × Trie), ∀ x ∈ edgeBranches char place kids, IsFirm P x.2
  | [] => by simp [edgeBranches]
  | (c, kid) :: rest => by
    intro x hx
    rw [edgeBranches] at hx
    rcases List.mem_cons.1 hx with rfl | hx
    · have htaken : IsFirm P ("[" ++ classText [c] ++ "]") := isFirm_classText [c]
      have hinner := IsText.group (isFirm_branches (place.next c) kid).text
      have hgroup (mark : String) (hmark : IsFirm P mark) :
          IsFirm P ("[" ++ classText [c] ++ "]" ++ " (" ++ branches char (place.next c) kid ++ ")"
            ++ mark) := by
        have htext (e : String) : "[" ++ classText [c] ++ "]" ++ " (" ++ e ++ ")" ++ mark =
            "[" ++ classText [c] ++ "]" ++ " " ++ ("(" ++ e ++ ")") ++ mark := by
          rw [← String.toList_inj]
          simp
        rw [htext]
        exact ((htaken.append isFirm_blank).append hinner).append hmark
      dsimp only
      split_ifs
      · exact isFirm_many hchar htaken (by decide)
      · exact htaken
      · exact hgroup "?" (isFirm_of_lexes [] (by decide) (by simp) (by decide) (by decide))
      · exact hgroup "" ⟨isText_empty, by decide, by decide⟩
    · exact isFirm_edgeBranches place rest x hx

end

/-- The expression for any string but those of a trie is a row of tokens. -/
theorem isText_body (hspace : P "space") (trie : Trie) : IsText P (body char trie) := by
  have hquote : IsFirm P "[\"]" := isFirm_of_lexes [] (by decide) (by simp) (by decide) (by decide)
  have hend : IsText P " [\"] space" := isText_of_lexes ["space"] (by decide) (by simpa using hspace)
  have hopen : IsText P "[\"] ( " := isText_of_lexes [] (by decide) (by simp)
  have hbranches := isFirm_branches hchar .boundary trie
  have hclose : IsFirm P " )" := isFirm_of_lexes [] (by decide) (by simp) (by decide) (by decide)
  have hchars (sign : String) (hsign : sign ∈ ["*", "+"]) :
      IsText P ("[\"] " ++ char ++ sign ++ " [\"] space") :=
    (isFirm_many hchar hquote hsign).text.append_firm hend (by decide)
  have hgroup (mark : String) (hmark : IsFirm P mark) :
      IsText P ("[\"] ( " ++ branches char .boundary trie ++ " )" ++ mark ++ " [\"] space") := by
    have hfront := hopen.firm_append hbranches.text (by decide)
    exact ((hfront.append_firm hclose.text hclose.starts).append_firm hmark.text
      hmark.starts).append_firm hend (by decide)
  rw [body]
  split_ifs
  · exact hchars "+" (by decide)
  · exact hchars "*" (by decide)
  · exact hgroup "" ⟨isText_empty, by decide, by decide⟩
  · exact hgroup "?" (isFirm_of_lexes [] (by decide) (by simp) (by decide) (by decide))

end Trie

end Exclusion

end SchemaGrammar
