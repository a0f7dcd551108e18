import SchemaGrammar.Grammar.Repetition
import SchemaGrammar.Proofs.Rules.Expression

set_option autoImplicit false

/-! # Counted repetition is exact

The expressions for counted items, with or without a separator, have the languages that their
counts say. Counts are naturals; no greatest count is null. One that no numeral can hold is not
written (`repetition_eq`). How items and rows are written is left open: it is enough that they can be
put together (`Composes`), as the texts over a table can (`composes_writes`). -/

namespace SchemaGrammar

namespace Grammar

/-! ## Counts as text -/

theorem toList_natText (n : Nat) : (natText n).toList = Nat.toDigits 10 n :=
  String.toList_ofList

/-- A natural is small enough to be written in digits, and read back from them. -/
def IsWritable (n : Nat) : Prop :=
  n < 10 ^ Text.maxNumeralDigits

theorem length_toDigits_le_iff {n : Nat} :
    (Nat.toDigits 10 n).length ≤ Text.maxNumeralDigits ↔ IsWritable n :=
  Nat.length_toDigits_le_iff (by decide) (by decide)

instance : DecidablePred IsWritable :=
  fun _ => decidable_of_iff _ length_toDigits_le_iff

theorem isWritable_whole (n : Int) : (Number.whole n).isWritable = decide (IsWritable n.natAbs) :=
  decide_eq_decide.2 length_toDigits_le_iff

theorem isWritable_of_lt {n : Nat} (h : n < 100) : IsWritable n :=
  calc n < 10 ^ 2 := h
    _ ≤ 10 ^ Text.maxNumeralDigits := Nat.pow_le_pow_right (by decide) (by decide)

theorem notMem_natText {n : Nat} {c : Char} (hc : c.isDigit = false) :
    c ∉ (natText n).toList := by
  rw [toList_natText]
  exact Text.notMem_toDigits hc

theorem trim_natText (n : Nat) : Text.trim (natText n).toList = (natText n).toList := by
  rw [toList_natText]
  exact Text.trim_digits fun _ hd => Text.isDigit_of_mem_toDigits hd

theorem readInt?_natText {n : Nat} (h : IsWritable n) :
    Text.readInt? 10 (natText n).toList = some (n : Int) := by
  rw [toList_natText]
  exact Text.readInt?_toDigits h

theorem counted_exactly {n : Nat} (h : IsWritable n) :
    Counted ("\x7b" ++ natText n ++ "\x7d").toList n (some n) := by
  have htext : ("\x7b" ++ natText n ++ "\x7d").toList =
      '\x7b' :: ((natText n).toList ++ ['\x7d']) := by simp
  rw [htext]
  refine .braces (notMem_natText (by decide)) ?_
  rw [countsOf, Text.splitAt_of_notMem (notMem_natText (by decide))]
  simp [trim_natText, readInt?_natText h]

theorem counted_atLeast {n : Nat} (h : IsWritable n) :
    Counted ("\x7b" ++ natText n ++ ",\x7d").toList n none := by
  have htext : ("\x7b" ++ natText n ++ ",\x7d").toList =
      '\x7b' :: ((natText n).toList ++ [','] ++ ['\x7d']) := by simp
  rw [htext]
  refine .braces (by simp [notMem_natText]) ?_
  rw [countsOf, Text.splitAt_append (notMem_natText (by decide))]
  have htrim : Text.trim [] = [] := rfl
  simp [trim_natText, readInt?_natText h, Text.splitAt, htrim]

theorem natText_ne_nil (n : Nat) : (natText n).toList ≠ [] := by
  rw [toList_natText]
  exact Nat.toDigits_ne_nil

theorem counted_between {n m : Nat} (hn : IsWritable n) (hm : IsWritable m) :
    Counted ("\x7b" ++ natText n ++ "," ++ natText m ++ "\x7d").toList n (some m) := by
  have htext : ("\x7b" ++ natText n ++ "," ++ natText m ++ "\x7d").toList =
      '\x7b' :: ((natText n).toList ++ ',' :: (natText m).toList ++ ['\x7d']) := by simp
  rw [htext]
  refine .braces (by simp [notMem_natText]) ?_
  obtain ⟨c, cs, hcs⟩ := List.exists_cons_of_ne_nil (natText_ne_nil m)
  have hread := readInt?_natText hm
  have htrim := trim_natText m
  rw [countsOf, Text.splitAt_append (notMem_natText (by decide)),
    Text.splitAt_of_notMem (notMem_natText (by decide))]
  rw [hcs] at hread htrim ⊢
  simp [trim_natText, readInt?_natText hn, htrim, hread]

/-! ## Counts as values -/

/-- A greatest count as a keyword holds it; none is null. -/
def highCount : Option Nat → Json
  | none => .null
  | some n => .num (.whole n)

/-- A least count as a keyword holds it. -/
def lowCount (n : Nat) : Json :=
  .num (.whole n)

theorem isWritable_lowCount (n : Nat) : (lowCount n).isWritable = decide (IsWritable n) :=
  isWritable_whole n

theorem isWritable_highCount (high : Option Nat) :
    (highCount high).isWritable = decide (∀ n ∈ high, IsWritable n) := by
  cases high with
  | none => rfl
  | some n =>
    rw [highCount, Json.isWritable, isWritable_whole]
    simp

theorem isNumber_lowCount (n m : Nat) : (lowCount n).isNumber m = decide (n = m) := by
  rw [Bool.eq_iff_iff]
  simp [lowCount, Json.isNumber, Json.number?, Number.same, Number.rank]

theorem less_lowCount (n m : Nat) : (lowCount n).less (lowCount m) = .ok (decide (n < m)) := by
  simp [lowCount, Json.less, Number.lt, Number.rank]

theorem checkCounts_eq (low : Nat) (high : Option Nat) :
    checkCounts (lowCount low) (highCount high) =
      if ∀ most ∈ high, low ≤ most then .ok ()
      else .error (.count (.ofCounts (lowCount low) (highCount high))) := by
  cases high with
  | none => simp [highCount, checkCounts]
  | some most =>
    have hless : (Json.num (.whole most)).less (lowCount low) = .ok (decide (most < low)) :=
      less_lowCount most low
    have hcheck : checkCounts (lowCount low) (highCount (some most)) =
        if decide (most < low) then
          .error (.count (.ofCounts (lowCount low) (highCount (some most))))
        else .ok () := by
      simp only [checkCounts, countAbove, hless, highCount]
      rfl
    rw [hcheck]
    by_cases h : most < low
    · simp [h]
    · simp [h, Nat.le_of_not_lt h]

/-! ## Languages of counted items -/

/-- From `low` to `high` texts of a language, with a text of `sep` between each two. -/
def listed (sep : Language Char) (low : Nat) (high : Option Nat) (L : Language Char) :
    Language Char :=
  {text | ∃ count, low ≤ count ∧ (∀ most ∈ high, count ≤ most) ∧
    text ∈ separated sep (List.replicate count L)}

theorem mem_listed {sep L : Language Char} {low : Nat} {high : Option Nat} {text : List Char} :
    text ∈ listed sep low high L ↔ ∃ count, low ≤ count ∧ (∀ most ∈ high, count ≤ most) ∧
      text ∈ separated sep (List.replicate count L) :=
  Iff.rfl

theorem separated_replicate_succ (sep L : Language Char) (count : Nat) :
    separated sep (List.replicate (count + 1) L) = L * (sep * L) ^ count := by
  induction count with
  | zero => simp [separated]
  | succ count ih =>
    rw [List.replicate_succ, List.replicate_succ, separated, ← List.replicate_succ, ih, pow_succ',
      mul_assoc, mul_assoc]

/-- A first item, and the others each behind a separator. -/
theorem mul_repeated {sep L : Language Char} (low : Nat) {high : Option Nat}
    (hhigh : ∀ most ∈ high, 0 < most) :
    L * repeated (low - 1) (high.map (· - 1)) (sep * L) = listed sep (max low 1) high L := by
  ext text
  rw [Language.mem_mul, mem_listed]
  constructor
  · rintro ⟨front, hfront, back, ⟨count, hlow, hmost, hback⟩, rfl⟩
    refine ⟨count + 1, by omega, fun most hm => ?_, ?_⟩
    · have hle := hmost (most - 1) (Option.mem_map_of_mem _ hm)
      have hpos := hhigh most hm
      omega
    · rw [separated_replicate_succ]
      exact Language.append_mem_mul hfront hback
  · rintro ⟨count, hlow, hmost, htext⟩
    obtain ⟨count, rfl⟩ : ∃ n, count = n + 1 := ⟨count - 1, by omega⟩
    rw [separated_replicate_succ, Language.mem_mul] at htext
    obtain ⟨front, hfront, back, hback, rfl⟩ := htext
    refine ⟨front, hfront, back, ⟨count, by omega, fun most hm => ?_, hback⟩, rfl⟩
    obtain ⟨m, hmem, rfl⟩ := Option.mem_map.1 hm
    have hle := hmost m hmem
    omega

theorem one_add_listed (sep L : Language Char) (high : Option Nat) :
    1 + listed sep 1 high L = listed sep 0 high L := by
  ext text
  rw [Language.mem_add, mem_listed, mem_listed]
  constructor
  · rintro (htext | ⟨count, -, hmost, htext⟩)
    · exact ⟨0, le_rfl, by simp, htext⟩
    · exact ⟨count, by omega, hmost, htext⟩
  · rintro ⟨count, -, hmost, htext⟩
    rcases Nat.eq_zero_or_pos count with rfl | hpos
    · exact .inl htext
    · exact .inr ⟨count, hpos, hmost, htext⟩

/-! ## Expressions for counted items -/

theorem shown_lowCount (n : Nat) : (lowCount n).shown = natText n := by
  simp [lowCount, Json.shown, Json.shownQuoted, Number.text, intText]

theorem isNumber_highCount_some (n m : Nat) : (highCount (some n)).isNumber m = decide (n = m) :=
  isNumber_lowCount n m

/-- The expression for counted items, by its counts. -/
theorem repetition_eq (item : String) (low : Nat) (high : Option Nat) :
    repetition item (lowCount low) (highCount high) =
      if ∀ most ∈ high, low ≤ most then
        (if high = some 0 then .ok ""
        else if low = 0 ∧ high = some 1 then .ok (item ++ "?")
        else if low = 1 ∧ high = none then .ok (item ++ "+")
        else if low = 0 ∧ high = none then .ok (item ++ "*")
        else if IsWritable low ∧ ∀ most ∈ high, IsWritable most then
          .ok (item ++ "\x7b" ++ natText low ++ "," ++ (high.map natText).getD "" ++ "\x7d")
        else .error (.count .tooManyDigits))
      else .error (.count (.ofCounts (lowCount low) (highCount high))) := by
  have hlow (m : Nat) : (lowCount low).isNumber m = decide (low = m) := isNumber_lowCount low m
  have hzero := hlow 0
  have hone := hlow 1
  have hwritable (x y : Except Failure String) :
      (if !((lowCount low).isWritable && (highCount high).isWritable) then x else y) =
        if IsWritable low ∧ ∀ most ∈ high, IsWritable most then y else x := by
    rw [isWritable_lowCount, isWritable_highCount, ← Bool.decide_and]
    split_ifs <;> simp_all
  unfold repetition
  rw [checkCounts_eq]
  simp only [pure, Except.pure, hwritable]
  by_cases hle : ∀ most ∈ high, low ≤ most
  · rw [if_pos hle, if_pos hle]
    cases high with
    | none =>
      have hnone (m : Int) : Json.isNumber m .null = false := rfl
      simp only [Nat.cast_zero, Nat.cast_one] at hzero hone
      simp only [highCount, hnone, hzero, hone, bind, Except.bind, shown_lowCount]
      by_cases h0 : low = 0 <;> by_cases h1 : low = 1 <;> simp_all
    | some most =>
      have hmost (m : Nat) : (Json.num (.whole most)).isNumber m = decide (most = m) :=
        isNumber_lowCount most m
      have hshown : (Json.num (.whole most)).shown = natText most := shown_lowCount most
      have hm0 := hmost 0
      have hm1 := hmost 1
      simp only [Nat.cast_zero, Nat.cast_one] at hzero hone hm0 hm1
      simp only [highCount, hm0, hm1, hzero, hone, hshown, bind, Except.bind, shown_lowCount]
      by_cases h0 : most = 0 <;> by_cases h1 : low = 0 <;> by_cases h2 : most = 1 <;> simp_all
  · rw [if_neg hle, if_neg hle]
    rfl

/-- An expression for items that may occur ends in a mark. -/
theorem getLast_repetition {item e : String} {low : Nat} {high : Option Nat}
    (h : repetition item (lowCount low) (highCount high) = .ok e)
    (hne : high ≠ some 0) : ∃ c, e.toList.getLast? = some c ∧ Text.isBlank c = false := by
  rw [repetition_eq, if_neg hne] at h
  split_ifs at h <;> obtain rfl := Except.ok.inj h
  all_goals
    simp only [String.toList_append, List.getLast?_append]
    simp
    decide

theorem repetition_eq_empty {item e : String} {low : Nat}
    (h : repetition item (lowCount low) (highCount (some 0)) = .ok e) : low = 0 ∧ e = "" := by
  rw [repetition_eq, if_pos rfl] at h
  split_ifs at h with hle
  exact ⟨Nat.le_zero.1 (hle 0 rfl), (Except.ok.inj h).symm⟩

/-- Items and rows of items, as texts with their languages, can be put together. A row stands in
    brackets or outside, as its flag says. -/
structure Composes (Item : String → Language Char → Prop)
    (Row : Bool → String → Language Char → Prop) : Prop where
  times {e counts : String} {L : Language Char} {low : Nat} {high : Option Nat} :
    Item e L → Counted counts.toList low high → Item (e ++ counts) (repeated low high L)
  row {e : String} {L : Language Char} (deep : Bool) : Item e L → Row deep e L
  group {e : String} {L : Language Char} : Row true e L → Item ("(" ++ e ++ ")") L
  empty (deep : Bool) : Row deep "" 1
  beside {deep : Bool} {a b : String} {A B : Language Char} :
    Row deep a A → Row deep b B → Row deep (a ++ " " ++ b) (A * B)

section Counted

variable {Item : String → Language Char → Prop} {Row : Bool → String → Language Char → Prop}
  (hc : Composes Item Row) {item e : String} {L : Language Char} {low : Nat} {high : Option Nat}

include hc

theorem Composes.optional (hitem : Item e L) : Item (e ++ "?") (repeated 0 (some 1) L) :=
  hc.times hitem .optional

/-- Items that are counted and may occur are an item. Counts that have been written can be read. -/
theorem Composes.item_repetition (hitem : Item item L) (hne : high ≠ some 0)
    (h : repetition item (lowCount low) (highCount high) = .ok e) :
    Item e (repeated low high L) := by
  rw [repetition_eq, if_neg hne] at h
  split_ifs at h with hle h1 h2 h3 hwritten <;> obtain rfl := Except.ok.inj h
  · obtain ⟨rfl, rfl⟩ := h1
    exact hc.optional hitem
  · obtain ⟨rfl, rfl⟩ := h2
    exact hc.times hitem .plus
  · obtain ⟨rfl, rfl⟩ := h3
    exact hc.times hitem .star
  · cases high with
    | none =>
      have htext : item ++ "\x7b" ++ natText low ++ "," ++ "" ++ "\x7d" =
          item ++ ("\x7b" ++ natText low ++ ",\x7d") := by
        simp [String.append_assoc]
      rw [Option.map_none, Option.getD_none, htext]
      exact hc.times hitem (counted_atLeast hwritten.1)
    | some most =>
      have htext : item ++ "\x7b" ++ natText low ++ "," ++ natText most ++ "\x7d" =
          item ++ ("\x7b" ++ natText low ++ "," ++ natText most ++ "\x7d") := by
        simp [String.append_assoc]
      rw [Option.map_some, Option.getD_some, htext]
      exact hc.times hitem (counted_between hwritten.1 (hwritten.2 most rfl))

/-- Counted items have the language of their counts. -/
theorem Composes.row_repetition (deep : Bool) (hitem : Item item L)
    (h : repetition item (lowCount low) (highCount high) = .ok e) :
    Row deep e (repeated low high L) := by
  by_cases h0 : high = some 0
  · subst h0
    obtain ⟨rfl, rfl⟩ := repetition_eq_empty h
    rw [repeated_exactly, pow_zero]
    exact hc.empty deep
  · exact hc.row deep (hc.item_repetition hitem h0 h)

omit hc

theorem countPred_highCount (hpos : ∀ most ∈ high, 0 < most) :
    countPred (highCount high) = highCount (high.map (· - 1)) := by
  cases high with
  | none => rfl
  | some most =>
    have h := hpos most rfl
    simp [countPred, highCount, Json.number?, Number.pred]
    omega

/-- The expression for items with separators, by its counts. -/
theorem separatedRepetition_eq (item sep : String) (low : Nat) (high : Option Nat) :
    separatedRepetition item sep (lowCount low) (highCount high) =
      if ∀ most ∈ high, low ≤ most then
        if high = some 0 then .ok ""
        else if low = 0 ∧ high = some 1 then .ok (item ++ "?")
        else (repetition ("(" ++ sep ++ " " ++ item ++ ")") (lowCount (low - 1))
          (highCount (high.map (· - 1)))).map fun rest =>
            let all := Text.dropTrailingBlanks (item ++ " " ++ rest)
            if low = 0 then "(" ++ all ++ ")?" else all
      else .error (.count (.ofCounts (lowCount low) (highCount high))) := by
  have hzero : (lowCount low).isNumber 0 = decide (low = 0) := isNumber_lowCount low 0
  have habove : countAbove (lowCount low) (.num (.whole 0)) = .ok (decide (0 < low)) := by
    have hless : (Json.num (.whole 0)).less (lowCount low) = .ok (decide (0 < low)) :=
      less_lowCount 0 low
    simp [countAbove, hless]
  have hfewer : (if 0 < low then countPred (lowCount low) else .num (.whole 0)) =
      lowCount (low - 1) := by
    rcases Nat.eq_zero_or_pos low with rfl | hpos
    · rfl
    · rw [if_pos hpos]
      simp only [countPred, lowCount, Json.number?, Number.pred]
      congr 2
      omega
  unfold separatedRepetition
  rw [checkCounts_eq]
  by_cases hle : ∀ most ∈ high, low ≤ most
  · rw [if_pos hle, if_pos hle]
    by_cases h0 : high = some 0
    · subst h0
      rfl
    · have hh0 : (highCount high).isNumber 0 = false := by
        cases high with
        | none => rfl
        | some most =>
          have hm : (highCount (some most)).isNumber 0 = decide (most = 0) :=
            isNumber_highCount_some most 0
          rw [hm]
          simpa using h0
      have hh1 : (highCount high).isNumber 1 = decide (high = some 1) := by
        cases high with
        | none => rfl
        | some most => simpa using isNumber_highCount_some most 1
      have hpred : countPred (highCount high) = highCount (high.map (· - 1)) := by
        refine countPred_highCount fun most hm => Nat.pos_of_ne_zero ?_
        rintro rfl
        exact h0 hm
      simp only [hh0, hh1, hzero, habove, hfewer, hpred, bind, Except.bind, h0, if_false,
        Bool.false_eq_true, Bool.and_eq_true, decide_eq_true_eq]
      by_cases h1 : low = 0 ∧ high = some 1
      · rw [if_pos h1, if_pos h1]
        rfl
      · rw [if_neg h1, if_neg h1]
        cases repetition ("(" ++ sep ++ " " ++ item ++ ")") (lowCount (low - 1))
          (highCount (high.map (· - 1))) <;> rfl
  · rw [if_neg hle, if_neg hle]
    rfl

theorem dropTrailingBlanks_beside {a b : String} (ha : ∀ c ∈ a.toList.getLast?, Text.isBlank c = false)
    (hb : ∀ c ∈ b.toList.getLast?, Text.isBlank c = false) :
    Text.dropTrailingBlanks (a ++ " " ++ b) = if b = "" then a else a ++ " " ++ b := by
  split_ifs with hempty
  · subst hempty
    have htrim : Text.trimRight (a.toList ++ [' ']) = a.toList := by
      have hself := Text.trimRight_of_getLast ha
      unfold Text.trimRight at hself ⊢
      rw [List.reverse_append, List.reverse_singleton, List.singleton_append, List.dropWhile_cons,
        if_pos (by decide)]
      exact hself
    simp [Text.dropTrailingBlanks, htrim]
  · rw [Text.dropTrailingBlanks, Text.trimRight_of_getLast, String.ofList_toList]
    intro c hc
    have hne : b.toList ≠ [] := by simpa using hempty
    rw [String.toList_append, List.getLast?_append_of_ne_nil _ hne] at hc
    exact hb c hc

theorem listed_zero (sep L : Language Char) : listed sep 0 (some 0) L = 1 := by
  ext text
  rw [mem_listed]
  constructor
  · rintro ⟨count, -, hmost, htext⟩
    obtain rfl : count = 0 := Nat.le_zero.1 (hmost 0 rfl)
    exact htext
  · intro htext
    exact ⟨0, le_rfl, by simp, htext⟩

theorem listed_optional (sep L : Language Char) : listed sep 0 (some 1) L = 1 + L := by
  have hpos : ∀ most ∈ some 1, 0 < most := by simp
  have hone : L * repeated 0 (some 0) (sep * L) = listed sep 1 (some 1) L := mul_repeated 1 hpos
  rw [← one_add_listed, ← hone, repeated_exactly, pow_zero, mul_one]

section Separated

variable {sep : String} {S : Language Char}

include hc

/-- One item and the others behind it, each with a separator. -/
theorem Composes.list (deep : Bool) (hitem : Item item L)
    (hlast : ∀ c ∈ item.toList.getLast?, Text.isBlank c = false) (hsep : Row true sep S)
    (h0 : high ≠ some 0)
    {rest : String} (h : repetition ("(" ++ sep ++ " " ++ item ++ ")") (lowCount (low - 1))
      (highCount (high.map (· - 1))) = .ok rest) :
    Row deep (Text.dropTrailingBlanks (item ++ " " ++ rest)) (listed S (max low 1) high L) := by
  have hpos : ∀ most ∈ high, 0 < most := by
    intro most hm
    refine Nat.pos_of_ne_zero ?_
    rintro rfl
    exact h0 hm
  rw [← mul_repeated low hpos]
  by_cases hone : high.map (· - 1) = some 0
  · -- nothing may follow the item
    rw [hone] at h ⊢
    obtain ⟨hzero, rfl⟩ := repetition_eq_empty h
    rw [dropTrailingBlanks_beside hlast (by simp), if_pos rfl, hzero, repeated_exactly, pow_zero,
      mul_one]
    exact hc.row deep hitem
  · have hpair : Item ("(" ++ sep ++ " " ++ item ++ ")") (S * L) := by
      have hgroup := hc.group (hc.beside hsep (hc.row true hitem))
      simpa [String.append_assoc] using hgroup
    have hmore := hc.item_repetition hpair hone h
    obtain ⟨c, hmark, hblank⟩ := getLast_repetition h hone
    have hne : rest ≠ "" := by
      rintro rfl
      simp at hmark
    have hend : ∀ d ∈ rest.toList.getLast?, Text.isBlank d = false := by
      rw [hmark]
      simpa using hblank
    rw [dropTrailingBlanks_beside hlast hend, if_neg hne]
    exact hc.beside (hc.row deep hitem) (hc.row deep hmore)

/-- Counted items with separators have the language of their counts. -/
theorem Composes.row_separatedRepetition (deep : Bool) (hitem : Item item L)
    (hlast : ∀ c ∈ item.toList.getLast?, Text.isBlank c = false) (hsep : Row true sep S)
    (h : separatedRepetition item sep (lowCount low) (highCount high) = .ok e) :
    Row deep e (listed S low high L) := by
  rw [separatedRepetition_eq] at h
  by_cases hle : ∀ most ∈ high, low ≤ most
  swap
  · rw [if_neg hle] at h
    exact absurd h (by simp)
  rw [if_pos hle] at h
  by_cases h0 : high = some 0
  · rw [if_pos h0] at h
    obtain rfl := Except.ok.inj h
    subst h0
    obtain rfl : low = 0 := Nat.le_zero.1 (hle 0 rfl)
    rw [listed_zero]
    exact hc.empty deep
  rw [if_neg h0] at h
  by_cases h1 : low = 0 ∧ high = some 1
  · rw [if_pos h1] at h
    obtain rfl := Except.ok.inj h
    obtain ⟨rfl, rfl⟩ := h1
    rw [listed_optional, ← repeated_optional]
    exact hc.row deep (hc.optional hitem)
  rw [if_neg h1] at h
  cases hrest : repetition ("(" ++ sep ++ " " ++ item ++ ")") (lowCount (low - 1))
      (highCount (high.map (· - 1))) with
  | error failure =>
    rw [hrest] at h
    exact absurd h (by simp [Except.map])
  | ok rest =>
    rw [hrest] at h
    obtain rfl := Except.ok.inj h
    have hlist (deep : Bool) := hc.list deep hitem hlast hsep h0 hrest
    dsimp only
    split_ifs with hzero
    · subst hzero
      rw [← one_add_listed, ← repeated_optional]
      simpa [String.append_assoc] using hc.row deep (hc.optional (hc.group (hlist true)))
    · have hrow := hlist deep
      rwa [max_eq_left (Nat.one_le_iff_ne_zero.2 hzero)] at hrow

end Separated

end Counted

/-- Phrases can be put together. -/
theorem composes_reads (P : String → Prop) (Q : Grammar → Prop) :
    Composes (ReadsItem P Q) fun _ => ReadsRow P Q where
  times h hc := h.times hc
  row _ h := h.row
  group h := h.reads.group
  empty _ := readsRow_empty
  beside ha hb := ha.beside hb

/-! ## Over a table -/

section Table

variable {t : RuleTable} {item sep e : String} {L S : Language Char} {low : Nat} {high : Option Nat}

theorem composes_writes (t : RuleTable) : Composes t.WritesItem fun _ => t.WritesRow :=
  composes_reads t.Knows (·.Holds t)

theorem writesItem_repetition (hitem : t.WritesItem item L) (hne : high ≠ some 0)
    (h : repetition item (lowCount low) (highCount high) = .ok e) :
    t.WritesItem e (repeated low high L) :=
  (composes_writes t).item_repetition hitem hne h

theorem writesRow_repetition (hitem : t.WritesItem item L)
    (h : repetition item (lowCount low) (highCount high) = .ok e) :
    t.WritesRow e (repeated low high L) :=
  (composes_writes t).row_repetition false hitem h

theorem writesRow_separatedRepetition (hitem : t.WritesItem item L)
    (hlast : ∀ c ∈ item.toList.getLast?, Text.isBlank c = false) (hsep : t.WritesRow sep S)
    (h : separatedRepetition item sep (lowCount low) (highCount high) = .ok e) :
    t.WritesRow e (listed S low high L) :=
  (composes_writes t).row_separatedRepetition false hitem hlast hsep h

end Table

end Grammar

end SchemaGrammar
