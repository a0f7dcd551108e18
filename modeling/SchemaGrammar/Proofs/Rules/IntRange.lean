import SchemaGrammar.Proofs.Rules.Digits
import SchemaGrammar.Proofs.Work

set_option autoImplicit false

/-! # Ranges of integers are exact

Bottom up through the generator: a class is a digit in a range, a counted class is so many digits,
and a band cut at the first digit where its ends part is the whole band (`writesRow_uniformFrom`). So
the expression for a range has the numerals of its integers, no others, as far as the ceiling of
digits goes (`writes_expression`). Where there is an expression, all counts in it can be read: what
has too many digits is refused when it is written (`expression_eq_ok`). -/

namespace SchemaGrammar

open Grammar (Spells Bracketed IsWritable charWhere classLanguage repeated)
open Work (except_bind_eq_ok except_bind_eq_error exists_bind_pure_iff)

theorem Grammar.IsWritable.mono {m n : Nat} (h : IsWritable n) (hmn : m ≤ n) : IsWritable m :=
  lt_of_le_of_lt hmn h

namespace IntRange

/-! ## What is written -/

section Written

variable {least : Nat} {most ceiling maxDigits : Number} {e : String}

/-- A fixed number of digits, or a greatest one that can be written. -/
theorem moreDigits_eq_ok (h : moreDigits least most = .ok e) :
    most.same (.whole least) = true ∧ e = anyDigits least ∨
      most.isWritable = true ∧
        e = "[0-9]\x7b" ++ natText least ++ "," ++ most.text ++ "\x7d" := by
  unfold moreDigits at h
  split_ifs at h with hfixed hwritable
  · exact .inl ⟨hfixed, (Except.ok.inj h).symm⟩
  · exact .inr ⟨hwritable, (Except.ok.inj h).symm⟩

/-- The naturals from a number up end with its own length, or there are more digits. -/
theorem naturalsFrom_eq_ok {low : Nat} (h : naturalsFrom ceiling low = .ok e) :
    (Number.lt (.whole (digitsOf low).length) ceiling = true ∧
      ∃ more, moreDigits (digitsOf low).length ceiling.pred = .ok more ∧
        e = uniform (digitsOf low) (nines (digitsOf low).length) ++ " | [1-9] " ++ more) ∨
    (Number.lt (.whole (digitsOf low).length) ceiling = false ∧
      e = uniform (digitsOf low) (nines (digitsOf low).length)) := by
  unfold naturalsFrom at h
  dsimp only at h
  split_ifs at h with hlt
  · obtain ⟨more, hmore, hlast⟩ := except_bind_eq_ok.1 h
    exact .inl ⟨hlt, more, hmore, (Except.ok.inj hlast).symm⟩
  · exact .inr ⟨by simpa using hlt, (Except.ok.inj h).symm⟩

theorem atLeast_eq_ok {low : Int} (h : atLeast ceiling low = .ok e) :
    (low < 0 ∧ ∃ rest, naturalsFrom ceiling 0 = .ok rest ∧
      e = negated (naturals 1 low.natAbs) ++ " | " ++ rest) ∨
    (0 ≤ low ∧ naturalsFrom ceiling low.natAbs = .ok e) := by
  unfold atLeast at h
  split_ifs at h with hneg
  · obtain ⟨rest, hrest, hlast⟩ := except_bind_eq_ok.1 h
    exact .inl ⟨hneg, rest, hrest, (Except.ok.inj hlast).symm⟩
  · exact .inr ⟨Int.not_lt.1 hneg, h⟩

theorem atMost_eq_ok {high : Int} (h : atMost ceiling high = .ok e) :
    (high < 0 ∧ ∃ rest, naturalsFrom ceiling high.natAbs = .ok rest ∧ e = negated rest) ∨
    (0 ≤ high ∧ ∃ more, moreDigits 0 ceiling.pred = .ok more ∧
      e = "\"-\" [1-9] " ++ more ++ " | " ++ naturals 0 high.natAbs) := by
  unfold atMost at h
  split_ifs at h with hneg
  · obtain ⟨rest, hrest, hlast⟩ := except_bind_eq_ok.1 h
    exact .inl ⟨hneg, rest, hrest, (Except.ok.inj hlast).symm⟩
  · obtain ⟨more, hmore, hlast⟩ := except_bind_eq_ok.1 h
    exact .inr ⟨Int.not_lt.1 hneg, more, hmore, (Except.ok.inj hlast).symm⟩

theorem checkBound_eq_ok {n : Int} : checkBound n = .ok () ↔ IsWritable n.natAbs := by
  rw [checkBound, Grammar.isWritable_whole]
  by_cases h : IsWritable n.natAbs
  · simp [h]
  · simp [h]

theorem checkBounds_eq_ok {side : Option Int} :
    side.forM checkBound = .ok () ↔ ∀ n ∈ side, IsWritable n.natAbs := by
  cases side with
  | none => simp [pure, Except.pure]
  | some n => simpa using checkBound_eq_ok

/-- What is written for a range, by its sides. -/
inductive IsWrittenAs (ceiling : Number) (e : String) : Option Int → Option Int → Prop
  | from_ {low} (h : atLeast ceiling low = .ok e) : IsWrittenAs ceiling e (some low) none
  | upTo {high} (h : atMost ceiling high = .ok e) : IsWrittenAs ceiling e none (some high)
  | between {low high} (hle : low ≤ high) (he : e = between low high) :
      IsWrittenAs ceiling e (some low) (some high)

/-- **What there is an expression for.** The bounds can be written, and one of them is given. -/
theorem expression_eq_ok {low high : Option Int} (h : expression low high maxDigits = .ok e) :
    (∀ n ∈ low, IsWritable n.natAbs) ∧ (∀ n ∈ high, IsWritable n.natAbs) ∧
      IsWrittenAs (ceilingOf maxDigits) e low high := by
  obtain ⟨_, hlow, h⟩ := except_bind_eq_ok.1 h
  obtain ⟨_, hhigh, h⟩ := except_bind_eq_ok.1 h
  refine ⟨checkBounds_eq_ok.1 hlow, checkBounds_eq_ok.1 hhigh, ?_⟩
  match low, high with
  | none, none => cases h
  | some l, none => exact .from_ h
  | none, some h' => exact .upTo h
  | some l, some h' =>
    dsimp only at h
    split_ifs at h with hempty
    exact .between (Int.not_lt.1 hempty) (Except.ok.inj h).symm

theorem moreDigits_eq_error {fault : RangeFault} (h : moreDigits least most = .error fault) :
    fault = .tooManyDigits := by
  unfold moreDigits at h
  split_ifs at h
  exact (Except.error.inj h).symm

theorem naturalsFrom_eq_error {low : Nat} {fault : RangeFault}
    (h : naturalsFrom ceiling low = .error fault) : fault = .tooManyDigits := by
  unfold naturalsFrom at h
  dsimp only at h
  split_ifs at h
  · obtain hmore | ⟨more, -, hlast⟩ := except_bind_eq_error.1 h
    · exact moreDigits_eq_error hmore
    · cases hlast
  · cases h

theorem atLeast_eq_error {low : Int} {fault : RangeFault} (h : atLeast ceiling low = .error fault) :
    fault = .tooManyDigits := by
  unfold atLeast at h
  split_ifs at h
  · obtain hrest | ⟨rest, -, hlast⟩ := except_bind_eq_error.1 h
    · exact naturalsFrom_eq_error hrest
    · cases hlast
  · exact naturalsFrom_eq_error h

end Written

/-! ## Pieces -/

/-- A digit or one of its neighbours stands for itself in a class. -/
structure IsPlain (c : Char) : Prop where
  noEscape : c ≠ '\\'
  noClose : c ≠ ']'
  noCaret : c ≠ '^'

theorem isPlain_of_isDigit {d : Char} (h : d.isDigit = true) :
    IsPlain d ∧ IsPlain (nextDigit d) ∧ IsPlain (previousDigit d) := by
  have hall : ∀ d ∈ Text.asciiDigits, ∀ c ∈ [d, nextDigit d, previousDigit d],
      c ≠ '\\' ∧ c ≠ ']' ∧ c ≠ '^' := by decide
  have hplain : ∀ c ∈ [d, nextDigit d, previousDigit d], IsPlain c := fun c hc =>
    have h := hall d (Text.mem_asciiDigits h) c hc
    ⟨h.1, h.2.1, h.2.2⟩
  exact ⟨hplain _ (by simp), hplain _ (by simp), hplain _ (by simp)⟩

theorem classLanguage_single (low high : Nat) :
    classLanguage false [(low, high)] = charWhere fun c => low ≤ c.toNat ∧ c.toNat ≤ high := by
  ext text
  simp [classLanguage, charWhere, Node.classHolds]

section Pieces

variable (t : RuleTable)

theorem writesItem_digitRange {a b : Char} (ha : IsPlain a) (hb : IsPlain b) :
    t.WritesItem (digitRange a b) (fromTo a b) := by
  rw [digitRange, fromTo, ← classLanguage_single]
  split_ifs with hab
  · subst hab
    have hclass : Bracketed [a] [(a.toNat, a.toNat)] :=
      .single (.raw ha.noEscape) (by simpa using ha.noClose) rfl .nil
    exact RuleTable.writesItem_charClass t hclass (by simpa using ha.noCaret)
  · have hclass : Bracketed [a, '-', b] [(a.toNat, b.toNat)] :=
      .range (.raw ha.noEscape) (by simpa using ha.noClose) (.raw hb.noEscape)
        (by simpa using hb.noClose) .nil
    have hwritten := RuleTable.writesItem_charClass t hclass (by simpa using ha.noCaret)
    have htext : "[" ++ a.toString ++ "-" ++ b.toString ++ "]" =
        "[" ++ String.ofList [a, '-', b] ++ "]" := by
      rw [← String.toList_inj]
      simp
    rw [htext]
    exact hwritten

theorem writesItem_anyDigit : t.WritesItem "[0-9]" (fromTo '0' '9') :=
  writesItem_digitRange t (isPlain_of_isDigit (d := '0') rfl).1 (isPlain_of_isDigit (d := '9') rfl).1

theorem writesItem_anyDigits {count : Nat} (h : IsWritable count) :
    t.WritesItem (anyDigits count) (allDigits count) := by
  have hdigit := writesItem_anyDigit t
  rw [allDigits_eq_between, anyDigits]
  split_ifs with hone
  · subst hone
    rwa [digitsBetween_one]
  · have htext : "[0-9]\x7b" ++ natText count ++ "\x7d" =
        "[0-9]" ++ ("\x7b" ++ natText count ++ "\x7d") := by
      rw [← String.toList_inj]
      simp
    rw [htext, ← repeated_digit]
    exact hdigit.times (Grammar.counted_exactly h)

theorem writesItem_moreDigits {least most : Nat} {e : String} (hleast : IsWritable least)
    (h : moreDigits least (.whole most) = .ok e) :
    t.WritesItem e (digitsBetween least most) := by
  obtain ⟨hsame, rfl⟩ | ⟨hwritable, rfl⟩ := moreDigits_eq_ok h
  · obtain rfl : most = least := by simpa [Number.same, Number.rank] using hsame
    rw [← allDigits_eq_between]
    exact writesItem_anyDigits t hleast
  · have hmost : IsWritable most := by simpa [Grammar.isWritable_whole] using hwritable
    have htext : "[0-9]\x7b" ++ natText least ++ "," ++ Number.text (.whole most) ++ "\x7d" =
        "[0-9]" ++ ("\x7b" ++ natText least ++ "," ++ natText most ++ "\x7d") := by
      have hmost : Number.text (.whole most) = natText most := by
        rw [Number.text, intText, if_neg (by omega), Int.natAbs_natCast]
      rw [← String.toList_inj, hmost]
      simp
    rw [htext, ← repeated_digit]
    exact (writesItem_anyDigit t).times (Grammar.counted_between hleast hmost)

theorem writesItem_quotedDigits {ds : List Char} (h : AreDigits ds) :
    t.WritesItem (quotedDigits ds) {ds} := by
  have hliteral : Grammar.literalText (String.ofList ds) = quotedDigits ds := by
    have hsame : ds.flatMap Grammar.literalChar = ds := by
      induction ds with
      | nil => rfl
      | cons d rest ih =>
        have hd : Grammar.literalChar d = [d] := by
          have hall : ∀ d ∈ Text.asciiDigits, Grammar.literalChar d = [d] := by decide
          exact hall d (Text.mem_asciiDigits (h d (by simp)))
        rw [List.flatMap_cons, hd, ih fun c hc => h c (List.mem_cons_of_mem _ hc)]
        rfl
    rw [← String.toList_inj]
    simp [Grammar.literalText, quotedDigits, hsame]
  rw [← hliteral]
  simpa using RuleTable.writesItem_literal t (String.ofList ds)

theorem writesRow_behind {lead : List Char} {e : String} {L : Language Char} (hlead : AreDigits lead)
    (h : t.WritesRow e L) : t.WritesRow (behind lead e) ({lead} * L) := by
  rw [behind]
  split_ifs with hempty
  · have hone : ({lead} : Language Char) = 1 := by
      rw [List.isEmpty_iff.1 hempty]
      rfl
    rwa [hone, one_mul]
  · exact (writesItem_quotedDigits t hlead).row.beside h

end Pieces

section Bands

variable (t : RuleTable)

/-- **A band is written exactly.** -/
theorem writesRow_uniformFrom (lead as bs : List Char) (hlead : AreDigits lead)
    (has : AreDigits as) (hbs : AreDigits bs) (hlength : as.length = bs.length)
    (hle : value as ≤ value bs) (hwritable : IsWritable as.length) :
    t.WritesRow (uniformFrom lead as bs) ({lead} * band as.length (value as) (value bs)) := by
  induction lead, as, bs using uniformFrom.induct with
  | case1 lead as b bs ih =>
    have hlength : as.length = bs.length := by simpa using hlength
    obtain ⟨hb, has'⟩ := areDigits_cons.1 has
    obtain ⟨-, hbs'⟩ := areDigits_cons.1 hbs
    have hlead' : AreDigits (lead ++ [b]) := by
      intro d hd
      rcases List.mem_append.1 hd with hd | hd
      · exact hlead d hd
      · rwa [List.mem_singleton.1 hd]
    have hle' : value as ≤ value bs := by
      rw [value_cons, value_cons, hlength] at hle
      omega
    have h := ih hlead' has' hbs' hlength hle' (hwritable.mono (by simp))
    rw [uniformFrom, if_pos rfl, List.length_cons, band_shared has hbs hlength rfl, ← mul_assoc,
      ← Grammar.singleton_append]
    exact h
  | case2 lead a as b bs hab hempty =>
    obtain rfl := List.isEmpty_iff.1 hempty
    obtain rfl : bs = [] := List.length_eq_zero_iff.1 (by simpa using hlength.symm)
    have ha := (areDigits_cons.1 has).1
    have hb := (areDigits_cons.1 hbs).1
    rw [uniformFrom, if_neg hab, if_pos hempty]
    have h := (writesItem_digitRange t (isPlain_of_isDigit ha).1 (isPlain_of_isDigit hb).1).row
    rw [← band_single ha hb] at h
    exact writesRow_behind t hlead h
  | case3 lead a as b bs hab hempty rest ihzeros ihnines =>
    have hlength : as.length = bs.length := by simpa using hlength
    obtain ⟨ha, has'⟩ := areDigits_cons.1 has
    obtain ⟨hb, hbs'⟩ := areDigits_cons.1 hbs
    have hplain := isPlain_of_isDigit ha
    have hplain' := isPlain_of_isDigit hb
    have hrest : IsWritable as.length := hwritable.mono (by simp)
    have hdigits : digit a < digit b := by
      rcases (value_cons_le_iff hlength has' hbs').1 hle with hlt | ⟨heq, -⟩
      · exact hlt
      · exact absurd (digit_injective ha hb heq) hab
    have hnone : AreDigits [] := by simp [AreDigits]
    simp only [rest, length_zeros] at ihzeros ihnines
    -- the lowest digit with what is above the lower end
    have habove := ihnines hnone has' (areDigits_nines _) (length_nines _).symm (value_le_nines has')
      hrest
    have hlowest := (writesItem_digitRange t hplain.1 hplain.1).row.beside habove.writes.group.row
    -- the highest digit with what is below the upper end
    have hbelow := ihzeros hnone (areDigits_zeros _) hbs' hlength (by simp [value_zeros]) hrest
    have hhighest := (writesItem_digitRange t hplain'.1 hplain'.1).row.beside hbelow
    -- the digits between with anything
    have hany := (writesItem_anyDigits t hrest).row
    have hbetween (c d : Char) (hc : IsPlain c) (hd : IsPlain d) :=
      (writesItem_digitRange t hc hd).row.beside hany
    have hone (L : Language Char) : {[]} * L = L := one_mul L
    rw [hone, fromTo_self] at hlowest hhighest
    have hgroup (e : String) : digitRange a a ++ " (" ++ e ++ ")" =
        digitRange a a ++ " " ++ ("(" ++ e ++ ")") := by
      rw [← String.toList_inj]
      simp
    have hbar (e : String) : e ++ (" | " ++ digitRange b b ++ " " ++ uniformFrom [] (zeros as.length) bs) =
        e ++ " | " ++ (digitRange b b ++ " " ++ uniformFrom [] (zeros as.length) bs) := by
      simp [String.append_assoc]
    rw [uniformFrom, if_neg hab, if_neg hempty, List.length_cons]
    refine writesRow_behind t hlead (RuleTable.Writes.group ?_).row
    dsimp only
    simp only [hbar, hgroup]
    have hda := digit_spec ha
    have hdb := digit_spec hb
    split_ifs with hzeros hgap hnines
    · rw [band_cut_zeros has hbs hlength hdigits hzeros]
      exact (hbetween a _ hplain.1 hplain'.2.2).writes.or hhighest.writes
    · rw [band_cut_nines has hbs hlength hdigits hnines]
      have h := hlowest.writes.or (hbetween _ b hplain.2.1 hplain'.1).writes
      simpa only [String.append_assoc] using h
    · rw [band_cut has hbs hlength hdigits]
      have h := hlowest.writes.or
        ((hbetween _ _ hplain.2.1 hplain'.2.2).writes.or hhighest.writes)
      simpa only [String.append_assoc] using h
    · rw [band_cut_next has hbs hlength (by omega)]
      exact hlowest.writes.or hhighest.writes
  | case4 lead as bs hother =>
    have hnil : as = [] ∧ bs = [] := by
      cases as with
      | nil => exact ⟨rfl, List.length_eq_zero_iff.1 hlength.symm⟩
      | cons a as =>
        obtain ⟨b, bs, rfl⟩ := List.exists_cons_of_length_eq_add_one hlength.symm
        exact absurd rfl (hother a as b bs rfl)
    obtain ⟨rfl, rfl⟩ := hnil
    have hband : band ([] : List Char).length (value []) (value []) = 1 := band_zero
    rw [hband, mul_one, uniformFrom]
    · exact (writesItem_quotedDigits t hlead).row
    · simp

theorem writes_uniform {low high : List Char} (hlow : AreDigits low) (hhigh : AreDigits high)
    (hlength : low.length = high.length) (hle : value low ≤ value high)
    (hwritable : IsWritable low.length) :
    t.Writes (uniform low high) (band low.length (value low) (value high)) := by
  have h := writesRow_uniformFrom t [] low high (by simp [AreDigits]) hlow hhigh hlength hle hwritable
  have hone : ({[]} : Language Char) * band low.length (value low) (value high) =
      band low.length (value low) (value high) := one_mul _
  rw [hone] at h
  exact h.writes

/-- The numbers from `low` on that have as many digits. -/
theorem writes_uniform_nines {low : Nat} (hwritable : IsWritable (digitsOf low).length) :
    t.Writes (uniform (digitsOf low) (nines (digitsOf low).length))
      (numerals fun n => low ≤ n ∧ (digitsOf n).length ≤ (digitsOf low).length) := by
  have hpos := length_digitsOf_pos low
  have hdigits := areDigits_digitsOf low
  have h := writes_uniform t hdigits (areDigits_nines _) (length_nines _).symm (value_le_nines hdigits)
    hwritable
  have hnines := nines_eq hpos
  have hlength : (digitsOf (10 ^ (digitsOf low).length - 1)).length = (digitsOf low).length := by
    rw [← hnines, length_nines]
  rw [hnines, value_digitsOf, value_digitsOf, band_eq_numerals rfl hlength] at h
  rw [hnines, numerals_congr fun n => ?_]
  · exact h
  · have hpow : 0 < 10 ^ (digitsOf low).length := Nat.pow_pos (by decide)
    rw [length_digitsOf_le_iff hpos]
    omega

/-- The bands of a range cover it. -/
theorem writes_bandsFrom {high : Nat} (longer : Nat) {low : Nat} (hle : low ≤ high)
    (hlength : (digitsOf low).length + longer = (digitsOf high).length)
    (hwritable : IsWritable (digitsOf high).length) :
    ∃ Ls, List.Forall₂ t.Writes (bandsFrom (digitsOf high) longer (digitsOf low)) Ls ∧
      Ls.sum = numerals fun n => low ≤ n ∧ n ≤ high := by
  induction longer generalizing low with
  | zero =>
    have h := writes_uniform t (areDigits_digitsOf low) (areDigits_digitsOf high) hlength
      (by rwa [value_digitsOf, value_digitsOf]) (hwritable.mono (by omega))
    rw [value_digitsOf, value_digitsOf, band_eq_numerals rfl (by omega)] at h
    exact ⟨[_], .cons h .nil, by simp⟩
  | succ longer ih =>
    have hpos := length_digitsOf_pos low
    have hlow := (length_digitsOf_le_iff hpos).1 (le_refl (digitsOf low).length)
    have hhigh : 10 ^ (digitsOf low).length ≤ high := by
      have hnot := mt (length_digitsOf_le_iff (n := high) hpos).2 (by omega)
      omega
    have hnext : (digitsOf (10 ^ (digitsOf low).length)).length = (digitsOf low).length + 1 := by
      rw [← one_zeros_eq, List.length_cons, length_zeros]
    obtain ⟨Ls, hLs, hsum⟩ := ih hhigh (by omega)
    refine ⟨(numerals fun n => low ≤ n ∧ (digitsOf n).length ≤ (digitsOf low).length) :: Ls, ?_, ?_⟩
    · rw [bandsFrom, one_zeros_eq]
      exact .cons (writes_uniform_nines t (hwritable.mono (by omega))) hLs
    · rw [List.sum_cons, hsum, numerals_add]
      refine numerals_congr fun n => ?_
      rw [length_digitsOf_le_iff hpos]
      omega

theorem writes_naturals {low high : Nat} (hle : low ≤ high) (hwritable : IsWritable (digitsOf high).length) :
    t.Writes (naturals low high) (numerals fun n => low ≤ n ∧ n ≤ high) := by
  have hlength := Nat.add_sub_cancel' (length_digitsOf_le hle)
  obtain ⟨Ls, hLs, hsum⟩ := writes_bandsFrom t _ hle hlength hwritable
  have hne : bandsFrom (digitsOf high) ((digitsOf high).length - (digitsOf low).length) (digitsOf low) ≠
      [] := by
    cases (digitsOf high).length - (digitsOf low).length <;> simp [bandsFrom]
  rw [← hsum]
  exact RuleTable.writes_choices hne hLs

/-! ## Ranges -/

theorem writesItem_minus : t.WritesItem (Grammar.literalText "-") {['-']} :=
  RuleTable.writesItem_literal t "-"

theorem writes_negated {e : String} {L : Language Char} (h : t.Writes e L) :
    t.Writes (negated e) ({['-']} * L) := by
  have htext : negated e = Grammar.literalText "-" ++ " " ++ ("(" ++ e ++ ")") := by
    rw [← String.toList_inj]
    simp [negated, Grammar.literalText, Grammar.literalChar]
  rw [htext]
  exact ((writesItem_minus t).row.beside h.group.row).writes

theorem isWritable_zero : IsWritable (digitsOf 0).length :=
  Nat.one_lt_pow (by decide) (by decide)

theorem writes_between {low high : Int} (hle : low ≤ high)
    (hlow : IsWritable (digitsOf low.natAbs).length)
    (hhigh : IsWritable (digitsOf high.natAbs).length) :
    t.Writes (between low high) (integers fun n => low ≤ n ∧ n ≤ high) := by
  have hsplit := integers_eq fun n => low ≤ n ∧ n ≤ high
  rw [between, hsplit]
  split_ifs with hneg hmixed
  · have hnegative : numerals (fun n => 0 < n ∧ low ≤ -(n : Int) ∧ -(n : Int) ≤ high) =
        numerals fun n => high.natAbs ≤ n ∧ n ≤ low.natAbs := numerals_congr fun n => by omega
    have hnatural : numerals (fun n => low ≤ (n : Int) ∧ (n : Int) ≤ high) = 0 :=
      numerals_none fun n => by omega
    rw [hnegative, hnatural, add_zero]
    exact writes_negated t (writes_naturals t (by omega) hlow)
  · have hnegative : numerals (fun n => 0 < n ∧ low ≤ -(n : Int) ∧ -(n : Int) ≤ high) =
        numerals fun n => 1 ≤ n ∧ n ≤ low.natAbs := numerals_congr fun n => by omega
    have hnatural : numerals (fun n => low ≤ (n : Int) ∧ (n : Int) ≤ high) =
        numerals fun n => 0 ≤ n ∧ n ≤ high.natAbs := numerals_congr fun n => by omega
    rw [hnegative, hnatural]
    exact (writes_negated t (writes_naturals t (by omega) hlow)).or
      (writes_naturals t (Nat.zero_le _) hhigh)
  · have hnatural : numerals (fun n => low ≤ (n : Int) ∧ (n : Int) ≤ high) =
        numerals fun n => low.natAbs ≤ n ∧ n ≤ high.natAbs := numerals_congr fun n => by omega
    have hnegative : numerals (fun n => 0 < n ∧ low ≤ -(n : Int) ∧ -(n : Int) ≤ high) = 0 :=
      numerals_none fun n => by omega
    rw [hnatural, hnegative, mul_zero, zero_add]
    exact writes_naturals t (by omega) hhigh

/-- The ceiling of digits is a positive number. -/
theorem ceilingOf_whole (k : Int) :
    ∃ c : Nat, ceilingOf (.whole k) = .whole (c + 1 : Nat) ∧ c + 1 = max k.toNat 1 := by
  have hlt : Number.lt (.whole k) (.whole 1) = decide (k < 1) := by
    simp [Number.lt, Number.rank]
  rw [ceilingOf, hlt]
  by_cases h : k < 1
  · exact ⟨0, by simp [h], by omega⟩
  · refine ⟨k.toNat - 1, ?_, by omega⟩
    rw [if_neg (by simpa using h)]
    congr 1
    omega

theorem pred_whole (c : Nat) : Number.pred (.whole (c + 1 : Nat)) = .whole c := by
  simp [Number.pred]

theorem writesItem_leadingDigit : t.WritesItem "[1-9]" (fromTo '1' '9') :=
  writesItem_digitRange t (isPlain_of_isDigit (d := '1') rfl).1 (isPlain_of_isDigit (d := '9') rfl).1

theorem lt_whole (m n : Nat) : Number.lt (.whole (m : Int)) (.whole n) = decide (m < n) := by
  rw [Bool.eq_iff_iff]
  simp only [Number.lt, Number.rank, decide_eq_true_eq]
  omega

theorem writes_naturalsFrom {c low : Nat} {e : String} (hlow : IsWritable (digitsOf low).length)
    (h : naturalsFrom (.whole (c + 1 : Nat)) low = .ok e) :
    t.Writes e
      (numerals fun n => low ≤ n ∧ (digitsOf n).length ≤ max (c + 1) (digitsOf low).length) := by
  have hown := writes_uniform_nines t hlow
  have htext (e e' : String) : e ++ " | [1-9] " ++ e' = e ++ " | " ++ ("[1-9]" ++ " " ++ e') := by
    rw [← String.toList_inj]
    simp
  obtain ⟨hlt, more, hdigits, rfl⟩ | ⟨hlt, rfl⟩ := naturalsFrom_eq_ok h
  · rw [lt_whole, decide_eq_true_eq] at hlt
    rw [pred_whole] at hdigits
    have hmore := ((writesItem_leadingDigit t).row.beside
      (writesItem_moreDigits t hlow hdigits).row).writes
    have hsplit : numerals (fun n => low ≤ n ∧ (digitsOf n).length ≤ max (c + 1) (digitsOf low).length) =
        numerals fun n => (low ≤ n ∧ (digitsOf n).length ≤ (digitsOf low).length) ∨
          (0 < n ∧ (digitsOf low).length < (digitsOf n).length ∧ (digitsOf n).length ≤ c + 1) := by
      refine numerals_congr fun n => ?_
      rcases Nat.le_total low n with hle | hle
      · have hlength := length_digitsOf_le hle
        rcases Nat.eq_zero_or_pos n with rfl | hpos
        · obtain rfl := Nat.le_zero.1 hle
          omega
        · omega
      · have hlength := length_digitsOf_le hle
        omega
    rw [htext, hsplit, ← numerals_add, ← leading_mul_digits]
    exact hown.or hmore
  · rw [lt_whole, decide_eq_false_iff_not] at hlt
    have hsame : numerals (fun n => low ≤ n ∧ (digitsOf n).length ≤ max (c + 1) (digitsOf low).length) =
        numerals fun n => low ≤ n ∧ (digitsOf n).length ≤ (digitsOf low).length :=
      numerals_congr fun n => by omega
    rw [hsame]
    exact hown

theorem writes_atLeast {c : Nat} {low : Int} {e : String}
    (hlow : IsWritable (digitsOf low.natAbs).length)
    (h : atLeast (.whole (c + 1 : Nat)) low = .ok e) : t.Writes e (integers fun n => low ≤ n ∧
      (n < 0 ∨ (digitsOf n.natAbs).length ≤ max (c + 1) (digitsOf low.toNat).length)) := by
  have hsplit := integers_eq fun n => low ≤ n ∧
    (n < 0 ∨ (digitsOf n.natAbs).length ≤ max (c + 1) (digitsOf low.toNat).length)
  have hnatural : numerals (fun n => low ≤ (n : Int) ∧ ((n : Int) < 0 ∨ (digitsOf (n : Int).natAbs).length ≤
      max (c + 1) (digitsOf low.toNat).length)) =
        numerals fun n => low.toNat ≤ n ∧ (digitsOf n).length ≤ max (c + 1) (digitsOf low.toNat).length :=
    numerals_congr fun n => by rw [Int.natAbs_natCast]; omega
  rw [hsplit, hnatural]
  obtain ⟨hneg, rest, hrest, rfl⟩ | ⟨hneg, hrest⟩ := atLeast_eq_ok h
  · have hnegative : numerals (fun n => 0 < n ∧ low ≤ -(n : Int) ∧ (-(n : Int) < 0 ∨
        (digitsOf (-(n : Int)).natAbs).length ≤ max (c + 1) (digitsOf low.toNat).length)) =
          numerals fun n => 1 ≤ n ∧ n ≤ low.natAbs := numerals_congr fun n => by omega
    have hzero : low.toNat = 0 := by omega
    rw [hnegative, hzero]
    exact (writes_negated t (writes_naturals t (by omega) hlow)).or
      (writes_naturalsFrom t isWritable_zero hrest)
  · have hnegative : numerals (fun n => 0 < n ∧ low ≤ -(n : Int) ∧ (-(n : Int) < 0 ∨
        (digitsOf (-(n : Int)).natAbs).length ≤ max (c + 1) (digitsOf low.toNat).length)) = 0 :=
      numerals_none fun n => by omega
    have hsame : low.natAbs = low.toNat := by omega
    rw [hnegative, mul_zero, zero_add]
    exact hsame ▸ writes_naturalsFrom t hlow hrest

theorem writes_atMost {c : Nat} {high : Int} {e : String}
    (hhigh : IsWritable (digitsOf high.natAbs).length)
    (h : atMost (.whole (c + 1 : Nat)) high = .ok e) : t.Writes e (integers fun n => n ≤ high ∧ (0 ≤ n ∨
      (digitsOf n.natAbs).length ≤ if 0 ≤ high then c + 1 else max (c + 1) (digitsOf high.natAbs).length)) := by
  have htext (e e' : String) : "\"-\" [1-9] " ++ e ++ " | " ++ e' =
      Grammar.literalText "-" ++ " " ++ ("[1-9]" ++ " " ++ e) ++ " | " ++ e' := by
    rw [← String.toList_inj]
    simp [Grammar.literalText, Grammar.literalChar]
  have hsplit := integers_eq fun n => n ≤ high ∧ (0 ≤ n ∨
    (digitsOf n.natAbs).length ≤ if 0 ≤ high then c + 1 else max (c + 1) (digitsOf high.natAbs).length)
  rw [hsplit]
  obtain ⟨hneg, rest, hrest, rfl⟩ | ⟨hneg, more, hdigits, rfl⟩ := atMost_eq_ok h
  · rw [if_neg (Int.not_le.2 hneg)]
    have hnegative : numerals (fun n => 0 < n ∧ -(n : Int) ≤ high ∧ (0 ≤ -(n : Int) ∨
        (digitsOf (-(n : Int)).natAbs).length ≤ max (c + 1) (digitsOf high.natAbs).length)) =
          numerals fun n => high.natAbs ≤ n ∧
            (digitsOf n).length ≤ max (c + 1) (digitsOf high.natAbs).length :=
      numerals_congr fun n => by rw [Int.natAbs_neg, Int.natAbs_natCast]; omega
    have hnatural : numerals (fun n => (n : Int) ≤ high ∧ (0 ≤ (n : Int) ∨
        (digitsOf (n : Int).natAbs).length ≤ max (c + 1) (digitsOf high.natAbs).length)) = 0 :=
      numerals_none fun n => by omega
    rw [hnegative, hnatural, add_zero]
    exact writes_negated t (writes_naturalsFrom t hhigh hrest)
  · rw [pred_whole] at hdigits
    have hmore := (writesItem_minus t).row.beside ((writesItem_leadingDigit t).row.beside
      (writesItem_moreDigits t (hhigh.mono (Nat.zero_le _)) hdigits).row)
    rw [if_pos hneg, htext]
    have hnegative : numerals (fun n => 0 < n ∧ -(n : Int) ≤ high ∧ (0 ≤ -(n : Int) ∨
        (digitsOf (-(n : Int)).natAbs).length ≤ c + 1)) =
          numerals fun n => 0 < n ∧ 0 < (digitsOf n).length ∧ (digitsOf n).length ≤ c + 1 := by
      refine numerals_congr fun n => ?_
      have := length_digitsOf_pos n
      rw [Int.natAbs_neg, Int.natAbs_natCast]
      omega
    have hnatural : numerals (fun n => (n : Int) ≤ high ∧ (0 ≤ (n : Int) ∨
        (digitsOf (n : Int).natAbs).length ≤ c + 1)) = numerals fun n => 0 ≤ n ∧ n ≤ high.natAbs :=
      numerals_congr fun n => by omega
    rw [hnegative, hnatural, ← leading_mul_digits]
    exact hmore.writes.or (writes_naturals t (Nat.zero_le _) hhigh)

/-- How many digits an integer has. -/
def width (n : Int) : Nat :=
  (digitsOf n.natAbs).length

/-- The integers in a range; where a side is open, those with no more digits than the ceiling or than
    the end that is given. -/
def IsInRange (ceiling : Nat) : Option Int → Option Int → Int → Prop
  | none, none, _ => False
  | some low, none, n => low ≤ n ∧ (n < 0 ∨ width n ≤ max ceiling (width low.toNat))
  | none, some high, n =>
    n ≤ high ∧ (0 ≤ n ∨ width n ≤ if 0 ≤ high then ceiling else max ceiling (width high))
  | some low, some high, n => low ≤ n ∧ n ≤ high

/-- An integer that is written has few enough digits to count. -/
theorem isWritable_width {n : Int} (h : IsWritable n.natAbs) : IsWritable (width n) :=
  lt_of_le_of_lt (Grammar.length_toDigits_le_iff.2 h) (Nat.lt_pow_self (by decide))

/-! ## When there is an expression -/

theorem exists_moreDigits_iff {least most : Nat} (hleast : IsWritable least) :
    (∃ e, moreDigits least (.whole most) = .ok e) ↔ IsWritable most := by
  constructor
  · rintro ⟨e, he⟩
    obtain ⟨hsame, -⟩ | ⟨hwritable, -⟩ := moreDigits_eq_ok he
    · obtain rfl : most = least := by simpa [Number.same, Number.rank] using hsame
      exact hleast
    · simpa [Grammar.isWritable_whole] using hwritable
  · intro h
    unfold moreDigits
    split_ifs with hsame hwritable
    · exact ⟨_, rfl⟩
    · exact ⟨_, rfl⟩
    · exact absurd (by simpa [Grammar.isWritable_whole] using h) hwritable

theorem exists_naturalsFrom_iff {c low : Nat} (hlow : IsWritable (digitsOf low).length) :
    (∃ e, naturalsFrom (.whole (c + 1 : Nat)) low = .ok e) ↔ IsWritable c := by
  rw [← exists_moreDigits_iff hlow]
  constructor
  · rintro ⟨e, he⟩
    obtain ⟨-, more, hmore, -⟩ | ⟨hlt, -⟩ := naturalsFrom_eq_ok he
    · exact ⟨more, pred_whole c ▸ hmore⟩
    · rw [lt_whole, decide_eq_false_iff_not] at hlt
      exact (exists_moreDigits_iff hlow).2 (hlow.mono (by omega))
  · rintro ⟨more, hmore⟩
    unfold naturalsFrom
    dsimp only
    split_ifs
    · exact ⟨_, by rw [pred_whole, hmore]; rfl⟩
    · exact ⟨_, rfl⟩

theorem exists_atLeast_iff {c : Nat} {low : Int} (hlow : IsWritable (width low)) :
    (∃ e, atLeast (.whole (c + 1 : Nat)) low = .ok e) ↔ IsWritable c := by
  unfold atLeast
  split_ifs
  · exact exists_bind_pure_iff.trans (exists_naturalsFrom_iff isWritable_zero)
  · exact exists_naturalsFrom_iff hlow

theorem exists_atMost_iff {c : Nat} {high : Int} (hhigh : IsWritable (width high)) :
    (∃ e, atMost (.whole (c + 1 : Nat)) high = .ok e) ↔ IsWritable c := by
  unfold atMost
  rw [pred_whole]
  split_ifs
  · exact exists_bind_pure_iff.trans (exists_naturalsFrom_iff hhigh)
  · exact exists_bind_pure_iff.trans (exists_moreDigits_iff (hhigh.mono (Nat.zero_le _)))

/-- **There is an expression for a range** where a side is given, the sides are in order and can be
    written, and so can the most digits behind the first one where a side is open. -/
theorem exists_expression_iff {low high : Option Int} {k : Int} :
    (∃ e, expression low high (.whole k) = .ok e) ↔
      (low.isSome = true ∨ high.isSome = true) ∧ (∀ l ∈ low, ∀ h ∈ high, l ≤ h) ∧
      (∀ n ∈ low, IsWritable n.natAbs) ∧ (∀ n ∈ high, IsWritable n.natAbs) ∧
      (low = none ∨ high = none → IsWritable (k - 1).toNat) := by
  obtain ⟨c, hceiling, hmax⟩ := ceilingOf_whole k
  have hc : c = (k - 1).toNat := by omega
  rw [← hc]
  constructor
  · rintro ⟨e, he⟩
    obtain ⟨hlow, hhigh, hwritten⟩ := expression_eq_ok he
    rw [hceiling] at hwritten
    cases hwritten with
    | from_ hside =>
      exact ⟨by simp, by simp, hlow, hhigh, fun _ =>
        (exists_atLeast_iff (isWritable_width (hlow _ rfl))).1 ⟨e, hside⟩⟩
    | upTo hside =>
      exact ⟨by simp, by simp, hlow, hhigh, fun _ =>
        (exists_atMost_iff (isWritable_width (hhigh _ rfl))).1 ⟨e, hside⟩⟩
    | between hle => exact ⟨by simp, by simpa using hle, hlow, hhigh, by simp⟩
  · rintro ⟨hgiven, hle, hlow, hhigh, hopen⟩
    unfold expression
    rw [checkBounds_eq_ok.2 hlow, checkBounds_eq_ok.2 hhigh, hceiling]
    match low, high with
    | none, none => simp at hgiven
    | some l, none => exact (exists_atLeast_iff (isWritable_width (hlow l rfl))).2 (hopen (by simp))
    | none, some h => exact (exists_atMost_iff (isWritable_width (hhigh h rfl))).2 (hopen (by simp))
    | some l, some h => exact ⟨_, if_neg (Int.not_lt.2 (hle l rfl h rfl))⟩

/-! ## The languages of ranges -/

/-- **Ranges of integers are exact.** -/
theorem writes_expression {low high : Option Int} {k : Int} {e : String}
    (h : expression low high (.whole k) = .ok e) :
    t.Writes e (integers (IsInRange (max k.toNat 1) low high)) := by
  obtain ⟨c, hceiling, hmax⟩ := ceilingOf_whole k
  obtain ⟨hlow, hhigh, hwritten⟩ := expression_eq_ok h
  rw [hceiling] at hwritten
  rw [← hmax]
  cases hwritten with
  | from_ hside => exact writes_atLeast t (isWritable_width (hlow _ rfl)) hside
  | upTo hside => exact writes_atMost t (isWritable_width (hhigh _ rfl)) hside
  | between hle he =>
    subst he
    exact writes_between t hle (isWritable_width (hlow _ rfl)) (isWritable_width (hhigh _ rfl))

end Bands

end IntRange

end SchemaGrammar
