import Mathlib.Data.List.TakeWhile
import Mathlib.Tactic.IntervalCases
import Mathlib.Tactic.SplitIfs
import SchemaGrammar.Number.Basic
import SchemaGrammar.Text.Split

set_option autoImplicit false

/-! # Reading numerals that were written

The decimal digits of a natural are read back as that natural, if there are not too many of them,
and so are hexadecimal digits, if there are enough of them. -/

namespace SchemaGrammar.Text

/-! ## Deciding along a list -/

/-- What is said of all characters in a list is decided along the list, and not by trying all
    characters there are. -/
instance (priority := 2000) decidableForallMem (p : Char → Prop) [DecidablePred p]
    (cs : List Char) : Decidable (∀ c ∈ cs, p c) :=
  List.decidableBAll p cs

instance (priority := 2000) decidableForallMemOption (p : Char → Prop) [DecidablePred p]
    (c : Option Char) : Decidable (∀ d ∈ c, p d) :=
  Option.decidableForallMem c

/-! ## Letters and digits -/

theorem isDigit_iff {c : Char} : c.isDigit = true ↔ 48 ≤ c.toNat ∧ c.toNat ≤ 57 := by
  have hdigit : c.isDigit = (decide (48 ≤ c.val) && decide (c.val ≤ 57)) := rfl
  rw [hdigit, Bool.and_eq_true, decide_eq_true_eq, decide_eq_true_eq]
  exact and_congr UInt32.le_iff_toNat_le UInt32.le_iff_toNat_le

theorem isAlpha_iff {c : Char} : c.isAlpha = true ↔
    65 ≤ c.toNat ∧ c.toNat ≤ 90 ∨ 97 ≤ c.toNat ∧ c.toNat ≤ 122 := by
  have halpha : c.isAlpha = (decide (65 ≤ c.val ∧ c.val ≤ 90) ||
      (decide (97 ≤ c.val) && decide (c.val ≤ 122))) := rfl
  rw [halpha, Bool.or_eq_true, Bool.and_eq_true, decide_eq_true_eq, decide_eq_true_eq,
    decide_eq_true_eq]
  exact or_congr (and_congr UInt32.le_iff_toNat_le UInt32.le_iff_toNat_le)
    (and_congr UInt32.le_iff_toNat_le UInt32.le_iff_toNat_le)

theorem isAlphanum_iff {c : Char} : c.isAlphanum = true ↔ c.isAlpha = true ∨ c.isDigit = true :=
  Bool.or_eq_true_iff

/-- The ten decimal digits of ASCII. -/
def asciiDigits : List Char := "0123456789".toList

theorem mem_asciiDigits {c : Char} (h : c.isDigit = true) : c ∈ asciiDigits := by
  obtain ⟨hlo, hhi⟩ := isDigit_iff.1 h
  have hc : c = Char.ofNat c.toNat := (Char.ofNat_toNat c).symm
  rw [hc]
  generalize c.toNat = n at *
  interval_cases n <;> decide

/-- What numerals need to know about a digit. -/
structure PlainDigit (c : Char) : Prop where
  ascii : toAsciiNumeral c = c
  notBlank : isAsciiBlank c = false
  notSpace : isBlank c = false
  unsigned : c ≠ '-' ∧ c ≠ '+' ∧ c ≠ '_' ∧ c ≠ ','
  value : digitValue? 10 c = some (c.toNat - '0'.toNat)

theorem plainDigit {c : Char} (h : c.isDigit = true) : PlainDigit c := by
  have hall : ∀ c ∈ asciiDigits, toAsciiNumeral c = c ∧ isAsciiBlank c = false ∧ isBlank c = false ∧
      (c ≠ '-' ∧ c ≠ '+' ∧ c ≠ '_' ∧ c ≠ ',') ∧ digitValue? 10 c = some (c.toNat - '0'.toNat) := by
    decide
  obtain ⟨h1, h2, h3, h4, h5⟩ := hall c (mem_asciiDigits h)
  exact ⟨h1, h2, h3, h4, h5⟩

theorem Ranges.holds_eq_false {ranges : Ranges} {c : Char}
    (h : ∀ x ∈ ranges, c.toNat < x.1 ∨ x.2 < c.toNat) : ranges.holds c = false := by
  induction ranges with
  | nil => rfl
  | cons x rest ih =>
    obtain ⟨lo, hi⟩ := x
    rw [Ranges.holds]
    split_ifs with hlo hhi
    · rfl
    · have := h (lo, hi) (by simp)
      omega
    · exact ih fun x hx => h x (List.mem_cons_of_mem _ hx)

theorem isBlank_of_between {low high c : Char} (hlow : low ≤ c) (hhigh : c ≤ high)
    (hout : ∀ x ∈ blanks, x.2 < low.toNat ∨ high.toNat < x.1) : isBlank c = false := by
  have hc : low.toNat ≤ c.toNat ∧ c.toNat ≤ high.toNat :=
    ⟨UInt32.le_iff_toNat_le.1 hlow, UInt32.le_iff_toNat_le.1 hhigh⟩
  refine Ranges.holds_eq_false fun x hx => ?_
  have := hout x hx
  omega

/-- No digit of any script is a blank. -/
theorem isBlank_of_isDecimal {c : Char} (h : isDecimal c = true) : isBlank c = false := by
  rw [isDecimal, decimalValue?, Option.isSome_map, List.find?_isSome] at h
  obtain ⟨first, hfirst, hrange⟩ := h
  simp only [Bool.and_eq_true, decide_eq_true_eq] at hrange
  have hapart : ∀ first ∈ decimalZeros, ∀ x ∈ blanks, x.2 < first ∨ first + 10 ≤ x.1 := by decide
  refine Ranges.holds_eq_false fun x hx => ?_
  have := hapart first hfirst x hx
  omega

/-! ## Decimal numerals -/

theorem isDigit_of_mem_toDigits {n : Nat} {d : Char} (h : d ∈ Nat.toDigits 10 n) :
    d.isDigit = true :=
  Nat.isDigit_of_mem_toDigits (by decide) (by decide) h

theorem notMem_toDigits {n : Nat} {c : Char} (hc : c.isDigit = false) : c ∉ Nat.toDigits 10 n := by
  intro h
  rw [isDigit_of_mem_toDigits h] at hc
  exact absurd hc (by simp)

/-- The digits of a positive natural do not start with zero. -/
theorem head_toDigits {n : Nat} (h : 0 < n) : ∃ d rest, Nat.toDigits 10 n = d :: rest ∧ d ≠ '0' := by
  induction n using Nat.strongRecOn with
  | ind n ih =>
    by_cases hsmall : n < 10
    · rw [Nat.toDigits_of_lt_base hsmall]
      have hall : ∀ n < 10, 0 < n → n.digitChar ≠ '0' := by decide
      exact ⟨_, [], rfl, hall n hsmall h⟩
    · obtain ⟨d, rest, heq, hd⟩ := ih (n / 10) (by omega) (by omega)
      rw [Nat.toDigits_of_base_le (by decide) (by omega), heq]
      exact ⟨d, _, rfl, hd⟩

/-- A run of digits without underscores has their values. -/
theorem runValues_map {base : Nat} {f : Char → Nat} {c : Char} {cs : List Char}
    (h : ∀ d ∈ c :: cs, d ≠ '_' ∧ digitValue? base d = some (f d)) :
    runValues base (c :: cs) = some ((c :: cs).map f) := by
  induction cs generalizing c with
  | nil => simp [runValues, (h c (by simp)).2]
  | cons d ds ih =>
    have hrest := ih fun e he => h e (List.mem_cons_of_mem _ he)
    rw [runValues]
    · simp [(h c (by simp)).2, hrest]
    · simp
    · rintro rest ⟨⟩
      exact (h '_' (by simp)).1 rfl

theorem ofDigits_digits (ds : List Char) (n : Nat) :
    (ds.map fun d => d.toNat - '0'.toNat).foldl (fun m d => m * 10 + d) n =
      Nat.ofDigitChars 10 ds n := by
  induction ds generalizing n with
  | nil => rfl
  | cons d rest ih =>
    rw [List.map_cons, List.foldl_cons, ih, Nat.ofDigitChars_cons, Nat.mul_comm]

/-- A numeral that is a run of plain digits and nothing else, in base sixteen without the mark of
    the base. Only in base ten there can be too many of them. -/
theorem readInt?_run {base : Nat} {f : Char → Nat} {ds : List Char} (hne : ds ≠ [])
    (hascii : ∀ d ∈ ds, toAsciiNumeral d = d)
    (hplain : ∀ d ∈ ds, isAsciiBlank d = false ∧ d ≠ '-' ∧ d ≠ '+' ∧ d ≠ 'x' ∧ d ≠ 'X')
    (hvalue : ∀ d ∈ ds, d ≠ '_' ∧ digitValue? base d = some (f d)) :
    readInt? base ds = if base = 10 ∧ maxNumeralDigits < ds.length then none
      else some (ofDigits base (ds.map f) : Int) := by
  obtain ⟨c, cs, rfl⟩ := List.exists_cons_of_ne_nil hne
  obtain ⟨hblank, hminus, hplus, -⟩ := hplain c (by simp)
  have hmap : (c :: cs).map toAsciiNumeral = c :: cs := by
    rw [List.map_congr_left hascii, List.map_id']
  have hsign : signOf (c :: cs) = (false, c :: cs) := by
    unfold signOf
    split <;> simp_all
  have hmark : dropBaseMark base (c :: cs) = c :: cs := by
    unfold dropBaseMark
    split <;> simp_all
  have hrun : ∀ d ∈ c :: cs, inDigitRun base d = true := fun d hd => by
    simp [inDigitRun, (hvalue d hd).2]
  have htake : (c :: cs).takeWhile (inDigitRun base) = c :: cs :=
    List.takeWhile_eq_self_iff.2 hrun
  have hdrop : (c :: cs).dropWhile (inDigitRun base) = [] := List.dropWhile_eq_nil_iff.2 hrun
  have hstart : (c :: cs).dropWhile isAsciiBlank = c :: cs := by simp [List.dropWhile, hblank]
  unfold readInt?
  rw [hmap, hstart, hsign]
  simp only [hmark, htake, hdrop, runValues_map hvalue]
  simp

theorem readInt?_ascii {ds : List Char} (hne : ds ≠ []) (h : ∀ d ∈ ds, d.isDigit = true) :
    readInt? 10 ds = if maxNumeralDigits < ds.length then none
      else some (Nat.ofDigitChars 10 ds 0 : Int) := by
  have hmark : ∀ c ∈ asciiDigits, c ≠ 'x' ∧ c ≠ 'X' := by decide
  have hplain (d : Char) (hd : d ∈ ds) :
      isAsciiBlank d = false ∧ d ≠ '-' ∧ d ≠ '+' ∧ d ≠ 'x' ∧ d ≠ 'X' := by
    have hdigit := plainDigit (h d hd)
    exact ⟨hdigit.notBlank, hdigit.unsigned.1, hdigit.unsigned.2.1, hmark d (mem_asciiDigits (h d hd))⟩
  rw [readInt?_run hne (fun d hd => (plainDigit (h d hd)).ascii) hplain
    fun d hd => ⟨(plainDigit (h d hd)).unsigned.2.2.1, (plainDigit (h d hd)).value⟩]
  simp only [true_and, ofDigits, ofDigits_digits]

/-- A number is below the power of the base that its digits fill. -/
theorem ofDigits_lt {base : Nat} {ds : List Nat} (h : ∀ d ∈ ds, d < base) :
    ofDigits base ds < base ^ ds.length := by
  have hfold (n : Nat) : ds.foldl (fun m d => m * base + d) n < (n + 1) * base ^ ds.length := by
    induction ds generalizing n with
    | nil => simp
    | cons d rest ih =>
      obtain ⟨hd, hrest⟩ := List.forall_mem_cons.1 h
      rw [List.foldl_cons, List.length_cons, Nat.pow_succ']
      calc rest.foldl (fun m d => m * base + d) (n * base + d)
          < (n * base + d + 1) * base ^ rest.length := ih hrest _
        _ ≤ (n + 1) * base * base ^ rest.length := by
            refine Nat.mul_le_mul_right _ ?_
            rw [Nat.add_mul, Nat.one_mul]
            omega
        _ = (n + 1) * (base * base ^ rest.length) := Nat.mul_assoc _ _ _
  simpa [ofDigits] using hfold 0

theorem ofDigitChars_lt {ds : List Char} (h : ∀ d ∈ ds, d.isDigit = true) :
    Nat.ofDigitChars 10 ds 0 < 10 ^ ds.length := by
  have hall : ∀ c ∈ asciiDigits, c.toNat - '0'.toNat < 10 := by decide
  have hlt := @ofDigits_lt 10 (ds.map fun d => d.toNat - '0'.toNat) fun n hn => by
    obtain ⟨d, hd, rfl⟩ := List.mem_map.1 hn
    exact hall d (mem_asciiDigits (h d hd))
  rwa [ofDigits, ofDigits_digits, List.length_map] at hlt

theorem readInt?_digits {ds : List Char} (hne : ds ≠ []) (h : ∀ d ∈ ds, d.isDigit = true)
    (hlen : ds.length ≤ maxNumeralDigits) :
    readInt? 10 ds = some (Nat.ofDigitChars 10 ds 0 : Int) := by
  rw [readInt?_ascii hne h, if_neg (not_lt.2 hlen)]

/-- A numeral with too many digits is none. -/
theorem readInt?_tooLong {ds : List Char} (hne : ds ≠ []) (h : ∀ d ∈ ds, d.isDigit = true)
    (hlen : maxNumeralDigits < ds.length) : readInt? 10 ds = none := by
  rw [readInt?_ascii hne h, if_pos hlen]

/-- A natural with few enough digits is read back. -/
theorem readInt?_toDigits {n : Nat} (h : n < 10 ^ maxNumeralDigits) :
    readInt? 10 (Nat.toDigits 10 n) = some (n : Int) := by
  rw [readInt?_digits Nat.toDigits_ne_nil
    (fun d hd => isDigit_of_mem_toDigits hd)
    ((Nat.length_toDigits_le_iff (by decide) (by decide)).2 h), Nat.ofDigitChars_ten_toDigits]

theorem runValues_lt {base : Nat} {cs : List Char} {ds : List Nat}
    (h : runValues base cs = some ds) : ∀ d ∈ ds, d < base := by
  have hdigit {c : Char} {d : Nat} (hd : digitValue? base c = some d) : d < base := by
    simpa using (Option.filter_eq_some_iff.1 hd).2
  have hcons {c : Char} {rest : List Char} {ds : List Nat}
      (ih : ∀ {ds}, runValues base rest = some ds → ∀ d ∈ ds, d < base)
      (h : (do
        let d ← digitValue? base c
        let ds ← runValues base rest
        return d :: ds) = some ds) : ∀ d ∈ ds, d < base := by
    obtain ⟨d, hd, hrest⟩ := Option.bind_eq_some_iff.1 h
    obtain ⟨more, hmore, hds⟩ := Option.bind_eq_some_iff.1 hrest
    obtain rfl := Option.some.inj hds
    exact List.forall_mem_cons.2 ⟨hdigit hd, ih hmore⟩
  fun_induction runValues base cs generalizing ds with
  | case1 => cases h
  | case2 c =>
    obtain ⟨d, hd, rfl⟩ := Option.map_eq_some_iff.1 h
    simpa using hdigit hd
  | case3 c rest ih => exact hcons ih h
  | case4 c rest _ _ ih => exact hcons ih h

/-- A whole number that was read can be written again. -/
theorem isWritable_of_readInt? {cs : List Char} {n : Int} (h : readInt? 10 cs = some n) :
    (Number.whole n).isWritable = true := by
  have hread : ∃ ds, n.natAbs = ofDigits 10 ds ∧ ds.length ≤ maxNumeralDigits ∧ ∀ d ∈ ds, d < 10 := by
    unfold readInt? at h
    dsimp only at h
    split at h
    · cases h
    · rename_i ds hds
      split_ifs at h with hbad hsign
      · simp only [Bool.or_eq_true, not_or, decide_true, Bool.true_and, decide_eq_true_eq] at hbad
        exact ⟨ds, by rw [← Option.some.inj h]; simp, by omega, runValues_lt hds⟩
      · simp only [Bool.or_eq_true, not_or, decide_true, Bool.true_and, decide_eq_true_eq] at hbad
        exact ⟨ds, by rw [← Option.some.inj h]; simp, by omega, runValues_lt hds⟩
  obtain ⟨ds, hvalue, hlen, hlt⟩ := hread
  refine decide_eq_true ((Nat.length_toDigits_le_iff (by decide) (by decide)).2 ?_)
  calc n.natAbs = ofDigits 10 ds := hvalue
    _ < 10 ^ ds.length := ofDigits_lt hlt
    _ ≤ 10 ^ maxNumeralDigits := Nat.pow_le_pow_right (by decide) hlen

/-! ## Numerals between commas -/

theorem splitAt_of_notMem {separator : Char} {cs : List Char} (h : separator ∉ cs) :
    splitAt separator cs = [cs] := by
  induction cs with
  | nil => rfl
  | cons c rest ih =>
    obtain ⟨hc, hrest⟩ := not_or.1 (mt List.mem_cons.2 h)
    simp [splitAt, Ne.symm hc, ih hrest]

theorem splitAt_append {separator : Char} {cs : List Char} (h : separator ∉ cs) (ds : List Char) :
    splitAt separator (cs ++ separator :: ds) = cs :: splitAt separator ds := by
  induction cs with
  | nil => simp [splitAt]
  | cons c rest ih =>
    obtain ⟨hc, hrest⟩ := not_or.1 (mt List.mem_cons.2 h)
    simp [splitAt, Ne.symm hc, ih hrest]

/-- A text has one part at least. -/
theorem splitAt_ne_nil (separator : Char) (cs : List Char) : splitAt separator cs ≠ [] := by
  cases cs with
  | nil => simp [splitAt]
  | cons c rest =>
    rw [splitAt]
    split_ifs
    · simp
    · split <;> simp

/-- The first part ends at the first separator. -/
theorem splitAt_eq_cons {separator : Char} {cs part : List Char} {parts : List (List Char)}
    (h : splitAt separator cs = part :: parts) :
    separator ∉ part ∧ (cs = part ∧ parts = [] ∨
      ∃ rest, cs = part ++ separator :: rest ∧ splitAt separator rest = parts) := by
  induction cs generalizing part parts with
  | nil =>
    obtain ⟨rfl, rfl⟩ := List.cons.inj h
    exact ⟨by simp, .inl ⟨rfl, rfl⟩⟩
  | cons c rest ih =>
    rw [splitAt] at h
    split_ifs at h with hc
    · obtain ⟨rfl, rfl⟩ := List.cons.inj h
      exact ⟨by simp, .inr ⟨rest, by simp [hc], rfl⟩⟩
    · split at h
      · rename_i first others hfirst
        obtain ⟨rfl, rfl⟩ := List.cons.inj h
        obtain ⟨hnot, hrest⟩ := ih hfirst
        refine ⟨by simp [Ne.symm hc, hnot], hrest.imp (fun h => ⟨by rw [h.1], h.2⟩) ?_⟩
        rintro ⟨more, rfl, hmore⟩
        exact ⟨more, rfl, hmore⟩
      · rename_i hnone
        exact absurd hnone (splitAt_ne_nil _ _)

theorem splitAt_eq_singleton {separator : Char} {cs part : List Char}
    (h : splitAt separator cs = [part]) : cs = part ∧ separator ∉ part := by
  obtain ⟨hnot, ⟨hcs, -⟩ | ⟨rest, -, hnil⟩⟩ := splitAt_eq_cons h
  · exact ⟨hcs, hnot⟩
  · exact absurd hnil (splitAt_ne_nil _ _)

theorem splitAt_eq_pair {separator : Char} {cs part other : List Char}
    (h : splitAt separator cs = [part, other]) :
    cs = part ++ separator :: other ∧ separator ∉ part ++ other := by
  obtain ⟨hnot, ⟨-, hnil⟩ | ⟨rest, rfl, hrest⟩⟩ := splitAt_eq_cons h
  · cases hnil
  · obtain ⟨rfl, hother⟩ := splitAt_eq_singleton hrest
    exact ⟨rfl, by simp [hnot, hother]⟩

theorem trimRight_of_getLast {cs : List Char} (h : ∀ c ∈ cs.getLast?, isBlank c = false) :
    trimRight cs = cs := by
  unfold trimRight
  rw [← List.head?_reverse] at h
  cases hcs : cs.reverse with
  | nil => simpa using (congrArg List.reverse hcs).symm
  | cons c rest =>
    rw [hcs] at h
    simp [List.dropWhile, h c (by simp), ← hcs]

theorem trim_digits {ds : List Char} (h : ∀ d ∈ ds, d.isDigit = true) : trim ds = ds := by
  have hleft : trimLeft ds = ds := by
    cases ds with
    | nil => rfl
    | cons d rest => simp [trimLeft, List.dropWhile, (plainDigit (h d (by simp))).notSpace]
  rw [trim, hleft]
  exact trimRight_of_getLast fun c hc => (plainDigit (h c (List.mem_of_getLast? hc))).notSpace

/-- Blanks around digits are trimmed. -/
theorem trim_padded {before ds behind : List Char} (hbefore : ∀ c ∈ before, isBlank c = true)
    (hbehind : ∀ c ∈ behind, isBlank c = true) (hne : ds ≠ [])
    (hds : ∀ d ∈ ds, d.isDigit = true) : trim (before ++ ds ++ behind) = ds := by
  have hleft : trimLeft (before ++ ds ++ behind) = ds ++ behind := by
    obtain ⟨d, rest, rfl⟩ := List.exists_cons_of_ne_nil hne
    rw [trimLeft, List.append_assoc, List.dropWhile_append_of_pos hbefore]
    simp [(plainDigit (hds d (by simp))).notSpace]
  have hright : trimRight (ds ++ behind) = trimRight ds := by
    rw [trimRight, List.reverse_append, List.dropWhile_append_of_pos (by simpa using hbehind)]
    rfl
  rw [trim, hleft, hright]
  exact trimRight_of_getLast fun c hc => (plainDigit (hds c (List.mem_of_getLast? hc))).notSpace

/-! ## Hexadecimal numerals -/

/-- The sixteen hexadecimal digits of ASCII, in small and in capital letters. -/
def asciiHexDigits : List Char := "0123456789abcdefABCDEF".toList

theorem mem_asciiHexDigits {c : Char} (h : isHexDigit c = true) : c ∈ asciiHexDigits := by
  have hranges : 48 ≤ c.toNat ∧ c.toNat ≤ 57 ∨ 97 ≤ c.toNat ∧ c.toNat ≤ 102 ∨
      65 ≤ c.toNat ∧ c.toNat ≤ 70 := by
    unfold isHexDigit hexValue? at h
    split_ifs at h with hdigit hsmall hcapital
    · exact .inl hdigit
    · exact .inr (.inl hsmall)
    · exact .inr (.inr hcapital)
    · cases h
  have hc : c = Char.ofNat c.toNat := (Char.ofNat_toNat c).symm
  rw [hc]
  generalize c.toNat = n at *
  rcases hranges with ⟨hlo, hhi⟩ | ⟨hlo, hhi⟩ | ⟨hlo, hhi⟩ <;> interval_cases n <;> decide

/-- The number that hexadecimal digits name. -/
def ofHexDigits (cs : List Char) : Nat :=
  ofDigits 16 (cs.map fun c => (hexValue? c).getD 0)

theorem ofHexDigits_lt {ds : List Char} (h : ∀ d ∈ ds, isHexDigit d = true) :
    ofHexDigits ds < 16 ^ ds.length := by
  have hall : ∀ c ∈ asciiHexDigits, (hexValue? c).getD 0 < 16 := by decide
  have hlt := @ofDigits_lt 16 (ds.map fun d => (hexValue? d).getD 0) fun n hn => by
    obtain ⟨d, hd, rfl⟩ := List.mem_map.1 hn
    exact hall d (mem_asciiHexDigits (h d hd))
  rwa [List.length_map] at hlt

theorem readInt?_hex {ds : List Char} (hne : ds ≠ []) (h : ∀ d ∈ ds, isHexDigit d = true) :
    readInt? 16 ds = some (ofHexDigits ds : Int) := by
  have hall : ∀ d ∈ asciiHexDigits, toAsciiNumeral d = d ∧
      (isAsciiBlank d = false ∧ d ≠ '-' ∧ d ≠ '+' ∧ d ≠ 'x' ∧ d ≠ 'X') ∧
      d ≠ '_' ∧ digitValue? 16 d = some ((hexValue? d).getD 0) := by
    decide
  have hdigit (d : Char) (hd : d ∈ ds) := hall d (mem_asciiHexDigits (h d hd))
  rw [readInt?_run hne (fun d hd => (hdigit d hd).1) (fun d hd => (hdigit d hd).2.1)
    fun d hd => (hdigit d hd).2.2, if_neg (by simp)]
  rfl

theorem hexDigit_spec (upper : Bool) {n : Nat} (h : n < 16) :
    isHexDigit (hexDigit upper n) = true ∧ (hexValue? (hexDigit upper n)).getD 0 = n := by
  have hall : ∀ upper, ∀ n < 16,
      isHexDigit (hexDigit upper n) = true ∧ (hexValue? (hexDigit upper n)).getD 0 = n := by
    decide
  exact hall upper n h

theorem length_hexDigits (upper : Bool) (width n : Nat) :
    (hexDigits upper width n).length = width := by
  induction width generalizing n with
  | zero => rfl
  | succ width ih => simp [hexDigits, ih]

theorem isHexDigit_of_mem_hexDigits {upper : Bool} {width n : Nat} {d : Char}
    (h : d ∈ hexDigits upper width n) : isHexDigit d = true := by
  induction width generalizing n with
  | zero => cases h
  | succ width ih =>
    rw [hexDigits, List.mem_append, List.mem_singleton] at h
    obtain h | rfl := h
    · exact ih h
    · exact (hexDigit_spec upper (Nat.mod_lt n (by decide))).1

/-- The digits of a number name it, if there are enough of them. -/
theorem ofHexDigits_hexDigits (upper : Bool) {width n : Nat} (h : n < 16 ^ width) :
    ofHexDigits (hexDigits upper width n) = n := by
  induction width generalizing n with
  | zero =>
    obtain rfl : n = 0 := by simpa using h
    rfl
  | succ width ih =>
    have hhigh : n / 16 < 16 ^ width := by
      rw [Nat.pow_succ] at h
      omega
    have hsnoc (cs : List Char) (d : Char) :
        ofHexDigits (cs ++ [d]) = ofHexDigits cs * 16 + (hexValue? d).getD 0 := by
      simp [ofHexDigits, ofDigits]
    rw [hexDigits, hsnoc, ih hhigh, (hexDigit_spec upper (Nat.mod_lt n (by decide))).2]
    omega

/-- The digits of a number are read back. -/
theorem readInt?_hexDigits {upper : Bool} {width n : Nat} (hpos : 0 < width) (h : n < 16 ^ width) :
    readInt? 16 (hexDigits upper width n) = some (n : Int) := by
  have hne : hexDigits upper width n ≠ [] :=
    List.ne_nil_of_length_pos (by rwa [length_hexDigits])
  rw [readInt?_hex hne fun d hd => isHexDigit_of_mem_hexDigits hd, ofHexDigits_hexDigits upper h]

end SchemaGrammar.Text
