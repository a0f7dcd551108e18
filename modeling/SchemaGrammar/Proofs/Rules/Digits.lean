import SchemaGrammar.IntRange
import SchemaGrammar.Proofs.Grammar.Languages
import SchemaGrammar.Proofs.Rules.Repetition

set_option autoImplicit false

/-! # Digits and the numbers they stand for

Numbers with equally many digits are ordered digit by digit (`value_cons_le_iff`), and a number is
the only text of its length with its value. So a band, the texts of some length with values between
two ends, is the set of numerals between these ends as soon as both ends have that length
(`band_eq_numerals`). -/

namespace SchemaGrammar

open Grammar (charWhere)

namespace IntRange

/-! ## Values -/

/-- A text of digits alone. -/
def AreDigits (ds : List Char) : Prop :=
  ∀ d ∈ ds, d.isDigit = true

theorem areDigits_digitsOf (n : Nat) : AreDigits (digitsOf n) :=
  fun _ hd => Text.isDigit_of_mem_toDigits hd

theorem areDigits_nines (count : Nat) : AreDigits (nines count) := by
  intro d hd
  rw [(List.mem_replicate.1 hd).2]
  rfl

theorem areDigits_zeros (count : Nat) : AreDigits (zeros count) := by
  intro d hd
  rw [(List.mem_replicate.1 hd).2]
  rfl

theorem areDigits_cons {d : Char} {ds : List Char} :
    AreDigits (d :: ds) ↔ d.isDigit = true ∧ AreDigits ds :=
  List.forall_mem_cons

/-- The number that a digit stands for. -/
def digit (c : Char) : Nat :=
  c.toNat - '0'.toNat

/-- The number that some digits stand for. -/
def value (ds : List Char) : Nat :=
  Nat.ofDigitChars 10 ds 0

theorem value_cons (d : Char) (ds : List Char) :
    value (d :: ds) = digit d * 10 ^ ds.length + value ds := by
  rw [value, Nat.ofDigitChars_cons, Nat.ofDigitChars_eq_ofDigitChars_zero, Nat.mul_zero, Nat.zero_add,
    Nat.mul_comm]
  rfl

theorem value_digitsOf (n : Nat) : value (digitsOf n) = n :=
  Nat.ofDigitChars_ten_toDigits

theorem digit_spec {d : Char} (h : d.isDigit = true) : d.toNat = digit d + 48 ∧ digit d < 10 := by
  have hall : ∀ d ∈ Text.asciiDigits, d.toNat = digit d + 48 ∧ digit d < 10 := by decide
  exact hall d (Text.mem_asciiDigits h)

theorem digit_injective {c d : Char} (hc : c.isDigit = true) (hd : d.isDigit = true)
    (h : digit c = digit d) : c = d := by
  have hc := digit_spec hc
  have hd := digit_spec hd
  exact Char.toNat_inj.1 (by omega)

theorem value_lt {ds : List Char} (h : AreDigits ds) : value ds < 10 ^ ds.length := by
  induction ds with
  | nil => exact Nat.one_pos
  | cons d rest ih =>
    obtain ⟨hd, hrest⟩ := areDigits_cons.1 h
    have hdigit := (digit_spec hd).2
    rw [value_cons, List.length_cons, Nat.pow_succ]
    calc
      digit d * 10 ^ rest.length + value rest < digit d * 10 ^ rest.length + 10 ^ rest.length :=
        Nat.add_lt_add_left (ih hrest) _
      _ = (digit d + 1) * 10 ^ rest.length := (Nat.succ_mul _ _).symm
      _ ≤ 10 * 10 ^ rest.length := Nat.mul_le_mul_right _ hdigit
      _ = 10 ^ rest.length * 10 := Nat.mul_comm _ _

theorem length_zeros (count : Nat) : (zeros count).length = count :=
  List.length_replicate

theorem length_nines (count : Nat) : (nines count).length = count :=
  List.length_replicate

theorem value_zeros (count : Nat) : value (zeros count) = 0 := by
  rw [value, zeros, Nat.ofDigitChars_replicate_zero, Nat.mul_zero]

theorem value_nines (count : Nat) : value (nines count) + 1 = 10 ^ count := by
  induction count with
  | zero => rfl
  | succ count ih =>
    have hcons : nines (count + 1) = '9' :: nines count := List.replicate_succ
    have hdigit : digit '9' = 9 := rfl
    rw [hcons, value_cons, hdigit, nines, List.length_replicate, Nat.add_assoc, ← nines, ih, Nat.pow_succ]
    omega

/-- The first digit decides, and if it is the same, the others do. -/
theorem value_cons_le_iff {c d : Char} {cs ds : List Char} (hlength : cs.length = ds.length)
    (hcs : AreDigits cs) (hds : AreDigits ds) : value (c :: cs) ≤ value (d :: ds) ↔
      digit c < digit d ∨ digit c = digit d ∧ value cs ≤ value ds := by
  have hc := value_lt hcs
  have hd := value_lt hds
  rw [value_cons, value_cons, hlength]
  rw [hlength] at hc
  generalize 10 ^ ds.length = p at hc hd ⊢
  constructor
  · intro hle
    rcases Nat.lt_trichotomy (digit c) (digit d) with hlt | heq | hgt
    · exact .inl hlt
    · rw [heq] at hle
      exact .inr ⟨heq, by omega⟩
    · have hmul : (digit d + 1) * p ≤ digit c * p := Nat.mul_le_mul_right p hgt
      rw [Nat.succ_mul] at hmul
      omega
  · rintro (hlt | ⟨heq, hle⟩)
    · have hmul : (digit c + 1) * p ≤ digit d * p := Nat.mul_le_mul_right p hlt
      rw [Nat.succ_mul] at hmul
      omega
    · rw [heq]
      omega

theorem value_injective {cs ds : List Char} (hlength : cs.length = ds.length) (hcs : AreDigits cs)
    (hds : AreDigits ds) (h : value cs = value ds) : cs = ds := by
  induction cs generalizing ds with
  | nil => exact (List.length_eq_zero_iff.1 hlength.symm).symm
  | cons c cs ih =>
    obtain ⟨d, ds, rfl⟩ := List.exists_cons_of_length_eq_add_one hlength.symm
    have hlength : cs.length = ds.length := by simpa using hlength
    obtain ⟨hc, hcs⟩ := areDigits_cons.1 hcs
    obtain ⟨hd, hds⟩ := areDigits_cons.1 hds
    have hle := (value_cons_le_iff hlength hcs hds).1 (le_of_eq h)
    have hge := (value_cons_le_iff hlength.symm hds hcs).1 (le_of_eq h.symm)
    have hdigit : digit c = digit d := by omega
    have hvalue : value cs = value ds := by omega
    rw [digit_injective hc hd hdigit, ih hlength hcs hds hvalue]

/-! ## Numerals -/

/-- How many digits a number has. -/
theorem length_digitsOf_le {m n : Nat} (h : m ≤ n) : (digitsOf m).length ≤ (digitsOf n).length := by
  have hpos : 0 < (digitsOf n).length := Nat.length_toDigits_pos
  have hn : n < 10 ^ (digitsOf n).length := (Nat.length_toDigits_le_iff (by decide) hpos).1 le_rfl
  exact (Nat.length_toDigits_le_iff (by decide) hpos).2 (lt_of_le_of_lt h hn)

/-- The digits are those of the number they stand for, if these are as many. -/
theorem eq_digitsOf {ds : List Char} (h : AreDigits ds)
    (hlength : ds.length = (digitsOf (value ds)).length) : ds = digitsOf (value ds) :=
  value_injective hlength h (areDigits_digitsOf _) (value_digitsOf _).symm

theorem length_digitsOf_le_iff {n count : Nat} (h : 0 < count) :
    (digitsOf n).length ≤ count ↔ n < 10 ^ count :=
  Nat.length_toDigits_le_iff (by decide) h

theorem length_digitsOf_pos (n : Nat) : 0 < (digitsOf n).length :=
  Nat.length_toDigits_pos

/-- Digits that do not start with zero are those of the number they stand for. -/
theorem cons_eq_digitsOf {d : Char} {rest : List Char} (h : AreDigits (d :: rest)) (hd : d ≠ '0') :
    d :: rest = digitsOf (value (d :: rest)) := by
  refine eq_digitsOf h (le_antisymm ?_ ?_)
  · -- the value has at least one nonzero digit in front of the others
    have hpos : 0 < digit d := by
      refine Nat.pos_of_ne_zero fun hzero => hd ?_
      exact digit_injective (areDigits_cons.1 h).1 rfl hzero
    have hle : 10 ^ rest.length ≤ value (d :: rest) := by
      rw [value_cons]
      exact Nat.le_trans (Nat.le_mul_of_pos_left _ hpos) (Nat.le_add_right _ _)
    rcases Nat.eq_zero_or_pos rest.length with hnone | hrest
    · rw [List.length_cons, hnone]
      exact length_digitsOf_pos _
    · have hnot := mt (length_digitsOf_le_iff (n := value (d :: rest)) hrest).1 (Nat.not_lt.2 hle)
      rw [List.length_cons]
      omega
  · exact (length_digitsOf_le_iff (by simp)).2 (value_lt h)

theorem nines_eq {count : Nat} (h : 0 < count) : nines count = digitsOf (10 ^ count - 1) := by
  obtain ⟨count, rfl⟩ : ∃ n, count = n + 1 := ⟨count - 1, by omega⟩
  have hcons : nines (count + 1) = '9' :: nines count := List.replicate_succ
  have hvalue := value_nines (count + 1)
  rw [hcons] at hvalue ⊢
  rw [← hvalue, Nat.add_sub_cancel]
  exact cons_eq_digitsOf (areDigits_cons.2 ⟨rfl, areDigits_nines count⟩) (by decide)

theorem one_zeros_eq (count : Nat) : '1' :: zeros count = digitsOf (10 ^ count) := by
  have hvalue : value ('1' :: zeros count) = 10 ^ count := by
    have hdigit : digit '1' = 1 := rfl
    rw [value_cons, hdigit, value_zeros, length_zeros, Nat.one_mul, Nat.add_zero]
  rw [← hvalue]
  exact cons_eq_digitsOf (areDigits_cons.2 ⟨rfl, areDigits_zeros count⟩) (by decide)

/-- The numerals of some naturals. -/
def numerals (P : Nat → Prop) : Language Char :=
  {text | ∃ n, P n ∧ text = digitsOf n}

/-- The texts of so many digits with values between two ends. -/
def band (count low high : Nat) : Language Char :=
  {ds | AreDigits ds ∧ ds.length = count ∧ low ≤ value ds ∧ value ds ≤ high}

theorem numerals_congr {P Q : Nat → Prop} (h : ∀ n, P n ↔ Q n) : numerals P = numerals Q := by
  ext text
  exact exists_congr fun n => and_congr_left fun _ => h n

theorem numerals_add (P Q : Nat → Prop) : numerals P + numerals Q = numerals fun n => P n ∨ Q n := by
  ext text
  constructor
  · rintro (⟨n, hn, rfl⟩ | ⟨n, hn, rfl⟩)
    · exact ⟨n, .inl hn, rfl⟩
    · exact ⟨n, .inr hn, rfl⟩
  · rintro ⟨n, hn | hn, rfl⟩
    · exact .inl ⟨n, hn, rfl⟩
    · exact .inr ⟨n, hn, rfl⟩

theorem band_eq_numerals {count low high : Nat} (hlow : (digitsOf low).length = count)
    (hhigh : (digitsOf high).length = count) :
    band count low high = numerals fun n => low ≤ n ∧ n ≤ high := by
  have hlength {n : Nat} (hn : low ≤ n ∧ n ≤ high) : (digitsOf n).length = count := by
    have := length_digitsOf_le hn.1
    have := length_digitsOf_le hn.2
    omega
  ext text
  constructor
  · rintro ⟨hdigits, hcount, hbetween⟩
    exact ⟨value text, hbetween, eq_digitsOf hdigits (by rw [hcount, hlength hbetween])⟩
  · rintro ⟨n, hn, rfl⟩
    refine ⟨areDigits_digitsOf n, hlength hn, ?_⟩
    rwa [value_digitsOf]

/-! ## Bands digit by digit -/

/-- So many digits. -/
def allDigits (count : Nat) : Language Char :=
  {ds | AreDigits ds ∧ ds.length = count}

/-- One character from `a` to `b`. -/
def fromTo (a b : Char) : Language Char :=
  charWhere fun c => a.toNat ≤ c.toNat ∧ c.toNat ≤ b.toNat

theorem value_le_nines {ds : List Char} (h : AreDigits ds) : value ds ≤ value (nines ds.length) := by
  have := value_lt h
  have := value_nines ds.length
  omega

theorem fromTo_self (c : Char) : fromTo c c = {[c]} := by
  ext text
  constructor
  · rintro ⟨d, rfl, hlow, hhigh⟩
    obtain rfl : d = c := Char.toNat_inj.1 (le_antisymm hhigh hlow)
    rfl
  · rintro rfl
    exact ⟨c, rfl, le_rfl, le_rfl⟩

theorem cons_mem_charWhere_mul {P : Char → Prop} {L : Language Char} {d : Char} {ds : List Char} :
    d :: ds ∈ charWhere P * L ↔ P d ∧ ds ∈ L := by
  constructor
  · rintro ⟨_, ⟨c, rfl, hc⟩, rest, hrest, heq⟩
    obtain ⟨rfl, rfl⟩ := List.cons.inj heq
    exact ⟨hc, hrest⟩
  · rintro ⟨hd, hds⟩
    exact Language.append_mem_mul (a := [d]) ⟨d, rfl, hd⟩ hds

theorem cons_mem_singleton_mul {L : Language Char} {c d : Char} {ds : List Char} :
    d :: ds ∈ ({[c]} : Language Char) * L ↔ d = c ∧ ds ∈ L := by
  constructor
  · rintro ⟨_, rfl, rest, hrest, heq⟩
    obtain ⟨rfl, rfl⟩ := List.cons.inj heq
    exact ⟨rfl, hrest⟩
  · rintro ⟨rfl, hds⟩
    exact Language.append_mem_mul (a := [d]) rfl hds

theorem nil_notMem_charWhere_mul {P : Char → Prop} {L : Language Char} : [] ∉ charWhere P * L := by
  rintro ⟨_, ⟨c, rfl, -⟩, rest, -, heq⟩
  exact List.cons_ne_nil _ _ heq

theorem nil_notMem_singleton_mul {L : Language Char} {c : Char} : [] ∉ ({[c]} : Language Char) * L := by
  rintro ⟨_, rfl, rest, -, heq⟩
  exact List.cons_ne_nil _ _ heq

theorem band_zero : band 0 0 0 = 1 := by
  ext text
  constructor
  · rintro ⟨-, hlength, -⟩
    exact List.length_eq_zero_iff.1 hlength
  · rintro rfl
    exact ⟨by simp [AreDigits], rfl, le_rfl, le_rfl⟩

theorem allDigits_eq (count : Nat) : band count 0 (value (nines count)) = allDigits count := by
  ext ds
  constructor
  · rintro ⟨hdigits, hlength, -⟩
    exact ⟨hdigits, hlength⟩
  · rintro ⟨hdigits, hlength⟩
    have hlt := value_lt hdigits
    have hnines := value_nines count
    rw [hlength] at hlt
    exact ⟨hdigits, hlength, Nat.zero_le _, by omega⟩

section Cons

variable {a b : Char} {as bs : List Char} (ha : AreDigits (a :: as)) (hb : AreDigits (b :: bs))
  (hlength : as.length = bs.length)

include ha hb hlength

theorem cons_mem_band {d : Char} {ds : List Char} :
    d :: ds ∈ band (as.length + 1) (value (a :: as)) (value (b :: bs)) ↔
      d.isDigit = true ∧ (AreDigits ds ∧ ds.length = as.length) ∧
        (digit a < digit d ∨ digit a = digit d ∧ value as ≤ value ds) ∧
          (digit d < digit b ∨ digit d = digit b ∧ value ds ≤ value bs) := by
  have has := (areDigits_cons.1 ha).2
  have hbs := (areDigits_cons.1 hb).2
  constructor
  · rintro ⟨hdigits, hlen, hlow, hhigh⟩
    obtain ⟨hd, hds⟩ := areDigits_cons.1 hdigits
    have hlen : ds.length = as.length := by simpa using hlen
    exact ⟨hd, ⟨hds, hlen⟩, (value_cons_le_iff hlen.symm has hds).1 hlow,
      (value_cons_le_iff (hlen.trans hlength) hds hbs).1 hhigh⟩
  · rintro ⟨hd, ⟨hds, hlen⟩, hlow, hhigh⟩
    exact ⟨areDigits_cons.2 ⟨hd, hds⟩, by simpa using hlen, (value_cons_le_iff hlen.symm has hds).2 hlow,
      (value_cons_le_iff (hlen.trans hlength) hds hbs).2 hhigh⟩

end Cons

section Parts

variable {c d : Char} {cs ds : List Char}

/-- A first digit with what is above a lower end. -/
theorem cons_mem_lowest (hc : c.isDigit = true) :
    d :: ds ∈ {[c]} * band cs.length (value cs) (value (nines cs.length)) ↔
      d.isDigit = true ∧ (AreDigits ds ∧ ds.length = cs.length) ∧
        digit d = digit c ∧ value cs ≤ value ds := by
  rw [cons_mem_singleton_mul]
  constructor
  · rintro ⟨rfl, hds, hlen, hlow, -⟩
    exact ⟨hc, ⟨hds, hlen⟩, rfl, hlow⟩
  · rintro ⟨hd, ⟨hds, hlen⟩, hdigit, hlow⟩
    have hlt := value_lt hds
    have hnines := value_nines cs.length
    rw [hlen] at hlt
    exact ⟨digit_injective hd hc hdigit, hds, hlen, hlow, by omega⟩

/-- A first digit with what is below an upper end. -/
theorem cons_mem_highest {count : Nat} (hc : c.isDigit = true) :
    d :: ds ∈ {[c]} * band count (value (zeros count)) (value cs) ↔
      d.isDigit = true ∧ (AreDigits ds ∧ ds.length = count) ∧
        digit d = digit c ∧ value ds ≤ value cs := by
  rw [cons_mem_singleton_mul, value_zeros]
  constructor
  · rintro ⟨rfl, hds, hlen, -, hhigh⟩
    exact ⟨hc, ⟨hds, hlen⟩, rfl, hhigh⟩
  · rintro ⟨hd, ⟨hds, hlen⟩, hdigit, hhigh⟩
    exact ⟨digit_injective hd hc hdigit, hds, hlen, Nat.zero_le _, hhigh⟩

/-- A first digit in some range, with any digits behind it. -/
theorem cons_mem_fromTo {x y : Char} {low high count : Nat} (hx : x.toNat = low + 48)
    (hy : y.toNat = high + 48) (hhigh : high < 10) :
    d :: ds ∈ fromTo x y * allDigits count ↔ d.isDigit = true ∧ (AreDigits ds ∧ ds.length = count) ∧
      low ≤ digit d ∧ digit d ≤ high := by
  rw [fromTo, cons_mem_charWhere_mul, hx, hy]
  constructor
  · rintro ⟨⟨hlow, hhigh⟩, hds⟩
    have hd : d.isDigit = true := Text.isDigit_iff.2 (by omega)
    have hdigit := digit_spec hd
    exact ⟨hd, hds, by omega, by omega⟩
  · rintro ⟨hd, hds, hbetween⟩
    have hdigit := digit_spec hd
    exact ⟨⟨by omega, by omega⟩, hds⟩

end Parts

theorem nil_notMem_band (count low high : Nat) : [] ∉ band (count + 1) low high := by
  rintro ⟨-, hlength, -⟩
  simp at hlength

section Cut

variable {a b : Char} {as bs : List Char} (ha : AreDigits (a :: as)) (hb : AreDigits (b :: bs))
  (hlength : as.length = bs.length) (hab : digit a < digit b)

theorem toNat_nextDigit {c : Char} (h : c.isDigit = true) (hc : digit c < 9) :
    (nextDigit c).toNat = digit c + 1 + 48 := by
  have hall : ∀ c ∈ Text.asciiDigits, digit c < 9 → (nextDigit c).toNat = digit c + 1 + 48 := by decide
  exact hall c (Text.mem_asciiDigits h) hc

theorem toNat_previousDigit {c : Char} (h : c.isDigit = true) (hc : 0 < digit c) :
    (previousDigit c).toNat = digit c - 1 + 48 := by
  have hall : ∀ c ∈ Text.asciiDigits, 0 < digit c → (previousDigit c).toNat = digit c - 1 + 48 := by
    decide
  exact hall c (Text.mem_asciiDigits h) hc

include ha hb hlength hab

/-- A band between ends whose first digits differ: the lowest digit with what is above the lower
    end, the digits between with anything, and the highest with what is below the upper end. -/
theorem band_cut : band (as.length + 1) (value (a :: as)) (value (b :: bs)) =
    {[a]} * band as.length (value as) (value (nines as.length)) +
      (fromTo (nextDigit a) (previousDigit b) * allDigits as.length +
        {[b]} * band as.length (value (zeros as.length)) (value bs)) := by
  have hda := digit_spec (areDigits_cons.1 ha).1
  have hdb := digit_spec (areDigits_cons.1 hb).1
  have hnext := toNat_nextDigit (areDigits_cons.1 ha).1 (by omega)
  have hprevious := toNat_previousDigit (areDigits_cons.1 hb).1 (by omega)
  ext text
  rw [Language.mem_add, Language.mem_add]
  cases text with
  | nil =>
    simp [nil_notMem_band, nil_notMem_singleton_mul, fromTo, nil_notMem_charWhere_mul]
  | cons d ds =>
    rw [cons_mem_band ha hb hlength, cons_mem_lowest (areDigits_cons.1 ha).1,
      cons_mem_highest (areDigits_cons.1 hb).1, cons_mem_fromTo hnext hprevious (by omega),
      ← and_or_left, ← and_or_left, ← and_or_left, ← and_or_left]
    exact and_congr_right fun _ => and_congr_right fun _ => by omega

/-- With nothing but zeros behind the lowest digit, it is like the digits between. -/
theorem band_cut_zeros (hzeros : as = zeros as.length) :
    band (as.length + 1) (value (a :: as)) (value (b :: bs)) =
      fromTo a (previousDigit b) * allDigits as.length +
        {[b]} * band as.length (value (zeros as.length)) (value bs) := by
  have hda := digit_spec (areDigits_cons.1 ha).1
  have hdb := digit_spec (areDigits_cons.1 hb).1
  have hprevious := toNat_previousDigit (areDigits_cons.1 hb).1 (by omega)
  have hvalue : value as = 0 := by rw [hzeros, value_zeros]
  ext text
  rw [Language.mem_add]
  cases text with
  | nil => simp [nil_notMem_band, nil_notMem_singleton_mul, fromTo, nil_notMem_charWhere_mul]
  | cons d ds =>
    rw [cons_mem_band ha hb hlength, cons_mem_highest (areDigits_cons.1 hb).1,
      cons_mem_fromTo hda.1 hprevious (by omega), ← and_or_left, ← and_or_left]
    exact and_congr_right fun _ => and_congr_right fun _ => by omega

/-- With nothing but nines behind the highest digit, it is like the digits between. -/
theorem band_cut_nines (hnines : bs = nines as.length) :
    band (as.length + 1) (value (a :: as)) (value (b :: bs)) =
      {[a]} * band as.length (value as) (value (nines as.length)) +
        fromTo (nextDigit a) b * allDigits as.length := by
  have hda := digit_spec (areDigits_cons.1 ha).1
  have hdb := digit_spec (areDigits_cons.1 hb).1
  have hnext := toNat_nextDigit (areDigits_cons.1 ha).1 (by omega)
  have hvalue := value_nines as.length
  rw [← hnines] at hvalue
  ext text
  rw [Language.mem_add]
  cases text with
  | nil => simp [nil_notMem_band, nil_notMem_singleton_mul, fromTo, nil_notMem_charWhere_mul]
  | cons d ds =>
    rw [cons_mem_band ha hb hlength, cons_mem_lowest (areDigits_cons.1 ha).1,
      cons_mem_fromTo hnext hdb.1 hdb.2, ← and_or_left, ← and_or_left]
    refine and_congr_right fun _ => and_congr_right fun hds => ?_
    have hlt := value_lt hds.1
    rw [hds.2] at hlt
    omega

omit hab in
/-- Between neighbours there are no digits. -/
theorem band_cut_next (hnext : digit b = digit a + 1) :
    band (as.length + 1) (value (a :: as)) (value (b :: bs)) =
      {[a]} * band as.length (value as) (value (nines as.length)) +
        {[b]} * band as.length (value (zeros as.length)) (value bs) := by
  ext text
  rw [Language.mem_add]
  cases text with
  | nil => simp [nil_notMem_band, nil_notMem_singleton_mul]
  | cons d ds =>
    rw [cons_mem_band ha hb hlength, cons_mem_lowest (areDigits_cons.1 ha).1,
      cons_mem_highest (areDigits_cons.1 hb).1, ← and_or_left, ← and_or_left]
    exact and_congr_right fun _ => and_congr_right fun _ => by omega

omit hab in
/-- A shared first digit stands in front of the band of the others. -/
theorem band_shared (hsame : a = b) :
    band (as.length + 1) (value (a :: as)) (value (b :: bs)) =
      {[a]} * band as.length (value as) (value bs) := by
  ext text
  cases text with
  | nil => simp [nil_notMem_band, nil_notMem_singleton_mul]
  | cons d ds =>
    rw [cons_mem_band ha hb hlength, cons_mem_singleton_mul, ← hsame]
    constructor
    · rintro ⟨hd, ⟨hds, hlen⟩, hlow, hhigh⟩
      exact ⟨digit_injective hd (areDigits_cons.1 ha).1 (by omega), hds, hlen, by omega, by omega⟩
    · rintro ⟨rfl, hds, hlen, hlow, hhigh⟩
      exact ⟨(areDigits_cons.1 ha).1, ⟨hds, hlen⟩, .inr ⟨rfl, hlow⟩, .inr ⟨rfl, hhigh⟩⟩

end Cut

/-- Ends of one digit. -/
theorem band_single {a b : Char} (ha : a.isDigit = true) (hb : b.isDigit = true) :
    band 1 (value [a]) (value [b]) = fromTo a b := by
  have hempty : fromTo a b * allDigits 0 = fromTo a b := by
    have hone : allDigits 0 = 1 := by rw [← allDigits_eq 0]; exact band_zero
    rw [hone, mul_one]
  have hda := digit_spec ha
  have hdb := digit_spec hb
  rw [← hempty]
  ext text
  cases text with
  | nil => simp [nil_notMem_band, fromTo, nil_notMem_charWhere_mul]
  | cons d ds =>
    have hnone : AreDigits [] := by simp [AreDigits]
    have hcons := @cons_mem_band a b [] [] (areDigits_cons.2 ⟨ha, hnone⟩)
      (areDigits_cons.2 ⟨hb, hnone⟩) rfl d ds
    rw [List.length_nil, Nat.zero_add] at hcons
    rw [hcons, cons_mem_fromTo hda.1 hdb.1 hdb.2]
    refine and_congr_right fun _ => and_congr_right fun hds => ?_
    rw [List.length_eq_zero_iff.1 hds.2]
    omega

/-! ## Counted digits -/

/-- From `least` to `most` digits. -/
def digitsBetween (least most : Nat) : Language Char :=
  {ds | AreDigits ds ∧ least ≤ ds.length ∧ ds.length ≤ most}

theorem allDigits_eq_between (count : Nat) : allDigits count = digitsBetween count count := by
  ext ds
  exact and_congr_right fun _ => ⟨fun h => ⟨h.ge, h.le⟩, fun h => le_antisymm h.2 h.1⟩

theorem mem_pow_digit {count : Nat} {ds : List Char} :
    ds ∈ fromTo '0' '9' ^ count ↔ AreDigits ds ∧ ds.length = count := by
  induction count generalizing ds with
  | zero =>
    rw [pow_zero, List.length_eq_zero_iff]
    constructor
    · rintro rfl
      exact ⟨by simp [AreDigits], rfl⟩
    · rintro ⟨-, rfl⟩
      rfl
  | succ count ih =>
    rw [pow_succ', fromTo]
    cases ds with
    | nil => simp [nil_notMem_charWhere_mul]
    | cons d ds =>
      have hall : d :: ds ∈ fromTo '0' '9' * allDigits count ↔
          d.isDigit = true ∧ (AreDigits ds ∧ ds.length = count) ∧ 0 ≤ digit d ∧ digit d ≤ 9 :=
        cons_mem_fromTo rfl rfl (by decide)
      rw [fromTo, cons_mem_charWhere_mul] at hall
      rw [cons_mem_charWhere_mul, ← fromTo, ih, areDigits_cons, List.length_cons, Nat.add_left_inj]
      constructor
      · rintro ⟨hd, hds⟩
        have hdigit := (hall.1 ⟨hd, hds⟩).1
        exact ⟨⟨hdigit, hds.1⟩, hds.2⟩
      · rintro ⟨⟨hd, hds⟩, hlen⟩
        have hdigit := digit_spec hd
        exact hall.2 ⟨hd, ⟨hds, hlen⟩, Nat.zero_le _, by omega⟩

theorem repeated_digit (least most : Nat) :
    Grammar.repeated least (some most) (fromTo '0' '9') = digitsBetween least most := by
  ext ds
  rw [Grammar.mem_repeated]
  constructor
  · rintro ⟨count, hleast, hmost, hds⟩
    obtain ⟨hdigits, rfl⟩ := mem_pow_digit.1 hds
    exact ⟨hdigits, hleast, hmost most rfl⟩
  · rintro ⟨hdigits, hleast, hmost⟩
    exact ⟨ds.length, hleast, by simpa using hmost, mem_pow_digit.2 ⟨hdigits, rfl⟩⟩

theorem digitsBetween_one : digitsBetween 1 1 = fromTo '0' '9' := by
  ext ds
  rw [← allDigits_eq_between, ← pow_one (fromTo '0' '9'), mem_pow_digit]
  rfl

/-- A first digit that is not zero, and some digits behind it. -/
theorem leading_mul_digits (least most : Nat) :
    fromTo '1' '9' * digitsBetween least most = numerals fun n =>
      0 < n ∧ least < (digitsOf n).length ∧ (digitsOf n).length ≤ most + 1 := by
  ext text
  cases text with
  | nil =>
    have hne : ¬ [] ∈ numerals fun n =>
        0 < n ∧ least < (digitsOf n).length ∧ (digitsOf n).length ≤ most + 1 := by
      rintro ⟨n, -, hnil⟩
      exact Nat.toDigits_ne_nil hnil.symm
    simp [hne, fromTo, nil_notMem_charWhere_mul]
  | cons d ds =>
    rw [fromTo, cons_mem_charWhere_mul]
    constructor
    · rintro ⟨hd, hds, hleast, hmost⟩
      have hone : '1'.toNat = 49 := rfl
      have hnine : '9'.toNat = 57 := rfl
      have hfirst : d :: ds ∈ fromTo '1' '9' * allDigits ds.length ↔
          d.isDigit = true ∧ (AreDigits ds ∧ ds.length = ds.length) ∧ 1 ≤ digit d ∧ digit d ≤ 9 :=
        cons_mem_fromTo rfl rfl (by decide)
      have hdigit := hfirst.1 (cons_mem_charWhere_mul.2 ⟨hd, hds, rfl⟩)
      have hdigits : AreDigits (d :: ds) := areDigits_cons.2 ⟨hdigit.1, hds⟩
      have heq := cons_eq_digitsOf hdigits fun hzero => by
        rw [hzero] at hdigit
        exact absurd hdigit.2.2.1 (by decide)
      have hpos : 0 < value (d :: ds) := by
        rw [value_cons]
        exact Nat.lt_of_lt_of_le (Nat.mul_pos hdigit.2.2.1 (Nat.pow_pos (by decide))) (Nat.le_add_right _ _)
      have hlength : (digitsOf (value (d :: ds))).length = ds.length + 1 := by rw [← heq, List.length_cons]
      exact ⟨_, ⟨hpos, by omega, by omega⟩, heq⟩
    · rintro ⟨n, ⟨hpos, hleast, hmost⟩, heq⟩
      obtain ⟨c, rest, hn, hc⟩ := Text.head_toDigits hpos
      have hdigits := areDigits_digitsOf n
      have heq' : d :: ds = c :: rest := heq.trans hn
      obtain ⟨rfl, rfl⟩ := List.cons.inj heq'
      rw [← heq] at hdigits hleast hmost
      obtain ⟨hd, hds⟩ := areDigits_cons.1 hdigits
      have hspec := digit_spec hd
      have hpos : 0 < digit d := Nat.pos_of_ne_zero fun hzero => hc (digit_injective hd rfl hzero)
      have hone : '1'.toNat = 49 := rfl
      have hnine : '9'.toNat = 57 := rfl
      rw [List.length_cons] at hleast hmost
      exact ⟨⟨by omega, by omega⟩, hds, by omega, by omega⟩

/-! ## Integers -/

/-- The numerals of some integers. -/
def integers (P : Int → Prop) : Language Char :=
  {text | ∃ n, P n ∧ text = (intText n).toList}

/-- A minus sign in front of the negative integers, nothing in front of the others. -/
theorem integers_eq (P : Int → Prop) : integers P =
    {['-']} * numerals (fun n => 0 < n ∧ P (-n)) + numerals fun n => P n := by
  ext text
  constructor
  · rintro ⟨n, hn, rfl⟩
    rcases Int.lt_or_le n 0 with hneg | hpos
    · refine .inl (Language.mem_mul.2 ⟨['-'], rfl, digitsOf n.natAbs, ⟨n.natAbs, ⟨by omega, ?_⟩, rfl⟩, ?_⟩)
      · rwa [show (-(n.natAbs : Int)) = n by omega]
      · simp [intText, hneg, natText, digitsOf]
    · refine .inr ⟨n.natAbs, ?_, ?_⟩
      · show P n.natAbs
        rwa [show (n.natAbs : Int) = n by omega]
      · simp [intText, Int.not_lt.2 hpos, natText, digitsOf]
  · rintro (⟨_, rfl, _, ⟨n, ⟨hpos, hn⟩, rfl⟩, rfl⟩ | ⟨n, hn, rfl⟩)
    · refine ⟨-n, hn, ?_⟩
      simp [intText, hpos, natText, digitsOf]
    · refine ⟨n, hn, ?_⟩
      simp [intText, natText, digitsOf, Int.not_lt.2 (Int.natCast_nonneg n)]

theorem numerals_none {P : Nat → Prop} (h : ∀ n, ¬ P n) : numerals P = 0 := by
  ext text
  constructor
  · rintro ⟨n, hn, -⟩
    exact absurd hn (h n)
  · intro htext
    exact absurd htext (Language.notMem_zero text)

end IntRange

end SchemaGrammar
