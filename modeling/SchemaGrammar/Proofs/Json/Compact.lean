import SchemaGrammar.Json.Writer
import SchemaGrammar.Proofs.Json.Standard

set_option autoImplicit false

/-! # Compact texts are JSON texts

The text in which a constant is written is a JSON text of the standard, when all numbers in it are
finite (`compact_isValue`). The texts of doubles need a look at their digits: those that are found
to read back start with a digit that is not zero, so what is put before the point has no zeros in
front. -/

namespace SchemaGrammar

open Computability

open Standard (natural integer number content string value IsCharacter IsValue IsDigit digits
  someDigits fraction exponent around)

open Grammar (charWhere)

/-! ## Whole numbers -/

theorem mem_digits {ds : List Char} (h : ∀ d ∈ ds, d.isDigit = true) : ds ∈ digits :=
  Grammar.mem_kstar_charWhere h

theorem mem_someDigits {ds : List Char} (hne : ds ≠ []) (h : ∀ d ∈ ds, d.isDigit = true) :
    ds ∈ someDigits := by
  obtain ⟨d, rest, rfl⟩ := List.exists_cons_of_ne_nil hne
  have hrest : rest ∈ digits := mem_digits fun c hc => h c (List.mem_cons_of_mem _ hc)
  exact Language.append_mem_mul (a := [d]) ⟨d, rfl, h d List.mem_cons_self⟩ hrest

/-- Digits that do not start with zero. -/
theorem cons_mem_natural {d : Char} {rest : List Char} (h : ∀ c ∈ d :: rest, c.isDigit = true)
    (hd : d ≠ '0') : d :: rest ∈ natural := by
  have hrest : rest ∈ digits := mem_digits fun c hc => h c (List.mem_cons_of_mem _ hc)
  exact .inr (Language.append_mem_mul (a := [d]) ⟨d, rfl, h d List.mem_cons_self, hd⟩ hrest)

theorem toDigits_mem_natural (n : Nat) : Nat.toDigits 10 n ∈ natural := by
  rcases Nat.eq_zero_or_pos n with rfl | hpos
  · exact .inl rfl
  · obtain ⟨d, rest, heq, hd⟩ := Text.head_toDigits hpos
    have hdigits : ∀ c ∈ d :: rest, c.isDigit = true := by
      intro c hc
      exact Text.isDigit_of_mem_toDigits (heq ▸ hc)
    rw [heq]
    exact cons_mem_natural hdigits hd

/-- A sign or none in front of a natural. -/
theorem signed_mem_integer (negative : Bool) {ds : List Char} (h : ds ∈ natural) :
    (if negative then ['-'] else []) ++ ds ∈ integer := by
  refine Language.append_mem_mul ?_ h
  cases negative
  · exact .inl rfl
  · exact .inr rfl

theorem intText_mem_integer (n : Int) : (intText n).toList ∈ integer := by
  have h := signed_mem_integer (decide (n < 0)) (toDigits_mem_natural n.natAbs)
  unfold intText natText
  split_ifs with hneg
  · simpa [hneg] using h
  · simpa [hneg] using h

/-! ## Doubles -/

namespace Double

theorem scale_den_pos {num den : Nat} (h : 0 < den) (e : Int) : 0 < (scale num den e).2 := by
  unfold scale
  split_ifs
  · exact Nat.mul_pos h (Nat.pow_pos (by decide))
  · exact h

theorem quarters_low_pos {m : Nat} (hm : m ≠ 0) (e : Int) : 0 < (quarters m e).1 := by
  unfold quarters
  dsimp only
  split_ifs
  · omega
  · omega

/-- Zero is no decimal for a double with a mantissa. -/
theorem candidate?_digits {m : Nat} {e : Int} {count : Nat} {c : Candidate} (hm : m ≠ 0)
    (h : candidate? m e count = some c) : 0 < c.digits := by
  have hquarters := quarters_low_pos hm e
  unfold candidate? at h
  split at h
  rename_i low mid high heq
  split at h
  rename_i num den _
  extract_lets power unit step value place below above lower upper inside toBelow toAbove nearer at h
  have hlow : 0 < low := by simpa [heq] using hquarters
  have hunit : 0 < unit.2 := by
    unfold unit
    split_ifs
    · exact Nat.one_pos
    · exact Nat.pow_pos (by decide)
  have hzero : inside 0 = false := by
    have hlower : 0 < lower :=
      Nat.mul_pos (Nat.mul_pos hlow hunit) (scale_den_pos Nat.one_pos _)
    unfold inside
    dsimp only
    split_ifs
    · simp [Nat.not_le.2 hlower]
    · simp
  split_ifs at h with hbelow
  · obtain rfl := Option.some.inj h
    rcases Nat.eq_zero_or_pos below with hnone | hpos
    · simp [hnone, hzero] at hbelow
    · exact hpos
  · obtain rfl := Option.some.inj h
    exact Nat.succ_pos below

theorem shortest_digits {m : Nat} (hm : m ≠ 0) (e : Int) : 0 < (shortest m e).digits := by
  unfold shortest
  cases hfound : (List.range 17).findSome? fun k => candidate? m e (k + 1) with
  | none => exact Nat.pos_of_ne_zero hm
  | some c =>
    obtain ⟨k, -, hc⟩ := List.exists_of_findSome?_eq_some hfound
    exact candidate?_digits hm hc

/-- Without the zeros at its end a number still starts with its first digit. -/
theorem dropTrailingZeros_cons {d : Char} (hd : d ≠ '0') (rest : List Char) :
    ∃ rest', dropTrailingZeros (d :: rest) = d :: rest' ∧ ∀ c ∈ rest', c ∈ rest := by
  refine ⟨(rest.reverse.dropWhile (· = '0')).reverse, ?_, ?_⟩
  · unfold dropTrailingZeros
    rw [List.reverse_cons, List.dropWhile_append]
    split_ifs with hempty
    · simp [List.isEmpty_iff.1 hempty, hd]
    · simp
  · intro c hc
    have hmem := (List.dropWhile_sublist _).mem (List.mem_reverse.1 hc)
    exact List.mem_reverse.1 hmem

theorem fraction_of_digits {ds : List Char} (hne : ds ≠ []) (h : ∀ d ∈ ds, d.isDigit = true) :
    '.' :: ds ∈ fraction :=
  Language.append_mem_mul (a := ['.']) rfl (mem_someDigits hne h)

theorem isDigit_of_mem_zeros {count : Nat} {c : Char} (h : c ∈ List.replicate count '0') :
    c.isDigit = true := by
  rw [(List.mem_replicate.1 h).2]
  rfl

section Digits

variable {d : Char} {rest : List Char} (h : ∀ c ∈ d :: rest, c.isDigit = true) (hd : d ≠ '0')

include h hd

/-- Wherever the point falls, there are digits on both sides, and no zeros too many in front. -/
theorem positional_mem (point : Int) : positional (d :: rest) point ∈ natural * fraction := by
  have hzero : ['0'] ∈ natural := .inl rfl
  unfold positional
  split_ifs with hbefore hinside
  · have hback : ∀ c ∈ List.replicate (-point).toNat '0' ++ d :: rest, c.isDigit = true := by
      intro c hc
      rcases List.mem_append.1 hc with hc | hc
      · exact isDigit_of_mem_zeros hc
      · exact h c hc
    exact Language.append_mem_mul hzero (fraction_of_digits (by simp) hback)
  · obtain ⟨count, hcount⟩ : ∃ n, point.toNat = n + 1 := ⟨point.toNat - 1, by omega⟩
    rw [hcount] at hinside ⊢
    have hfront : (d :: rest).take (count + 1) ∈ natural := by
      rw [List.take_succ_cons]
      exact cons_mem_natural (fun c hc => h c (List.mem_of_mem_take (i := count + 1) hc)) hd
    have hback : ∀ c ∈ (d :: rest).drop (count + 1), c.isDigit = true := by
      intro c hc
      exact h c (List.mem_of_mem_drop hc)
    have hne : (d :: rest).drop (count + 1) ≠ [] := by
      intro hnil
      have := List.drop_eq_nil_iff.1 hnil
      omega
    exact Language.append_mem_mul hfront (fraction_of_digits hne hback)
  · have hfront : d :: (rest ++ List.replicate (point.toNat - (d :: rest).length) '0') ∈ natural := by
      refine cons_mem_natural ?_ hd
      intro c hc
      rw [← List.cons_append] at hc
      rcases List.mem_append.1 hc with hc | hc
      · exact h c hc
      · exact isDigit_of_mem_zeros hc
    have hback : ['.', '0'] ∈ fraction := fraction_of_digits (by simp) (by simp)
    exact Language.append_mem_mul hfront hback

theorem scientific_mem (point : Int) :
    scientific (d :: rest) point ∈ natural * (1 + fraction) * exponent := by
  unfold scientific
  extract_lets power size size' mantissa
  have hmantissa : mantissa ∈ natural * (1 + fraction) := by
    have hfirst : [d] ∈ natural := cons_mem_natural (by simpa using h d List.mem_cons_self) hd
    cases rest with
    | nil => exact Language.append_mem_mul (b := []) hfirst (.inl rfl)
    | cons c rest =>
      have hback := fraction_of_digits (List.cons_ne_nil c rest) fun c hc =>
        h c (List.mem_cons_of_mem _ hc)
      exact Language.append_mem_mul hfirst (.inr hback)
  have hsize : size' ∈ someDigits := by
    have hdigits : ∀ c ∈ size, c.isDigit = true := fun c hc => Text.isDigit_of_mem_toDigits hc
    unfold size'
    split_ifs
    · refine mem_someDigits (List.cons_ne_nil _ _) ?_
      intro c hc
      rcases List.mem_cons.1 hc with rfl | hc
      · rfl
      · exact hdigits c hc
    · exact mem_someDigits Nat.toDigits_ne_nil hdigits
  have hsign : [if power < 0 then '-' else '+'] ∈ (1 + ({['+']} + {['-']}) : Language Char) := by
    split_ifs
    · exact .inr (.inr rfl)
    · exact .inr (.inl rfl)
  refine Language.append_mem_mul hmantissa ?_
  exact Language.append_mem_mul (Language.append_mem_mul (a := ['e']) (.inl rfl) hsign) hsize

end Digits

theorem magnitudeText_mem (m : Nat) (e : Int) :
    magnitudeText m e ∈ natural * (1 + fraction) * (1 + exponent) := by
  have hplain {text : List Char} (h : text ∈ natural * fraction) :
      text ∈ natural * (1 + fraction) * (1 + exponent) := by
    obtain ⟨front, hfront, back, hback, rfl⟩ := Language.mem_mul.1 h
    refine Language.mem_mul.2 ⟨front ++ back, ?_, [], .inl rfl, List.append_nil _⟩
    exact Language.append_mem_mul hfront (.inr hback)
  unfold magnitudeText
  split_ifs with hm
  · have hzero : ['0'] ∈ natural := .inl rfl
    exact hplain (Language.append_mem_mul hzero (fraction_of_digits (by simp) (by simp)))
  · extract_lets c all point ds
    -- the digits that read back start with one that is not zero, and dropping zeros keeps it
    obtain ⟨d, rest, hall, hd⟩ := Text.head_toDigits (shortest_digits hm e)
    obtain ⟨rest', hds, hrest⟩ := dropTrailingZeros_cons hd rest
    have hds : ds = d :: rest' := by
      unfold ds all
      rw [hall, hds]
    have hdigits : ∀ x ∈ d :: rest', x.isDigit = true := by
      intro x hx
      refine Text.isDigit_of_mem_toDigits (n := (shortest m e).digits) (hall ▸ ?_)
      rcases List.mem_cons.1 hx with rfl | hx
      · exact List.mem_cons_self
      · exact List.mem_cons_of_mem _ (hrest x hx)
    rw [hds]
    split_ifs
    · exact hplain (positional_mem hdigits hd point)
    · have hscientific := scientific_mem hdigits hd point
      obtain ⟨front, hfront, back, hback, heq⟩ := Language.mem_mul.1 hscientific
      rw [← heq]
      exact Language.append_mem_mul hfront (.inr hback)

/-- The text of a finite double is a number. -/
theorem text_mem_number {x : Double} (h : x.isFinite = true) : (x.text jsonNames).toList ∈ number := by
  cases x with
  | finite negative m e =>
    have hmagnitude := magnitudeText_mem m e
    obtain ⟨front, hfront, back, hback, heq⟩ := Language.mem_mul.1 hmagnitude
    obtain ⟨whole, hwhole, point, hpoint, rfl⟩ := Language.mem_mul.1 hfront
    have hsigned := signed_mem_integer negative hwhole
    have htext : (text jsonNames (.finite negative m e)).toList =
        (if negative then ['-'] else []) ++ whole ++ point ++ back := by
      rw [text, signed]
      cases negative <;> simp [← heq]
    rw [htext]
    exact Language.append_mem_mul (Language.append_mem_mul hsigned hpoint) hback
  | nan => simp [isFinite] at h
  | infinite negative => simp [isFinite] at h

end Double

namespace Json

/-! ## Strings -/

theorem isHexDigit_hexDigit (n : Nat) : Standard.IsHexDigit (Text.hexDigit false (n % 16)) := by
  have hall : ∀ n < 16, Text.hexDigit false n ∈ "0123456789abcdefABCDEF".toList := by decide
  exact hall (n % 16) (Nat.mod_lt _ (by decide))

theorem isCharacter_escapeChar (c : Char) : IsCharacter (escapeChar c) := by
  unfold escapeChar
  split_ifs with hquote hslash _ _ _ _ _ hcontrol
  · exact .escaped (by simp [Standard.IsEscapeLetter])
  · exact .escaped (by simp [Standard.IsEscapeLetter])
  · exact .escaped (by simp [Standard.IsEscapeLetter])
  · exact .escaped (by simp [Standard.IsEscapeLetter])
  · exact .escaped (by simp [Standard.IsEscapeLetter])
  · exact .escaped (by simp [Standard.IsEscapeLetter])
  · exact .escaped (by simp [Standard.IsEscapeLetter])
  · exact .numbered (isHexDigit_hexDigit _) (isHexDigit_hexDigit _) (isHexDigit_hexDigit _)
      (isHexDigit_hexDigit _)
  · exact .raw (Nat.le_of_not_lt hcontrol) hquote hslash

theorem escape_mem_content (cs : List Char) : escape cs ∈ content := by
  refine Language.mem_kstar.2 ⟨cs.map escapeChar, (List.flatMap_def ..), ?_⟩
  intro piece hpiece
  obtain ⟨c, -, rfl⟩ := List.mem_map.1 hpiece
  exact isCharacter_escapeChar c

theorem stringText_mem_string (s : String) : (stringText s).toList ∈ Standard.string := by
  have hcontent := escape_mem_content s.toList
  rw [stringText, String.toList_ofList]
  exact Language.append_mem_mul (a := '"' :: escape s.toList)
    (Language.append_mem_mul (a := ['"']) rfl hcontent) rfl

/-! ## Values -/

mutual

/-- All numbers in a value are finite. -/
def HasFiniteNumbers : Json → Prop
  | .num (.double x) => x.isFinite = true
  | .arr items => HaveFiniteNumbers items
  | .obj fields => FieldsHaveFiniteNumbers fields
  | _ => True

def HaveFiniteNumbers : List Json → Prop
  | [] => True
  | v :: rest => HasFiniteNumbers v ∧ HaveFiniteNumbers rest

def FieldsHaveFiniteNumbers : List (String × Json) → Prop
  | [] => True
  | (_, v) :: rest => HasFiniteNumbers v ∧ FieldsHaveFiniteNumbers rest

end

theorem numberText_mem_number {x : Number} (h : HasFiniteNumbers (.num x)) :
    (numberText x).toList ∈ Standard.number := by
  cases x with
  | whole n => exact Standard.integer_le_number (intText_mem_integer n)
  | double x => exact Double.text_mem_number (by simpa [HasFiniteNumbers] using h)

/-- The text of a value is more than blanks, even if a number in it is not finite. -/
theorem not_areBlank_compact (v : Json) : ¬ Standard.AreBlank v.compact.toList := by
  have hmarked {c : Char} {text : List Char} (hc : ¬ Standard.AreBlank [c]) :
      ¬ Standard.AreBlank (c :: text) := by
    intro hblank
    exact hc (List.forall_mem_singleton.2 (hblank c List.mem_cons_self))
  cases v with
  | null => decide
  | bool b => cases b <;> decide
  | num x =>
    cases x with
    | whole n => exact Standard.not_areBlank_of_mem_number (numberText_mem_number trivial)
    | double x =>
      cases x with
      | finite negative m e =>
        exact Standard.not_areBlank_of_mem_number (numberText_mem_number rfl)
      | infinite negative => cases negative <;> decide
      | nan => decide
  | str s =>
    rw [compact, stringText, String.toList_ofList]
    exact hmarked (by decide)
  | arr items =>
    rw [compact, String.toList_append, String.toList_append]
    exact hmarked (by decide)
  | obj fields =>
    rw [compact, String.toList_append, String.toList_append]
    exact hmarked (by decide)

/-- Texts with commas between them are a list. -/
theorem intercalate_mem_separated {S L : Language Char} (hcomma : [','] ∈ S) {texts : List String}
    (h : ∀ text ∈ texts, text.toList ∈ L) :
    (",".intercalate texts).toList ∈ Grammar.separated S (texts.map fun _ => L) := by
  induction texts with
  | nil => rfl
  | cons text rest ih =>
    have hfirst : text.toList ∈ L := h text List.mem_cons_self
    have hrest := ih fun other hother => h other (List.mem_cons_of_mem _ hother)
    cases rest with
    | nil => simpa [Grammar.separated] using hfirst
    | cons next rest =>
      rw [String.intercalate_cons_cons, String.toList_append, String.toList_append]
      exact Language.append_mem_mul (Language.append_mem_mul hfirst hcomma) hrest

theorem bracketed_mem {opening closing : Char} {L : Language Char} {texts : List String}
    (h : ∀ text ∈ texts, text.toList ∈ L) :
    opening :: (",".intercalate texts).toList ++ [closing] ∈
      around opening * Grammar.separated (around ',') (texts.map fun _ => L) * around closing := by
  have hopening : [opening] ∈ around opening := Standard.mark_le_around opening rfl
  have hclosing : [closing] ∈ around closing := Standard.mark_le_around closing rfl
  have hcomma : [','] ∈ around ',' := Standard.mark_le_around ',' rfl
  exact Language.append_mem_mul
    (Language.append_mem_mul hopening (intercalate_mem_separated hcomma h)) hclosing

mutual

/-- **Compact texts are texts of values.** -/
theorem compact_isValue : ∀ v : Json, HasFiniteNumbers v → IsValue v.compact.toList
  | .null, _ => .name (by simp [compact])
  | .bool b, _ => .name (by cases b <;> simp [compact])
  | .num x, h => .number (numberText_mem_number h)
  | .str s, _ => .string (stringText_mem_string s)
  | .arr items, h => by
    have htext : (compact (.arr items)).toList =
        '[' :: (",".intercalate (compactItems items)).toList ++ [']'] := by
      simp [compact]
    rw [htext]
    refine Standard.array_le_value ?_ (bracketed_mem (L := Standard.value) (compactItems_areValues items h))
    intro L hL
    obtain ⟨_, _, rfl⟩ := List.mem_map.1 hL
    exact le_rfl
  | .obj fields, h => by
    have htext : (compact (.obj fields)).toList =
        '\x7b' :: (",".intercalate (compactFields fields)).toList ++ ['\x7d'] := by
      simp [compact]
    rw [htext]
    refine Standard.object_le_value ?_ (bracketed_mem (compactFields_areMembers fields h))
    intro L hL
    obtain ⟨_, _, rfl⟩ := List.mem_map.1 hL
    exact le_rfl

theorem compactItems_areValues : ∀ items : List Json, HaveFiniteNumbers items →
    ∀ text ∈ compactItems items, IsValue text.toList
  | [], _ => by simp [compactItems]
  | v :: rest, h => by
    have hrest := compactItems_areValues rest h.2
    intro text htext
    rcases List.mem_cons.1 htext with rfl | htext
    · exact compact_isValue v h.1
    · exact hrest text htext

theorem compactFields_areMembers : ∀ fields : List (String × Json), FieldsHaveFiniteNumbers fields →
    ∀ text ∈ compactFields fields, text.toList ∈ Standard.member
  | [], _ => by simp [compactFields]
  | (key, v) :: rest, h => by
    have hrest := compactFields_areMembers rest h.2
    intro text htext
    rcases List.mem_cons.1 htext with rfl | htext
    · have hcolon : [':'] ∈ around ':' := Standard.mark_le_around ':' rfl
      rw [String.toList_append, String.toList_append]
      exact Language.append_mem_mul
        (Language.append_mem_mul (stringText_mem_string key) hcolon) (compact_isValue v h.1)
    · exact hrest text htext

end

end Json

end SchemaGrammar
