import Mathlib.Tactic.SplitIfs
import SchemaGrammar.Proofs.Text.Numeral
import SchemaGrammar.Text.Percent

set_option autoImplicit false

/-! # Percent-encoded text is decoded

`PercentSpells text spelled` says that `spelled` is a percent-encoding of `text`: each character is
either left as it is or written as the bytes of its UTF-8 form, each byte with a percent sign and two
hexadecimal digits in front of it. Which characters are written so is free, except that a percent sign
always is. Decoding gives the text back (`PercentSpells.percentDecode_eq`). -/

namespace SchemaGrammar.Text

/-! ## Characters as bytes -/

/-- The bytes of a character in UTF-8, as numbers. -/
def utf8Bytes (c : Char) : List Nat :=
  (String.utf8EncodeChar c).map UInt8.toNat

theorem ofNat_of_toNat_eq {c : Char} {m n : Nat} (hn : c.toNat = n) (h : m = n) :
    Char.ofNat m = c := by
  rw [h, ← hn, Char.ofNat_toNat]

/-- A character is no half of a surrogate pair and is not above the last code point. -/
theorem toNat_bounds (c : Char) : c.toNat < 0xD800 ∨ 0xDFFF < c.toNat ∧ c.toNat < 0x110000 :=
  c.valid

theorem utf8Bytes_of_ascii {c : Char} (h : isAscii c = true) : utf8Bytes c = [c.toNat] := by
  have hlt : c.toNat < 0x80 := by simpa [isAscii] using h
  have hle : c.toNat ≤ 127 := Nat.le_of_lt_succ hlt
  have hbyte : c.toNat % 256 = c.toNat := Nat.mod_eq_of_lt (hlt.trans (by decide))
  simp [utf8Bytes, String.utf8EncodeChar, hle, hbyte]

/-- The bytes of a character are read as the character, whatever follows. -/
theorem decodeUtf8_utf8Bytes (c : Char) (rest : List Nat) :
    decodeUtf8 (utf8Bytes c ++ rest) = c :: decodeUtf8 rest := by
  have hbounds := toNat_bounds c
  have hcode : c.val.toNat = c.toNat := rfl
  generalize hn : c.toNat = n at hbounds hcode
  unfold utf8Bytes String.utf8EncodeChar
  dsimp only
  rw [hcode]
  split_ifs with h1 h2 h3
  · have hbyte : n % 256 = n := Nat.mod_eq_of_lt (by omega)
    simp only [List.map_cons, List.map_nil, List.singleton_append, UInt8.toNat_ofNat', hbyte]
    rw [decodeUtf8.eq_def]
    dsimp only
    rw [if_pos (by omega), ofNat_of_toNat_eq hn rfl]
  · simp only [List.map_cons, List.map_nil, List.cons_append, List.nil_append, UInt8.toNat_ofNat']
    rw [decodeUtf8.eq_def]
    dsimp only
    rw [if_neg (by omega), if_pos (by simp; omega), if_pos (by simp [isTail]; omega),
      ofNat_of_toNat_eq hn (by omega)]
  · simp only [List.map_cons, List.map_nil, List.cons_append, List.nil_append, UInt8.toNat_ofNat']
    rw [decodeUtf8.eq_def]
    dsimp only
    rw [if_neg (by omega), if_neg (by simp; omega), if_pos (by simp; omega),
      if_pos (by simp [isSecondOfThree]; split_ifs <;> omega), if_pos (by simp [isTail]; omega),
      ofNat_of_toNat_eq hn (by omega)]
  · simp only [List.map_cons, List.map_nil, List.cons_append, List.nil_append, UInt8.toNat_ofNat']
    rw [decodeUtf8.eq_def]
    dsimp only
    rw [if_neg (by omega), if_neg (by simp; omega), if_neg (by simp; omega),
      if_pos (by simp; omega), if_pos (by simp [isSecondOfFour]; split_ifs <;> omega),
      if_pos (by simp [isTail]; omega), if_pos (by simp [isTail]; omega),
      ofNat_of_toNat_eq hn (by omega)]

theorem decodeUtf8_flatMap (text : List Char) :
    decodeUtf8 (text.flatMap utf8Bytes) = text := by
  induction text with
  | nil => rfl
  | cons c rest ih => rw [List.flatMap_cons, decodeUtf8_utf8Bytes, ih]

/-! ## Bytes as escapes -/

/-- Bytes as escapes: each is a percent sign and two hexadecimal digits, large or small. -/
inductive Escapes : List Nat → List Char → Prop
  | nil : Escapes [] []
  | cons {byte : Nat} {high low : Char} {bytes : List Nat} {escapes : List Char}
      (hhigh : hexValue? high = some (byte / 16)) (hlow : hexValue? low = some (byte % 16))
      (rest : Escapes bytes escapes) : Escapes (byte :: bytes) ('%' :: high :: low :: escapes)

theorem Escapes.forall {p : Char → Prop} (hmark : p '%') (hdigit : ∀ c, isHexDigit c = true → p c)
    {bytes : List Nat} {escapes : List Char} (h : Escapes bytes escapes) : ∀ c ∈ escapes, p c := by
  induction h with
  | nil => simp
  | @cons byte high low bytes escapes hhigh hlow _ ih =>
    have hhigh' : p high := hdigit high (by simp [isHexDigit, hhigh])
    have hlow' : p low := hdigit low (by simp [isHexDigit, hlow])
    simpa using ⟨hmark, hhigh', hlow', ih⟩

theorem isAscii_of_isHexDigit {c : Char} (h : isHexDigit c = true) : isAscii c = true := by
  have hall : ∀ c ∈ asciiHexDigits, isAscii c = true := by decide
  exact hall c (mem_asciiHexDigits h)

theorem Escapes.percentBytes {bytes : List Nat} {escapes : List Char} (h : Escapes bytes escapes)
    (rest : List Char) : percentBytes (escapes ++ rest) = bytes ++ percentBytes rest := by
  induction h with
  | nil => rfl
  | @cons byte high low bytes escapes hhigh hlow _ ih =>
    rw [List.cons_append, List.cons_append, List.cons_append, Text.percentBytes.eq_2, hhigh, hlow]
    dsimp only
    rw [ih, Nat.div_add_mod' byte 16, List.cons_append]

theorem percentBytes_cons {c : Char} (h : c ≠ '%') (rest : List Char) :
    percentBytes (c :: rest) = c.toNat :: percentBytes rest := by
  rw [percentBytes.eq_3]
  exact fun _ _ _ heq _ => h heq

/-! ## Texts -/

/-- A text and a percent-encoding of it. -/
inductive PercentSpells : List Char → List Char → Prop
  | nil : PercentSpells [] []
  | raw {c : Char} {text spelled : List Char} (plain : c ≠ '%') (rest : PercentSpells text spelled) :
      PercentSpells (c :: text) (c :: spelled)
  | escaped {c : Char} {text escapes spelled : List Char} (bytes : Escapes (utf8Bytes c) escapes)
      (rest : PercentSpells text spelled) : PercentSpells (c :: text) (escapes ++ spelled)

/-- Characters other than the percent sign need not be encoded. -/
theorem PercentSpells.of_notMem {text : List Char} (h : '%' ∉ text) : PercentSpells text text := by
  induction text with
  | nil => exact .nil
  | cons c rest ih =>
    obtain ⟨hc, hrest⟩ := not_or.1 (mt List.mem_cons.2 h)
    exact .raw (Ne.symm hc) (ih hrest)

/-- Encoding leaves out the characters that the text leaves out, but for the percent sign and
    hexadecimal digits. -/
theorem PercentSpells.notMem {text spelled : List Char} (h : PercentSpells text spelled) {c : Char}
    (hmark : c ≠ '%') (hdigit : isHexDigit c = false) (hc : c ∉ text) : c ∉ spelled := by
  induction h with
  | nil => simp
  | raw _ _ ih =>
    obtain ⟨hne, hrest⟩ := not_or.1 (mt List.mem_cons.2 hc)
    simpa using ⟨hne, ih hrest⟩
  | escaped bytes _ ih =>
    obtain ⟨-, hrest⟩ := not_or.1 (mt List.mem_cons.2 hc)
    rw [List.mem_append, not_or]
    refine ⟨fun hmem => ?_, ih hrest⟩
    refine bytes.forall (p := (· ≠ c)) (Ne.symm hmark) (fun d hd heq => ?_) c hmem rfl
    rw [heq, hdigit] at hd
    cases hd

theorem percentDecodeFrom_append {front : List Char} (h : ∀ c ∈ front, isAscii c = true)
    (run rest : List Char) :
    percentDecodeFrom run (front ++ rest) = percentDecodeFrom (front.reverse ++ run) rest := by
  induction front generalizing run with
  | nil => rfl
  | cons c front ih =>
    have hc := h c (by simp)
    rw [List.cons_append, percentDecodeFrom, if_pos hc,
      ih (fun d hd => h d (List.mem_cons_of_mem _ hd)), List.reverse_cons, List.append_assoc]
    rfl

/-- Decoding goes on behind a run of ASCII characters that stands for `done`. -/
theorem PercentSpells.percentDecodeFrom_eq {text spelled : List Char} (h : PercentSpells text spelled)
    (run done : List Char)
    (hrun : ∀ rest, percentBytes (run.reverse ++ rest) = done.flatMap utf8Bytes ++ percentBytes rest) :
    percentDecodeFrom run spelled = done ++ text := by
  have hdone : decodeUtf8 (percentBytes run.reverse) = done := by
    have hbytes := hrun []
    rw [List.append_nil, percentBytes, List.append_nil] at hbytes
    rw [hbytes, decodeUtf8_flatMap]
  induction h generalizing run done with
  | nil => rw [percentDecodeFrom, hdone, List.append_nil]
  | @raw c text spelled plain _ ih =>
    rw [percentDecodeFrom]
    split_ifs with hascii
    · have hrun' : ∀ rest, percentBytes ((c :: run).reverse ++ rest) =
          (done ++ [c]).flatMap utf8Bytes ++ percentBytes rest := by
        intro rest
        rw [List.reverse_cons, List.append_assoc, hrun, List.singleton_append,
          percentBytes_cons plain, List.flatMap_append, List.append_assoc]
        simp [utf8Bytes_of_ascii hascii]
      have hdone' := hrun' []
      rw [List.append_nil, percentBytes, List.append_nil] at hdone'
      rw [ih (c :: run) (done ++ [c]) hrun' (by rw [hdone', decodeUtf8_flatMap]),
        List.append_assoc]
      rfl
    · rw [hdone, ih [] [] (by simp) rfl]
      rfl
  | @escaped c text escapes spelled bytes _ ih =>
    have hescapes : ∀ d ∈ escapes, isAscii d = true :=
      bytes.forall (by decide) fun _ => isAscii_of_isHexDigit
    have hrun' : ∀ rest, percentBytes ((escapes.reverse ++ run).reverse ++ rest) =
        (done ++ [c]).flatMap utf8Bytes ++ percentBytes rest := by
      intro rest
      rw [List.reverse_append, List.reverse_reverse, List.append_assoc, hrun, bytes.percentBytes,
        List.flatMap_append, List.append_assoc]
      simp
    have hdone' := hrun' []
    rw [List.append_nil, percentBytes, List.append_nil] at hdone'
    rw [percentDecodeFrom_append hescapes, ih _ (done ++ [c]) hrun' (by rw [hdone', decodeUtf8_flatMap]),
      List.append_assoc]
    rfl

/-- **Decoding undoes percent-encoding.** -/
theorem PercentSpells.percentDecode_eq {text spelled : List Char} (h : PercentSpells text spelled) :
    percentDecode spelled = text :=
  h.percentDecodeFrom_eq [] [] fun _ => rfl

end SchemaGrammar.Text
