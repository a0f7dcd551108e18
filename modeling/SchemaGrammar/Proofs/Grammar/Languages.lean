import Mathlib.Algebra.Order.Kleene
import Mathlib.Order.CompletePartialOrder
import SchemaGrammar.Proofs.Grammar.Meaning

set_option autoImplicit false

/-! # Languages of characters and of lists

`charWhere` has the texts of one character with a property. `separated` puts a separator between
each two texts: from the second text on, a list is a row of texts with a separator in front of each
(`following`), and this is what proofs about lists go through. A bound for the parts of a list is a
bound for the whole (`exists_pieces`). -/

namespace SchemaGrammar

open Computability

namespace Grammar

/-! ## Characters -/

/-- One character of which something holds. -/
def charWhere (P : Char → Prop) : Language Char :=
  {text | ∃ c, text = [c] ∧ P c}

theorem charWhere_mono {P Q : Char → Prop} (h : ∀ c, P c → Q c) : charWhere P ≤ charWhere Q := by
  rintro text ⟨c, rfl, hc⟩
  exact ⟨c, rfl, h c hc⟩

theorem singleton_le_iff {text : List Char} {L : Language Char} :
    ({text} : Language Char) ≤ L ↔ text ∈ L :=
  Set.singleton_subset_iff

theorem singleton_append (front back : List Char) :
    ({front ++ back} : Language Char) = {front} * {back} := by
  rw [Language.mul_def]
  exact Set.image2_singleton.symm

/-- A text whose characters all have a property. -/
theorem mem_kstar_charWhere {P : Char → Prop} {text : List Char} (h : ∀ c ∈ text, P c) :
    text ∈ (charWhere P)∗ := by
  refine Language.mem_kstar.2 ⟨text.map fun c => [c], (List.flatMap_singleton' text).symm, ?_⟩
  intro piece hpiece
  obtain ⟨c, hc, rfl⟩ := List.mem_map.1 hpiece
  exact ⟨c, rfl, h c hc⟩

/-! ## Repetition -/

theorem repeated_le_kstar {L M : Language Char} (low : Nat) (high : Option Nat) (h : L ≤ M∗) :
    repeated low high L ≤ M∗ := by
  rintro text ⟨count, -, -, hmem⟩
  have hpow : L ^ count ≤ M∗ := calc
    L ^ count ≤ L∗ := pow_le_kstar
    _ ≤ M∗∗ := kstar_mono h
    _ = M∗ := kstar_idem M
  exact hpow hmem

theorem repeated_exactly (count : Nat) (L : Language Char) :
    repeated count (some count) L = L ^ count := by
  ext text
  rw [mem_repeated]
  constructor
  · rintro ⟨number, hleast, hmost, hmem⟩
    obtain rfl : number = count := le_antisymm (hmost count rfl) hleast
    exact hmem
  · intro hmem
    exact ⟨count, le_refl count, by simp, hmem⟩

theorem repeated_optional (L : Language Char) : repeated 0 (some 1) L = 1 + L := by
  ext text
  rw [mem_repeated, Language.mem_add]
  constructor
  · rintro ⟨count, -, hmost, htext⟩
    rcases Nat.le_one_iff_eq_zero_or_eq_one.1 (hmost 1 rfl) with rfl | rfl
    · exact .inl (by simpa using htext)
    · exact .inr (by simpa using htext)
  · rintro (htext | htext)
    · exact ⟨0, le_rfl, by simp, by simpa using htext⟩
    · exact ⟨1, by simp, by simp, by simpa using htext⟩

/-! ## Classes -/

/-- The characters of some ranges, one by one. -/
def charsOf (ranges : List (Nat × Nat)) : List Char :=
  ranges.flatMap fun (low, high) => (List.range' low (high + 1 - low)).map Char.ofNat

theorem mem_charsOf {ranges : List (Nat × Nat)} {c : Char}
    (h : Node.classHolds false ranges c.toNat = true) : c ∈ charsOf ranges := by
  obtain ⟨⟨low, high⟩, hmem, hbetween⟩ : ∃ range ∈ ranges, range.1 ≤ c.toNat ∧ c.toNat ≤ range.2 := by
    simpa [Node.classHolds] using h
  refine List.mem_flatMap.2 ⟨(low, high), hmem, List.mem_map.2 ⟨c.toNat, ?_, Char.ofNat_toNat c⟩⟩
  dsimp only at hbetween
  rw [List.mem_range'_1]
  omega

/-- A class stays within a language that has each of its characters. -/
theorem class_le {L : Language Char} {ranges : List (Nat × Nat)} (h : ∀ c ∈ charsOf ranges, [c] ∈ L) :
    classLanguage false ranges ≤ L := by
  rintro text ⟨c, rfl, hc⟩
  exact h c (mem_charsOf hc)

/-! ## Lists -/

section Lists

variable (sep : Language Char)

/-- A text of each language, with a text of `sep` in front of each. -/
def following (chosen : List (Language Char)) : Language Char :=
  (chosen.map (sep * ·)).prod

theorem separated_cons (L : Language Char) (rest : List (Language Char)) :
    separated sep (L :: rest) = L * following sep rest := by
  induction rest generalizing L with
  | nil => simp [separated, following]
  | cons next rest ih =>
    rw [separated, ih, following, following, List.map_cons, List.prod_cons]
    simp only [mul_assoc]

theorem following_append (front back : List (Language Char)) :
    following sep (front ++ back) = following sep front * following sep back := by
  simp [following]

theorem separated_append {front : List (Language Char)} (h : front ≠ []) (back : List (Language Char)) :
    separated sep (front ++ back) = separated sep front * following sep back := by
  obtain ⟨L, rest, rfl⟩ := List.exists_cons_of_ne_nil h
  rw [List.cons_append, separated_cons, separated_cons, following_append, mul_assoc]

theorem following_replicate (L : Language Char) (count : Nat) :
    following sep (List.replicate count L) = (sep * L) ^ count := by
  simp [following]

/-- Where every text of the languages is a piece, a list of such texts is a list of pieces. -/
theorem exists_pieces_of_following {α : Type} {P : α → Prop} {piece : α → Language Char}
    {Ls : List (Language Char)} (h : ∀ L ∈ Ls, ∀ text ∈ L, ∃ a, P a ∧ text ∈ piece a) :
    ∀ text ∈ following sep Ls,
      ∃ pieces : List α, (∀ a ∈ pieces, P a) ∧ text ∈ following sep (pieces.map piece) := by
  induction Ls with
  | nil =>
    intro text htext
    exact ⟨[], by simp, htext⟩
  | cons L rest ih =>
    intro text htext
    obtain ⟨front, hfront, back, hback, rfl⟩ := Language.mem_mul.1 htext
    obtain ⟨mark, hmark, first, hfirst, rfl⟩ := Language.mem_mul.1 hfront
    obtain ⟨a, ha, hpiece⟩ := h L List.mem_cons_self first hfirst
    obtain ⟨pieces, hpieces, hmem⟩ := ih (fun M hM => h M (List.mem_cons_of_mem _ hM)) back hback
    refine ⟨a :: pieces, by simpa using ⟨ha, hpieces⟩, ?_⟩
    exact Language.append_mem_mul (Language.append_mem_mul hmark hpiece) hmem

theorem exists_pieces {α : Type} {P : α → Prop} {piece : α → Language Char}
    {Ls : List (Language Char)} (h : ∀ L ∈ Ls, ∀ text ∈ L, ∃ a, P a ∧ text ∈ piece a)
    {text : List Char} (htext : text ∈ separated sep Ls) :
    ∃ pieces : List α, (∀ a ∈ pieces, P a) ∧ text ∈ separated sep (pieces.map piece) := by
  cases Ls with
  | nil => exact ⟨[], by simp, htext⟩
  | cons L rest =>
    rw [separated_cons] at htext
    obtain ⟨first, hfirst, back, hback, rfl⟩ := Language.mem_mul.1 htext
    obtain ⟨a, ha, hpiece⟩ := h L List.mem_cons_self first hfirst
    obtain ⟨pieces, hpieces, hmem⟩ := exists_pieces_of_following sep
      (fun M hM => h M (List.mem_cons_of_mem _ hM)) back hback
    refine ⟨a :: pieces, by simpa using ⟨ha, hpieces⟩, ?_⟩
    rw [List.map_cons, separated_cons]
    exact Language.append_mem_mul hpiece hmem

end Lists

end Grammar

end SchemaGrammar
