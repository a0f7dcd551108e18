import SchemaGrammar.Grammar.Literal
import SchemaGrammar.Proofs.Grammar.Languages
import SchemaGrammar.Proofs.Grammar.Layout

set_option autoImplicit false

/-! # Phrases

A phrase is a text that is written properly over some names and has one language in some grammars.
Items can be repeated (`ReadsItem`), rows are items side by side (`ReadsRow`), and an expression
may have branches (`Reads`). There is a lemma for each way to put phrases together. What the
grammars are is left open: they may hold the bodies of a table, or there may be just one. -/

namespace SchemaGrammar

namespace Grammar

/-- The text is an item with a language. -/
def ReadsItem (P : String → Prop) (Q : Grammar → Prop) (e : String) (L : Language Char) : Prop :=
  ∃ node, Written P (.item node) e.toList ∧ ∀ g : Grammar, Q g → g.language node = L

/-- The text is a row of items with a language. -/
def ReadsRow (P : String → Prop) (Q : Grammar → Prop) (e : String) (L : Language Char) : Prop :=
  ∃ row, Written P (.rows [row]) e.toList ∧ ∀ g : Grammar, Q g → (row.map g.language).prod = L

/-- The text is an expression with a language. -/
def Reads (P : String → Prop) (Q : Grammar → Prop) (e : String) (L : Language Char) : Prop :=
  ∃ rows, Written P (.rows rows) e.toList ∧ ∀ g : Grammar, Q g → g.rowsLanguage rows = L

/-- More names may be allowed. -/
theorem Reads.mono {P P' : String → Prop} {Q : Grammar → Prop} {e : String} {L : Language Char}
    (h : Reads P Q e L) (hP : ∀ name, P name → P' name) : Reads P' Q e L := by
  obtain ⟨rows, hw, hL⟩ := h
  exact ⟨rows, hw.mono hP, hL⟩

section Combinators

variable {P : String → Prop} {Q : Grammar → Prop} {a b e : String} {A B L : Language Char}

/-! ## Items -/

theorem readsItem_name {name : String} (hname : P name)
    (h : ∀ g : Grammar, Q g → g.language (.rule name) = L) : ReadsItem P Q name L :=
  ⟨.rule name, .name hname, h⟩

theorem ReadsItem.row (h : ReadsItem P Q e L) : ReadsRow P Q e L := by
  obtain ⟨node, hw, hL⟩ := h
  exact ⟨[node], .single hw, fun g hg => by simpa using hL g hg⟩

theorem ReadsRow.reads (h : ReadsRow P Q e L) : Reads P Q e L := by
  obtain ⟨row, hw, hL⟩ := h
  exact ⟨[row], hw, fun g hg => by rw [rowsLanguage_single, hL g hg]⟩

theorem ReadsItem.reads (h : ReadsItem P Q e L) : Reads P Q e L :=
  h.row.reads

theorem Reads.group (h : Reads P Q e L) : ReadsItem P Q ("(" ++ e ++ ")") L := by
  obtain ⟨rows, hw, hL⟩ := h
  have htext : ("(" ++ e ++ ")").toList = '(' :: (e.toList ++ [')']) := by simp
  refine ⟨_, by rw [htext]; exact .group hw, fun g hg => ?_⟩
  rw [language_ofRows g hw.fits.1, hL g hg]

theorem ReadsItem.times {low : Nat} {high : Option Nat} {counts : String}
    (h : ReadsItem P Q e L) (hc : Counted counts.toList low high) :
    ReadsItem P Q (e ++ counts) (repeated low high L) := by
  obtain ⟨node, hw, hL⟩ := h
  refine ⟨_, by rw [String.toList_append]; exact .times hw hc, fun g hg => ?_⟩
  rw [language_rep, hL g hg]

theorem ReadsItem.optional (h : ReadsItem P Q e L) :
    ReadsItem P Q (e ++ "?") (repeated 0 (some 1) L) :=
  h.times .optional

theorem ReadsItem.star (h : ReadsItem P Q e L) : ReadsItem P Q (e ++ "*") (repeated 0 none L) :=
  h.times .star

theorem ReadsItem.plus (h : ReadsItem P Q e L) : ReadsItem P Q (e ++ "+") (repeated 1 none L) :=
  h.times .plus

/-! ## Rows -/

theorem readsRow_empty : ReadsRow P Q "" 1 :=
  ⟨[], .void, fun _ _ => rfl⟩

theorem readsRow_blank : ReadsRow P Q " " 1 :=
  ⟨[], .blank, fun _ _ => rfl⟩

theorem ReadsRow.append (ha : ReadsRow P Q a A) (hb : ReadsRow P Q b B)
    (hab : Apart a.toList b.toList) : ReadsRow P Q (a ++ b) (A * B) := by
  obtain ⟨row, hw, hL⟩ := ha
  obtain ⟨row', hw', hL'⟩ := hb
  refine ⟨row ++ row', by rw [String.toList_append]; exact .append hw hw' hab, fun g hg => ?_⟩
  rw [List.map_append, List.prod_append, hL g hg, hL' g hg]

theorem ReadsRow.blank_append (h : ReadsRow P Q e L) : ReadsRow P Q (" " ++ e) L := by
  have happart : Apart " ".toList e.toList := apart_of_getLast (by simp; decide)
  simpa using readsRow_blank.append h happart

/-- Two rows with a blank between them. -/
theorem Written.beside {row row' : List Node} (ha : Written P (.rows [row]) a.toList)
    (hb : Written P (.rows [row']) b.toList) :
    Written P (.rows [row ++ row']) (a ++ " " ++ b).toList := by
  have hblank : Written P (.rows [row]) (a ++ " ").toList := by
    rw [String.toList_append]
    simpa [joinRows] using ha.append .blank (apart_of_head (by simp; decide))
  rw [String.toList_append (s := a ++ " ")]
  refine .append hblank hb (apart_of_getLast ?_)
  rw [String.toList_append, show " ".toList = [' '] from rfl, List.getLast?_concat]
  simp
  decide

theorem ReadsRow.beside (ha : ReadsRow P Q a A) (hb : ReadsRow P Q b B) :
    ReadsRow P Q (a ++ " " ++ b) (A * B) := by
  obtain ⟨row, hw, hL⟩ := ha
  obtain ⟨row', hw', hL'⟩ := hb
  refine ⟨row ++ row', hw.beside hw', fun g hg => ?_⟩
  rw [List.map_append, List.prod_append, hL g hg, hL' g hg]

/-! ## Branches -/

/-- Branches with a bar between them. -/
theorem Written.or {rows rows' : List (List Node)} (ha : Written P (.rows rows) a.toList)
    (hb : Written P (.rows rows') b.toList) :
    Written P (.rows (rows ++ rows')) (a ++ " | " ++ b).toList := by
  have hbar : Written P (.rows [[], []]) " | ".toList := by
    have hfirst : Written P (.rows [[], []]) [' ', '|'] :=
      .append .blank .bar (apart_of_head (by simp; decide))
    exact .append hfirst .blank (apart_of_head (by simp; decide))
  have hleft : Written P (.rows (joinRows rows [[], []])) (a.toList ++ " | ".toList) :=
    .append ha hbar (apart_of_head (by simp; decide))
  rw [← joinRows_bar rows rows' ha.fits.1 hb.fits.1, String.toList_append, String.toList_append]
  refine .append hleft hb (apart_of_getLast ?_)
  rw [show " | ".toList = [' ', '|'] ++ [' '] from rfl, ← List.append_assoc,
    List.getLast?_concat]
  simp
  decide

theorem Reads.or (ha : Reads P Q a A) (hb : Reads P Q b B) : Reads P Q (a ++ " | " ++ b) (A + B) := by
  obtain ⟨rows, hw, hL⟩ := ha
  obtain ⟨rows', hw', hL'⟩ := hb
  refine ⟨rows ++ rows', hw.or hw', fun g hg => ?_⟩
  rw [← hL g hg, ← hL' g hg]
  simp [rowsLanguage]

theorem Reads.blank_append (h : Reads P Q e L) : Reads P Q (" " ++ e) L := by
  obtain ⟨rows, hw, hL⟩ := h
  have hblank : Written P (.rows (joinRows [[]] rows)) (" ".toList ++ e.toList) :=
    .append .blank hw (apart_of_getLast (by simp; decide))
  rw [blank_joinRows rows hw.fits.1] at hblank
  exact ⟨rows, by simpa using hblank, hL⟩

theorem Reads.append_blank (h : Reads P Q e L) : Reads P Q (e ++ " ") L := by
  obtain ⟨rows, hw, hL⟩ := h
  have hblank : Written P (.rows (joinRows rows [[]])) (e.toList ++ " ".toList) :=
    .append hw .blank (apart_of_head (by simp; decide))
  rw [joinRows_blank rows hw.fits.1] at hblank
  exact ⟨rows, by simpa using hblank, hL⟩

/-- Blanks around an expression. -/
theorem Reads.padded (h : Reads P Q e L) : Reads P Q (" " ++ e ++ " ") L :=
  h.blank_append.append_blank

/-! ## Lists -/

theorem reads_choices {es : List String} {Ls : List (Language Char)} (hne : es ≠ [])
    (h : List.Forall₂ (Reads P Q) es Ls) : Reads P Q (" | ".intercalate es) Ls.sum := by
  induction h with
  | nil => exact absurd rfl hne
  | @cons e L es Ls he hes ih =>
    cases hes with
    | nil => simpa using he
    | @cons e' L' es Ls he' hes =>
      rw [String.intercalate_cons_cons, List.sum_cons]
      exact he.or (ih (List.cons_ne_nil _ _))

/-- Rows in a row, with a separator between each two. -/
theorem readsRow_separated {sep : String} {S : Language Char} {es : List String}
    {Ls : List (Language Char)} (hsep : ReadsRow P Q sep S)
    (h : List.Forall₂ (ReadsRow P Q) es Ls) :
    ReadsRow P Q ((" " ++ sep ++ " ").intercalate es) (separated S Ls) := by
  induction h with
  | nil => exact readsRow_empty
  | @cons e L es Ls he hes ih =>
    cases hes with
    | nil => simpa [separated] using he
    | @cons e' L' es Ls he' hes =>
      have htext : (" " ++ sep ++ " ").intercalate (e :: e' :: es) =
          e ++ " " ++ sep ++ " " ++ (" " ++ sep ++ " ").intercalate (e' :: es) := by
        simp [String.intercalate_cons_cons, String.append_assoc]
      rw [htext, separated]
      exact (he.beside hsep).beside ih

/-! ## Literals and classes -/

theorem quoted_literalChar (c : Char) (rest : List Char) (codes : List Nat)
    (h : Quoted rest codes) :
    Quoted (literalChar c ++ rest) (c.toNat :: codes) := by
  unfold literalChar
  split_ifs with h1 h2 h3 h4
  · subst h1
    exact .cons (.escaped rfl) (by simp) h
  · subst h2
    exact .cons (.escaped rfl) (by simp) h
  · subst h3
    exact .cons (.escaped rfl) (by simp) h
  · subst h4
    exact .cons (.escaped rfl) (by simp) h
  · exact .cons (.raw h2) (by simpa using h1) h

theorem quoted_literalText (cs : List Char) :
    Quoted (cs.flatMap literalChar) (cs.map Char.toNat) := by
  induction cs with
  | nil => exact .nil
  | cons c rest ih => exact quoted_literalChar c _ _ ih

theorem readsItem_literal (s : String) : ReadsItem P Q (literalText s) {s.toList} := by
  refine ⟨.literal (s.toList.map Char.toNat), ?_, fun g _ => language_literal g s.toList⟩
  rw [literalText, String.toList_ofList]
  exact .literal (quoted_literalText s.toList)

theorem readsItem_charClass {text : List Char} {ranges : List (Nat × Nat)}
    (h : Bracketed text ranges) (plain : text.head? ≠ some '^') :
    ReadsItem P Q ("[" ++ String.ofList text ++ "]") (classLanguage false ranges) := by
  refine ⟨.charClass false ranges, ?_, fun g _ => language_charClass g _ _⟩
  simpa using .charClass h plain

theorem readsItem_exceptClass {text : List Char} {ranges : List (Nat × Nat)}
    (h : Bracketed text ranges) :
    ReadsItem P Q ("[^" ++ String.ofList text ++ "]") (classLanguage true ranges) := by
  refine ⟨.charClass true ranges, ?_, fun g _ => language_charClass g _ _⟩
  simpa using .exceptClass h

end Combinators

end Grammar

end SchemaGrammar
