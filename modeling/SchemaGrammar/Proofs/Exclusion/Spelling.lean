import SchemaGrammar.Proofs.Exclusion.Trie
import SchemaGrammar.Proofs.Rules.Digits

set_option autoImplicit false

/-! # Spelled strings

The rule for characters takes a string piece by piece, an escape as a whole. Seen from a place within
a character, what may still come is told by the next character alone (`IsSpelled`), and both ways to
see it agree (`more_eq`). A trie holds some texts (`Trie.Holds`), which are those that were put in it
(`Trie.holds_ofTexts`). A text goes along the edges of a trie as far as it can, and from there it is
spelled as it likes (`Follows`); if all texts of the trie are spelled, this means nothing else than to
be spelled (`follows_iff`). -/

namespace SchemaGrammar

open Computability

open Grammar (charWhere)

namespace Exclusion

/-! ## Characters -/

/-- The characters that the rule for characters takes at a place. -/
def Place.Takes : Place → Char → Prop
  | .boundary, c => ' ' ≤ c ∧ c ≠ '"' ∧ c ≠ '\x7f'
  | .escape, c => c ∈ escapeLetters ∨ c = 'u'
  | .digits _, c => c ∈ hexLetters

/-- A text goes on from a place with such characters, and ends between two of them. -/
def IsSpelled : Place → List Char → Prop
  | place, [] => place = .boundary
  | place, c :: cs => place.Takes c ∧ IsSpelled (place.next c) cs

def spelled (place : Place) : Language Char :=
  {e | IsSpelled place e}

/-- A character that stands for itself. -/
def IsRaw (c : Char) : Prop :=
  Place.boundary.Takes c ∧ c ≠ '\\'

/-- What comes behind a backslash. -/
def escapeTail : Language Char :=
  charWhere (· ∈ escapeLetters) + {['u']} * charWhere (· ∈ hexLetters) ^ 4

/-- One character of a string. -/
def character : Language Char :=
  charWhere IsRaw + {['\\']} * escapeTail

/-- What completes a place, and any characters. -/
def Place.more : Place → Language Char
  | .boundary => character∗
  | .escape => escapeTail * character∗
  | .digits missing => charWhere (· ∈ hexLetters) ^ missing * character∗

theorem isSpelled_append {place : Place} {front back : List Char} (hfront : IsSpelled place front)
    (hback : IsSpelled .boundary back) : IsSpelled place (front ++ back) := by
  induction front generalizing place with
  | nil =>
    obtain rfl : place = .boundary := hfront
    exact hback
  | cons c cs ih =>
    obtain ⟨hc, hcs⟩ := hfront
    exact ⟨hc, ih hcs⟩

theorem singleton_mul_le {place : Place} {c : Char} (hc : place.Takes c) :
    {[c]} * spelled (place.next c) ≤ spelled place := by
  intro text htext
  obtain ⟨front, rfl, back, hback, rfl⟩ := Language.mem_mul.1 htext
  exact ⟨hc, hback⟩

theorem charWhere_mul_le {place next : Place} {P : Char → Prop}
    (h : ∀ c, P c → place.Takes c ∧ place.next c = next) :
    charWhere P * spelled next ≤ spelled place := by
  intro text htext
  obtain ⟨front, ⟨c, rfl, hc⟩, back, hback, rfl⟩ := Language.mem_mul.1 htext
  obtain ⟨htakes, rfl⟩ := h c hc
  exact ⟨htakes, hback⟩

theorem one_le_spelled : 1 ≤ spelled .boundary := by
  intro text htext
  obtain rfl : text = [] := htext
  exact rfl

theorem next_escape {c : Char} (h : c ∈ escapeLetters) : Place.escape.next c = .boundary := by
  have hall : ∀ c ∈ escapeLetters, Place.escape.next c = .boundary := by decide
  exact hall c h

/-- The digits of an escape by number: by induction on how many are missing. -/
theorem hexDigits_mul_le (missing : Nat) :
    charWhere (· ∈ hexLetters) ^ (missing + 1) * spelled .boundary ≤ spelled (.digits (missing + 1)) := by
  induction missing with
  | zero =>
    rw [Nat.zero_add, pow_one]
    exact charWhere_mul_le fun c hc => ⟨hc, rfl⟩
  | succ missing ih =>
    rw [pow_succ', mul_assoc]
    refine le_trans (mul_le_mul' le_rfl ih) (charWhere_mul_le fun c hc => ⟨hc, ?_⟩)
    rw [Place.next, if_pos (by omega), Nat.add_sub_cancel]

theorem escapeTail_mul_le : escapeTail * spelled .boundary ≤ spelled .escape := by
  rw [escapeTail, add_mul, mul_assoc]
  refine add_le (charWhere_mul_le fun c hc => ⟨.inl hc, next_escape hc⟩) ?_
  have hu : Place.escape.Takes 'u' := .inr rfl
  exact le_trans (mul_le_mul' le_rfl (hexDigits_mul_le 3)) (singleton_mul_le hu)

theorem character_mul_le : character * spelled .boundary ≤ spelled .boundary := by
  rw [character, add_mul, mul_assoc]
  refine add_le (charWhere_mul_le fun c hc => ⟨hc.1, if_neg hc.2⟩) ?_
  have hslash : Place.boundary.Takes '\\' := ⟨by decide, by decide, by decide⟩
  exact le_trans (mul_le_mul' le_rfl escapeTail_mul_le) (singleton_mul_le hslash)

theorem kstar_le_spelled : character∗ ≤ spelled .boundary :=
  kstar_le_of_mul_le_right one_le_spelled character_mul_le

/-- One character, and what completes the place behind it. -/
theorem Place.step_le_more {place : Place} (h : place.IsProper) {c : Char} (hc : place.Takes c) :
    {[c]} * (place.next c).more ≤ place.more := by
  cases place with
  | boundary =>
    have hstar : character * character∗ ≤ character∗ := mul_kstar_le_kstar
    rw [Place.next]
    split_ifs with hslash
    · subst hslash
      rw [Place.more, Place.more, ← mul_assoc]
      exact le_trans (mul_le_mul' le_sup_right le_rfl) hstar
    · have hraw : [c] ∈ charWhere IsRaw := ⟨c, rfl, hc, hslash⟩
      exact le_trans (mul_le_mul' (le_trans (Grammar.singleton_le_iff.2 hraw) le_sup_left) le_rfl) hstar
  | escape =>
    rw [Place.next]
    split_ifs with hu
    · subst hu
      rw [Place.more, Place.more, ← mul_assoc]
      exact mul_le_mul' le_sup_right le_rfl
    · have hletter : [c] ∈ charWhere (· ∈ escapeLetters) := ⟨c, rfl, hc.resolve_right hu⟩
      exact mul_le_mul' (le_trans (Grammar.singleton_le_iff.2 hletter) le_sup_left) le_rfl
  | digits missing =>
    obtain ⟨hleast, -⟩ := h
    have hdigit : {[c]} ≤ charWhere (· ∈ hexLetters) := Grammar.singleton_le_iff.2 ⟨c, rfl, hc⟩
    rw [Place.next]
    split_ifs with hmore
    · obtain ⟨others, rfl⟩ : ∃ others, missing = others + 1 := ⟨missing - 1, by omega⟩
      rw [Nat.add_sub_cancel, Place.more, Place.more, pow_succ', mul_assoc]
      exact mul_le_mul' hdigit le_rfl
    · obtain rfl : missing = 1 := by omega
      rw [Place.more, Place.more, pow_one]
      exact mul_le_mul' hdigit le_rfl

theorem mem_more_of_isSpelled {place : Place} (hplace : place.IsProper) {e : List Char}
    (h : IsSpelled place e) : e ∈ place.more := by
  induction e generalizing place with
  | nil =>
    obtain rfl : place = .boundary := h
    exact Language.nil_mem_kstar character
  | cons c cs ih =>
    obtain ⟨hc, hcs⟩ := h
    have hfirst : [c] ∈ ({[c]} : Language Char) := rfl
    exact Place.step_le_more hplace hc (Language.append_mem_mul hfirst (ih (hplace.next c) hcs))

/-- **What completes a place is spelled from there.** -/
theorem more_eq {place : Place} (hplace : place.IsProper) : place.more = spelled place := by
  refine le_antisymm ?_ fun e he => mem_more_of_isSpelled hplace he
  have hstar (L : Language Char) : L * character∗ ≤ L * spelled .boundary :=
    mul_le_mul' le_rfl kstar_le_spelled
  cases place with
  | boundary => exact kstar_le_spelled
  | escape => exact le_trans (hstar _) escapeTail_mul_le
  | digits missing =>
    obtain ⟨hleast, -⟩ := hplace
    obtain ⟨others, rfl⟩ : ∃ others, missing = others + 1 := ⟨missing - 1, by omega⟩
    exact le_trans (hstar _) (hexDigits_mul_le others)

theorem kstar_character : character∗ = spelled .boundary :=
  more_eq (show Place.boundary.IsProper from trivial)

theorem escapeTail_mul : escapeTail * spelled .boundary = spelled .escape := by
  rw [← kstar_character]
  exact more_eq (show Place.escape.IsProper from trivial)

theorem hexDigits_mul {missing : Nat} (hleast : 1 ≤ missing) (hmost : missing ≤ 4) :
    charWhere (· ∈ hexLetters) ^ missing * spelled .boundary = spelled (.digits missing) := by
  rw [← kstar_character]
  exact more_eq (show (Place.digits missing).IsProper from ⟨hleast, hmost⟩)

end Exclusion

/-! ## Texts of a trie -/

namespace Trie

/-- A text is in a trie. -/
def Holds : Trie → List Char → Prop
  | trie, [] => trie.ends = true
  | trie, c :: cs => ∃ kid, (c, kid) ∈ trie.edges ∧ kid.Holds cs

theorem not_holds_empty (e : List Char) : ¬ empty.Holds e := by
  cases e with
  | nil => simp [Holds, empty, ends]
  | cons c cs => simp [Holds, empty, edges]

theorem exists_mem_changeEdge {cs : List Char}
    (h : ∀ (kid : Trie) (e : List Char), (kid.insert cs).Holds e ↔ e = cs ∨ kid.Holds e)
    (c d : Char) (es : List Char) (kids : List (Char × Trie)) :
    (∃ kid, (d, kid) ∈ changeEdge (insert cs) c kids ∧ kid.Holds es) ↔
      d :: es = c :: cs ∨ ∃ kid, (d, kid) ∈ kids ∧ kid.Holds es := by
  induction kids with
  | nil =>
    rw [List.cons.injEq]
    constructor
    · rintro ⟨kid, hkid, hes⟩
      obtain ⟨rfl, rfl⟩ := Prod.mk.inj (List.mem_singleton.1 hkid)
      exact .inl ⟨rfl, ((h _ es).1 hes).resolve_right (not_holds_empty es)⟩
    · rintro (⟨rfl, rfl⟩ | ⟨kid, hkid, -⟩)
      · exact ⟨_, List.mem_singleton.2 rfl, (h _ es).2 (.inl rfl)⟩
      · cases hkid
  | cons edge rest ih =>
    obtain ⟨label, own⟩ := edge
    rw [changeEdge]
    split_ifs with hlabel
    · subst hlabel
      constructor
      · rintro ⟨kid, hkid, hes⟩
        rcases List.mem_cons.1 hkid with hkid | hkid
        · obtain ⟨rfl, rfl⟩ := Prod.mk.inj hkid
          rcases (h own es).1 hes with rfl | hes
          · exact .inl rfl
          · exact .inr ⟨own, List.mem_cons_self, hes⟩
        · exact .inr ⟨kid, List.mem_cons_of_mem _ hkid, hes⟩
      · rintro (heq | ⟨kid, hkid, hes⟩)
        · obtain ⟨rfl, rfl⟩ := List.cons.inj heq
          exact ⟨_, List.mem_cons_self, (h own es).2 (.inl rfl)⟩
        · rcases List.mem_cons.1 hkid with hkid | hkid
          · obtain ⟨rfl, rfl⟩ := Prod.mk.inj hkid
            exact ⟨_, List.mem_cons_self, (h kid es).2 (.inr hes)⟩
          · exact ⟨kid, List.mem_cons_of_mem _ hkid, hes⟩
    · have hsplit (edges : List (Char × Trie)) :
          (∃ kid, (d, kid) ∈ (label, own) :: edges ∧ kid.Holds es) ↔
            (d = label ∧ own.Holds es) ∨ ∃ kid, (d, kid) ∈ edges ∧ kid.Holds es := by
        constructor
        · rintro ⟨kid, hkid, hes⟩
          rcases List.mem_cons.1 hkid with hkid | hkid
          · obtain ⟨rfl, rfl⟩ := Prod.mk.inj hkid
            exact .inl ⟨rfl, hes⟩
          · exact .inr ⟨kid, hkid, hes⟩
        · rintro (⟨rfl, hes⟩ | ⟨kid, hkid, hes⟩)
          · exact ⟨own, List.mem_cons_self, hes⟩
          · exact ⟨kid, List.mem_cons_of_mem _ hkid, hes⟩
      rw [hsplit, hsplit, ih, or_left_comm]

/-- An insertion adds one text. -/
theorem holds_insert (cs : List Char) (trie : Trie) (e : List Char) :
    (trie.insert cs).Holds e ↔ e = cs ∨ trie.Holds e := by
  induction cs generalizing trie e with
  | nil =>
    obtain ⟨stops, kids⟩ := trie
    cases e with
    | nil => simp [insert, Holds, ends]
    | cons d es => simp [insert, Holds, edges]
  | cons c cs ih =>
    obtain ⟨stops, kids⟩ := trie
    cases e with
    | nil => simp [insert, Holds, ends]
    | cons d es => exact exists_mem_changeEdge ih c d es kids

theorem holds_ofTexts (texts : List (List Char)) (e : List Char) :
    (ofTexts texts).Holds e ↔ e ∈ texts := by
  have hfold (trie : Trie) :
      (texts.foldl (fun t cs => insert cs t) trie).Holds e ↔ e ∈ texts ∨ trie.Holds e := by
    induction texts generalizing trie with
    | nil => simp
    | cons cs rest ih =>
      rw [List.foldl_cons, ih, holds_insert, List.mem_cons, or_left_comm, or_assoc]
  rw [ofTexts, hfold]
  exact or_iff_left (not_holds_empty e)

/-- No node has two edges for one character. -/
inductive Tidy : Trie → Prop where
  | node {stops : Bool} {kids : List (Char × Trie)} (distinct : (kids.map Prod.fst).Nodup)
      (tidy : ∀ x ∈ kids, Tidy x.2) : Tidy (.node stops kids)

theorem tidy_empty : Tidy empty :=
  .node (by simp) (by simp)

theorem labels_changeEdge (change : Trie → Trie) (c : Char) (kids : List (Char × Trie)) :
    (changeEdge change c kids).map Prod.fst =
      if c ∈ kids.map Prod.fst then kids.map Prod.fst else kids.map Prod.fst ++ [c] := by
  induction kids with
  | nil => rfl
  | cons edge rest ih =>
    obtain ⟨d, kid⟩ := edge
    rw [changeEdge]
    by_cases hd : d = c
    · simp [hd]
    · rw [if_neg hd, List.map_cons, ih]
      have hmem : c ∈ ((d, kid) :: rest).map Prod.fst ↔ c ∈ rest.map Prod.fst := by
        simp [Ne.symm hd]
      by_cases hrest : c ∈ rest.map Prod.fst
      · rw [if_pos hrest, if_pos (hmem.2 hrest), List.map_cons]
      · rw [if_neg hrest, if_neg (fun h => hrest (hmem.1 h)), List.map_cons, List.cons_append]

theorem tidy_insert {trie : Trie} (h : trie.Tidy) (cs : List Char) : (trie.insert cs).Tidy := by
  induction cs generalizing trie with
  | nil =>
    obtain ⟨distinct, tidy⟩ := h
    exact .node distinct tidy
  | cons c cs ih =>
    obtain ⟨distinct, tidy⟩ := h
    refine .node ?_ fun x hx => ?_
    · rw [labels_changeEdge]
      split_ifs with hc
      · exact distinct
      · exact distinct.append (List.nodup_singleton c) (by simpa using hc)
    · rcases Exclusion.mem_changeEdge hx with hmem | ⟨kid, rfl | hmem, rfl⟩
      · exact tidy x hmem
      · exact ih tidy_empty
      · exact ih (tidy _ hmem)

theorem tidy_ofTexts (texts : List (List Char)) : (ofTexts texts).Tidy := by
  have hfold {trie : Trie} (h : trie.Tidy) :
      (texts.foldl (fun t cs => insert cs t) trie).Tidy := by
    induction texts generalizing trie with
    | nil => exact h
    | cons cs rest ih => exact ih (tidy_insert h cs)
  exact hfold tidy_empty

end Trie

namespace Exclusion

/-! ## Along a trie and off it -/

/-- A text goes along the edges of a trie as far as it can, and on from there with any characters. -/
def Follows : Place → Trie → List Char → Prop
  | place, _, [] => place = .boundary
  | place, trie, c :: cs =>
    (∃ kid, (c, kid) ∈ trie.edges ∧ Follows (place.next c) kid cs) ∨
      (c ∉ trie.edges.map Prod.fst ∧ IsSpelled place (c :: cs))

/-- Without edges there is nothing to go along. -/
theorem follows_leaf {place : Place} {trie : Trie} (h : trie.edges = []) (e : List Char) :
    Follows place trie e ↔ IsSpelled place e := by
  cases e with
  | nil => exact Iff.rfl
  | cons c cs => simp [Follows, h]

/-- Below every node there is a text. -/
theorem Fits.exists_holds {place : Place} {trie : Trie} (h : Fits place trie) :
    ∃ e, trie.Holds e := by
  induction h with
  | @node place stops kids _ goesOn _ _ ih =>
    cases kids with
    | nil => exact ⟨[], goesOn rfl⟩
    | cons edge rest =>
      obtain ⟨e, he⟩ := ih edge List.mem_cons_self
      exact ⟨edge.1 :: e, edge.2, List.mem_cons_self, he⟩

/-- Where the texts of a trie are spelled, a text follows the trie if and only if it is spelled. -/
theorem follows_iff {place : Place} {trie : Trie} (hgrows : Grows place trie)
    (hspelled : ∀ e, trie.Holds e → IsSpelled place e) (e : List Char) :
    Follows place trie e ↔ IsSpelled place e := by
  induction e generalizing place trie with
  | nil => exact Iff.rfl
  | cons c cs ih =>
    by_cases hc : c ∈ trie.edges.map Prod.fst
    · -- a text goes through the edge, so the edge is taken
      have hedge {kid : Trie} (hkid : (c, kid) ∈ trie.edges) :
          place.Takes c ∧ (Follows (place.next c) kid cs ↔ IsSpelled (place.next c) cs) := by
        have hfits := hgrows.fits _ hkid
        obtain ⟨e, he⟩ := hfits.exists_holds
        refine ⟨(hspelled (c :: e) ⟨kid, hkid, he⟩).1, ih hfits.grows fun e he => ?_⟩
        exact (hspelled (c :: e) ⟨kid, hkid, he⟩).2
      constructor
      · rintro (⟨kid, hkid, hcs⟩ | ⟨hnone, -⟩)
        · obtain ⟨htakes, hiff⟩ := hedge hkid
          exact ⟨htakes, hiff.1 hcs⟩
        · exact absurd hc hnone
      · rintro ⟨htakes, hcs⟩
        obtain ⟨⟨d, kid⟩, hkid, rfl⟩ := List.mem_map.1 hc
        exact .inl ⟨kid, hkid, (hedge hkid).2.2 hcs⟩
    · constructor
      · rintro (⟨kid, hkid, -⟩ | ⟨-, hspelled⟩)
        · exact absurd (List.mem_map.2 ⟨_, hkid, rfl⟩) hc
        · exact hspelled
      · exact fun hspelled => .inr ⟨hc, hspelled⟩

end Exclusion

end SchemaGrammar
