import SchemaGrammar.Exclusion.Expression
import SchemaGrammar.Proofs.Json.Compact

set_option autoImplicit false

/-! # Tries of strings

The texts of a trie are the contents of strings. So behind each of its edges stands something that
can be completed: be it half an escape, the texts that may still come there are known
(`Place.rest`). No text ends inside an escape, and no edge leads to where none ends (`Fits`). Every
insertion of a string's content keeps this, and so it holds of the whole trie (`grows_ofTexts`). -/

namespace SchemaGrammar

open Computability

open Grammar (charWhere)
open Standard (IsHexDigit IsEscapeLetter)

namespace Exclusion

/-! ## Places -/

/-- The characters that may come at a place. -/
def Place.Allows : Place → Char → Prop
  | .boundary, c => ' ' ≤ c ∧ c ≠ '"'
  | .escape, c => IsEscapeLetter c ∨ c = 'u'
  | .digits _, c => IsHexDigit c

/-- The texts that complete what is begun at a place, and go on as they like. -/
def Place.rest : Place → Language Char
  | .boundary => Standard.content
  | .escape => (charWhere IsEscapeLetter + {['u']} * charWhere IsHexDigit ^ 4) * Standard.content
  | .digits missing => charWhere IsHexDigit ^ missing * Standard.content

/-- An escape by number needs some more digits, but no more than four. -/
def Place.IsProper : Place → Prop
  | .digits missing => 1 ≤ missing ∧ missing ≤ 4
  | _ => True

theorem Place.IsProper.next {place : Place} (h : place.IsProper) (c : Char) :
    (place.next c).IsProper := by
  cases place with
  | boundary =>
    rw [Place.next]
    split_ifs <;> trivial
  | escape =>
    rw [Place.next]
    split_ifs
    · exact ⟨by decide, le_refl 4⟩
    · trivial
  | digits missing =>
    obtain ⟨-, hmost⟩ := h
    rw [Place.next]
    split_ifs
    · exact ⟨by omega, by omega⟩
    · trivial

theorem escape_le_content :
    {['\\']} * (charWhere IsEscapeLetter + {['u']} * charWhere IsHexDigit ^ 4) ≤ Standard.content := by
  rw [mul_add]
  exact add_le (Standard.escaped_le le_rfl) (Standard.numbered_le le_rfl)

/-- A character that may come, and what completes the place behind it. -/
theorem Place.step_le {place : Place} (h : place.IsProper) {c : Char} (hc : place.Allows c) :
    {[c]} * (place.next c).rest ≤ place.rest := by
  cases place with
  | boundary =>
    obtain ⟨hspace, hquote⟩ := hc
    rw [Place.next]
    split_ifs with hslash
    · subst hslash
      rw [Place.rest, Place.rest, ← mul_assoc]
      exact le_trans (mul_le_mul' escape_le_content le_rfl) (le_of_eq Standard.content_mul_content)
    · have hraw : [c] ∈ Standard.character := .raw hspace hquote hslash
      have hc := Grammar.singleton_le_iff.2 (Standard.character_le_content hraw)
      exact le_trans (mul_le_mul' hc le_rfl) (le_of_eq Standard.content_mul_content)
  | escape =>
    rw [Place.next]
    split_ifs with hu
    · subst hu
      rw [Place.rest, Place.rest, ← mul_assoc]
      exact mul_le_mul' le_sup_right le_rfl
    · have hletter : [c] ∈ charWhere IsEscapeLetter := ⟨c, rfl, hc.resolve_right hu⟩
      exact mul_le_mul' (le_trans (Grammar.singleton_le_iff.2 hletter) le_sup_left) le_rfl
  | digits missing =>
    obtain ⟨hleast, -⟩ := h
    have hdigit : {[c]} ≤ charWhere IsHexDigit := Grammar.singleton_le_iff.2 ⟨c, rfl, hc⟩
    rw [Place.next]
    split_ifs with hmore
    · obtain ⟨others, rfl⟩ : ∃ others, missing = others + 1 := ⟨missing - 1, by omega⟩
      rw [Nat.add_sub_cancel, Place.rest, Place.rest, pow_succ', mul_assoc]
      exact mul_le_mul' hdigit le_rfl
    · obtain rfl : missing = 1 := by omega
      rw [Place.rest, Place.rest, pow_one]
      exact mul_le_mul' hdigit le_rfl

/-! ## Contents of strings -/

/-- A text goes on from a place and ends between two characters. -/
def Completes : Place → List Char → Prop
  | place, [] => place = .boundary
  | place, c :: cs => place.Allows c ∧ Completes (place.next c) cs

theorem completes_append {place : Place} {front back : List Char} (hfront : Completes place front)
    (hback : Completes .boundary back) : Completes place (front ++ back) := by
  induction front generalizing place with
  | nil =>
    obtain rfl : place = .boundary := hfront
    exact hback
  | cons c cs ih =>
    obtain ⟨hc, hcs⟩ := hfront
    exact ⟨hc, ih hcs⟩

theorem completes_escaped {c : Char} (hletter : IsEscapeLetter c) (hu : c ≠ 'u') :
    Completes .boundary ['\\', c] := by
  have hslash : Place.boundary.next '\\' = .escape := rfl
  have hlast : Place.escape.next c = .boundary := if_neg hu
  refine ⟨⟨by decide, by decide⟩, ?_⟩
  rw [hslash]
  exact ⟨.inl hletter, hlast⟩

theorem completes_escapeChar (c : Char) : Completes .boundary (Json.escapeChar c) := by
  have hcharacter := Json.isCharacter_escapeChar c
  generalize Json.escapeChar c = text at hcharacter
  cases hcharacter with
  | raw hspace hquote hslash => exact ⟨⟨hspace, hquote⟩, if_neg hslash⟩
  | escaped hletter =>
    refine completes_escaped hletter ?_
    rintro rfl
    exact absurd hletter (by unfold IsEscapeLetter; decide)
  | numbered ha hb hc hd =>
    -- the places behind the backslash, the letter and each digit are known
    exact ⟨⟨by decide, by decide⟩, .inr rfl, ha, hb, hc, hd, rfl⟩

theorem completes_escape (cs : List Char) : Completes .boundary (Json.escape cs) := by
  induction cs with
  | nil => exact rfl
  | cons c rest ih => exact completes_append (completes_escapeChar c) ih

theorem content_str (key : String) : content (.str key) = Json.escape key.toList := by
  rw [content, Json.compact, Json.stringText, String.toList_ofList, List.drop_succ_cons, List.drop_zero,
    List.dropLast_concat]

/-! ## Tries -/

/-- The edges of a trie that is entered at a place are allowed there. Texts end between two
    characters, and wherever there is no edge. -/
inductive Fits : Place → Trie → Prop where
  | node {place : Place} {ends : Bool} {kids : List (Char × Trie)}
      (stops : ends = true → place = .boundary) (goesOn : kids = [] → ends = true)
      (allowed : ∀ x ∈ kids, place.Allows x.1) (fits : ∀ x ∈ kids, Fits (place.next x.1) x.2) :
      Fits place (.node ends kids)

/-- As `Fits`, but the trie may still be empty. -/
structure Grows (place : Place) (trie : Trie) : Prop where
  stops : trie.ends = true → place = .boundary
  allowed : ∀ x ∈ trie.edges, place.Allows x.1
  fits : ∀ x ∈ trie.edges, Fits (place.next x.1) x.2

theorem grows_empty (place : Place) : Grows place Trie.empty :=
  ⟨by simp [Trie.empty, Trie.ends], by simp [Trie.empty, Trie.edges], by simp [Trie.empty, Trie.edges]⟩

theorem Fits.grows {place : Place} {trie : Trie} (h : Fits place trie) : Grows place trie := by
  cases h with
  | node stops goesOn allowed fits => exact ⟨stops, allowed, fits⟩

theorem Grows.toFits {place : Place} {trie : Trie} (h : Grows place trie) (hedges : trie.edges ≠ []) :
    Fits place trie := by
  cases trie with
  | node ends kids => exact .node h.stops (fun hnone => absurd hnone hedges) h.allowed h.fits

/-- Where an edge comes from after one edge has been changed. -/
theorem mem_changeEdge {change : Trie → Trie} {c : Char} {kids : List (Char × Trie)}
    {x : Char × Trie} (h : x ∈ Trie.changeEdge change c kids) :
    x ∈ kids ∨ ∃ kid, (kid = Trie.empty ∨ (c, kid) ∈ kids) ∧ x = (c, change kid) := by
  induction kids with
  | nil => exact .inr ⟨Trie.empty, .inl rfl, List.mem_singleton.1 h⟩
  | cons edge rest ih =>
    obtain ⟨d, kid⟩ := edge
    rw [Trie.changeEdge] at h
    split_ifs at h with hd
    · subst hd
      rcases List.mem_cons.1 h with rfl | h
      · exact .inr ⟨kid, .inr List.mem_cons_self, rfl⟩
      · exact .inl (List.mem_cons_of_mem _ h)
    · rcases List.mem_cons.1 h with rfl | h
      · exact .inl List.mem_cons_self
      · rcases ih h with hmem | ⟨kid', hkid, rfl⟩
        · exact .inl (List.mem_cons_of_mem _ hmem)
        · exact .inr ⟨kid', hkid.imp id (List.mem_cons_of_mem _), rfl⟩

theorem changeEdge_ne_nil (change : Trie → Trie) (c : Char) (kids : List (Char × Trie)) :
    Trie.changeEdge change c kids ≠ [] := by
  cases kids with
  | nil => simp [Trie.changeEdge]
  | cons edge rest =>
    rw [Trie.changeEdge]
    split_ifs <;> simp

/-- **An insertion keeps the edges of a trie where they belong.** -/
theorem fits_insert {place : Place} {trie : Trie} {cs : List Char} (h : Grows place trie)
    (hcs : Completes place cs) : Fits place (trie.insert cs) := by
  induction cs generalizing place trie with
  | nil =>
    cases trie with
    | node ends kids => exact .node (fun _ => hcs) (fun _ => rfl) h.allowed h.fits
  | cons c cs ih =>
    obtain ⟨hc, hcs⟩ := hcs
    cases trie with
    | node ends kids =>
      have hkid {kid : Trie} (hkid : kid = Trie.empty ∨ (c, kid) ∈ kids) :
          Fits (place.next c) (kid.insert cs) := by
        rcases hkid with rfl | hmem
        · exact ih (grows_empty _) hcs
        · exact ih (h.fits _ hmem).grows hcs
      refine .node h.stops (fun hnone => absurd hnone (changeEdge_ne_nil _ _ _)) ?_ ?_
      · intro x hx
        rcases mem_changeEdge hx with hmem | ⟨kid, -, rfl⟩
        · exact h.allowed x hmem
        · exact hc
      · intro x hx
        rcases mem_changeEdge hx with hmem | ⟨kid, hfrom, rfl⟩
        · exact h.fits x hmem
        · exact hkid hfrom

theorem grows_ofTexts {texts : List (List Char)} (h : ∀ cs ∈ texts, Completes .boundary cs) :
    Grows .boundary (Trie.ofTexts texts) := by
  have hfold : ∀ {trie : Trie}, Grows .boundary trie →
      Grows .boundary (texts.foldl (fun t cs => Trie.insert cs t) trie) := by
    induction texts with
    | nil => exact fun hgrows => hgrows
    | cons cs rest ih =>
      intro trie hgrows
      have hfirst := fits_insert hgrows (h cs List.mem_cons_self)
      exact ih (fun other hother => h other (List.mem_cons_of_mem _ hother)) hfirst.grows
  exact hfold (grows_empty _)

/-- The trie of some keys. -/
theorem grows_keys (keys : List String) :
    Grows .boundary (Trie.ofTexts ((keys.map Json.str).map content)) := by
  refine grows_ofTexts ?_
  intro cs hcs
  obtain ⟨value, hvalue, rfl⟩ := List.mem_map.1 hcs
  obtain ⟨key, -, rfl⟩ := List.mem_map.1 hvalue
  rw [content_str]
  exact completes_escape key.toList

end Exclusion

end SchemaGrammar
