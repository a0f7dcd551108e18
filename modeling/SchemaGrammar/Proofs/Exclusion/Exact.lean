import SchemaGrammar.Proofs.Exclusion.Spelling
import SchemaGrammar.Proofs.Rules.Exclusion
import SchemaGrammar.Proofs.Rules.IntRange

set_option autoImplicit false

/-! # Exclusions are exact

Node by node, the expression for any string but those of a trie goes along an edge or leaves the
trie, where it offers what the edges do not. So a node's branches have the texts that follow the trie
from there and are not in it (`reads_branches`), and between the quotes of the whole stands what is
not in the trie (`readsRow_body`). -/

namespace SchemaGrammar

open Computability

open Grammar (charWhere classLanguage repeated isWritable_of_lt ReadsItem ReadsRow Reads)
open IntRange (cons_mem_charWhere_mul cons_mem_singleton_mul nil_notMem_charWhere_mul
  nil_notMem_singleton_mul)

namespace Grammar

/-! ## Repetition -/

theorem repeated_any (L : Language Char) : repeated 0 none L = L∗ := by
  refine le_antisymm (repeated_le_kstar 0 none le_kstar) fun text htext => ?_
  rw [Language.kstar_eq_iSup_pow] at htext
  obtain ⟨count, hmem⟩ := Language.mem_iSup.1 htext
  exact ⟨count, Nat.zero_le _, by simp, hmem⟩

/-- At least one text, of which none is empty. -/
theorem mem_repeated_some {L : Language Char} (h : [] ∉ L) {text : List Char} :
    text ∈ repeated 1 none L ↔ text ≠ [] ∧ text ∈ L∗ := by
  constructor
  · intro htext
    refine ⟨?_, repeated_le_kstar 1 none le_kstar htext⟩
    rintro rfl
    obtain ⟨count, hleast, -, hmem⟩ := htext
    obtain ⟨others, rfl⟩ : ∃ others, count = others + 1 := ⟨count - 1, by omega⟩
    rw [pow_succ'] at hmem
    obtain ⟨front, hfront, back, -, heq⟩ := Language.mem_mul.1 hmem
    rw [(List.append_eq_nil_iff.1 heq).1] at hfront
    exact h hfront
  · rintro ⟨hne, htext⟩
    rw [← repeated_any] at htext
    obtain ⟨count, -, -, hmem⟩ := htext
    refine ⟨count, Nat.one_le_iff_ne_zero.2 ?_, by simp, hmem⟩
    rintro rfl
    exact hne hmem

end Grammar

namespace Exclusion

/-! ## Pieces -/

theorem raw_eq (cs : List Char) : classLanguage true
    ([(34, 34), (92, 92), (127, 127), (0, 31)] ++ cs.map fun c => (c.toNat, c.toNat)) =
      charWhere fun c => IsRaw c ∧ c ∉ cs := by
  ext text
  refine exists_congr fun c => and_congr_right fun _ => ?_
  have hne (d : Char) : c ≠ d ↔ c.toNat ≠ d.toNat := not_congr Char.toNat_inj.symm
  have hspace : ' ' ≤ c ↔ 32 ≤ c.toNat := Iff.rfl
  have hraw : IsRaw c ↔
      32 ≤ c.toNat ∧ c.toNat ≠ 34 ∧ c.toNat ≠ 127 ∧ c.toNat ≠ 92 := by
    rw [IsRaw, Place.Takes, hspace, hne, hne, hne, and_assoc, and_assoc]
    rfl
  have hcs : (∀ d ∈ cs, c.toNat < d.toNat ∨ d.toNat < c.toNat) ↔ c ∉ cs := by
    constructor
    · intro hall hc
      have := hall c hc
      omega
    · intro hc d hd
      exact lt_or_gt_of_ne ((hne d).1 fun heq => hc (heq ▸ hd))
  have hholds : Node.classHolds true
      ([(34, 34), (92, 92), (127, 127), (0, 31)] ++ cs.map fun c => (c.toNat, c.toNat)) c.toNat =
        true ↔ ((c.toNat < 34 ∨ 34 < c.toNat) ∧ (c.toNat < 92 ∨ 92 < c.toNat) ∧
          (c.toNat < 127 ∨ 127 < c.toNat) ∧ 31 < c.toNat) ∧
            ∀ d ∈ cs, c.toNat < d.toNat ∨ d.toNat < c.toNat := by
    simp [Node.classHolds, or_iff_not_imp_left, and_assoc]
  rw [hholds, hcs]
  refine and_congr_left fun _ => ?_
  rw [hraw]
  omega

section Pieces

variable {P : String → Prop} {Q : Grammar → Prop}

theorem readsItem_slash : ReadsItem P Q "[\\\\]" {['\\']} := by
  exact (writesItem_backslash .blank).anywhere

theorem readsItem_escapeTail : ReadsItem P Q
    ("(" ++ ("[\"\\\\bfnrt]" ++ " | " ++ ("\"u\" " ++ hexTimes 4)) ++ ")") escapeTail := by
  have hletters : ReadsItem P Q _ _ := (writesItem_escapeLetters .blank).anywhere
  exact (hletters.reads.or (writesRow_byNumber .blank).anywhere.reads).group

/-- The rule for characters is written as its language says. -/
theorem reads_character :
    Reads P Q ("[^" ++ neverRaw ++ classText [] ++ "]" ++ " | " ++ ("[\\\\]" ++ " " ++
      ("(" ++ ("[\"\\\\bfnrt]" ++ " | " ++ ("\"u\" " ++ hexTimes 4)) ++ ")"))) character := by
  have hraw : ReadsItem P Q ("[^" ++ neverRaw ++ classText [] ++ "]") (charWhere IsRaw) := by
    have h : ReadsItem P Q _ _ := (writesItem_raw .blank []).anywhere
    rw [raw_eq] at h
    simpa using h
  exact hraw.reads.or (readsItem_slash.row.beside readsItem_escapeTail.row).reads

end Pieces

/-! ## Leaving the trie -/

/-- What is spelled from a place and starts with none of the edges. -/
def off (place : Place) (edges : List Char) : Language Char :=
  {e | ∃ c cs, e = c :: cs ∧ c ∉ edges ∧ IsSpelled place (c :: cs)}

theorem nil_notMem_off (place : Place) (edges : List Char) : [] ∉ off place edges := by
  rintro ⟨c, cs, heq, -⟩
  cases heq

theorem cons_mem_off {place : Place} {edges : List Char} {c : Char} {cs : List Char} :
    c :: cs ∈ off place edges ↔ c ∉ edges ∧ IsSpelled place (c :: cs) := by
  constructor
  · rintro ⟨d, ds, heq, h⟩
    obtain ⟨rfl, rfl⟩ := List.cons.inj heq
    exact h
  · exact fun h => ⟨c, cs, rfl, h⟩

theorem eq_off {place : Place} {edges : List Char} {L : Language Char} (hnil : [] ∉ L)
    (hcons : ∀ c cs, c :: cs ∈ L ↔ c ∉ edges ∧ IsSpelled place (c :: cs)) : L = off place edges := by
  ext e
  cases e with
  | nil => exact iff_of_false hnil (nil_notMem_off place edges)
  | cons c cs => rw [hcons, cons_mem_off]

theorem isSpelled_boundary_cons {c : Char} {cs : List Char} : IsSpelled .boundary (c :: cs) ↔
    (IsRaw c ∧ IsSpelled .boundary cs) ∨ (c = '\\' ∧ IsSpelled .escape cs) := by
  by_cases hslash : c = '\\'
  · subst hslash
    have htakes : Place.boundary.Takes '\\' := ⟨by decide, by decide, by decide⟩
    have hnext : Place.boundary.next '\\' = .escape := rfl
    simp [IsSpelled, IsRaw, htakes, hnext]
  · have hnext : Place.boundary.next c = .boundary := if_neg hslash
    simp [IsSpelled, IsRaw, hslash, hnext]

theorem isSpelled_escape_cons {c : Char} {cs : List Char} : IsSpelled .escape (c :: cs) ↔
    (c ∈ escapeLetters ∧ IsSpelled .boundary cs) ∨ (c = 'u' ∧ IsSpelled (.digits 4) cs) := by
  by_cases hu : c = 'u'
  · subst hu
    have hletter : 'u' ∉ escapeLetters := by decide
    have hnext : Place.escape.next 'u' = .digits 4 := rfl
    simp [IsSpelled, Place.Takes, hletter, hnext]
  · have hnext : Place.escape.next c = .boundary := if_neg hu
    simp [IsSpelled, Place.Takes, hu, hnext]

/-- A branch that is left out under a condition. -/
theorem exists_unless {P : String → Prop} {Q : Grammar → Prop} {e : String} {L : Language Char}
    (p : Prop) [Decidable p] (h : Reads P Q e L) :
    ∃ Ls, List.Forall₂ (Reads P Q) (if p then [] else [e]) Ls ∧
      ∀ text, text ∈ Ls.sum ↔ ¬ p ∧ text ∈ L := by
  split_ifs with hp
  · exact ⟨[], .nil, fun text => iff_of_false (fun hmem => hmem) fun hmem => hmem.1 hp⟩
  · refine ⟨[L], .cons h .nil, fun text => ?_⟩
    rw [List.sum_singleton]
    exact (and_iff_right hp).symm

section Trie

variable {P : String → Prop} {Q : Grammar → Prop} {char : String}
variable (hchar : ReadsItem P Q char character)

include hchar

theorem readsRow_many : ReadsRow P Q (char ++ "*") (spelled .boundary) := by
  rw [← kstar_character, ← Grammar.repeated_any]
  exact hchar.star.row

theorem readsRow_some : ReadsRow P Q (char ++ "+") {e | e ≠ [] ∧ IsSpelled .boundary e} := by
  have hsome : repeated 1 none character = {e | e ≠ [] ∧ IsSpelled .boundary e} := by
    have hnil : [] ∉ character := by
      rintro (⟨c, heq, -⟩ | hmem)
      · cases heq
      · exact nil_notMem_singleton_mul hmem
    ext e
    rw [Grammar.mem_repeated_some hnil, kstar_character]
    exact Iff.rfl
  rw [← hsome]
  exact hchar.plus.row

theorem reads_leaving_boundary (edges : List Char) :
    ∃ Ls, List.Forall₂ (Reads P Q) (leaving .boundary edges char) Ls ∧ Ls.sum = off .boundary edges := by
  have hmany := readsRow_many hchar
  have hraw : Reads P Q ("[^" ++ neverRaw ++ classText edges ++ "] " ++ char ++ "*")
      (charWhere (fun c => IsRaw c ∧ c ∉ edges) * spelled .boundary) := by
    have htext : "[^" ++ neverRaw ++ classText edges ++ "] " ++ char ++ "*" =
        "[^" ++ neverRaw ++ classText edges ++ "]" ++ " " ++ (char ++ "*") := by
      rw [← String.toList_inj]
      simp
    rw [htext, ← raw_eq]
    exact ((writesItem_raw .blank edges).anywhere.row.beside hmany).reads
  have hescape : Reads P Q
      ("[\\\\] ([\"\\\\bfnrt] | \"u\" " ++ hexTimes 4 ++ ") " ++ char ++ "*")
      ({['\\']} * spelled .escape) := by
    have htext : "[\\\\] ([\"\\\\bfnrt] | \"u\" " ++ hexTimes 4 ++ ") " ++ char ++ "*" =
        "[\\\\]" ++ " " ++ ("(" ++ ("[\"\\\\bfnrt]" ++ " | " ++ ("\"u\" " ++ hexTimes 4)) ++ ")"
          ++ " " ++ (char ++ "*")) := by
      rw [← String.toList_inj]
      simp
    rw [htext, ← escapeTail_mul]
    exact (readsItem_slash.row.beside (readsItem_escapeTail.row.beside hmany)).reads
  obtain ⟨Ls, hLs, hsum⟩ := exists_unless (edges.contains '\\' = true) hescape
  refine ⟨charWhere (fun c => IsRaw c ∧ c ∉ edges) * spelled .boundary :: Ls, ?_,
    eq_off ?_ fun c cs => ?_⟩
  · have hcases : leaving .boundary edges char =
        ("[^" ++ neverRaw ++ classText edges ++ "] " ++ char ++ "*") ::
          if edges.contains '\\' = true then [] else
            ["[\\\\] ([\"\\\\bfnrt] | \"u\" " ++ hexTimes 4 ++ ") " ++ char ++ "*"] := by
      rw [leaving]
      split_ifs <;> rfl
    rw [hcases]
    exact .cons hraw hLs
  · rw [List.sum_cons, Language.mem_add, hsum]
    rintro (hmem | ⟨-, hmem⟩)
    · exact nil_notMem_charWhere_mul hmem
    · exact nil_notMem_singleton_mul hmem
  · rw [List.sum_cons, Language.mem_add, hsum, cons_mem_charWhere_mul, cons_mem_singleton_mul,
      List.contains_iff_mem, isSpelled_boundary_cons]
    constructor
    · rintro (⟨⟨hc, hnone⟩, hcs⟩ | ⟨hnone, rfl, hcs⟩)
      · exact ⟨hnone, .inl ⟨hc, hcs⟩⟩
      · exact ⟨hnone, .inr ⟨rfl, hcs⟩⟩
    · rintro ⟨hnone, ⟨hc, hcs⟩ | ⟨rfl, hcs⟩⟩
      · exact .inl ⟨⟨hc, hnone⟩, hcs⟩
      · exact .inr ⟨hnone, rfl, hcs⟩

theorem reads_leaving_escape (edges : List Char) :
    ∃ Ls, List.Forall₂ (Reads P Q) (leaving .escape edges char) Ls ∧ Ls.sum = off .escape edges := by
  have hmany := readsRow_many hchar
  obtain ⟨letters, hletters⟩ : ∃ letters, letters = escapeLetters.filter fun c => !edges.contains c :=
    ⟨_, rfl⟩
  have hmem (c : Char) : c ∈ letters ↔ c ∈ escapeLetters ∧ c ∉ edges := by
    simp [hletters]
  have hplain : Reads P Q ("[" ++ classText letters ++ "] " ++ char ++ "*")
      (charWhere (· ∈ letters) * spelled .boundary) := by
    have htext : "[" ++ classText letters ++ "] " ++ char ++ "*" =
        "[" ++ classText letters ++ "]" ++ " " ++ (char ++ "*") := by
      rw [← String.toList_inj]
      simp
    rw [htext]
    exact ((writesItem_classText .blank letters).anywhere.row.beside hmany).reads
  have hnumber : Reads P Q ("\"u\" " ++ hexTimes 4 ++ " " ++ char ++ "*")
      ({['u']} * spelled (.digits 4)) := by
    have hdigits := hexDigits_mul (by decide : 1 ≤ 4) (le_refl 4)
    have htext : "\"u\" " ++ hexTimes 4 ++ " " ++ char ++ "*" =
        "\"u\" " ++ hexTimes 4 ++ " " ++ (char ++ "*") := by
      simp [String.append_assoc]
    rw [htext, ← hdigits, ← mul_assoc]
    exact ((writesRow_byNumber .blank).anywhere.beside hmany).reads
  obtain ⟨Ls, hLs, hsum⟩ := exists_unless (letters.isEmpty = true) hplain
  obtain ⟨Ms, hMs, hsum'⟩ := exists_unless (edges.contains 'u' = true) hnumber
  refine ⟨Ls ++ Ms, ?_, eq_off ?_ fun c cs => ?_⟩
  · rw [leaving, ← hletters]
    exact List.rel_append hLs hMs
  · rw [List.sum_append, Language.mem_add, hsum, hsum']
    rintro (⟨-, hmem⟩ | ⟨-, hmem⟩)
    · exact nil_notMem_charWhere_mul hmem
    · exact nil_notMem_singleton_mul hmem
  · rw [List.sum_append, Language.mem_add, hsum, hsum', cons_mem_charWhere_mul,
      cons_mem_singleton_mul, List.contains_iff_mem, isSpelled_escape_cons]
    constructor
    · rintro (⟨-, hc, hcs⟩ | ⟨hnone, rfl, hcs⟩)
      · exact ⟨((hmem c).1 hc).2, .inl ⟨((hmem c).1 hc).1, hcs⟩⟩
      · exact ⟨hnone, .inr ⟨rfl, hcs⟩⟩
    · rintro ⟨hnone, ⟨hc, hcs⟩ | ⟨rfl, hcs⟩⟩
      · have hletter := (hmem c).2 ⟨hc, hnone⟩
        refine .inl ⟨fun hempty => ?_, hletter, hcs⟩
        rw [List.isEmpty_iff.1 hempty] at hletter
        cases hletter
      · exact .inr ⟨hnone, rfl, hcs⟩

theorem reads_leaving_digits {missing : Nat} (hleast : 1 ≤ missing) (hmost : missing ≤ 4)
    (edges : List Char) : ∃ Ls, List.Forall₂ (Reads P Q) (leaving (.digits missing) edges char) Ls ∧
      Ls.sum = off (.digits missing) edges := by
  have hmany := readsRow_many hchar
  obtain ⟨others, hothers⟩ : ∃ others, others = hexLetters.filter fun c => !edges.contains c :=
    ⟨_, rfl⟩
  have hmem (c : Char) : c ∈ others ↔ c ∈ hexLetters ∧ c ∉ edges := by
    simp [hothers]
  obtain ⟨next, hnext⟩ : ∃ next, ∀ c, Place.next (.digits missing) c = next := ⟨_, fun _ => rfl⟩
  obtain ⟨tail, htail⟩ : ∃ tail, tail = if 1 < missing then " " ++ hexTimes (missing - 1) else "" :=
    ⟨_, rfl⟩
  have hplain : Reads P Q ("[" ++ String.ofList others ++ "]" ++ tail ++ " " ++ char ++ "*")
      (charWhere (· ∈ others) * spelled next) := by
    have hclass : ReadsRow P Q _ _ :=
      (writesItem_hexLetters .blank fun c hc => ((hmem c).1 hc).1).anywhere.row
    by_cases hone : 1 < missing
    · have hrest : ReadsRow P Q _ _ :=
        (writesItem_hexTimes .blank (isWritable_of_lt (by omega : missing - 1 < 100))).anywhere.row
      have hmore : charWhere (· ∈ hexLetters) ^ (missing - 1) * spelled .boundary = spelled next := by
        have hplace : next = .digits (missing - 1) := by
          rw [← hnext 'a', Place.next, if_pos hone]
        rw [hplace]
        exact hexDigits_mul (by omega) (by omega)
      rw [htail, if_pos hone, ← hmore]
      have hrow := hclass.beside (hrest.beside hmany)
      simp only [String.append_assoc] at hrow ⊢
      exact hrow.reads
    · have hplace : next = .boundary := by
        rw [← hnext 'a', Place.next, if_neg hone]
      rw [htail, if_neg hone, hplace]
      simpa only [String.append_assoc, String.append_empty, String.empty_append] using
        (hclass.beside hmany).reads
  obtain ⟨Ls, hLs, hsum⟩ := exists_unless (others.isEmpty = true) hplain
  refine ⟨Ls, ?_, eq_off ?_ fun c cs => ?_⟩
  · rw [leaving, ← hothers]
    dsimp only
    rw [← htail]
    exact hLs
  · rw [hsum]
    exact fun hmem => nil_notMem_charWhere_mul hmem.2
  · rw [hsum, cons_mem_charWhere_mul, hmem, IsSpelled, hnext]
    constructor
    · rintro ⟨-, ⟨hc, hnone⟩, hcs⟩
      exact ⟨hnone, hc, hcs⟩
    · rintro ⟨hnone, hc, hcs⟩
      have hother := (hmem c).2 ⟨hc, hnone⟩
      refine ⟨fun hempty => ?_, ⟨hc, hnone⟩, hcs⟩
      rw [List.isEmpty_iff.1 hempty] at hother
      cases hother

/-- **What leaves the trie at a place is what the edges do not take.** -/
theorem reads_leaving {place : Place} (hplace : place.IsProper) (edges : List Char) :
    ∃ Ls, List.Forall₂ (Reads P Q) (leaving place edges char) Ls ∧ Ls.sum = off place edges := by
  cases place with
  | boundary => exact reads_leaving_boundary hchar edges
  | escape => exact reads_leaving_escape hchar edges
  | digits missing => exact reads_leaving_digits hchar hplace.1 hplace.2 edges

end Trie

/-! ## Along the trie -/

/-- What follows a trie and is not in it. -/
def outside (next : Place) (kid : Trie) : Language Char :=
  {e | Follows next kid e ∧ ¬ kid.Holds e}

/-- What goes on from a node, and does not stop there. -/
def onward (place : Place) (trie : Trie) : Language Char :=
  {e | e ≠ [] ∧ Follows place trie e ∧ ¬ trie.Holds e}

theorem outside_leaf {kid : Trie} (hnone : kid.edges = []) (hends : kid.ends = true) :
    outside .boundary kid = {e | e ≠ [] ∧ IsSpelled .boundary e} := by
  have hholds (e : List Char) : kid.Holds e ↔ e = [] := by
    cases e with
    | nil => simp [Trie.Holds, hends]
    | cons c cs => simp [Trie.Holds, hnone]
  ext e
  rw [outside]
  refine Iff.trans ?_ and_comm
  exact and_congr (follows_leaf hnone e) (not_congr (hholds e))

theorem outside_empty {trie : Trie} (hnone : trie.edges = []) (hends : trie.ends = false) :
    outside .boundary trie = spelled .boundary := by
  have hholds (e : List Char) : ¬ trie.Holds e := by
    cases e with
    | nil => simp [Trie.Holds, hends]
    | cons c cs => simp [Trie.Holds, hnone]
  ext e
  exact (and_iff_left (hholds e)).trans (follows_leaf hnone e)

/-- A text may stop behind an edge between two characters, where no text of the trie ends. -/
theorem outside_open {next : Place} {kid : Trie} (hnext : next = .boundary)
    (hends : kid.ends = false) : outside next kid = 1 + onward next kid := by
  ext e
  rw [Language.mem_add, Language.mem_one]
  constructor
  · intro he
    by_cases hnil : e = []
    · exact .inl hnil
    · exact .inr ⟨hnil, he⟩
  · rintro (rfl | ⟨-, he⟩)
    · exact ⟨hnext, by simp [Trie.Holds, hends]⟩
    · exact he

theorem outside_closed {next : Place} {kid : Trie} (h : next = .boundary → kid.ends = true) :
    outside next kid = onward next kid := by
  ext e
  constructor
  · intro he
    refine ⟨?_, he⟩
    rintro rfl
    exact he.2 (h he.1)
  · exact fun he => he.2

/-- The ways along the edges and the ways off the trie, put together. -/
theorem sum_eq_onward (place : Place) (stops : Bool) {kids sorted : List (Char × Trie)}
    (hperm : sorted.Perm kids) (distinct : (kids.map Prod.fst).Nodup) :
    (sorted.map fun x => {[x.1]} * outside (place.next x.1) x.2).sum +
      off place (sorted.map Prod.fst) = onward place (.node stops kids) := by
  have hlabel (c : Char) : c ∈ sorted.map Prod.fst ↔ c ∈ kids.map Prod.fst :=
    (hperm.map Prod.fst).mem_iff
  have hsame {c : Char} {kid other : Trie} (hkid : (c, kid) ∈ kids) (hother : (c, other) ∈ kids) :
      other = kid :=
    congrArg Prod.snd (List.inj_on_of_nodup_map distinct hother hkid rfl)
  ext e
  rw [Language.mem_add, Grammar.mem_sum]
  cases e with
  | nil =>
    refine iff_of_false ?_ fun h => h.1 rfl
    rintro (⟨L, hL, hmem⟩ | hmem)
    · obtain ⟨x, -, rfl⟩ := List.mem_map.1 hL
      exact nil_notMem_singleton_mul hmem
    · exact nil_notMem_off _ _ hmem
  | cons c cs =>
    rw [cons_mem_off, hlabel]
    constructor
    · rintro (⟨L, hL, hmem⟩ | ⟨hnone, hspelled⟩)
      · obtain ⟨⟨d, kid⟩, hx, rfl⟩ := List.mem_map.1 hL
        obtain ⟨rfl, hfollows, hholds⟩ := cons_mem_singleton_mul.1 hmem
        have hkid := hperm.mem_iff.1 hx
        refine ⟨List.cons_ne_nil _ _, .inl ⟨kid, hkid, hfollows⟩, ?_⟩
        rintro ⟨other, hother, hcs⟩
        exact hholds (hsame hkid hother ▸ hcs)
      · refine ⟨List.cons_ne_nil _ _, .inr ⟨hnone, hspelled⟩, ?_⟩
        rintro ⟨kid, hkid, -⟩
        exact hnone (List.mem_map.2 ⟨_, hkid, rfl⟩)
    · rintro ⟨-, ⟨kid, hkid, hfollows⟩ | hoff, hholds⟩
      · refine .inl ⟨_, List.mem_map.2 ⟨_, hperm.mem_iff.2 hkid, rfl⟩, ?_⟩
        exact cons_mem_singleton_mul.2 ⟨rfl, hfollows, fun hcs => hholds ⟨kid, hkid, hcs⟩⟩
      · exact .inr hoff

section Trie

variable {P : String → Prop} {Q : Grammar → Prop} {char : String}
variable (hchar : ReadsItem P Q char character)

include hchar

/-- Along one edge, if the branches of the node behind it are exact. -/
theorem readsRow_edgeBranch {place : Place} {c : Char} {kid : Trie}
    (hfits : Fits (place.next c) kid)
    (hkid : kid.edges ≠ [] → Reads P Q (branches char (place.next c) kid) (onward (place.next c) kid)) :
    ReadsRow P Q (edgeBranch char place c kid) ({[c]} * outside (place.next c) kid) := by
  have htaken : ReadsRow P Q ("[" ++ classText [c] ++ "]") {[c]} := by
    have hclass : charWhere (· ∈ [c]) = {[c]} := by
      ext text
      constructor
      · rintro ⟨d, rfl, hd⟩
        rw [List.mem_singleton.1 hd]
        exact rfl
      · rintro rfl
        exact ⟨c, rfl, List.mem_singleton.2 rfl⟩
    rw [← hclass]
    exact (writesItem_classText .blank [c]).anywhere.row
  have hgroup {mark : String} {L : Language Char}
      (h : ReadsItem P Q ("(" ++ branches char (place.next c) kid ++ ")" ++ mark) L) :
      ReadsRow P Q ("[" ++ classText [c] ++ "]" ++ " (" ++ branches char (place.next c) kid ++ ")"
        ++ mark) ({[c]} * L) := by
    have htext (e : String) : "[" ++ classText [c] ++ "]" ++ " (" ++ e ++ ")" ++ mark =
        "[" ++ classText [c] ++ "]" ++ " " ++ ("(" ++ e ++ ")" ++ mark) := by
      rw [← String.toList_inj]
      simp
    rw [htext]
    exact htaken.beside h.row
  rw [edgeBranch]
  split_ifs with hleaf hends hopen
  · -- a text ends here, and some more characters have to come
    have hboundary : place.next c = .boundary := hfits.grows.stops hends
    rw [hboundary, outside_leaf (List.isEmpty_iff.1 hleaf) hends]
    simpa only [String.append_assoc] using htaken.beside (readsRow_some hchar)
  · cases hfits with
    | node _ goesOn => exact absurd (goesOn (List.isEmpty_iff.1 hleaf)) hends
  · have hstops : place.next c = .boundary ∧ kid.ends = false := by simpa using hopen
    rw [outside_open hstops.1 hstops.2, ← Grammar.repeated_optional]
    exact hgroup (hkid (by simpa using hleaf)).group.optional
  · have hgoes : place.next c = .boundary → kid.ends = true := by simpa using hopen
    rw [outside_closed hgoes]
    exact hgroup (by simpa using (hkid (by simpa using hleaf)).group)

/-- **The branches of a node have what goes on from it and is not in the trie**: by induction on the
    edges. -/
theorem reads_branches {place : Place} {trie : Trie} (hfits : Fits place trie) (htidy : trie.Tidy)
    (hplace : place.IsProper) (hedges : trie.edges ≠ []) :
    Reads P Q (branches char place trie) (onward place trie) := by
  induction hfits with
  | @node place stops kids _ goesOn allowed fits ih =>
    obtain ⟨distinct, tidy⟩ := htidy
    -- the edges in the order of their characters
    obtain ⟨sorted, hsorted⟩ : ∃ sorted, sorted =
        kids.mergeSort fun a b => decide (a.1 ≤ b.1) := ⟨_, rfl⟩
    have hperm : sorted.Perm kids := hsorted ▸ List.mergeSort_perm _ _
    have hsort : sortBranches (edgeBranches char place kids) =
        sorted.map fun x => (x.1, edgeBranch char place x.1 x.2) := by
      rw [sortBranches, edgeBranches_eq_map, hsorted]
      symm
      exact List.map_mergeSort fun _ _ _ _ => rfl
    have hlabels : (sorted.map fun x => (x.1, edgeBranch char place x.1 x.2)).map Prod.fst =
        sorted.map Prod.fst := by
      rw [List.map_map]
      rfl
    have htexts : (sorted.map fun x => (x.1, edgeBranch char place x.1 x.2)).map Prod.snd =
        sorted.map fun x => edgeBranch char place x.1 x.2 := by
      rw [List.map_map]
      rfl
    have hedge : List.Forall₂ (Reads P Q) (sorted.map fun x => edgeBranch char place x.1 x.2)
        (sorted.map fun x => {[x.1]} * outside (place.next x.1) x.2) := by
      rw [List.forall₂_map_left_iff, List.forall₂_map_right_iff, List.forall₂_same]
      intro x hx
      have hx := hperm.mem_iff.1 hx
      exact (readsRow_edgeBranch hchar (fits x hx) (ih x hx (tidy x hx) (hplace.next x.1))).reads
    obtain ⟨Ls, hLs, hsum⟩ := reads_leaving hchar hplace (sorted.map Prod.fst)
    have hne : (sorted.map fun x => edgeBranch char place x.1 x.2) ++
        leaving place (sorted.map Prod.fst) char ≠ [] := by
      intro hnone
      have hnil := List.map_eq_nil_iff.1 (List.append_eq_nil_iff.1 hnone).1
      rw [hnil] at hperm
      exact hedges hperm.nil_eq.symm
    have hwrites := Grammar.reads_choices hne (List.rel_append hedge hLs)
    rw [List.sum_append, hsum, sum_eq_onward place stops hperm distinct] at hwrites
    rw [branches, hsort, hlabels, htexts]
    exact hwrites

/-- **The expression for any string but those of a trie has all others**, with its quotes and with
    what the rule for blanks has behind them. -/
theorem readsRow_body {W : Language Char} (hspace : ReadsItem P Q "space" W) {trie : Trie}
    (hgrows : Grows .boundary trie) (htidy : trie.Tidy) :
    ReadsRow P Q (body char trie) ({['"']} * outside .boundary trie * ({['"']} * W)) := by
  have hquote : ReadsItem P Q "[\"]" {['"']} := by
    have hclass : classLanguage false [(34, 34)] = {['"']} := by
      rw [IntRange.classLanguage_single]
      exact IntRange.fromTo_self '"'
    have hmark : Grammar.Bracketed ['"'] [(34, 34)] := .single (.raw (by decide)) (by simp) rfl .nil
    rw [← hclass]
    exact Grammar.readsItem_charClass hmark (by simp)
  have hbody {e : String} {L : Language Char} (he : ReadsRow P Q e L) :
      ReadsRow P Q ("[\"]" ++ " " ++ e ++ " " ++ ("[\"]" ++ " " ++ "space"))
        ({['"']} * L * ({['"']} * W)) :=
    (hquote.row.beside he).beside (hquote.row.beside hspace.row)
  have htext (mark : String) : "[\"] " ++ char ++ mark ++ " [\"] space" =
      "[\"]" ++ " " ++ (char ++ mark) ++ " " ++ ("[\"]" ++ " " ++ "space") := by
    rw [← String.toList_inj]
    simp
  have htext' (e mark : String) : "[\"] ( " ++ e ++ " )" ++ mark ++ " [\"] space" =
      "[\"]" ++ " " ++ ("(" ++ (" " ++ e ++ " ") ++ ")" ++ mark) ++ " "
        ++ ("[\"]" ++ " " ++ "space") := by
    rw [← String.toList_inj]
    simp
  have hinner (hedges : trie.edges ≠ []) : ReadsItem P Q
      ("(" ++ (" " ++ branches char .boundary trie ++ " ") ++ ")") (onward .boundary trie) :=
    (reads_branches hchar (hgrows.toFits hedges) htidy trivial hedges).padded.group
  rw [body, htext, htext']
  split_ifs with hedges hends hends
  · rw [outside_leaf (List.isEmpty_iff.1 hedges) hends]
    exact hbody (readsRow_some hchar)
  · rw [outside_empty (List.isEmpty_iff.1 hedges) (by simpa using hends)]
    exact hbody (readsRow_many hchar)
  · rw [outside_closed fun _ => hends]
    exact hbody (by simpa using (hinner (by simpa using hedges)).row)
  · rw [outside_open rfl (by simpa using hends), ← Grammar.repeated_optional]
    exact hbody (hinner (by simpa using hedges)).optional.row

end Trie

end Exclusion

end SchemaGrammar
