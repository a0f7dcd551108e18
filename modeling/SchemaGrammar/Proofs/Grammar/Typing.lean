import SchemaGrammar.Proofs.Grammar.Languages

set_option autoImplicit false

/-! # Bounds for the rules of a grammar

A typing gives each rule a language that its texts should be in. When the body of every rule stays
within the rule's own bound, taking the bounds for the rules it refers to, then so does every text
that the grammar derives (`language_le_bound`). Rules may refer to each other in any way: the
induction is on derivations. -/

namespace SchemaGrammar

open Computability

namespace Grammar

/-! ## Copies -/

/-- From `min` to `max` texts in a row, where the counts need not be natural. -/
def copies (min : Int) (max : Option Int) (L : Language Char) : Language Char :=
  {text | ∃ count : Nat, min ≤ count ∧ (∀ most ∈ max, count ≤ most) ∧ text ∈ L ^ count}

variable (L : Language Char)

theorem copies_le_kstar (min : Int) (max : Option Int) : copies min max L ≤ L∗ := by
  rintro text ⟨count, -, -, hmem⟩
  have hpow : L ^ count ≤ L∗ := pow_le_kstar
  exact hpow hmem

/-- What is repeated at least once has a first copy. -/
theorem copies_le_plus {min : Int} (h : 1 ≤ min) (max : Option Int) : copies min max L ≤ L * L∗ := by
  rintro text ⟨count, hmin, -, hmem⟩
  obtain ⟨count, rfl⟩ : ∃ n, count = n + 1 := ⟨count - 1, by omega⟩
  rw [pow_succ'] at hmem
  have hpow : L * L ^ count ≤ L * L∗ := mul_le_mul' le_rfl pow_le_kstar
  exact hpow hmem

theorem copies_any : copies 0 none L = L∗ := by
  refine le_antisymm (copies_le_kstar L 0 none) ?_
  intro text htext
  rw [Language.kstar_eq_iSup_pow] at htext
  obtain ⟨count, hmem⟩ := Language.mem_iSup.1 htext
  exact ⟨count, by omega, by simp, hmem⟩

theorem copies_optional : copies 0 (some 1) L = 1 + L := by
  ext text
  rw [Language.mem_add]
  constructor
  · rintro ⟨count, -, hmost, htext⟩
    have hcount : count ≤ 1 := by exact_mod_cast hmost 1 rfl
    rcases Nat.le_one_iff_eq_zero_or_eq_one.1 hcount with rfl | rfl
    · exact .inl (by simpa using htext)
    · exact .inr (by simpa using htext)
  · rintro (htext | htext)
    · exact ⟨0, by simp, by simp, by simpa using htext⟩
    · exact ⟨1, by simp, by simp, by simpa using htext⟩

theorem copies_exactly (n : Nat) : copies n (some n) L = L ^ n := by
  ext text
  constructor
  · rintro ⟨count, hmin, hmost, htext⟩
    obtain rfl : count = n := by
      have := hmost n rfl
      omega
    exact htext
  · intro htext
    exact ⟨n, le_rfl, by simp, htext⟩

/-- The text of some code points. -/
def spelling (codes : List Nat) : Language Char :=
  {text | text.map Char.toNat = codes}

theorem spelling_map (text : List Char) : spelling (text.map Char.toNat) = {text} := by
  ext other
  exact List.map_inj_right fun a b h => Char.toNat_inj.1 h

end Grammar

open Grammar (classLanguage Derives charWhere copies spelling)

namespace Node

mutual

/-- The bound of a body, given those of the rules. -/
def bound (T : String → Language Char) : Node → Language Char
  | .literal codes => spelling codes
  | .charClass negated ranges => classLanguage negated ranges
  | .rule name => T name
  | .seq items => rowBound T items
  | .alt branches => choiceBound T branches
  | .rep node min max => copies min max (bound T node)

def rowBound (T : String → Language Char) : List Node → Language Char
  | [] => 1
  | node :: rest => bound T node * rowBound T rest

def choiceBound (T : String → Language Char) : List Node → Language Char
  | [] => 0
  | node :: rest => bound T node + choiceBound T rest

end

variable {T : String → Language Char}

theorem rowBound_replicate (node : Node) (count : Nat) :
    rowBound T (List.replicate count node) = bound T node ^ count := by
  induction count with
  | zero => rfl
  | succ count ih => rw [List.replicate_succ, rowBound, ih, pow_succ']

theorem bound_le_choiceBound {node : Node} {branches : List Node} (h : node ∈ branches) :
    bound T node ≤ choiceBound T branches := by
  induction branches with
  | nil => simp at h
  | cons first rest ih =>
    rw [choiceBound, add_eq_sup]
    rcases List.mem_cons.1 h with rfl | h
    · exact le_sup_left
    · exact le_trans (ih h) le_sup_right

end Node

namespace Grammar

variable {g : Grammar} {T : String → Language Char}

/-- **A typing bounds what a grammar derives.** -/
theorem language_le_bound (h : ∀ name body, g.find? name = some body → body.bound T ≤ T name)
    (node : Node) : g.language node ≤ node.bound T := by
  intro text htext
  have hderives : Derives g node text := htext
  clear htext
  induction hderives with
  | literal text => rfl
  | charClass holds => exact ⟨_, rfl, holds⟩
  | @rule name body text defined _ ih => exact h name body defined ih
  | nil => rfl
  | cons _ _ ih ih' => exact Language.append_mem_mul ih ih'
  | alt mem _ ih => exact Node.bound_le_choiceBound mem ih
  | @rep node min max text count least most _ ih =>
    rw [Node.bound, Node.rowBound_replicate] at ih
    exact ⟨count, least, most, ih⟩

end Grammar

namespace Node

/-! ## Bodies without rules -/

mutual

/-- The body refers to no rules, and all characters in it pass a test. -/
def consistsOf (P : Char → Bool) : Node → Bool
  | .literal codes => codes.all fun code => P (Char.ofNat code)
  | .charClass negated ranges => !negated && (Grammar.charsOf ranges).all P
  | .rule _ => false
  | .seq items => allConsistOf P items
  | .alt branches => allConsistOf P branches
  | .rep node _ _ => consistsOf P node

def allConsistOf (P : Char → Bool) : List Node → Bool
  | [] => true
  | node :: rest => consistsOf P node && allConsistOf P rest

end

variable {T : String → Language Char} {P : Char → Bool}

mutual

theorem bound_le_of_consistsOf :
    ∀ node : Node, node.consistsOf P = true → bound T node ≤ (charWhere fun c => P c = true)∗
  | .literal codes, h => by
    rintro text rfl
    rw [consistsOf, List.all_map, List.all_eq_true] at h
    refine Grammar.mem_kstar_charWhere fun c hc => ?_
    simpa using h c hc
  | .charClass negated ranges, h => by
    rw [consistsOf, Bool.and_eq_true, Bool.not_eq_true', List.all_eq_true] at h
    obtain ⟨rfl, hall⟩ := h
    refine Grammar.class_le fun c hc => ?_
    exact le_kstar (a := charWhere fun c => P c = true) ⟨c, rfl, hall c hc⟩
  | .rule _, h => by simp [consistsOf] at h
  | .seq items, h => rowBound_le_of_consistsOf items h
  | .alt branches, h => choiceBound_le_of_consistsOf branches h
  | .rep node min max, h => by
    calc
      bound T (.rep node min max) ≤ (bound T node)∗ := Grammar.copies_le_kstar _ min max
      _ ≤ (charWhere fun c => P c = true)∗∗ := kstar_mono (bound_le_of_consistsOf node h)
      _ = (charWhere fun c => P c = true)∗ := kstar_idem _

theorem rowBound_le_of_consistsOf :
    ∀ items : List Node, allConsistOf P items = true →
      rowBound T items ≤ (charWhere fun c => P c = true)∗
  | [], _ => one_le_kstar
  | node :: rest, h => by
    rw [allConsistOf, Bool.and_eq_true] at h
    calc
      rowBound T (node :: rest)
          ≤ (charWhere fun c => P c = true)∗ * (charWhere fun c => P c = true)∗ :=
        mul_le_mul' (bound_le_of_consistsOf node h.1) (rowBound_le_of_consistsOf rest h.2)
      _ = (charWhere fun c => P c = true)∗ := kstar_mul_kstar _

theorem choiceBound_le_of_consistsOf :
    ∀ branches : List Node, allConsistOf P branches = true →
      choiceBound T branches ≤ (charWhere fun c => P c = true)∗
  | [], _ => bot_le
  | node :: rest, h => by
    rw [allConsistOf, Bool.and_eq_true] at h
    exact add_le (bound_le_of_consistsOf node h.1) (choiceBound_le_of_consistsOf rest h.2)

end

end Node

/-! ## Characters that no text has -/

namespace Node

mutual

/-- The body does not spell a character itself. -/
def avoids (c : Char) : Node → Bool
  | .literal codes => !codes.contains c.toNat
  | .charClass negated ranges => !classHolds negated ranges c.toNat
  | .rule _ => true
  | .seq items => allAvoid c items
  | .alt branches => allAvoid c branches
  | .rep node _ _ => avoids c node

def allAvoid (c : Char) : List Node → Bool
  | [] => true
  | node :: rest => avoids c node && allAvoid c rest

end

theorem allAvoid_iff {c : Char} {nodes : List Node} :
    allAvoid c nodes = true ↔ ∀ node ∈ nodes, node.avoids c = true := by
  induction nodes with
  | nil => simp [allAvoid]
  | cons node rest ih => simp [allAvoid, ih]

end Node

/-- If no rule spells a character, no text has it. -/
theorem Grammar.notMem_of_derives {g : Grammar} {c : Char} {node : Node} {text : List Char}
    (hrules : ∀ name body, g.find? name = some body → body.avoids c = true)
    (h : Derives g node text) (hnode : node.avoids c = true) : c ∉ text := by
  induction h with
  | literal text =>
    intro hmem
    have hcode : (text.map Char.toNat).contains c.toNat = true :=
      List.contains_iff_mem.2 (List.mem_map_of_mem hmem)
    rw [Node.avoids, hcode] at hnode
    cases hnode
  | @charClass negated ranges d holds =>
    intro hmem
    rw [← List.mem_singleton.1 hmem] at holds
    simp [Node.avoids, holds] at hnode
  | rule defined _ ih => exact ih (hrules _ _ defined)
  | nil => simp
  | cons _ _ ih ih' =>
    rw [Node.avoids, Node.allAvoid, Bool.and_eq_true] at hnode
    rw [List.mem_append, not_or]
    exact ⟨ih hnode.1, ih' hnode.2⟩
  | alt mem _ ih =>
    rw [Node.avoids, Node.allAvoid_iff] at hnode
    exact ih (hnode _ mem)
  | @rep node min max text count least most _ ih =>
    refine ih (Node.allAvoid_iff.2 fun other hother => ?_)
    rw [List.eq_of_mem_replicate hother]
    exact hnode

end SchemaGrammar
