import SchemaGrammar.Pattern.Rule
import SchemaGrammar.Proofs.Grammar.Typing
import SchemaGrammar.Proofs.Rules.Request

set_option autoImplicit false

/-! # What fragments mean

A fragment is a row of items over a table, and a literal spells some characters. Fragments side by
side are a row, and bars between them make branches, any of which may be empty. Joining literals
changes none of this, so fragments that are joined are an expression for their branches
(`Branches.writes_join`). -/

namespace SchemaGrammar

open Grammar (Apart Counted Quoted Written spelling)

namespace Grammar

/-! ## Characters in a row -/

theorem Quoted.append {text more : List Char} {codes others : List Nat} (h : Quoted text codes)
    (hmore : Quoted more others) : Quoted (text ++ more) (codes ++ others) := by
  induction h with
  | nil => exact hmore
  | cons first inside _ ih =>
    rw [List.append_assoc, List.cons_append]
    exact .cons first inside ih

theorem spelling_nil : spelling [] = 1 := by
  ext text
  exact List.map_eq_nil_iff

theorem spelling_append (codes others : List Nat) :
    spelling (codes ++ others) = spelling codes * spelling others := by
  ext text
  rw [Language.mem_mul]
  constructor
  · intro h
    obtain ⟨front, back, rfl, hfront, hback⟩ := List.map_eq_append_iff.1 h
    exact ⟨front, hfront, back, hback, rfl⟩
  · rintro ⟨front, hfront, back, hback, rfl⟩
    change (front ++ back).map Char.toNat = _
    rw [List.map_append, hfront, hback]

theorem language_spelling (g : Grammar) (codes : List Nat) :
    g.language (.literal codes) = spelling codes := by
  ext text
  rw [mem_language, derives_literal_iff]
  rfl

/-! ## A bar is no item -/

theorem Counted.getLast {counts : List Char} {low : Nat} {high : Option Nat}
    (h : Counted counts low high) : ∃ c ∈ counts.getLast?, c ≠ '|' := by
  cases h with
  | optional => exact ⟨'?', rfl, by decide⟩
  | star => exact ⟨'*', rfl, by decide⟩
  | plus => exact ⟨'+', rfl, by decide⟩
  | @braces body low high inside counts =>
    exact ⟨'\x7d', by rw [← List.cons_append, List.getLast?_concat]; rfl, by decide⟩

/-- An item does not end in a bar. -/
theorem Written.getLast_ne_bar {P : String → Prop} {node : Node} {text : List Char}
    (hP : ∀ name, P name → '|' ∉ name.toList) (h : Written P (.item node) text) :
    text.getLast? ≠ some '|' := by
  have hlast {c : Char} (front : List Char) (hc : c ≠ '|') :
      (front ++ [c]).getLast? ≠ some '|' := by
    rw [List.getLast?_concat]
    exact fun heq => hc (Option.some.inj heq)
  cases h with
  | name allowed => exact fun heq => hP _ allowed (List.mem_of_getLast? heq)
  | literal _ => exact hlast ('"' :: _) (by decide)
  | charClass _ _ => exact hlast ('[' :: _) (by decide)
  | exceptClass _ => exact hlast ('[' :: '^' :: _) (by decide)
  | group _ => exact hlast ('(' :: _) (by decide)
  | times _ counted =>
    obtain ⟨c, hc, hne⟩ := counted.getLast
    rw [List.getLast?_append, Option.mem_def.1 hc]
    exact fun heq => hne (Option.some.inj heq)

end Grammar

namespace RuleTable

variable {t : RuleTable} {a b e : String} {A B L : Language Char}

theorem WritesItem.ne_bar (h : t.WritesItem e L)
    (ht : ∀ name, t.has name = true → IsStorable name) : e ≠ "|" := by
  rintro rfl
  obtain ⟨node, hw, -⟩ := h
  refine hw.getLast_ne_bar (fun name hname hmem => ?_) rfl
  exact absurd ((ht name hname).2 '|' hmem) (by decide)

theorem writesItem_quoted (t : RuleTable) {text : String} {codes : List Nat}
    (h : Quoted text.toList codes) : t.WritesItem ("\"" ++ text ++ "\"") (spelling codes) := by
  refine ⟨.literal codes, ?_, fun g _ => Grammar.language_spelling g codes⟩
  have htext : ("\"" ++ text ++ "\"").toList = '"' :: (text.toList ++ ['"']) := by simp
  rw [htext]
  exact .literal h

/-- Two expressions with nothing but a bar between them. -/
theorem Writes.bar (ha : t.Writes a A) (hb : t.Writes b B) : t.Writes (a ++ "|" ++ b) (A + B) := by
  obtain ⟨rows, hw, hL⟩ := ha
  obtain ⟨rows', hw', hL'⟩ := hb
  have hleft : Written t.Knows (.rows (Grammar.joinRows rows [[], []])) (a.toList ++ ['|']) :=
    .append hw .bar (Grammar.apart_of_head (by simp; decide))
  refine ⟨rows ++ rows', ?_, fun g hg => ?_⟩
  · rw [← Grammar.joinRows_bar rows rows' hw.fits.1 hw'.fits.1, String.toList_append,
      String.toList_append]
    refine .append hleft hw' (Grammar.apart_of_getLast ?_)
    rw [show "|".toList = ['|'] from rfl, List.getLast?_concat]
    simp
    decide
  · rw [← hL g hg, ← hL' g hg]
    simp [Grammar.rowsLanguage]

/-- Rows side by side. -/
theorem writesRow_intercalate {es : List String} {Ls : List (Language Char)}
    (h : List.Forall₂ t.WritesRow es Ls) : t.WritesRow (" ".intercalate es) Ls.prod := by
  induction h with
  | nil => exact writesRow_empty t
  | @cons e L es Ls he hes ih =>
    cases hes with
    | nil => simpa using he
    | @cons e' L' es Ls he' hes =>
      rw [String.intercalate_cons_cons, List.prod_cons]
      exact he.beside ih

end RuleTable

namespace Pattern

variable {t t' : RuleTable} {f : Fragment} {fs gs : List Fragment} {L M : Language Char}

/-! ## Fragments -/

/-- A fragment is a row of items; a literal spells some characters. -/
structure Fragment.Means (t : RuleTable) (f : Fragment) (L : Language Char) : Prop where
  row : t.WritesRow f.rule L
  literal : f.isLiteral = true → ∃ codes, Quoted f.text.toList codes ∧ L = spelling codes

theorem Fragment.Means.extend (h : f.Means t L) (ht : t.Extends t') : f.Means t' L :=
  ⟨h.row.extend ht, h.literal⟩

/-- Text that is no literal. -/
theorem means_row {text : String} (h : t.WritesRow text L) : Fragment.Means t ⟨text, false⟩ L :=
  ⟨h, fun hliteral => absurd hliteral Bool.false_ne_true⟩

theorem means_literal (t : RuleTable) {text : String} {codes : List Nat}
    (h : Quoted text.toList codes) : Fragment.Means t ⟨text, true⟩ (spelling codes) :=
  ⟨(RuleTable.writesItem_quoted t h).row, fun _ => ⟨codes, h, rfl⟩⟩

/-- Two literals side by side are one. -/
theorem means_append {a b : String} (ha : Fragment.Means t ⟨a, true⟩ L)
    (hb : Fragment.Means t ⟨b, true⟩ M) : Fragment.Means t ⟨a ++ b, true⟩ (L * M) := by
  obtain ⟨codes, hcodes, rfl⟩ := ha.literal rfl
  obtain ⟨others, hothers, rfl⟩ := hb.literal rfl
  rw [← Grammar.spelling_append]
  refine means_literal t ?_
  rw [String.toList_append]
  exact hcodes.append hothers

/-! ## Rows of fragments -/

/-- Fragments side by side. -/
def MeanRow (t : RuleTable) (fs : List Fragment) (L : Language Char) : Prop :=
  ∃ Ls, List.Forall₂ (Fragment.Means t) fs Ls ∧ Ls.prod = L

theorem MeanRow.extend (h : MeanRow t fs L) (ht : t.Extends t') : MeanRow t' fs L := by
  obtain ⟨Ls, hfs, hL⟩ := h
  exact ⟨Ls, hfs.imp fun _ _ hf => hf.extend ht, hL⟩

theorem meanRow_nil (t : RuleTable) : MeanRow t [] 1 :=
  ⟨[], .nil, rfl⟩

theorem Fragment.Means.meanRow (h : f.Means t L) : MeanRow t [f] L :=
  ⟨[L], .cons h .nil, by simp⟩

theorem MeanRow.append (hf : MeanRow t fs L) (hg : MeanRow t gs M) :
    MeanRow t (fs ++ gs) (L * M) := by
  obtain ⟨Ls, hfs, rfl⟩ := hf
  obtain ⟨Ms, hgs, rfl⟩ := hg
  exact ⟨Ls ++ Ms, List.rel_append hfs hgs, List.prod_append⟩

theorem meanRow_cons : MeanRow t (f :: fs) L ↔ ∃ A B, f.Means t A ∧ MeanRow t fs B ∧ A * B = L := by
  constructor
  · rintro ⟨_, hall, rfl⟩
    obtain ⟨A, Ls, hf, hfs, rfl⟩ := List.forall₂_cons_left_iff.1 hall
    exact ⟨A, Ls.prod, hf, ⟨Ls, hfs, rfl⟩, List.prod_cons.symm⟩
  · rintro ⟨A, B, hf, ⟨Ls, hfs, rfl⟩, rfl⟩
    exact ⟨A :: Ls, .cons hf hfs, List.prod_cons⟩

theorem MeanRow.joinLiterals (h : MeanRow t fs L) : MeanRow t (joinLiterals fs) L := by
  induction fs generalizing L with
  | nil => exact h
  | cons f rest ih =>
    obtain ⟨A, B, hf, hrest, rfl⟩ := meanRow_cons.1 h
    have hjoined := ih hrest
    rw [Pattern.joinLiterals]
    cases hmore : Pattern.joinLiterals rest with
    | nil =>
      rw [hmore] at hjoined
      exact meanRow_cons.2 ⟨A, B, hf, hjoined, rfl⟩
    | cons g more =>
      rw [hmore] at hjoined
      dsimp only
      -- what stands behind is joined already, so only its first fragment can join `f`
      split_ifs with hboth
      · rw [Bool.and_eq_true] at hboth
        obtain ⟨C, D, hg, hrow, rfl⟩ := meanRow_cons.1 hjoined
        obtain ⟨text, isLiteral⟩ := f
        obtain ⟨other, isLiteral'⟩ := g
        obtain rfl : isLiteral = true := hboth.1
        obtain rfl : isLiteral' = true := hboth.2
        exact meanRow_cons.2 ⟨A * C, D, means_append hf hg, hrow, mul_assoc A C D⟩
      · exact meanRow_cons.2 ⟨A, B, hf, hjoined, rfl⟩

theorem MeanRow.writes (h : MeanRow t fs L) :
    t.WritesRow (" ".intercalate (fs.map Fragment.rule)) L := by
  obtain ⟨Ls, hfs, rfl⟩ := h
  refine RuleTable.writesRow_intercalate ?_
  rw [List.forall₂_map_left_iff]
  exact hfs.imp fun _ _ hf => hf.row

/-! ## Branches -/

/-- Rows of fragments with a bar between each two. -/
inductive Branches (t : RuleTable) : List Fragment → Language Char → Prop where
  | row {fs : List Fragment} {L : Language Char} (h : MeanRow t fs L) : Branches t fs L
  | or {fs gs : List Fragment} {L M : Language Char} (first : MeanRow t fs L)
      (others : Branches t gs M) : Branches t (fs ++ .bar :: gs) (L + M)

theorem Branches.extend (h : Branches t fs L) (ht : t.Extends t') : Branches t' fs L := by
  induction h with
  | row h => exact .row (h.extend ht)
  | or first _ ih => exact .or (first.extend ht) ih

theorem Branches.append (hf : Branches t fs L) (hg : Branches t gs M) :
    Branches t (fs ++ .bar :: gs) (L + M) := by
  induction hf with
  | row h => exact .or h hg
  | @or front back A B first others ih =>
    rw [List.append_assoc, List.cons_append, add_assoc]
    exact .or first ih

theorem joinLiterals_bar (gs : List Fragment) :
    joinLiterals (.bar :: gs) = .bar :: joinLiterals gs := by
  rw [joinLiterals]
  split
  · rename_i g more hmore
    rw [hmore]
    rfl
  · rename_i hnone
    rw [hnone]

theorem joinLiterals_append_bar (fs gs : List Fragment) :
    joinLiterals (fs ++ .bar :: gs) = joinLiterals fs ++ .bar :: joinLiterals gs := by
  induction fs with
  | nil => exact joinLiterals_bar gs
  | cons f rest ih =>
    rw [List.cons_append, joinLiterals, joinLiterals, ih]
    cases joinLiterals rest with
    | nil =>
      have hbar : (f.isLiteral && Fragment.bar.isLiteral) = false := Bool.and_false _
      simp [hbar]
    | cons g more =>
      simp only [List.cons_append]
      split_ifs <;> rfl

theorem Branches.joinLiterals (h : Branches t fs L) : Branches t (joinLiterals fs) L := by
  induction h with
  | row h => exact .row h.joinLiterals
  | or first _ ih =>
    rw [joinLiterals_append_bar]
    exact .or first.joinLiterals ih

/-- What a row is, in front of a bar. -/
theorem intercalate_bar (es es' : List String) :
    " ".intercalate (es ++ "|" :: es') =
      (if es = [] then "" else " ".intercalate es ++ " ") ++ "|" ++
        (if es' = [] then "" else " " ++ " ".intercalate es') := by
  induction es with
  | nil =>
    cases es' with
    | nil => simp
    | cons e' rest =>
      rw [← String.toList_inj]
      simp [String.intercalate_cons_cons]
  | cons e rest ih =>
    cases rest with
    | nil =>
      cases es' with
      | nil => simp [String.intercalate_cons_cons]
      | cons e' rest =>
        rw [← String.toList_inj]
        simp [String.intercalate_cons_cons]
    | cons next rest =>
      rw [List.cons_append, List.cons_append, String.intercalate_cons_cons, ← List.cons_append, ih]
      simp [String.intercalate_cons_cons, String.append_assoc]

theorem Branches.writes (h : Branches t fs L) :
    t.Writes (" ".intercalate (fs.map Fragment.rule)) L := by
  induction h with
  | row h => exact h.writes.writes
  | @or fs gs A B first _ ih =>
    have hbar : Fragment.bar.rule = "|" := rfl
    rw [List.map_append, List.map_cons, hbar, intercalate_bar]
    -- a side without fragments has no blank between itself and the bar
    refine RuleTable.Writes.bar ?_ ?_
    · split_ifs with hempty
      · rw [List.map_eq_nil_iff.1 hempty] at first
        exact first.writes.writes
      · exact first.writes.writes.append_blank
    · split_ifs with hempty
      · rwa [hempty] at ih
      · exact ih.blank_append

theorem rule_joinFragments (fs : List Fragment) :
    (joinFragments fs).rule = " ".intercalate ((joinLiterals fs).map Fragment.rule) := by
  unfold joinFragments
  split
  · rename_i f hone
    simp [hone]
  · rfl

/-- **Fragments that are joined** are an expression for their branches. -/
theorem Branches.writes_join (h : Branches t fs L) : t.Writes (joinFragments fs).rule L := by
  rw [rule_joinFragments]
  exact h.joinLiterals.writes

end Pattern

end SchemaGrammar
