import SchemaGrammar.Grammar.Literal
import SchemaGrammar.Proofs.Grammar.Tokens

set_option autoImplicit false

/-! # Putting rows of tokens together

Two rows of tokens side by side are one row unless a name of the first one runs into a name of the
second one. Builders keep names apart by blanks and marks, so it is enough to look at the ends of
the pieces (`StartsFirm`, `EndsFirm`). A piece that is known beforehand is checked by running
through it (`lexes`). -/

namespace SchemaGrammar

namespace Grammar

/-- A text is a row of tokens with names that `P` allows. -/
def IsText (P : String → Prop) (s : String) : Prop :=
  Lexed P s.toList

/-- No name can go on at the start of a text. -/
def StartsFirm (s : String) : Prop :=
  ∀ c ∈ s.toList.head?, isNameChar c = false

/-- No name can go on at the end of a text. -/
def EndsFirm (s : String) : Prop :=
  ∀ c ∈ s.toList.getLast?, isNameChar c = false

instance (s : String) : Decidable (StartsFirm s) :=
  inferInstanceAs (Decidable (∀ c ∈ s.toList.head?, isNameChar c = false))

instance (s : String) : Decidable (EndsFirm s) :=
  inferInstanceAs (Decidable (∀ c ∈ s.toList.getLast?, isNameChar c = false))

section Texts

variable {P Q : String → Prop} {a b c : String}

theorem IsText.mono (hPQ : ∀ name, P name → Q name) (h : IsText P a) : IsText Q a :=
  Lexed.mono hPQ h

theorem isText_empty : IsText P "" :=
  Lexed.nil

theorem isText_name {name : String} (h : P name) : IsText P name :=
  Lexed.name h

theorem IsText.append_firm (ha : IsText P a) (hb : IsText P b) (h : StartsFirm b) :
    IsText P (a ++ b) := by
  rw [IsText, String.toList_append]
  exact Lexed.append ha hb (apart_of_head h)

theorem IsText.firm_append (ha : IsText P a) (hb : IsText P b) (h : EndsFirm a) :
    IsText P (a ++ b) := by
  rw [IsText, String.toList_append]
  exact Lexed.append ha hb (apart_of_getLast h)

theorem endsFirm_append (h : EndsFirm b) (hne : b ≠ "") : EndsFirm (a ++ b) := by
  intro c hc
  have hlist : b.toList ≠ [] := by simpa using hne
  rw [String.toList_append, List.getLast?_append_of_ne_nil _ hlist] at hc
  exact h c hc

theorem startsFirm_append (h : StartsFirm a) (hne : a ≠ "") : StartsFirm (a ++ b) := by
  intro c hc
  have hlist : a.toList ≠ [] := by simpa using hne
  rw [String.toList_append, List.head?_append_of_ne_nil _ hlist] at hc
  exact h c hc

/-- A piece between two firm ones. -/
theorem IsText.between (ha : IsText P a) (hb : IsText P b) (hc : IsText P c) (hend : EndsFirm a)
    (hstart : StartsFirm c) : IsText P (a ++ b ++ c) :=
  (ha.firm_append hb hend).append_firm hc hstart

/-- Pieces with a firm separator between each two. -/
theorem isText_intercalate {sep : String} (hsep : IsText P sep) (hne : sep ≠ "")
    (hstart : StartsFirm sep) (hend : EndsFirm sep) {pieces : List String}
    (h : ∀ s ∈ pieces, IsText P s) : IsText P (sep.intercalate pieces) := by
  induction pieces with
  | nil => exact isText_empty
  | cons s rest ih =>
    cases rest with
    | nil => simpa using h s (by simp)
    | cons s' rest =>
      rw [String.intercalate_cons_cons]
      exact ((h s (by simp)).append_firm hsep hstart).firm_append
        (ih fun e he => h e (List.mem_cons_of_mem _ he)) (endsFirm_append hend hne)

theorem enclosed_literalChar (c : Char) : Enclosed '"' (literalChar c) := by
  unfold literalChar
  split_ifs with hquote hslash
  · exact .escape .nil
  · exact .escape .nil
  · exact .escape .nil
  · exact .escape .nil
  · exact .plain hquote hslash .nil

theorem isText_literalText (s : String) : IsText P (literalText s) := by
  have hinside (cs : List Char) : Enclosed '"' (cs.flatMap literalChar) := by
    induction cs with
    | nil => exact .nil
    | cons c rest ih => exact (enclosed_literalChar c).append ih
  rw [IsText, literalText, String.toList_ofList]
  exact .literal (hinside s.toList)

end Texts

/-! ## Pieces that are known beforehand -/

/-- What stands before the partner of a mark, and what stands behind it. -/
def closing (stop : Char) : List Char → Option (List Char × List Char)
  | [] => none
  | '\\' :: c :: rest =>
    (closing stop rest).map fun (inside, behind) => ('\\' :: c :: inside, behind)
  | c :: rest =>
    if c = stop then some ([], rest)
    else if c = '\\' then none
    else (closing stop rest).map fun (inside, behind) => (c :: inside, behind)

theorem closing_spec {stop : Char} {cs inside behind : List Char}
    (h : closing stop cs = some (inside, behind)) :
    Enclosed stop inside ∧ cs = inside ++ stop :: behind := by
  fun_induction closing stop cs generalizing inside behind with
  | case1 => simp at h
  | case2 c rest ih =>
    simp only [Option.map_eq_some_iff, Prod.exists, Prod.mk.injEq] at h
    obtain ⟨i, b, hclosing, rfl, rfl⟩ := h
    obtain ⟨hinside, hrest⟩ := ih hclosing
    exact ⟨.escape hinside, by rw [hrest]; rfl⟩
  | case3 rest =>
    obtain ⟨rfl, rfl⟩ := Prod.mk.inj (Option.some.inj h)
    exact ⟨.nil, rfl⟩
  | case4 => simp at h
  | case5 c rest _ hother hraw ih =>
    simp only [Option.map_eq_some_iff, Prod.exists, Prod.mk.injEq] at h
    obtain ⟨i, b, hclosing, rfl, rfl⟩ := h
    obtain ⟨hinside, hrest⟩ := ih hclosing
    exact ⟨.plain hother hraw hinside, by rw [hrest]; rfl⟩

/-- Is a text a row of tokens with some names? Every token has a character, so the length of the
    text bounds the number of `steps`. -/
def lexes (names : List String) : Nat → List Char → Bool
  | _, [] => true
  | 0, _ => false
  | steps + 1, c :: rest =>
    if marks.contains c then lexes names steps rest
    else if c = '"' then
      match closing '"' rest with
      | some (_, behind) => lexes names steps behind
      | none => false
    else if c = '[' then
      match closing ']' rest with
      | some (_, behind) => lexes names steps behind
      | none => false
    else if c = '\x7b' then
      match rest.dropWhile (· ≠ '\x7d') with
      | _ :: behind => lexes names steps behind
      | [] => false
    else isNameChar c &&
      names.contains (String.ofList ((c :: rest).takeWhile isNameChar)) &&
      lexes names steps ((c :: rest).dropWhile isNameChar)

theorem lexed_of_lexes {names : List String} {steps : Nat} {cs : List Char}
    (h : lexes names steps cs = true) : Lexed (· ∈ names) cs := by
  fun_induction lexes names steps cs with
  | case1 => exact .nil
  | case2 => simp at h
  | case3 steps c rest hmark ih =>
    have hknown := List.contains_iff_mem.1 hmark
    have hfirm : ∀ d ∈ marks, isNameChar d = false := by decide
    exact Lexed.append (a := [c]) (.mark hknown) (ih h)
      (apart_of_getLast (by simpa using hfirm c hknown))
  | case4 steps rest inside behind hclosing _ ih =>
    obtain ⟨hinside, rfl⟩ := closing_spec hclosing
    have hlexed := Lexed.append (P := (· ∈ names)) (.literal hinside) (ih h)
      (apart_of_getLast (by rw [← List.cons_append, List.getLast?_concat]; simp; decide))
    simpa using hlexed
  | case5 => simp at h
  | case6 steps rest inside behind hclosing _ _ ih =>
    obtain ⟨hinside, rfl⟩ := closing_spec hclosing
    have hlexed := Lexed.append (P := (· ∈ names)) (.charClass hinside) (ih h)
      (apart_of_getLast (by rw [← List.cons_append, List.getLast?_concat]; simp; decide))
    simpa using hlexed
  | case7 => simp at h
  | case8 steps rest stop behind hdrop _ _ _ ih =>
    have hsplit := List.takeWhile_append_dropWhile (p := (· ≠ '\x7d')) (l := rest)
    have hstop : stop = '\x7d' := by
      have hhead := List.head?_dropWhile_not (p := (· ≠ '\x7d')) (l := rest)
      rw [hdrop] at hhead
      simpa using hhead
    have hinside : '\x7d' ∉ rest.takeWhile (· ≠ '\x7d') := by
      intro hmem
      simpa using List.mem_takeWhile_imp hmem
    have hlexed := Lexed.append (P := (· ∈ names)) (.braces hinside) (ih h)
      (apart_of_getLast (by rw [← List.cons_append, List.getLast?_concat]; simp; decide))
    rw [hdrop, hstop] at hsplit
    rw [← hsplit]
    simpa using hlexed
  | case9 => simp at h
  | case10 steps c rest _ _ _ _ ih =>
    simp only [Bool.and_eq_true] at h
    obtain ⟨⟨hc, hname⟩, hrest⟩ := h
    have hallowed := List.contains_iff_mem.1 hname
    have hlexed := Lexed.append (P := (· ∈ names)) (.name hallowed) (ih hrest) ?_
    · rwa [String.toList_ofList, List.takeWhile_append_dropWhile] at hlexed
    · refine apart_of_head fun d hd => ?_
      have hhead := List.head?_dropWhile_not (p := isNameChar) (l := c :: rest)
      cases hdrop : (c :: rest).dropWhile isNameChar with
      | nil => simp [hdrop] at hd
      | cons e es =>
        rw [hdrop] at hhead hd
        obtain rfl : e = d := by simpa using hd
        simpa using hhead

/-- A piece that is known beforehand. -/
theorem isText_of_lexes {P : String → Prop} (names : List String) {s : String}
    (h : lexes names s.toList.length s.toList = true) (hP : ∀ name ∈ names, P name) :
    IsText P s :=
  (lexed_of_lexes h).mono hP

end Grammar

end SchemaGrammar
