import Mathlib.Tactic.SplitIfs
import SchemaGrammar.Grammar.Listing
import SchemaGrammar.Proofs.Text.Numeral

set_option autoImplicit false

/-! # Texts on one line

A text is on one line if none of its characters ends a line. Such texts, each with a line feed
behind it, are the lines of the whole text (`lines_join`), and all lines of a text are such texts
(`isOneLine_of_mem_lines`). -/

namespace SchemaGrammar

namespace Text

/-- No character of a text ends a line. -/
def IsOneLine (s : String) : Prop :=
  ∀ c ∈ s.toList, endsLine c = false

instance (s : String) : Decidable (IsOneLine s) :=
  inferInstanceAs (Decidable (∀ c ∈ s.toList, endsLine c = false))

variable {a b s : String} {c : Char} {cs : List Char}

theorem endsLine_iff : endsLine c = true ↔
    10 ≤ c.toNat ∧ c.toNat ≤ 13 ∨ 28 ≤ c.toNat ∧ c.toNat ≤ 30 ∨ c.toNat = 0x85 ∨
      0x2028 ≤ c.toNat ∧ c.toNat ≤ 0x2029 := by
  simp only [endsLine, lineEnds, Ranges.holds]
  split_ifs <;> simp only [true_iff, false_iff] <;> omega

/-- The characters that end a line. -/
def lineEndings : List Char :=
  ['\n', '\x0b', '\x0c', '\r', '\x1c', '\x1d', '\x1e', '\u0085', '\u2028', '\u2029']

theorem mem_lineEndings (h : endsLine c = true) : c ∈ lineEndings := by
  have hall : ∀ n ∈ [10, 11, 12, 13, 28, 29, 30, 0x85, 0x2028, 0x2029],
      Char.ofNat n ∈ lineEndings := by
    decide
  rw [← Char.ofNat_toNat c]
  refine hall _ ?_
  rw [endsLine_iff] at h
  simp only [List.mem_cons, List.not_mem_nil, or_false]
  omega

theorem endsLine_of_isBlank (h : isBlank c = false) : endsLine c = false := by
  have hall : ∀ c ∈ lineEndings, isBlank c = true := by decide
  by_contra hends
  rw [hall c (mem_lineEndings (by simpa using hends))] at h
  cases h

theorem endsLine_of_isDigit (h : c.isDigit = true) : endsLine c = false :=
  endsLine_of_isBlank (plainDigit h).notSpace

theorem endsLine_of_mem_hexDigits {upper : Bool} {width n : Nat} (h : c ∈ hexDigits upper width n) :
    endsLine c = false := by
  have hdigit : ∀ upper, ∀ n < 16, endsLine (hexDigit upper n) = false := by decide
  induction width generalizing n with
  | zero => cases h
  | succ width ih =>
    rw [hexDigits, List.mem_append, List.mem_singleton] at h
    obtain h | rfl := h
    · exact ih h
    · exact hdigit upper _ (Nat.mod_lt n (by decide))

/-- An escape: a backslash, the character that it is about, and maybe digits. -/
theorem endsLine_of_mem_escape {mark : Char} {more : List Char} (hmark : endsLine mark = false)
    (hmore : ∀ d ∈ more, endsLine d = false) (h : c ∈ '\\' :: mark :: more) :
    endsLine c = false := by
  rcases List.mem_cons.1 h with rfl | h
  · decide
  · rcases List.mem_cons.1 h with rfl | h
    · exact hmark
    · exact hmore c h

/-! ## Putting texts together -/

theorem isOneLine_ofList : IsOneLine (String.ofList cs) ↔ ∀ c ∈ cs, endsLine c = false := by
  rw [IsOneLine, String.toList_ofList]

theorem isOneLine_enclosed {quote : Char} (hquote : endsLine quote = false)
    (h : ∀ c ∈ cs, endsLine c = false) : IsOneLine (String.ofList (quote :: (cs ++ [quote]))) := by
  refine isOneLine_ofList.2 (List.forall_mem_cons.2 ⟨hquote, fun c hc => ?_⟩)
  rcases List.mem_append.1 hc with hc | hc
  · exact h c hc
  · exact List.mem_singleton.1 hc ▸ hquote

theorem IsOneLine.append (ha : IsOneLine a) (hb : IsOneLine b) : IsOneLine (a ++ b) := by
  intro c hc
  rw [String.toList_append, List.mem_append] at hc
  exact hc.elim (ha c) (hb c)

theorem IsOneLine.between (ha : IsOneLine a) (hs : IsOneLine s) (hb : IsOneLine b) :
    IsOneLine (a ++ s ++ b) :=
  (ha.append hs).append hb

theorem IsOneLine.push (hs : IsOneLine s) (hc : endsLine c = false) : IsOneLine (s.push c) := by
  intro d hd
  rw [String.toList_push, List.mem_append, List.mem_singleton] at hd
  obtain hd | rfl := hd
  · exact hs d hd
  · exact hc

theorem isOneLine_intercalate {texts : List String} (hs : IsOneLine s)
    (h : ∀ text ∈ texts, IsOneLine text) : IsOneLine (s.intercalate texts) := by
  induction texts with
  | nil => exact (by decide : IsOneLine "")
  | cons text rest ih =>
    have hrest := ih fun other hother => h other (List.mem_cons_of_mem _ hother)
    cases rest with
    | nil => simpa using h text (by simp)
    | cons next more =>
      rw [String.intercalate_cons_cons]
      exact ((h text (by simp)).append hs).append hrest

theorem isOneLine_natText (n : Nat) : IsOneLine (natText n) :=
  isOneLine_ofList.2 fun _ hc => endsLine_of_isDigit (isDigit_of_mem_toDigits hc)

theorem isOneLine_intText (n : Int) : IsOneLine (intText n) := by
  unfold intText
  split_ifs
  · exact (by decide : IsOneLine "-").append (isOneLine_natText _)
  · exact isOneLine_natText _

theorem mem_of_mem_trimRight (h : c ∈ trimRight cs) : c ∈ cs := by
  rw [trimRight, List.mem_reverse] at h
  exact List.mem_reverse.1 ((List.dropWhile_sublist _).subset h)

theorem IsOneLine.dropTrailingBlanks (h : IsOneLine s) : IsOneLine (dropTrailingBlanks s) :=
  isOneLine_ofList.2 fun c hc => h c (mem_of_mem_trimRight hc)

/-! ## Lines of a text -/

theorem linesFrom_append (h : ∀ c ∈ cs, endsLine c = false) (line rest : List Char) :
    linesFrom line (cs ++ '\n' :: rest) = (line.reverse ++ cs) :: linesFrom [] rest := by
  induction cs generalizing line with
  | nil =>
    rw [List.nil_append, List.append_nil, linesFrom, if_pos (by decide)]
    simp
  | cons c cs ih =>
    have hc := h c (by simp)
    have hreturn : c ≠ '\r' := by
      rintro rfl
      exact absurd hc (by decide)
    rw [List.cons_append, linesFrom, if_neg (by simp [hc]), ih fun d hd => h d (by simp [hd])]
    · simp
    · exact fun _ h _ => hreturn h

/-- Texts on one line, each with a line feed behind it, are the lines of the whole text. -/
theorem lines_join {texts : List String} (h : ∀ text ∈ texts, IsOneLine text) :
    lines (String.join (texts.map (· ++ "\n"))) = texts := by
  have hlines : linesFrom [] (String.join (texts.map (· ++ "\n"))).toList =
      texts.map String.toList := by
    induction texts with
    | nil => rfl
    | cons text rest ih =>
      have hrest := ih fun other hother => h other (List.mem_cons_of_mem _ hother)
      simp only [String.toList_join, List.map_cons, List.flatMap_cons, String.toList_append,
        List.append_assoc] at hrest ⊢
      rw [show "\n".toList = ['\n'] from rfl, List.singleton_append,
        linesFrom_append (h text (by simp)), hrest]
      rfl
  rw [lines, hlines, List.map_map]
  simp

theorem isOneLine_of_mem_linesFrom {line : List Char} (hline : ∀ c ∈ line, endsLine c = false) :
    ∀ text ∈ linesFrom line cs, ∀ c ∈ text, endsLine c = false := by
  have hreverse {line : List Char} (h : ∀ c ∈ line, endsLine c = false) :
      ∀ c ∈ line.reverse, endsLine c = false :=
    fun c hc => h c (List.mem_reverse.1 hc)
  fun_induction linesFrom line cs with
  | case1 => simp
  | case2 line _ => simpa using hline
  | case3 line rest ih =>
    rintro text (_ | ⟨_, htext⟩)
    · exact hreverse hline
    · exact ih (by simp) text htext
  | case4 line c rest _ hends ih =>
    rintro text (_ | ⟨_, htext⟩)
    · exact hreverse hline
    · exact ih (by simp) text htext
  | case5 line c rest _ hends ih =>
    refine ih fun d hd => ?_
    rcases List.mem_cons.1 hd with rfl | hd
    · exact Bool.eq_false_iff.2 hends
    · exact hline d hd

theorem isOneLine_of_mem_lines {text : String} (h : text ∈ lines s) : IsOneLine text := by
  obtain ⟨cs, hcs, rfl⟩ := List.mem_map.1 h
  exact isOneLine_ofList.2 (isOneLine_of_mem_linesFrom (by simp) cs hcs)

theorem mem_of_mem_cutAt {mark : List Char} (h : c ∈ (cutAt mark cs).2) : c ∈ cs := by
  induction cs with
  | nil => exact h
  | cons d rest ih =>
    rw [cutAt] at h
    split_ifs at h
    · exact List.mem_of_mem_drop h
    · exact List.mem_cons_of_mem _ (ih h)

end Text

/-! ## Rows of a listing -/

namespace Grammar

open Text (IsOneLine)

variable {name body line : String}

/-- Behind a name without blanks a line is cut. -/
theorem rowOf_line (h : ' ' ∉ name.toList) : rowOf (name ++ definitionSign ++ body) = (name, body) := by
  have hcut : ∀ cs : List Char, ' ' ∉ cs →
      Text.cutAt definitionSign.toList (cs ++ (definitionSign.toList ++ body.toList)) =
        (cs, body.toList) := by
    intro cs hcs
    induction cs with
    | nil => rfl
    | cons c rest ih =>
      have hc : ¬ definitionSign.toList.isPrefixOf (c :: (rest ++ (definitionSign.toList ++ body.toList))) := by
        rw [List.isPrefixOf_iff_prefix]
        rintro ⟨more, hmore⟩
        rw [show definitionSign.toList = ' ' :: "::= ".toList from rfl, List.cons_append] at hmore
        exact hcs ((List.cons.inj hmore).1 ▸ List.mem_cons_self)
      rw [List.cons_append, Text.cutAt, if_neg hc, ih fun hrest => hcs (List.mem_cons_of_mem _ hrest)]
  rw [rowOf, String.toList_append, String.toList_append, List.append_assoc, hcut _ h]
  simp

/-- What a row has of a line is on one line. -/
theorem isOneLine_rowOf (h : IsOneLine line) : IsOneLine (rowOf line).2 :=
  Text.isOneLine_ofList.2 fun c hc => h c (Text.mem_of_mem_cutAt hc)

end Grammar

end SchemaGrammar
