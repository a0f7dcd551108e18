import Mathlib.Data.List.TakeWhile
import SchemaGrammar.Proofs.Grammar.Layout
import SchemaGrammar.Proofs.Grammar.LeftRecursion

set_option autoImplicit false

/-! # Rows of tokens

Less is said about a text here than that it is a proper expression: it is a row of tokens, in which
names are allowed ones (`Lexed`). A quantifier may stand where none belongs, brackets may be
unbalanced and an escape may be ill-formed. Such a text can be at fault, but the fault is one of
syntax: reading it never takes a part of a literal or a class for a name (`Lexed.settles`). -/

namespace SchemaGrammar

/-- A failure that has nothing to do with which rules are defined. -/
def Failure.IsSyntactic (e : Failure) : Prop :=
  ∀ name position, e ≠ .grammar (.undefinedRule name) position ∧
    e ≠ .grammar (.duplicateRule name) position

namespace Text

/-- The characters that a numeral in base sixteen may have once its digits are ASCII. -/
def IsNumeralChar (c : Char) : Prop :=
  isAsciiBlank c = true ∨ c ∈ ['-', '+', '0', 'x', 'X'] ∨ inDigitRun 16 c = true

theorem mem_dropBaseMark {cs : List Char} {c : Char} (h : c ∈ cs) :
    c ∈ dropBaseMark 16 cs ∨ IsNumeralChar c := by
  unfold dropBaseMark
  split
  · rename_i x rest
    split_ifs with hx
    · simp only [Bool.and_eq_true, Bool.or_eq_true, decide_eq_true_eq] at hx
      rcases List.mem_cons.1 h with rfl | h
      · exact .inr (.inr (.inl (by simp)))
      rcases List.mem_cons.1 h with rfl | h
      · rcases hx.2 with rfl | rfl <;> exact .inr (.inr (.inl (by simp)))
      rcases List.mem_cons.1 h with rfl | h
      · exact .inr (.inr (.inr (by decide)))
      · exact .inl h
    · exact .inl h
  · rename_i x rest _
    split_ifs with hx
    · simp only [Bool.and_eq_true, Bool.or_eq_true, decide_eq_true_eq] at hx
      rcases List.mem_cons.1 h with rfl | h
      · exact .inr (.inr (.inl (by simp)))
      rcases List.mem_cons.1 h with rfl | h
      · rcases hx.2 with rfl | rfl <;> exact .inr (.inr (.inl (by simp)))
      · exact .inl h
    · exact .inl h
  · exact .inl h

theorem mem_signOf {cs : List Char} {c : Char} (h : c ∈ cs) :
    c ∈ (signOf cs).2 ∨ IsNumeralChar c := by
  unfold signOf
  split
  · rcases List.mem_cons.1 h with rfl | h
    · exact .inr (.inr (.inl (by simp)))
    · exact .inl h
  · rcases List.mem_cons.1 h with rfl | h
    · exact .inr (.inr (.inl (by simp)))
    · exact .inl h
  · exact .inl h

/-- A character of a run, or of what stands behind it. -/
theorem mem_of_mem_dropWhile {p : Char → Bool} {cs : List Char} {c : Char} (h : c ∈ cs) :
    p c = true ∨ c ∈ cs.dropWhile p := by
  rw [← List.takeWhile_append_dropWhile (p := p) (l := cs), List.mem_append] at h
  exact h.imp_left fun hc => List.mem_takeWhile_imp hc

/-- A numeral has no quotes, brackets or backslashes. -/
theorem isNumeralChar_of_readInt? {cs : List Char} {n : Int} (h : readInt? 16 cs = some n)
    {c : Char} (hc : c ∈ cs) : IsNumeralChar (toAsciiNumeral c) := by
  have hmem : toAsciiNumeral c ∈ cs.map toAsciiNumeral := List.mem_map.2 ⟨c, hc, rfl⟩
  unfold readInt? at h
  dsimp only at h
  split at h
  · exact absurd h (by simp)
  · have hrest : ∀ d ∈ (dropBaseMark 16 (signOf ((cs.map toAsciiNumeral).dropWhile
        isAsciiBlank)).2).dropWhile (inDigitRun 16), isAsciiBlank d = true := by
      by_contra hnot
      rw [← List.all_eq_true, Bool.not_eq_true] at hnot
      rw [hnot] at h
      exact absurd h (by simp)
    rcases mem_of_mem_dropWhile (p := isAsciiBlank) hmem with hblank | hmem
    · exact .inl hblank
    rcases mem_signOf hmem with hmem | hsign
    · rcases mem_dropBaseMark hmem with hmem | hmark
      · rcases mem_of_mem_dropWhile (p := inDigitRun 16) hmem with hrun | hmem
        · exact .inr (.inr hrun)
        · exact .inl (hrest _ hmem)
      · exact hmark
    · exact hsign

end Text

namespace Grammar

open Text (Cursor)

/-! ## Between quotes and brackets -/

/-- What stands between a mark and its partner `stop`: characters other than the partner, and any
    characters behind backslashes. -/
inductive Enclosed (stop : Char) : List Char → Prop where
  | nil : Enclosed stop []
  | plain {c : Char} {cs : List Char} (other : c ≠ stop) (raw : c ≠ '\\')
      (rest : Enclosed stop cs) : Enclosed stop (c :: cs)
  | escape {c : Char} {cs : List Char} (rest : Enclosed stop cs) : Enclosed stop ('\\' :: c :: cs)

theorem Enclosed.append {stop : Char} {a b : List Char} (ha : Enclosed stop a)
    (hb : Enclosed stop b) : Enclosed stop (a ++ b) := by
  induction ha with
  | nil => exact hb
  | plain other raw _ ih => exact .plain other raw ih
  | escape _ ih => exact .escape ih

/-- The partners of quotes and brackets. -/
def IsPartner (stop : Char) : Prop :=
  stop = '"' ∨ stop = ']'

theorem toAsciiNumeral_of_small {c : Char} (h : c.toNat < 0x80) : Text.toAsciiNumeral c = c :=
  if_pos h

theorem not_isNumeralChar {c : Char} (h : c = '\\' ∨ IsPartner c) :
    ¬ Text.IsNumeralChar (Text.toAsciiNumeral c) := by
  rcases h with rfl | rfl | rfl <;> rw [toAsciiNumeral_of_small (by decide)] <;>
    unfold Text.IsNumeralChar <;> decide

/-- The digits of an escape lie before the partner. -/
theorem Enclosed.drop {stop : Char} (hstop : IsPartner stop) {cs rest : List Char}
    (h : Enclosed stop cs) {width : Nat} {n : Int}
    (hlength : ((cs ++ stop :: rest).take width).length = width)
    (hread : Text.readInt? 16 ((cs ++ stop :: rest).take width) = some n) :
    width ≤ cs.length ∧ Enclosed stop (cs.drop width) := by
  have hchars : ∀ c ∈ (cs ++ stop :: rest).take width, c ≠ '\\' ∧ c ≠ stop := by
    intro c hc
    have hnumeral := Text.isNumeralChar_of_readInt? hread hc
    refine ⟨?_, ?_⟩ <;> rintro rfl
    · exact not_isNumeralChar (.inl rfl) hnumeral
    · exact not_isNumeralChar (.inr hstop) hnumeral
  clear hread
  induction width generalizing cs with
  | zero => exact ⟨Nat.zero_le _, by simpa using h⟩
  | succ width ih =>
    cases h with
    | nil => exact absurd rfl (hchars stop (by simp)).2
    | @plain c cs other raw inside =>
      have hlen : ((cs ++ stop :: rest).take width).length = width := by
        simpa [List.take_succ_cons] using hlength
      have hrest := ih inside hlen fun d hd => hchars d (by simp [List.take_succ_cons, hd])
      exact ⟨Nat.succ_le_succ hrest.1, by simpa using hrest.2⟩
    | escape inside => exact absurd rfl (hchars '\\' (by simp)).1

/-- Reading one character stays before the partner, or fails. -/
theorem Enclosed.unit {stop : Char} (hstop : IsPartner stop) {cs : List Char}
    (h : Enclosed stop cs) (hne : cs ≠ []) (offset : Nat) (rest : List Char) :
    (∃ e, e.IsSyntactic ∧ unit ⟨offset, cs ++ stop :: rest⟩ = .error e) ∨
      ∃ code count, 0 < count ∧ count ≤ cs.length ∧ Enclosed stop (cs.drop count) ∧
        unit ⟨offset, cs ++ stop :: rest⟩ =
          .ok (code, ⟨offset + count, cs.drop count ++ stop :: rest⟩) := by
  cases h with
  | nil => exact absurd rfl hne
  | @plain c cs other raw inside =>
    refine .inr ⟨c.toNat, 1, by decide, by simp, by simpa using inside, ?_⟩
    have hspell := (Spells.raw raw).unit offset (cs ++ stop :: rest)
    simpa using hspell
  | @escape c cs inside =>
    cases hwidth : escapeWidth? c with
    | none =>
      refine .inr ⟨(simpleEscape c).toNat, 2, by decide, by simp, by simpa using inside, ?_⟩
      have hspell := (Spells.escaped hwidth).unit offset (cs ++ stop :: rest)
      simpa using hspell
    | some width =>
      simp only [Grammar.unit, List.cons_append, hwidth, escapedCode]
      split_ifs with hlength
      · exact .inl ⟨_, by simp [Failure.IsSyntactic], rfl⟩
      · rw [not_not] at hlength
        cases hread : Text.readInt? 16 ((cs ++ stop :: rest).take width) with
        | none => exact .inl ⟨_, by simp [Failure.IsSyntactic], rfl⟩
        | some n =>
          cases n with
          | negSucc n => exact .inl ⟨_, by simp [Failure.IsSyntactic], rfl⟩
          | ofNat n =>
            dsimp only
            split_ifs with hmost
            · obtain ⟨hle, hdrop⟩ := inside.drop hstop hlength hread
              refine .inr ⟨n, 2 + width, by omega, by simp; omega, ?_, ?_⟩
              · rw [Nat.add_comm]
                simpa using hdrop
              · rw [Nat.add_comm 2 width]
                simp [Except.map, Cursor.advance, List.drop_append_of_le_length hle]
            · exact .inl ⟨_, by simp [Failure.IsSyntactic], rfl⟩
            · exact .inl ⟨_, by simp [Failure.IsSyntactic], rfl⟩

/-- A literal ends at its own quote, or it is ill-formed. -/
theorem Enclosed.literalBody {cs : List Char} (h : Enclosed '"' cs) (start : Nat)
    (rest : List Char) {steps : Nat} (hsteps : cs.length < steps) (done : List Nat)
    (offset : Nat) :
    (∃ e, e.IsSyntactic ∧ literalBody start steps done ⟨offset, cs ++ '"' :: rest⟩ = .error e) ∨
      ∃ codes, literalBody start steps done ⟨offset, cs ++ '"' :: rest⟩ =
        .ok (codes, ⟨offset + cs.length + 1, rest⟩) := by
  induction hn : cs.length using Nat.strong_induction_on generalizing cs steps done offset with
  | _ n ih =>
    subst hn
    obtain ⟨steps, rfl⟩ : ∃ n, steps = n + 1 := ⟨steps - 1, by omega⟩
    by_cases hne : cs = []
    · subst hne
      exact .inr ⟨done.reverse, by simp [Grammar.literalBody, Cursor.peek?, Cursor.advance]⟩
    · have hbody : Grammar.literalBody start (steps + 1) done ⟨offset, cs ++ '"' :: rest⟩ =
          (Grammar.unit ⟨offset, cs ++ '"' :: rest⟩ >>= fun x =>
            Grammar.literalBody start steps (x.1 :: done) x.2) := by
        obtain ⟨c, cs', rfl⟩ := List.exists_cons_of_ne_nil hne
        have hc : c ≠ '"' := by
          cases h with
          | plain other => exact other
          | escape => decide
        simp [Grammar.literalBody, Cursor.peek?]
      rw [hbody]
      rcases h.unit (.inl rfl) hne offset rest with ⟨e, he, hunit⟩ |
        ⟨code, count, hpos, hle, hdrop, hunit⟩
      · rw [hunit]
        exact .inl ⟨e, he, rfl⟩
      · rw [hunit]
        have hlength : (cs.drop count).length = cs.length - count := by simp
        have hsteps' : (cs.drop count).length < steps := by omega
        have hmore := ih (cs.drop count).length (by omega) hdrop hsteps' (code :: done)
          (offset + count) rfl
        have hplace : offset + count + (cs.drop count).length + 1 = offset + cs.length + 1 := by omega
        rw [hplace] at hmore
        exact hmore

/-- A class ends at its own bracket, or it is ill-formed. -/
theorem Enclosed.classBody {cs : List Char} (h : Enclosed ']' cs) (start : Nat)
    (rest : List Char) {steps : Nat} (hsteps : cs.length < steps) (done : List (Nat × Nat))
    (offset : Nat) :
    (∃ e, e.IsSyntactic ∧ classBody start steps done ⟨offset, cs ++ ']' :: rest⟩ = .error e) ∨
      ∃ ranges, classBody start steps done ⟨offset, cs ++ ']' :: rest⟩ =
        .ok (ranges, ⟨offset + cs.length + 1, rest⟩) := by
  induction hn : cs.length using Nat.strong_induction_on generalizing cs steps done offset with
  | _ n ih =>
    subst hn
    obtain ⟨steps, rfl⟩ : ∃ n, steps = n + 1 := ⟨steps - 1, by omega⟩
    by_cases hne : cs = []
    · subst hne
      exact .inr ⟨done.reverse, by simp [Grammar.classBody, Cursor.peek?, Cursor.advance]⟩
    · have hbody : Grammar.classBody start (steps + 1) done ⟨offset, cs ++ ']' :: rest⟩ =
          (Grammar.unit ⟨offset, cs ++ ']' :: rest⟩ >>= fun x =>
            if rangeFollows x.2.rest then
              Grammar.unit (x.2.advance 1) >>= fun y =>
                Grammar.classBody start steps ((x.1, y.1) :: done) y.2
            else Grammar.classBody start steps ((x.1, x.1) :: done) x.2) := by
        obtain ⟨c, cs', rfl⟩ := List.exists_cons_of_ne_nil hne
        have hc : c ≠ ']' := by
          cases h with
          | plain other => exact other
          | escape => decide
        simp [Grammar.classBody, Cursor.peek?]
      rw [hbody]
      -- reading goes on behind some characters of the class
      have hgo {more : List Char} (hmore : Enclosed ']' more) (hlt : more.length < cs.length)
          (ranges : List (Nat × Nat)) (place : Nat)
          (hplace : place + more.length = offset + cs.length) :
          (∃ e, e.IsSyntactic ∧
              Grammar.classBody start steps ranges ⟨place, more ++ ']' :: rest⟩ = .error e) ∨
            ∃ found, Grammar.classBody start steps ranges ⟨place, more ++ ']' :: rest⟩ =
              .ok (found, ⟨offset + cs.length + 1, rest⟩) := by
        have hsteps' : more.length < steps := by omega
        have hrest := ih more.length hlt hmore hsteps' ranges place rfl
        rwa [hplace] at hrest
      rcases h.unit (.inr rfl) hne offset rest with ⟨e, he, hunit⟩ |
        ⟨lo, count, hpos, hle, hdrop, hunit⟩
      · rw [hunit]
        exact .inl ⟨e, he, rfl⟩
      · rw [hunit]
        have hlength : (cs.drop count).length = cs.length - count := by simp
        simp only [bind, Except.bind]
        split_ifs with hrange
        · -- a dash and something else than the bracket behind it
          generalize hmore : cs.drop count = more at *
          obtain ⟨tail, rfl, htail⟩ : ∃ tail, more = '-' :: tail ∧ tail ≠ [] := by
            cases more with
            | nil => simp [rangeFollows] at hrange
            | cons d ds =>
              by_cases hd : d = '-'
              · subst hd
                refine ⟨ds, rfl, ?_⟩
                rintro rfl
                simp [rangeFollows] at hrange
              · simp [rangeFollows, hd] at hrange
          have hinside : Enclosed ']' tail := by
            cases hdrop with
            | plain _ _ inside => exact inside
          have hadvance : Cursor.advance ⟨offset + count, '-' :: tail ++ ']' :: rest⟩ 1 =
              ⟨offset + count + 1, tail ++ ']' :: rest⟩ := rfl
          rw [hadvance]
          rw [List.length_cons] at hlength
          rcases hinside.unit (.inr rfl) htail (offset + count + 1) rest with ⟨e, he, hsecond⟩ |
            ⟨hi, more, hpos', hle', hdrop', hsecond⟩
          · rw [hsecond]
            exact .inl ⟨e, he, rfl⟩
          · rw [hsecond]
            have hlength' : (tail.drop more).length = tail.length - more := by simp
            exact hgo hdrop' (by omega) _ _ (by omega)
        · exact hgo hdrop (by omega) _ _ (by omega)

/-! ## Tokens -/

/-- A token that may stand in a body whose names `P` allows. -/
def Token.IsAllowed (P : String → Prop) : Token → Prop
  | .name text => P text
  | .define | .lineBreak | .broken _ => False
  | _ => True

/-- What is taken from a place is an allowed token that takes exactly the text, or it is
    ill-formed. -/
def Takes (P : String → Prop) (offset : Nat) (text rest : List Char) (taken : Token × Cursor) :
    Prop :=
  (∃ e, e.IsSyntactic ∧ taken.1 = .broken e) ∨
    taken.1.IsAllowed P ∧ taken.2 = ⟨offset + text.length, rest⟩

section Takes

variable {P : String → Prop} {cs : List Char} (offset : Nat) (rest : List Char)

theorem takes_literal (h : Enclosed '"' cs) :
    Takes P offset ('"' :: (cs ++ ['"'])) rest (token '"' ⟨offset, '"' :: (cs ++ ['"']) ++ rest⟩) := by
  have htoken : token '"' ⟨offset, '"' :: (cs ++ ['"']) ++ rest⟩ =
      tokenOf .literal ⟨offset, '"' :: (cs ++ ['"']) ++ rest⟩
        (literalBody offset ('"' :: (cs ++ ['"']) ++ rest).length []
          ⟨offset + 1, cs ++ ['"'] ++ rest⟩) := rfl
  have hsteps : cs.length < ('"' :: (cs ++ ['"']) ++ rest).length := by
    simp only [List.cons_append, List.length_cons, List.length_append]
    omega
  rw [htoken, List.append_assoc cs, List.singleton_append]
  rcases h.literalBody offset rest hsteps [] (offset + 1) with ⟨e, he, hbody⟩ | ⟨codes, hbody⟩
  · rw [hbody]
    exact .inl ⟨e, he, rfl⟩
  · rw [hbody]
    refine .inr ⟨trivial, ?_⟩
    simp [tokenOf]
    omega

theorem takes_charClass (h : Enclosed ']' cs) :
    Takes P offset ('[' :: (cs ++ [']'])) rest (token '[' ⟨offset, '[' :: (cs ++ [']']) ++ rest⟩) := by
  have hsteps : cs.length < ('[' :: (cs ++ [']']) ++ rest).length := by
    simp only [List.cons_append, List.length_cons, List.length_append]
    omega
  have htoken : token '[' ⟨offset, '[' :: (cs ++ [']']) ++ rest⟩ =
      let negated := (cs ++ ']' :: rest).head? == some '^'
      tokenOf (.charClass negated) ⟨offset, '[' :: (cs ++ [']']) ++ rest⟩
        (classBody offset ('[' :: (cs ++ [']']) ++ rest).length []
          (if negated then Cursor.advance ⟨offset + 1, cs ++ ']' :: rest⟩ 1
            else ⟨offset + 1, cs ++ ']' :: rest⟩)) := by
    have hsplit : cs ++ ']' :: rest = cs ++ [']'] ++ rest := by simp
    rw [hsplit]
    rfl
  rw [htoken]
  generalize ('[' :: (cs ++ [']']) ++ rest).length = steps at *
  -- what is read behind the bracket, and behind the sign of exception if there is one
  have hfinish {negated : Bool} {more : List Char} (hmore : Enclosed ']' more) (place : Nat)
      (hplace : place + more.length = offset + cs.length + 1) (hle : more.length ≤ cs.length) :
      Takes P offset ('[' :: (cs ++ [']'])) rest
        (tokenOf (.charClass negated) ⟨offset, '[' :: (cs ++ [']']) ++ rest⟩
          (classBody offset steps [] ⟨place, more ++ ']' :: rest⟩)) := by
    rcases hmore.classBody offset rest (lt_of_le_of_lt hle hsteps) [] place with
      ⟨e, he, hbody⟩ | ⟨ranges, hbody⟩
    · rw [hbody]
      exact .inl ⟨e, he, rfl⟩
    · rw [hbody]
      refine .inr ⟨trivial, ?_⟩
      simp [tokenOf]
      omega
  by_cases hnegated : (cs ++ ']' :: rest).head? = some '^'
  · obtain ⟨tail, rfl⟩ : ∃ tail, cs = '^' :: tail := by
      cases cs with
      | nil => simp at hnegated
      | cons d ds =>
        obtain rfl : d = '^' := by simpa using hnegated
        exact ⟨ds, rfl⟩
    have htail : Enclosed ']' tail := by
      cases h with
      | plain _ _ inside => exact inside
    rw [hnegated]
    exact hfinish htail (offset + 2) (by simp; omega) (by simp)
  · have hfalse : ((cs ++ ']' :: rest).head? == some '^') = false := by simpa using hnegated
    rw [hfalse]
    exact hfinish h (offset + 1) (by omega) (Nat.le_refl _)

theorem takes_braces (h : '\x7d' ∉ cs) :
    Takes P offset ('\x7b' :: (cs ++ ['\x7d'])) rest
      (token '\x7b' ⟨offset, '\x7b' :: (cs ++ ['\x7d']) ++ rest⟩) := by
  have hbody : (cs ++ ['\x7d'] ++ rest).takeWhile (· ≠ '\x7d') = cs := by
    rw [List.append_assoc, List.takeWhile_append_of_pos]
    · simp
    · intro c hc
      simpa using fun he : c = '\x7d' => h (he ▸ hc)
  have htoken : token '\x7b' ⟨offset, '\x7b' :: (cs ++ ['\x7d']) ++ rest⟩ =
      braces ⟨offset, '\x7b' :: (cs ++ ['\x7d'] ++ rest)⟩ := rfl
  rw [htoken]
  simp only [braces, Cursor.advance, List.drop_one, List.tail_cons, hbody]
  cases countsOf cs with
  | none =>
    refine .inl ⟨.grammar (.repetition (String.ofList cs)) (some offset), ?_, ?_⟩
    · simp [Failure.IsSyntactic]
    · simp
  | some counts =>
    refine .inr ⟨?_, ?_⟩ <;> simp [Token.IsAllowed]
    omega

/-- The marks that are tokens of their own. -/
def marks : List Char := ['(', ')', '|', '?', '*', '+', ' ']

theorem takes_mark {c : Char} (h : c ∈ marks) :
    Takes P offset [c] rest (token c ⟨offset, [c] ++ rest⟩) := by
  simp only [marks, List.mem_cons, List.not_mem_nil, or_false] at h
  rcases h with rfl | rfl | rfl | rfl | rfl | rfl | rfl <;> exact .inr ⟨trivial, rfl⟩

end Takes

/-! ## Rows of tokens -/

/-- A text is a row of tokens with names that `P` allows. -/
inductive Lexed (P : String → Prop) : List Char → Prop where
  | nil : Lexed P []
  | mark {c : Char} (known : c ∈ marks) : Lexed P [c]
  | literal {cs : List Char} (inside : Enclosed '"' cs) : Lexed P ('"' :: (cs ++ ['"']))
  | charClass {cs : List Char} (inside : Enclosed ']' cs) : Lexed P ('[' :: (cs ++ [']']))
  | braces {cs : List Char} (inside : '\x7d' ∉ cs) : Lexed P ('\x7b' :: (cs ++ ['\x7d']))
  | name {name : String} (allowed : P name) : Lexed P name.toList
  | append {a b : List Char} (first : Lexed P a) (second : Lexed P b) (apart : Apart a b) :
      Lexed P (a ++ b)

theorem Lexed.mono {P Q : String → Prop} (hPQ : ∀ name, P name → Q name) {text : List Char}
    (h : Lexed P text) : Lexed Q text := by
  induction h with
  | nil => exact .nil
  | mark known => exact .mark known
  | literal inside => exact .literal inside
  | charClass inside => exact .charClass inside
  | braces inside => exact .braces inside
  | name allowed => exact .name (hPQ _ allowed)
  | append _ _ apart ih ih' => exact .append ih ih' apart

/-! ### What is written is a row of tokens -/

theorem Spells.enclosed {stop : Char} (hstop : IsPartner stop) {text : List Char} {code : Nat}
    (h : Spells text code) (hinside : text.head? ≠ some stop) : Enclosed stop text := by
  cases h with
  | raw plain => exact .plain (by simpa using hinside) plain .nil
  | escaped => exact .escape .nil
  | @numbered mark digits width code marked length value most =>
    refine .escape ?_
    have hdigits : ∀ c ∈ digits, c ≠ stop ∧ c ≠ '\\' := by
      intro c hc
      have hnumeral := Text.isNumeralChar_of_readInt? value hc
      refine ⟨?_, ?_⟩ <;> rintro rfl
      · exact not_isNumeralChar (.inr hstop) hnumeral
      · exact not_isNumeralChar (.inl rfl) hnumeral
    clear value length hinside
    induction digits with
    | nil => exact .nil
    | cons d ds ih =>
      obtain ⟨hother, hraw⟩ := hdigits d (by simp)
      exact .plain hother hraw (ih fun c hc => hdigits c (List.mem_cons_of_mem _ hc))

theorem Quoted.enclosed {text : List Char} {codes : List Nat} (h : Quoted text codes) :
    Enclosed '"' text := by
  induction h with
  | nil => exact .nil
  | cons first inside _ ih => exact (first.enclosed (.inl rfl) inside).append ih

theorem Bracketed.enclosed {text : List Char} {ranges : List (Nat × Nat)}
    (h : Bracketed text ranges) : Enclosed ']' text := by
  induction h with
  | nil => exact .nil
  | single first inside _ _ ih => exact (first.enclosed (.inr rfl) inside).append ih
  | range first inside second inside' _ ih =>
    refine (first.enclosed (.inr rfl) inside).append (.plain (by decide) (by decide) ?_)
    exact (second.enclosed (.inr rfl) inside').append ih

theorem Lexed.grouped {P : String → Prop} {text : List Char} (h : Lexed P text) :
    Lexed P ('(' :: (text ++ [')'])) := by
  have hclose : Lexed P (text ++ [')']) :=
    h.append (.mark (by decide)) (apart_of_head (by simp; decide))
  exact Lexed.append (a := ['(']) (.mark (by decide)) hclose (apart_of_getLast (by simp; decide))

theorem Counted.lexed {P : String → Prop} {counts : List Char} {low : Nat} {high : Option Nat}
    (h : Counted counts low high) : Lexed P counts ∧ ∀ d ∈ counts.head?, isNameChar d = false := by
  cases h with
  | optional => exact ⟨.mark (by decide), by simp; decide⟩
  | star => exact ⟨.mark (by decide), by simp; decide⟩
  | plus => exact ⟨.mark (by decide), by simp; decide⟩
  | braces inside => exact ⟨.braces inside, by simp; decide⟩

theorem Written.lexed {P : String → Prop} {form : Form} {text : List Char}
    (h : Written P form text) : Lexed P text := by
  induction h with
  | name allowed => exact .name allowed
  | literal inside => exact .literal inside.enclosed
  | charClass inside => exact .charClass inside.enclosed
  | @exceptClass text ranges inside =>
    have hall : Enclosed ']' ('^' :: text) := .plain (by decide) (by decide) inside.enclosed
    exact .charClass hall
  | group _ ih => exact ih.grouped
  | times _ counted ih =>
    obtain ⟨hcounts, hhead⟩ := counted.lexed
    exact ih.append hcounts (apart_of_head hhead)
  | void => exact .nil
  | blank => exact .mark (by decide)
  | bar => exact .mark (by decide)
  | single _ ih => exact ih
  | append _ _ apart ih ih' => exact ih.append ih' apart

end Grammar

end SchemaGrammar
