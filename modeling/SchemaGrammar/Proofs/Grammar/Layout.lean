import Mathlib.Data.List.Basic
import Mathlib.Tactic.SplitIfs
import SchemaGrammar.Grammar.Reader
import SchemaGrammar.Proofs.Text.Numeral

set_option autoImplicit false

/-! # How expressions are written

`Written P form text` says that a text is a way to write an item or some rows of items, with
names that `P` allows. Everything that the builders of rules put together is written this way.
The main statement is `Written.isReadFrom`: reading such a text adds what is written to the body that
is being read, wherever the text stands. -/

namespace SchemaGrammar

namespace Grammar

open Text (Cursor)

/-! ## Characters -/

/-- One character of a literal or a class, and its code. -/
inductive Spells : List Char → Nat → Prop where
  | raw {c : Char} (plain : c ≠ '\\') : Spells [c] c.toNat
  | escaped {c : Char} (simple : escapeWidth? c = none) : Spells ['\\', c] (simpleEscape c).toNat
  | numbered {mark : Char} {digits : List Char} {width code : Nat}
      (marked : escapeWidth? mark = some width) (length : digits.length = width)
      (value : Text.readInt? 16 digits = some (code : Int)) (most : code ≤ maxCodePoint) :
      Spells ('\\' :: mark :: digits) code

theorem Spells.ne_nil {text : List Char} {code : Nat} (h : Spells text code) : text ≠ [] := by
  cases h <;> simp

theorem Spells.unit {text : List Char} {code : Nat} (h : Spells text code) (offset : Nat)
    (rest : List Char) :
    unit ⟨offset, text ++ rest⟩ = .ok (code, ⟨offset + text.length, rest⟩) := by
  cases h with
  | @raw c plain =>
    unfold Grammar.unit
    split
    · simp at *
    · rename_i h
      exact absurd (List.cons.inj h).1 plain
    · rename_i h
      obtain ⟨rfl, rfl⟩ := List.cons.inj h
      rfl
  | escaped simple =>
    simp [Grammar.unit, simple, Cursor.advance]
  | @numbered mark digits width code marked length value most =>
    have hv : Text.readInt? 16 digits = some (Int.ofNat code) := value
    have hplace : (Cursor.mk offset ('\\' :: mark :: digits ++ rest)).advance (2 + width) =
        ⟨offset + ('\\' :: mark :: digits).length, rest⟩ := by
      simp [Cursor.advance, ← length, Nat.add_comm 2]
    simp only [Grammar.unit, marked, List.cons_append]
    rw [← length, List.take_left, escapedCode, if_neg (by simp), hv]
    simp only [most, if_true, Except.map]
    rw [length, ← hplace]
    rfl

/-! ## Literals and classes -/

/-- What stands between the quotes of a literal. -/
inductive Quoted : List Char → List Nat → Prop where
  | nil : Quoted [] []
  | cons {text more : List Char} {code : Nat} {codes : List Nat} (first : Spells text code)
      (inside : text.head? ≠ some '"') (others : Quoted more codes) :
      Quoted (text ++ more) (code :: codes)

theorem literalBody_cons {start steps offset code : Nat} {done : List Nat}
    {text rest : List Char} (h : Spells text code) (inside : text.head? ≠ some '"') :
    literalBody start (steps + 1) done ⟨offset, text ++ rest⟩ =
      literalBody start steps (code :: done) ⟨offset + text.length, rest⟩ := by
  have hunit := h.unit offset rest
  obtain ⟨c, cs, rfl⟩ := List.exists_cons_of_ne_nil h.ne_nil
  have hc : c ≠ '"' := by simpa using inside
  simp [literalBody, Cursor.peek?] at hunit ⊢
  rw [hunit]
  rfl

theorem Quoted.literalBody {text : List Char} {codes : List Nat} (h : Quoted text codes)
    (start : Nat) (rest : List Char) {steps : Nat} (hsteps : text.length < steps)
    (done : List Nat) (offset : Nat) :
    literalBody start steps done ⟨offset, text ++ '"' :: rest⟩ =
      .ok (done.reverse ++ codes, ⟨offset + text.length + 1, rest⟩) := by
  induction h generalizing steps done offset with
  | nil =>
    obtain ⟨steps, rfl⟩ := Nat.exists_eq_add_of_lt hsteps
    simp [Grammar.literalBody, Cursor.peek?, Cursor.advance]
  | @cons text more code codes first inside others ih =>
    have hpos := List.length_pos_iff.2 first.ne_nil
    simp only [List.length_append] at hsteps
    obtain ⟨steps, rfl⟩ : ∃ n, steps = n + 1 := ⟨steps - 1, by omega⟩
    rw [List.append_assoc, literalBody_cons first inside, ih (by omega)]
    simp [Nat.add_assoc]

/-- What stands between the brackets of a class. -/
inductive Bracketed : List Char → List (Nat × Nat) → Prop where
  | nil : Bracketed [] []
  | single {text more : List Char} {code : Nat} {ranges : List (Nat × Nat)}
      (first : Spells text code) (inside : text.head? ≠ some ']')
      (alone : rangeFollows (more ++ [']']) = false) (others : Bracketed more ranges) :
      Bracketed (text ++ more) ((code, code) :: ranges)
  | range {text last more : List Char} {lo hi : Nat} {ranges : List (Nat × Nat)}
      (first : Spells text lo) (inside : text.head? ≠ some ']') (second : Spells last hi)
      (inside' : last.head? ≠ some ']') (others : Bracketed more ranges) :
      Bracketed (text ++ '-' :: (last ++ more)) ((lo, hi) :: ranges)

theorem rangeFollows_append (more rest : List Char) :
    rangeFollows (more ++ ']' :: rest) = rangeFollows (more ++ [']']) := by
  match more with
  | [] => rfl
  | [c] =>
    by_cases hc : c = '-'
    · subst hc
      rfl
    · simp [rangeFollows, hc]
  | c :: d :: more =>
    by_cases hc : c = '-'
    · subst hc
      rfl
    · simp [rangeFollows, hc]

theorem classBody_cons {start steps offset lo : Nat} {done : List (Nat × Nat)}
    {text rest : List Char} (h : Spells text lo) (inside : text.head? ≠ some ']') :
    classBody start (steps + 1) done ⟨offset, text ++ rest⟩ =
      if rangeFollows rest then do
        let (hi, last) ← unit ⟨offset + text.length + 1, rest.drop 1⟩
        classBody start steps ((lo, hi) :: done) last
      else classBody start steps ((lo, lo) :: done) ⟨offset + text.length, rest⟩ := by
  have hunit := h.unit offset rest
  obtain ⟨c, cs, rfl⟩ := List.exists_cons_of_ne_nil h.ne_nil
  have hc : c ≠ ']' := by simpa using inside
  simp [classBody, Cursor.peek?, Cursor.advance] at hunit ⊢
  rw [hunit]
  rfl

theorem Bracketed.classBody {text : List Char} {ranges : List (Nat × Nat)}
    (h : Bracketed text ranges) (start : Nat) (rest : List Char) {steps : Nat}
    (hsteps : text.length < steps) (done : List (Nat × Nat)) (offset : Nat) :
    classBody start steps done ⟨offset, text ++ ']' :: rest⟩ =
      .ok (done.reverse ++ ranges, ⟨offset + text.length + 1, rest⟩) := by
  induction h generalizing steps done offset with
  | nil =>
    obtain ⟨steps, rfl⟩ := Nat.exists_eq_add_of_lt hsteps
    simp [Grammar.classBody, Cursor.peek?, Cursor.advance]
  | @single text more code ranges first inside alone others ih =>
    have hpos := List.length_pos_iff.2 first.ne_nil
    simp only [List.length_append] at hsteps
    obtain ⟨steps, rfl⟩ : ∃ n, steps = n + 1 := ⟨steps - 1, by omega⟩
    rw [List.append_assoc, classBody_cons first inside, rangeFollows_append, alone,
      if_neg Bool.false_ne_true, ih (by omega)]
    simp [Nat.add_assoc]
  | @range text last more lo hi ranges first inside second inside' others ih =>
    have hpos := List.length_pos_iff.2 first.ne_nil
    simp only [List.length_append, List.length_cons] at hsteps
    obtain ⟨steps, rfl⟩ : ∃ n, steps = n + 1 := ⟨steps - 1, by omega⟩
    have hfollows : rangeFollows ('-' :: (last ++ (more ++ ']' :: rest))) = true := by
      obtain ⟨c, cs, rfl⟩ := List.exists_cons_of_ne_nil second.ne_nil
      simpa [rangeFollows] using inside'
    rw [List.append_assoc, List.cons_append, List.append_assoc, classBody_cons first inside,
      hfollows, if_pos rfl, List.drop_one, List.tail_cons, second.unit]
    change Grammar.classBody start steps ((lo, hi) :: done) _ = _
    rw [ih (by omega)]
    simp
    omega

/-! ## Counts -/

/-- How often an item is repeated. -/
inductive Counted : List Char → Nat → Option Nat → Prop where
  | optional : Counted ['?'] 0 (some 1)
  | star : Counted ['*'] 0 none
  | plus : Counted ['+'] 1 none
  | braces {body : List Char} {low : Nat} {high : Option Nat} (inside : '\x7d' ∉ body)
      (counts : countsOf body = some ((low : Int), high.map Int.ofNat)) :
      Counted ('\x7b' :: (body ++ ['\x7d'])) low high

/-! ## Names -/

/-- Can a name be read back? -/
def IsReadable (name : String) : Prop :=
  name.toList ≠ [] ∧ ∀ c ∈ name.toList, isNameChar c = true

instance (name : String) : Decidable (IsReadable name) :=
  inferInstanceAs (Decidable (_ ∧ _))

/-- Two texts that stand side by side do not make one name. -/
def Apart (a b : List Char) : Prop :=
  ∀ c ∈ a.getLast?, ∀ d ∈ b.head?, isNameChar c = true → isNameChar d = false

theorem apart_of_head {a b : List Char} (h : ∀ d ∈ b.head?, isNameChar d = false) : Apart a b :=
  fun _ _ d hd _ => h d hd

theorem apart_of_getLast {a b : List Char} (h : ∀ c ∈ a.getLast?, isNameChar c = false) :
    Apart a b := by
  intro c hc d _ hname
  rw [h c hc] at hname
  exact absurd hname Bool.false_ne_true

theorem Apart.left {a b rest : List Char} (h : Apart (a ++ b) rest) (hab : Apart a b) :
    Apart a (b ++ rest) := by
  cases b with
  | nil => simpa using h
  | cons d ds => simpa [Apart] using hab

theorem Apart.right {a b rest : List Char} (h : Apart (a ++ b) rest) : Apart b rest := by
  intro c hc d hd
  exact h c (by simp [List.getLast?_append, Option.mem_def.1 hc]) d hd

theorem Apart.head {c : Char} {cs rest : List Char} (h : Apart (c :: cs) rest)
    (hname : ∀ d ∈ c :: cs, isNameChar d = true) : ∀ d ∈ rest.head?, isNameChar d = false := by
  intro d hd
  obtain ⟨last, hlast⟩ := Option.isSome_iff_exists.1
    (List.getLast?_isSome.2 (List.cons_ne_nil c cs))
  exact h last hlast d hd (hname last (List.mem_of_getLast? hlast))

/-! ## Rows of items -/

/-- Put rows behind rows: the last one before goes on with the first one behind. -/
def joinRows : List (List Node) → List (List Node) → List (List Node)
  | [], more => more
  | [row], [] => [row]
  | [row], first :: more => (row ++ first) :: more
  | row :: next :: rows, more => row :: joinRows (next :: rows) more

/-- A body with some rows more: the first one goes on with the current branch, and each further
    one is a new branch. -/
def Draft.take (p : Draft) : List (List Node) → Draft
  | [] => p
  | [row] => { p with items := row.reverse ++ p.items }
  | row :: next :: rows =>
    Draft.take (Draft.nextBranch { p with items := row.reverse ++ p.items }) (next :: rows)

/-- Rows as one node. -/
def ofRows (rows : List (List Node)) : Node :=
  (Draft.empty.take rows).node

theorem Draft.take_joinRows (p : Draft) (rows more : List (List Node)) :
    p.take (joinRows rows more) = (p.take rows).take more := by
  induction rows generalizing p with
  | nil => rfl
  | cons row rest ih =>
    match rest, more with
    | [], [] => rfl
    | [], [first] => simp [joinRows, Draft.take]
    | [], first :: next :: more => simp [joinRows, Draft.take]
    | next :: rest, more =>
      have hne : joinRows (next :: rest) more ≠ [] := by
        cases rest <;> cases more <;> simp [joinRows]
      obtain ⟨a, as, ha⟩ := List.exists_cons_of_ne_nil hne
      simp only [joinRows, ha, Draft.take]
      rw [← ha]
      exact ih _

/-! ## Expressions -/

/-- What a text is for. -/
inductive Form where
  /-- Something that can be repeated. -/
  | item (node : Node)
  | rows (rows : List (List Node))

/-- A text is a way to write an item or rows, with names that `P` allows. -/
inductive Written (P : String → Prop) : Form → List Char → Prop where
  | name {name : String} (allowed : P name) : Written P (.item (.rule name)) name.toList
  | literal {text : List Char} {codes : List Nat} (inside : Quoted text codes) :
      Written P (.item (.literal codes)) ('"' :: (text ++ ['"']))
  | charClass {text : List Char} {ranges : List (Nat × Nat)} (inside : Bracketed text ranges)
      (plain : text.head? ≠ some '^') :
      Written P (.item (.charClass false ranges)) ('[' :: (text ++ [']']))
  | exceptClass {text : List Char} {ranges : List (Nat × Nat)} (inside : Bracketed text ranges) :
      Written P (.item (.charClass true ranges)) ('[' :: '^' :: (text ++ [']']))
  | group {text : List Char} {rows : List (List Node)} (inside : Written P (.rows rows) text) :
      Written P (.item (ofRows rows)) ('(' :: (text ++ [')']))
  | times {text counts : List Char} {node : Node} {low : Nat} {high : Option Nat}
      (once : Written P (.item node) text) (counted : Counted counts low high) :
      Written P (.item (.rep node low (high.map Int.ofNat))) (text ++ counts)
  | void : Written P (.rows [[]]) []
  | blank : Written P (.rows [[]]) [' ']
  | bar : Written P (.rows [[], []]) ['|']
  | single {text : List Char} {node : Node} (one : Written P (.item node) text) :
      Written P (.rows [[node]]) text
  | append {text more : List Char} {rows others : List (List Node)}
      (first : Written P (.rows rows) text) (second : Written P (.rows others) more)
      (apart : Apart text more) : Written P (.rows (joinRows rows others)) (text ++ more)

theorem Written.mono {P Q : String → Prop} (hPQ : ∀ name, P name → Q name) {form : Form}
    {text : List Char} (h : Written P form text) : Written Q form text := by
  induction h with
  | name allowed => exact .name (hPQ _ allowed)
  | literal inside => exact .literal inside
  | charClass inside plain => exact .charClass inside plain
  | exceptClass inside => exact .exceptClass inside
  | group _ ih => exact .group ih
  | times _ counted ih => exact .times ih counted
  | void => exact .void
  | blank => exact .blank
  | bar => exact .bar
  | single _ ih => exact .single ih
  | append _ _ apart ih ih' => exact .append ih ih' apart

/-! ## Reading -/

/-- Reading a text leads from one state to another, wherever the text stands. -/
def Passes (text : List Char) (s s' : State) : Prop :=
  ∀ (offset steps : Nat) (rest : List Char), Apart text rest →
    text.length + rest.length ≤ steps → ∃ left, rest.length ≤ left ∧
      (lexemesFrom steps ⟨offset, text ++ rest⟩).foldlM step s =
        (lexemesFrom left ⟨offset + text.length, rest⟩).foldlM step s'

theorem foldlM_lexemes_cons {steps offset : Nat} {c : Char} {cs : List Char} {t : Token}
    {next : Cursor} {s : State} (htoken : token c ⟨offset, c :: cs⟩ = (t, next))
    (hsound : ∀ failure, t ≠ .broken failure) :
    (lexemesFrom (steps + 1) ⟨offset, c :: cs⟩).foldlM step s =
      step s ⟨offset, c, t⟩ >>= fun s' => (lexemesFrom steps next).foldlM step s' := by
  rw [lexemesFrom]
  simp only [htoken]
  rfl

theorem Passes.nil (s : State) : Passes [] s s :=
  fun _ steps _ _ hsteps => ⟨steps, by simpa using hsteps, rfl⟩

/-- A token and what follows it. The state between may depend on where the token stands. -/
theorem Passes.cons {c : Char} {cs more : List Char} {t : Token} {s s' : State}
    {mid : Nat → State}
    (htoken : ∀ offset rest, Apart (c :: cs) rest →
      token c ⟨offset, c :: cs ++ rest⟩ = (t, ⟨offset + (c :: cs).length, rest⟩))
    (hsound : ∀ failure, t ≠ .broken failure)
    (hstep : ∀ offset, step s ⟨offset, c, t⟩ = .ok (mid offset))
    (hmore : ∀ offset, Passes more (mid offset) s') (hapart : Apart (c :: cs) more) :
    Passes (c :: cs ++ more) s s' := by
  intro offset steps rest hrest hsteps
  simp only [List.cons_append, List.length_cons, List.length_append] at hsteps
  obtain ⟨steps, rfl⟩ : ∃ n, steps = n + 1 := ⟨steps - 1, by omega⟩
  obtain ⟨left, hleft, hread⟩ :=
    hmore offset (offset + (c :: cs).length) steps rest hrest.right (by omega)
  refine ⟨left, hleft, ?_⟩
  have h := htoken offset (more ++ rest) (hrest.left hapart)
  rw [List.append_assoc, List.cons_append] at *
  rw [foldlM_lexemes_cons h hsound, hstep]
  change List.foldlM step (mid offset) _ = _
  rw [hread, List.length_append, Nat.add_assoc]

theorem Passes.of_token {c : Char} {cs : List Char} {t : Token} {s s' : State}
    (htoken : ∀ offset rest, Apart (c :: cs) rest →
      token c ⟨offset, c :: cs ++ rest⟩ = (t, ⟨offset + (c :: cs).length, rest⟩))
    (hsound : ∀ failure, t ≠ .broken failure)
    (hstep : ∀ offset, step s ⟨offset, c, t⟩ = .ok s') : Passes (c :: cs) s s' := by
  have h := Passes.cons htoken hsound hstep (fun _ => .nil s') (apart_of_head (by simp))
  rwa [List.append_nil] at h

theorem Passes.append {a b : List Char} {s s' s'' : State} (ha : Passes a s s')
    (hb : Passes b s' s'') (hab : Apart a b) : Passes (a ++ b) s s'' := by
  intro offset steps rest hrest hsteps
  rw [List.length_append] at hsteps
  obtain ⟨left, hleft, h⟩ := ha offset steps (b ++ rest) (hrest.left hab)
    (by rw [List.length_append]; omega)
  rw [List.length_append] at hleft
  obtain ⟨left', hleft', h'⟩ := hb (offset + a.length) left rest hrest.right hleft
  refine ⟨left', hleft', ?_⟩
  rw [List.append_assoc, h, h', List.length_append, Nat.add_assoc]

section Tokens

variable (offset : Nat) {rest : List Char}

theorem isSpace_eq_false {c : Char} (h : isNameChar c = true) : isSpace c = false := by
  by_contra hs
  simp only [isSpace, Bool.not_eq_false, Bool.or_eq_true, decide_eq_true_eq] at hs
  rcases hs with rfl | rfl <;> exact absurd h (by decide)

theorem isLineBreak_eq_false {c : Char} (h : isNameChar c = true) : isLineBreak c = false := by
  by_contra hs
  simp only [isLineBreak, Bool.not_eq_false, Bool.or_eq_true, decide_eq_true_eq] at hs
  rcases hs with rfl | rfl <;> exact absurd h (by decide)

theorem takeWhile_name {name : List Char} (hname : ∀ c ∈ name, isNameChar c = true)
    (hrest : ∀ d ∈ rest.head?, isNameChar d = false) :
    (name ++ rest).takeWhile isNameChar = name := by
  rw [List.takeWhile_append_of_pos hname]
  cases rest with
  | nil => simp
  | cons d ds => simp [hrest d (by simp)]

theorem token_name {c : Char} {cs : List Char} (hname : ∀ d ∈ c :: cs, isNameChar d = true)
    (hrest : ∀ d ∈ rest.head?, isNameChar d = false) :
    token c ⟨offset, c :: cs ++ rest⟩ =
      (.name (String.ofList (c :: cs)), ⟨offset + (c :: cs).length, rest⟩) := by
  have hc : isNameChar c = true := hname c (by simp)
  have hhash : c ≠ '#' := by
    rintro rfl
    exact absurd hc (by decide)
  unfold token
  simp only [isSpace_eq_false hc, isLineBreak_eq_false hc, hc, hhash, if_true, if_false,
    Bool.false_eq_true, Cursor.skipWhile, Cursor.advance, takeWhile_name hname hrest,
    List.drop_left]

theorem token_literal {text : List Char} {codes : List Nat} (h : Quoted text codes) :
    token '"' ⟨offset, '"' :: (text ++ ['"']) ++ rest⟩ =
      (.literal codes, ⟨offset + ('"' :: (text ++ ['"'])).length, rest⟩) := by
  have hsteps : text.length < ('"' :: (text ++ ['"']) ++ rest).length := by
    simp only [List.cons_append, List.length_cons, List.length_append]
    omega
  have hbody := h.literalBody offset rest hsteps [] (offset + 1)
  have htoken : token '"' ⟨offset, '"' :: (text ++ ['"']) ++ rest⟩ =
      tokenOf .literal ⟨offset, '"' :: (text ++ ['"']) ++ rest⟩
        (literalBody offset ('"' :: (text ++ ['"']) ++ rest).length []
          ⟨offset + 1, text ++ ['"'] ++ rest⟩) := rfl
  rw [htoken, List.append_assoc text, List.singleton_append, hbody]
  simp [tokenOf]
  omega

theorem token_charClass {text : List Char} {ranges : List (Nat × Nat)}
    (h : Bracketed text ranges) (plain : text.head? ≠ some '^') :
    token '[' ⟨offset, '[' :: (text ++ [']']) ++ rest⟩ =
      (.charClass false ranges, ⟨offset + ('[' :: (text ++ [']'])).length, rest⟩) := by
  have hsteps : text.length < ('[' :: (text ++ [']']) ++ rest).length := by
    simp only [List.cons_append, List.length_cons, List.length_append]
    omega
  have hbody := h.classBody offset rest hsteps [] (offset + 1)
  have hpeek : ((text ++ [']'] ++ rest).head? == some '^') = false := by
    cases text with
    | nil => rfl
    | cons d ds => simpa using plain
  have htoken : token '[' ⟨offset, '[' :: (text ++ [']']) ++ rest⟩ =
      let negated := (text ++ [']'] ++ rest).head? == some '^'
      tokenOf (.charClass negated) ⟨offset, '[' :: (text ++ [']']) ++ rest⟩
        (classBody offset ('[' :: (text ++ [']']) ++ rest).length []
          (if negated then Cursor.advance ⟨offset + 1, text ++ [']'] ++ rest⟩ 1
            else ⟨offset + 1, text ++ [']'] ++ rest⟩)) := rfl
  rw [htoken]
  simp only [hpeek, Bool.false_eq_true, if_false]
  rw [List.append_assoc text, List.singleton_append, hbody]
  simp [tokenOf]
  omega

theorem token_exceptClass {text : List Char} {ranges : List (Nat × Nat)}
    (h : Bracketed text ranges) :
    token '[' ⟨offset, '[' :: '^' :: (text ++ [']']) ++ rest⟩ =
      (.charClass true ranges, ⟨offset + ('[' :: '^' :: (text ++ [']'])).length, rest⟩) := by
  have hsteps : text.length < ('[' :: '^' :: (text ++ [']']) ++ rest).length := by
    simp only [List.cons_append, List.length_cons, List.length_append]
    omega
  have hbody := h.classBody offset rest hsteps [] (offset + 2)
  have htoken : token '[' ⟨offset, '[' :: '^' :: (text ++ [']']) ++ rest⟩ =
      tokenOf (.charClass true) ⟨offset, '[' :: '^' :: (text ++ [']']) ++ rest⟩
        (classBody offset ('[' :: '^' :: (text ++ [']']) ++ rest).length []
          ⟨offset + 2, text ++ [']'] ++ rest⟩) := rfl
  rw [htoken, List.append_assoc text, List.singleton_append, hbody]
  simp [tokenOf]
  omega

theorem token_counted (rest : List Char) {counts : List Char} {low : Nat} {high : Option Nat}
    (h : Counted counts low high) :
    ∃ c cs, counts = c :: cs ∧ token c ⟨offset, c :: cs ++ rest⟩ =
      (.times low (high.map Int.ofNat), ⟨offset + (c :: cs).length, rest⟩) := by
  cases h with
  | optional => exact ⟨_, _, rfl, rfl⟩
  | star => exact ⟨_, _, rfl, rfl⟩
  | plus => exact ⟨_, _, rfl, rfl⟩
  | @braces body low high inside counts =>
    refine ⟨_, _, rfl, ?_⟩
    have hbody : (body ++ ['\x7d'] ++ rest).takeWhile (· ≠ '\x7d') = body := by
      rw [List.append_assoc, List.takeWhile_append_of_pos]
      · simp
      · intro c hc
        simpa using fun he : c = '\x7d' => inside (he ▸ hc)
    have htoken : token '\x7b' ⟨offset, '\x7b' :: (body ++ ['\x7d']) ++ rest⟩ =
        braces ⟨offset, '\x7b' :: (body ++ ['\x7d'] ++ rest)⟩ := rfl
    rw [htoken]
    simp only [braces, Cursor.advance, List.drop_one, List.tail_cons, hbody, counts]
    simp
    omega

/-- Braces around a greatest count with too many digits are not read. -/
theorem token_tooLong {low digits : List Char} (rest : List Char) (hcomma : ',' ∉ low)
    (hclose : '\x7d' ∉ low) (hdigits : ∀ c ∈ digits, c.isDigit = true)
    (hlong : Text.maxNumeralDigits < digits.length) :
    token '\x7b' ⟨offset, '\x7b' :: (low ++ ',' :: digits ++ '\x7d' :: rest)⟩ =
      (.broken (.grammar (.repetition (String.ofList (low ++ ',' :: digits))) (some offset)),
        ⟨offset, '\x7b' :: (low ++ ',' :: digits ++ '\x7d' :: rest)⟩) := by
  have hnone {c : Char} (hc : c.isDigit = false) : c ∉ digits := by
    intro hmem
    rw [hdigits c hmem] at hc
    cases hc
  have hne : digits ≠ [] := List.ne_nil_of_length_pos (Nat.zero_lt_of_lt hlong)
  have hcounts : countsOf (low ++ ',' :: digits) = none := by
    have hread := Text.readInt?_tooLong hne hdigits hlong
    rw [countsOf, Text.splitAt_append hcomma, Text.splitAt_of_notMem (hnone (by decide))]
    obtain ⟨c, cs, rfl⟩ := List.exists_cons_of_ne_nil hne
    simp [Text.trim_digits hdigits, hread]
  have hbody : (low ++ ',' :: digits ++ '\x7d' :: rest).takeWhile (· ≠ '\x7d') =
      low ++ ',' :: digits := by
    rw [List.takeWhile_append_of_pos]
    · simp
    · intro c hc
      refine decide_eq_true fun heq => ?_
      subst heq
      exact absurd hc (by simpa [hclose] using hnone (by decide))
  have htoken : token '\x7b' ⟨offset, '\x7b' :: (low ++ ',' :: digits ++ '\x7d' :: rest)⟩ =
      braces ⟨offset, '\x7b' :: (low ++ ',' :: digits ++ '\x7d' :: rest)⟩ := rfl
  rw [htoken]
  simp only [braces, Cursor.advance, List.drop_one, List.tail_cons, hbody, hcounts]
  simp

end Tokens

/-! ## Reading what is written -/

/-- Reading a text adds what it is for to the body that is being read. -/
def Form.IsReadFrom (text : List Char) : Form → Prop
  | .item node => ∀ (done : Grammar) (b : Body),
      Passes text ⟨done, .inside b⟩ ⟨done, .inside (b.item node)⟩
  | .rows written => ∀ (done : Grammar) (b : Body), ∃ flag,
      Passes text ⟨done, .inside b⟩
        ⟨done, .inside { b with current := b.current.take written, repeatable := flag }⟩

theorem isReadFrom_name {name : String} (h : IsReadable name) :
    (Form.item (.rule name)).IsReadFrom name.toList := by
  intro done b
  obtain ⟨hne, hname⟩ := h
  obtain ⟨c, cs, hcs⟩ := List.exists_cons_of_ne_nil hne
  rw [hcs] at hname ⊢
  refine .of_token (fun offset rest hrest => token_name offset hname (hrest.head hname)) (by simp) ?_
  intro offset
  rw [← hcs, String.ofList_toList]
  rfl

theorem isReadFrom_group {text : List Char} {rows : List (List Node)}
    (h : (Form.rows rows).IsReadFrom text) :
    (Form.item (ofRows rows)).IsReadFrom ('(' :: (text ++ [')'])) := by
  intro done b
  -- an open group remembers where it starts, so the body inside depends on the offset
  let inner (offset : Nat) : Body :=
    { b with current := .empty, groups := ⟨offset, b.current⟩ :: b.groups, repeatable := false }
  have hopen (offset : Nat) : step ⟨done, .inside b⟩ ⟨offset, '(', .groupOpen⟩ =
      .ok ⟨done, .inside (inner offset)⟩ := rfl
  change Passes (['('] ++ (text ++ [')'])) _ _
  refine Passes.cons (fun _ _ _ => rfl) (by simp) hopen (fun offset => ?_)
    (apart_of_getLast (by simp; decide))
  obtain ⟨flag, hinside⟩ := h done (inner offset)
  refine hinside.append ?_ (apart_of_head (by simp; decide))
  exact .of_token (t := .groupClose) (fun _ _ _ => rfl) (by simp) fun _ => rfl

theorem isReadFrom_times {text counts : List Char} {node : Node} {low : Nat}
    {high : Option Nat} (h : (Form.item node).IsReadFrom text) (hc : Counted counts low high) :
    (Form.item (.rep node low (high.map Int.ofNat))).IsReadFrom (text ++ counts) := by
  intro done b
  have happart : Apart text counts := by
    refine apart_of_head ?_
    cases hc <;> simp <;> decide
  refine (h done b).append ?_ happart
  obtain ⟨c, cs, rfl, -⟩ := token_counted 0 [] hc
  refine .of_token (t := .times low (high.map Int.ofNat)) ?_ (by simp) fun _ => rfl
  intro offset rest _
  obtain ⟨c', cs', heq, htoken⟩ := token_counted offset rest hc
  obtain ⟨rfl, rfl⟩ := List.cons.inj heq
  exact htoken

theorem Written.isReadFrom {P : String → Prop} (hP : ∀ name, P name → IsReadable name)
    {form : Form} {text : List Char} (h : Written P form text) : form.IsReadFrom text := by
  induction h with
  | name allowed => exact isReadFrom_name (hP _ allowed)
  | literal inside =>
    exact fun _ _ => .of_token (fun offset _ _ => token_literal offset inside) (by simp) fun _ => rfl
  | charClass inside plain =>
    exact fun _ _ => .of_token (fun offset _ _ => token_charClass offset inside plain) (by simp) fun _ => rfl
  | exceptClass inside =>
    exact fun _ _ => .of_token (fun offset _ _ => token_exceptClass offset inside) (by simp) fun _ => rfl
  | group _ ih => exact isReadFrom_group ih
  | times _ counted ih => exact isReadFrom_times ih counted
  | void => exact fun _ b => ⟨b.repeatable, .nil _⟩
  | blank =>
    exact fun _ _ => ⟨false, .of_token (t := .blank) (fun _ _ _ => rfl) (by simp) fun _ => rfl⟩
  | bar =>
    exact fun _ _ => ⟨false, .of_token (t := .bar) (fun _ _ _ => rfl) (by simp) fun _ => rfl⟩
  | single _ ih => exact fun done b => ⟨true, ih done b⟩
  | append _ _ apart ih ih' =>
    intro done b
    obtain ⟨flag, hfirst⟩ := ih done b
    obtain ⟨flag', hsecond⟩ := ih' done { b with current := b.current.take _, repeatable := flag }
    refine ⟨flag', ?_⟩
    rw [Draft.take_joinRows]
    exact hfirst.append hsecond apart

/-! ## Bodies -/

/-- A text is the body of a rule, whatever stands around it. -/
def IsBody (body : String) (node : Node) : Prop :=
  ∀ (name : String) (done : Grammar),
    Passes (body.toList ++ ['\n']) ⟨done, .inside (.start name)⟩ ⟨(name, node) :: done, .between⟩

theorem Written.isBody {P : String → Prop} (hP : ∀ name, P name → IsReadable name)
    {rows : List (List Node)} {body : String} (h : Written P (.rows rows) body.toList) :
    IsBody body (ofRows rows) := by
  intro name done
  obtain ⟨flag, hbody⟩ := h.isReadFrom hP done (.start name)
  refine hbody.append ?_ (apart_of_head (by simp; decide))
  exact .of_token (t := .lineBreak) (fun _ _ _ => rfl) (by simp) fun _ => rfl

theorem IsBody.unique {body : String} {node other : Node} (h : IsBody body node)
    (h' : IsBody body other) : node = other := by
  have hrest : Apart (body.toList ++ ['\n']) [] := apart_of_head (by simp)
  obtain ⟨left, -, hread⟩ := h "" [] 0 _ [] hrest (Nat.le_refl _)
  obtain ⟨left', -, hread'⟩ := h' "" [] 0 _ [] hrest (Nat.le_refl _)
  have hnil (left offset : Nat) : lexemesFrom left ⟨offset, []⟩ = [] := by
    cases left <;> rfl
  rw [hread, hnil, hnil] at hread'
  simpa [pure, Except.pure] using hread'

end Grammar

end SchemaGrammar
