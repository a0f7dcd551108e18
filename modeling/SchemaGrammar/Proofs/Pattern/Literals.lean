import SchemaGrammar.Proofs.Grammar.Layout
import SchemaGrammar.Proofs.Pattern.Regex

set_option autoImplicit false

/-! # Characters in front of a text

How the characters that stand for themselves become literals. A literal takes in characters as long
as no quantifier claims them, so what the tokens of a text are depends on the literal that has been
begun in front of it (`Cuts`): a character joins it (`Cuts.symbol`), or it stops and is a token of
its own (`Stops.cuts`). -/

namespace SchemaGrammar

open Grammar (Quoted Spells)

namespace Pattern

/-! ## Symbols -/

namespace Symbol

/-- What a character is inside a literal. -/
def spelled : Symbol → List Char
  | .raw c => plainText c
  | .escaped c _ => if c = '\\' ∨ c = '"' then ['\\', c] else [c]
  | s => s.text

/-- May a character join a literal that has been begun, given what follows it? -/
def joins : Symbol → List Char → Bool
  | .raw c, rest => !operators.contains c && joinsLiteral rest
  | _, rest => !quantifierFollows rest

theorem text_ne_nil (s : Symbol) : s.text ≠ [] := by
  cases s <;> simp [text]

theorem joins_of_quantifier {rest : List Char} (h : quantifierFollows rest = true) (s : Symbol) :
    s.joins rest = false := by
  have hraw : joinsLiteral rest = false := by
    cases rest with
    | nil => exact absurd h Bool.false_ne_true
    | cons c more =>
      have hall : ∀ c ∈ quantifiers, joinsLiteral (c :: []) = false := by decide
      exact hall c (List.contains_iff_mem.1 h)
  cases s <;> simp [joins, h, hraw]

/-- What is no letter or number has no meaning of its own behind a backslash. -/
theorem unlike_of_punctuation {c : Char} (h : Text.isAlphanumeric c = false) :
    shorthand? c = none ∧ Pattern.escapeWidth? c = none ∧ Grammar.escapeWidth? c = none ∧
      Grammar.simpleEscape c = c ∧ c ≠ 'n' ∧ c ≠ 'r' ∧ c ≠ 't' := by
  have hne (d : Char) (hd : Text.isAlphanumeric d = true) : c ≠ d := by
    rintro rfl
    rw [h] at hd
    cases hd
  have hn := hne 'n' (by decide)
  have hr := hne 'r' (by decide)
  have ht := hne 't' (by decide)
  have hx := hne 'x' (by decide)
  have hu := hne 'u' (by decide)
  have hU := hne 'U' (by decide)
  have hd := hne 'd' (by decide)
  have hD := hne 'D' (by decide)
  have hw := hne 'w' (by decide)
  have hW := hne 'W' (by decide)
  have hs := hne 's' (by decide)
  have hS := hne 'S' (by decide)
  refine ⟨?_, ?_, ?_, ?_, hn, hr, ht⟩
  · unfold shorthand?
    split <;> simp_all
  · unfold Pattern.escapeWidth?
    split <;> simp_all
  · unfold Grammar.escapeWidth?
    split <;> simp_all
  · unfold Grammar.simpleEscape
    split <;> simp_all

theorem spells_numbered {mark : Char} {digits : List Char}
    (hex : ∀ d ∈ digits, Text.isHexDigit d = true)
    (width : mark = 'x' ∧ digits.length = 2 ∨ mark = 'u' ∧ digits.length = 4) :
    Spells ('\\' :: mark :: digits) (Text.ofHexDigits digits) := by
  have hne : digits ≠ [] := by
    rintro rfl
    simp at width
  have hmost := Text.ofHexDigits_lt hex
  have hbound : 16 ^ digits.length ≤ Grammar.maxCodePoint + 1 := by
    rcases width with ⟨-, hlength⟩ | ⟨-, hlength⟩ <;> rw [hlength] <;> decide
  have hmark : Grammar.escapeWidth? mark = some digits.length := by
    rcases width with ⟨rfl, hlength⟩ | ⟨rfl, hlength⟩ <;> rw [hlength] <;> rfl
  exact .numbered hmark rfl (Text.readInt?_hex hne hex) (by omega)

/-- A character is spelled alike in classes of patterns and of grammars. -/
theorem spells_text {s : Symbol} (h : s.Avoids ['\\']) : Spells s.text s.code := by
  cases s with
  | raw c => exact .raw (by simpa [Avoids] using h)
  | escaped c punctuation =>
    obtain ⟨-, -, hwidth, hsimple, -⟩ := unlike_of_punctuation punctuation
    have hspells : Spells ['\\', c] (Grammar.simpleEscape c).toNat := .escaped hwidth
    rwa [hsimple] at hspells
  | lineFeed => exact .escaped rfl
  | carriageReturn => exact .escaped rfl
  | tab => exact .escaped rfl
  | numbered mark digits hex width => exact spells_numbered hex width

theorem quoted_spelled {s : Symbol} (h : s.Avoids metacharacters) :
    Quoted s.spelled [s.code] := by
  have hone {text : List Char} {code : Nat} (hspells : Spells text code)
      (hinside : text.head? ≠ some '"') : Quoted text [code] := by
    have hquoted := Quoted.cons hspells hinside .nil
    rwa [List.append_nil] at hquoted
  cases s with
  | raw c =>
    have hslash : c ≠ '\\' := by
      rintro rfl
      exact h (by decide)
    change Quoted (plainText c) [c.toNat]
    unfold plainText
    split_ifs with hquote hfeed hreturn
    · subst hquote
      exact hone (.escaped rfl) (by decide)
    · subst hfeed
      exact hone (.escaped (c := 'n') rfl) (by decide)
    · subst hreturn
      exact hone (.escaped (c := 'r') rfl) (by decide)
    · exact hone (.raw hslash) (by simpa using hquote)
  | escaped c punctuation =>
    change Quoted (if c = '\\' ∨ c = '"' then ['\\', c] else [c]) [c.toNat]
    split_ifs with hspecial
    · exact hone (spells_text (s := .escaped c punctuation) trivial) (by simp)
    · rw [not_or] at hspecial
      exact hone (.raw hspecial.1) (by simpa using hspecial.2)
  | lineFeed => exact hone (.escaped (c := 'n') rfl) (by decide)
  | carriageReturn => exact hone (.escaped (c := 'r') rfl) (by decide)
  | tab => exact hone (.escaped (c := 't') rfl) (by decide)
  | numbered mark digits hex width =>
    exact hone (spells_numbered hex width) (by simp [spelled, text])

theorem spelled_ne_nil (s : Symbol) : s.spelled ≠ [] := by
  cases s with
  | raw c =>
    change plainText c ≠ []
    unfold plainText
    split_ifs <;> simp
  | escaped c _ =>
    change (if c = '\\' ∨ c = '"' then ['\\', c] else [c]) ≠ []
    split_ifs <;> simp
  | _ => simp [spelled, text]

end Symbol

/-! ## Literals -/

section Literals

variable {s : Symbol} {c : Char} {cs rest done : List Char} {ts us : List Token}

/-- What a backslash in front of `c` starts is one character, which is written as `text`. -/
theorem literalFrom_escape {more text : List Char} (hplain : shorthand? c = none)
    (hescape : escapeText c (more ++ rest) = .ok (text, more.length + 2)) (steps offset : Nat)
    (done : List Char) :
    literalFrom (steps + 1) done ⟨offset, '\\' :: c :: more ++ rest⟩ =
      if done = [] ∨ (!quantifierFollows rest) = true then
        literalFrom steps (text.reverse ++ done) ⟨offset + (more.length + 2), rest⟩
      else .ok (done.reverse, ⟨offset, '\\' :: c :: more ++ rest⟩) := by
  have hnext : (Text.Cursor.mk offset ('\\' :: c :: more ++ rest)).advance (more.length + 2) =
      ⟨offset + (more.length + 2), rest⟩ := by
    simp [Text.Cursor.advance]
  rw [literalFrom]
  simp only [List.cons_append, hplain, Option.isSome_none, hescape] at hnext ⊢
  rw [hnext]
  cases done <;> cases quantifierFollows rest <;> simp

theorem literalFrom_raw (hslash : c ≠ '\\') (steps offset : Nat) (done rest : List Char) :
    literalFrom (steps + 1) done ⟨offset, c :: rest⟩ =
      if !operators.contains c && (done.isEmpty || joinsLiteral rest) then
        literalFrom steps ((plainText c).reverse ++ done) ⟨offset + 1, rest⟩
      else if (c = ']' || c = '\x7d') && done.isEmpty then
        literalFrom steps [c] ⟨offset + 1, rest⟩
      else .ok (done.reverse, ⟨offset, c :: rest⟩) := by
  rw [literalFrom]
  split
  · rename_i hempty
    cases hempty
  · rename_i hlast
    exact absurd (List.cons.inj hlast).1 hslash
  · rename_i hescape
    exact absurd (List.cons.inj hescape).1 hslash
  · rename_i hcons
    obtain ⟨rfl, rfl⟩ := List.cons.inj hcons
    rfl

/-- A literal takes a character in or stops in front of it. -/
theorem literalFrom_symbol (h : s.Avoids metacharacters) (steps offset : Nat)
    (done rest : List Char) :
    literalFrom (steps + 1) done ⟨offset, s.text ++ rest⟩ =
      if done = [] ∨ s.joins rest = true then
        literalFrom steps (s.spelled.reverse ++ done) ⟨offset + s.text.length, rest⟩
      else .ok (done.reverse, ⟨offset, s.text ++ rest⟩) := by
  cases s with
  | raw c =>
    have hc : c ∉ metacharacters := h
    have hslash : c ≠ '\\' := by
      rintro rfl
      exact hc (by decide)
    change literalFrom (steps + 1) done ⟨offset, c :: rest⟩ =
      if done = [] ∨ (!operators.contains c && joinsLiteral rest) = true then
        literalFrom steps ((plainText c).reverse ++ done) ⟨offset + 1, rest⟩
      else .ok (done.reverse, ⟨offset, c :: rest⟩)
    rw [literalFrom_raw hslash]
    by_cases hoperator : operators.contains c = true
    · -- all operators but the closing brackets have to be escaped
      have hclosing : c = ']' ∨ c = '\x7d' := by
        have hall : ∀ c ∈ operators, c ∉ metacharacters → c = ']' ∨ c = '\x7d' := by decide
        exact hall c (List.contains_iff_mem.1 hoperator) hc
      have htext : plainText c = [c] := by
        rcases hclosing with rfl | rfl <;> rfl
      cases done <;> simp [List.contains_iff_mem.1 hoperator, hclosing, htext]
    · cases done <;> cases joinsLiteral rest <;> simp_all
  | escaped c punctuation =>
    obtain ⟨hplain, hwidth, -, -, hn, hr, ht⟩ := Symbol.unlike_of_punctuation punctuation
    refine @literalFrom_escape c rest [] _ hplain ?_ steps offset done
    change escapeText c rest = .ok (if c = '\\' ∨ c = '"' then ['\\', c] else [c], 2)
    have hspecial : ∀ c ∈ escapedOperators, ¬ (c = '\\' ∨ c = '"') := by decide
    by_cases hoperator : escapedOperators.contains c = true
    · rw [escapeText, if_pos hoperator, if_neg (hspecial c (List.contains_iff_mem.1 hoperator))]
    · rw [escapeText, if_neg hoperator, hwidth]
      by_cases hquote : c = '\\' ∨ c = '"'
      · rw [if_pos hquote]
        rcases hquote with rfl | rfl <;> rfl
      · rw [if_neg hquote]
        rw [not_or] at hquote
        simp [hn, hr, ht, hquote, punctuation]
  | lineFeed => exact literalFrom_escape rfl rfl steps offset done
  | carriageReturn => exact literalFrom_escape rfl rfl steps offset done
  | tab => exact literalFrom_escape rfl rfl steps offset done
  | numbered mark digits hex width =>
    have hmark : shorthand? mark = none ∧ escapedOperators.contains mark = false ∧
        Pattern.escapeWidth? mark = some digits.length := by
      rcases width with ⟨rfl, hlength⟩ | ⟨rfl, hlength⟩ <;> rw [hlength] <;> decide
    obtain ⟨hplain, hoperator, hwidth⟩ := hmark
    have hall : digits.all Text.isHexDigit = true := List.all_eq_true.2 hex
    refine literalFrom_escape hplain ?_ steps offset done
    rw [escapeText, hoperator, if_neg Bool.false_ne_true, hwidth]
    simp [hall, Nat.add_comm 2, Symbol.spelled, Symbol.text]

/-- A literal that has been begun stops in front of a text. -/
def Stops (cs : List Char) : Prop :=
  ∀ (steps offset : Nat) (done : List Char), done ≠ [] →
    literalFrom steps done ⟨offset, cs⟩ = .ok (done.reverse, ⟨offset, cs⟩)

theorem stops_nil : Stops [] := by
  intro steps offset done hdone
  cases steps <;> rfl

theorem stops_operator (h : c ∈ operators) (rest : List Char) : Stops (c :: rest) := by
  have hslash : c ≠ '\\' := by
    rintro rfl
    exact absurd h (by decide)
  intro steps offset done hdone
  cases steps with
  | zero => rfl
  | succ steps =>
    rw [literalFrom_raw hslash]
    cases done with
    | nil => exact absurd rfl hdone
    | cons d more => simp [h]

theorem stops_shorthand (h : (shorthand? c).isSome = true) (rest : List Char) :
    Stops ('\\' :: c :: rest) := by
  intro steps offset done hdone
  cases steps with
  | zero => rfl
  | succ steps => rw [literalFrom]; simp [h]

theorem stops_symbol (h : s.Avoids metacharacters) (hjoins : s.joins rest = false) :
    Stops (s.text ++ rest) := by
  intro steps offset done hdone
  cases steps with
  | zero => rfl
  | succ steps => rw [literalFrom_symbol h, if_neg (by simp [hdone, hjoins])]

theorem stops_quantifier (h : quantifierFollows cs = true) : Stops cs := by
  cases cs with
  | nil => exact stops_nil
  | cons c rest =>
    have hall : ∀ c ∈ quantifiers, c ∈ operators := by decide
    exact stops_operator (hall c (List.contains_iff_mem.1 h)) rest

end Literals

/-! ## Tokens -/

section Tokens

variable {s : Symbol} {c : Char} {cs rest done : List Char} {ts us : List Token} {t : Token}

/-- The tokens of a text, wherever it stands. -/
def Lexes (cs : List Char) (ts : List Token) : Prop :=
  ∀ steps offset, cs.length ≤ steps → (lexemesFrom steps ⟨offset, cs⟩).map Lexeme.token = ts

/-- The tokens of a text behind a literal that has been begun, that literal included. -/
def Resumes (done cs : List Char) (ts : List Token) : Prop :=
  ∀ steps offset, cs.length ≤ steps → ∃ text next us,
    literalFrom steps done ⟨offset, cs⟩ = .ok (text, next) ∧ next.rest.length ≤ cs.length ∧
      Lexes next.rest us ∧ ts = .literal (String.ofList text) :: us

/-- The tokens of a text, where a literal may have been begun. -/
structure Cuts (done cs : List Char) (ts : List Token) : Prop where
  lexes : done = [] → Lexes cs ts
  resumes : done ≠ [] → Resumes done cs ts

theorem Lexes.tokens (h : Lexes cs ts) : (lexemes cs).map Lexeme.token = ts :=
  h cs.length 0 le_rfl

theorem lexes_nil : Lexes [] [] := by
  intro steps offset _
  cases steps <;> rfl

/-- One token in front of others. -/
theorem Lexes.cons (h : Lexes rest ts) (hlength : rest.length < cs.length)
    (htoken : ∀ offset, ∃ stop, token ⟨offset, cs⟩ = (t, ⟨stop, rest⟩)) : Lexes cs (t :: ts) := by
  intro steps offset hsteps
  obtain ⟨steps, rfl⟩ : ∃ n, steps = n + 1 := ⟨steps - 1, by omega⟩
  obtain ⟨stop, hstop⟩ := htoken offset
  have hne : cs.isEmpty = false := by
    cases cs with
    | nil => exact absurd hlength (Nat.not_lt_zero _)
    | cons c more => rfl
  rw [lexemesFrom]
  simp only [hne, Bool.false_eq_true, if_false, hstop, List.map_cons]
  rw [h steps stop (by omega)]

theorem token_escape (hplain : shorthand? c = none) (offset : Nat) (rest : List Char) :
    token ⟨offset, '\\' :: c :: rest⟩ = literal ⟨offset, '\\' :: c :: rest⟩ := by
  simp only [token, hplain]

/-- A symbol starts a literal. -/
theorem token_symbol (h : s.Avoids metacharacters) (offset : Nat) (rest : List Char) :
    token ⟨offset, s.text ++ rest⟩ = literal ⟨offset, s.text ++ rest⟩ := by
  cases s with
  | raw c =>
    have hc : c ∉ metacharacters := h
    change token ⟨offset, c :: rest⟩ = literal ⟨offset, c :: rest⟩
    rw [token]
    split
    case h_12 => rfl
    all_goals
      rename_i hstart
      obtain ⟨rfl, -⟩ := List.cons.inj hstart
      exact absurd (by decide) hc
  | escaped c punctuation =>
    exact token_escape (Symbol.unlike_of_punctuation punctuation).1 offset rest
  | lineFeed => exact token_escape rfl offset rest
  | carriageReturn => exact token_escape rfl offset rest
  | tab => exact token_escape rfl offset rest
  | numbered mark digits hex width =>
    have hplain : shorthand? mark = none := by
      rcases width with ⟨rfl, -⟩ | ⟨rfl, -⟩ <;> rfl
    exact token_escape hplain offset (digits ++ rest)

/-- Where no literal has been begun, a symbol begins one. -/
theorem lexes_symbol (h : s.Avoids metacharacters) (hrest : Resumes s.spelled.reverse rest ts) :
    Lexes (s.text ++ rest) ts := by
  have hpos := List.length_pos_iff.2 s.text_ne_nil
  intro steps offset hsteps
  rw [List.length_append] at hsteps
  obtain ⟨steps, rfl⟩ : ∃ n, steps = n + 1 := ⟨steps - 1, by omega⟩
  obtain ⟨more, hmore⟩ : ∃ n, (s.text ++ rest).length = n + 1 :=
    ⟨(s.text ++ rest).length - 1, by rw [List.length_append]; omega⟩
  have hle : rest.length ≤ more := by
    rw [List.length_append] at hmore
    omega
  obtain ⟨text, next, us, hread, hnext, hlexes, rfl⟩ := hrest more (offset + s.text.length) hle
  have htoken : token ⟨offset, s.text ++ rest⟩ = (.literal (String.ofList text), next) := by
    rw [token_symbol h, literal]
    simp only [hmore]
    rw [literalFrom_symbol h, if_pos (.inl rfl), List.append_nil, hread]
  have hne : (s.text ++ rest).isEmpty = false := by simp [s.text_ne_nil]
  rw [lexemesFrom]
  simp only [hne, Bool.false_eq_true, if_false, htoken, List.map_cons]
  rw [hlexes steps next.offset (by omega)]

/-- A symbol joins the literal in front of it. -/
theorem Cuts.symbol (h : s.Avoids metacharacters) (hjoins : done = [] ∨ s.joins rest = true)
    (hrest : Cuts (s.spelled.reverse ++ done) rest ts) : Cuts done (s.text ++ rest) ts := by
  have hresumes : Resumes (s.spelled.reverse ++ done) rest ts :=
    hrest.resumes (by simp [s.spelled_ne_nil])
  refine ⟨fun hdone => ?_, fun hdone => ?_⟩
  · rw [hdone, List.append_nil] at hresumes
    exact lexes_symbol h hresumes
  · have hpos := List.length_pos_iff.2 s.text_ne_nil
    intro steps offset hsteps
    rw [List.length_append] at hsteps
    obtain ⟨steps, rfl⟩ : ∃ n, steps = n + 1 := ⟨steps - 1, by omega⟩
    obtain ⟨text, next, us, hread, hnext, hlexes, rfl⟩ :=
      hresumes steps (offset + s.text.length) (by omega)
    refine ⟨text, next, us, ?_, by rw [List.length_append]; omega, hlexes, rfl⟩
    rw [literalFrom_symbol h, if_pos hjoins, hread]

/-- The literal that has been begun, if one has been. -/
def pending (done : List Char) : List Token :=
  if done = [] then [] else [.literal (String.ofList done.reverse)]

theorem Stops.cuts (hstops : Stops cs) (h : Lexes cs us) (done : List Char) :
    Cuts done cs (pending done ++ us) := by
  refine ⟨fun hdone => ?_, fun hdone steps offset _ => ?_⟩
  · rw [pending, if_pos hdone]
    exact h
  · rw [pending, if_neg hdone]
    exact ⟨done.reverse, ⟨offset, cs⟩, us, hstops steps offset done hdone, le_rfl, h, rfl⟩

/-- A symbol that a literal stops behind is a literal of its own. -/
theorem Lexes.symbol (h : Lexes rest us) (havoids : s.Avoids metacharacters)
    (hstops : Stops rest) : Lexes (s.text ++ rest) (.literal (String.ofList s.spelled) :: us) := by
  have hcuts := hstops.cuts h s.spelled.reverse
  have hne : s.spelled.reverse ≠ [] := by simp [s.spelled_ne_nil]
  rw [pending, if_neg hne, List.reverse_reverse] at hcuts
  exact lexes_symbol havoids (hcuts.resumes hne)

end Tokens

end Pattern

end SchemaGrammar
