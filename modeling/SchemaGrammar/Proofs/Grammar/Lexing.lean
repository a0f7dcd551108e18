import SchemaGrammar.Proofs.Grammar.Dialect
import SchemaGrammar.Proofs.Work

set_option autoImplicit false

/-! # Texts are cut into the tokens that they spell

Cutting a text gives the tokens that its pieces spell (`Lexical.lexemes`), and if none of the tokens
is at fault, the text is made of pieces that spell them (`lexical_of_lexemes`). What breaks off has a
fault of grammar, or an escape asks for a code point that is out of all bounds (`faulty_of_lexemes`). -/

namespace SchemaGrammar

namespace Grammar

open Text (Cursor)

/-! ## Pieces that are read -/

namespace Numerals

/-- Whatever is a number in one way of writing is the same number in the other. -/
structure Below (N M : Numerals) : Prop where
  escape : ∀ digits code, N.escape digits code → M.escape digits code
  count : ∀ text n, N.count text n → M.count text n
  gap : ∀ text, N.gap text → M.gap text

section Mono

variable {N M : Numerals} (hle : N.Below M)

include hle

theorem Spells.mono {text : List Char} {code : Nat} (h : N.Spells text code) :
    M.Spells text code := by
  cases h with
  | raw plain => exact .raw plain
  | escaped simple => exact .escaped simple
  | numbered marked length value most => exact .numbered marked length (hle.escape _ _ value) most

theorem Quoted.mono {text : List Char} {codes : List Nat} (h : N.Quoted text codes) :
    M.Quoted text codes := by
  induction h with
  | nil => exact .nil
  | cons first inside _ ih => exact .cons (first.mono hle) inside ih

theorem Bracketed.mono {text : List Char} {ranges : List (Nat × Nat)}
    (h : N.Bracketed text ranges) : M.Bracketed text ranges := by
  induction h with
  | nil => exact .nil
  | single first inside alone _ ih => exact .single (first.mono hle) inside alone ih
  | range first inside second inside' _ ih =>
    exact .range (first.mono hle) inside (second.mono hle) inside' ih

theorem Counted.mono {text : List Char} {min : Int} {max : Option Int}
    (h : N.Counted text min max) : M.Counted text min max := by
  cases h with
  | optional => exact .optional
  | star => exact .star
  | plus => exact .plus
  | exactly count inside alone => exact .exactly (hle.count _ _ count) inside alone
  | atLeast count missing inside alone =>
    exact .atLeast (hle.count _ _ count) (hle.gap _ missing) inside alone
  | between count most inside alone =>
    exact .between (hle.count _ _ count) (hle.count _ _ most) inside alone

theorem Spelling.mono {t : Token} {piece : List Char} (h : N.Spelling t piece) :
    M.Spelling t piece := by
  cases h with
  | name some chars => exact .name some chars
  | define => exact .define
  | literal inside => exact .literal (inside.mono hle)
  | charClass inside plain => exact .charClass (inside.mono hle) plain
  | exceptClass inside => exact .exceptClass (inside.mono hle)
  | groupOpen => exact .groupOpen
  | groupClose => exact .groupClose
  | bar => exact .bar
  | times counted => exact .times (counted.mono hle)
  | lineBreak end' => exact .lineBreak end'
  | space blank => exact .space blank
  | comment line => exact .comment line

theorem Lexical.mono {tokens : List Token} {text : List Char} (h : N.Lexical tokens text) :
    M.Lexical tokens text := by
  induction h with
  | nil => exact .nil
  | cons first delimits _ ih => exact .cons (first.mono hle) delimits ih

theorem Renders.mono {text : List Char} {g : Grammar} (h : N.Renders text g) :
    M.Renders text g := by
  obtain ⟨tokens, hlexical, hdocument⟩ := h
  exact ⟨tokens, hlexical.mono hle, hdocument⟩

end Mono

theorem Spells.read {text : List Char} {code : Nat} (h : lenient.Spells text code) :
    Grammar.Spells text code := by
  cases h with
  | raw plain => exact .raw plain
  | escaped simple => exact .escaped simple
  | numbered marked length value most => exact .numbered marked length value most

theorem Quoted.read {text : List Char} {codes : List Nat} (h : lenient.Quoted text codes) :
    Grammar.Quoted text codes := by
  induction h with
  | nil => exact .nil
  | cons first inside _ ih => exact .cons first.read inside ih

theorem Bracketed.read {text : List Char} {ranges : List (Nat × Nat)}
    (h : lenient.Bracketed text ranges) : Grammar.Bracketed text ranges := by
  induction h with
  | nil => exact .nil
  | single first inside alone _ ih => exact .single first.read inside alone ih
  | range first inside second inside' _ ih => exact .range first.read inside second.read inside' ih

theorem readInt?_nil : Text.readInt? 10 [] = none :=
  rfl

/-- The counts between braces, where there are any. -/
theorem countsOf_exactly {text : List Char} {n : Int} (hcount : lenient.count text n)
    (hcomma : ',' ∉ text) : countsOf text = some (n, some n) := by
  have hread : Text.readInt? 10 (Text.trim text) = some n := hcount
  simp [countsOf, Text.splitAt_of_notMem hcomma, hread]

theorem countsOf_atLeast {text gap : List Char} {n : Int} (hcount : lenient.count text n)
    (hgap : lenient.gap gap) (hcomma : ',' ∉ text ++ gap) :
    countsOf (text ++ ',' :: gap) = some (n, none) := by
  rw [List.mem_append, not_or] at hcomma
  have hread : Text.readInt? 10 (Text.trim text) = some n := hcount
  have hnone : Text.trim gap = [] := hgap
  simp [countsOf, Text.splitAt_append hcomma.1, Text.splitAt_of_notMem hcomma.2, hread, hnone]

theorem countsOf_between {text more : List Char} {n m : Int} (hcount : lenient.count text n)
    (hmost : lenient.count more m) (hcomma : ',' ∉ text ++ more) :
    countsOf (text ++ ',' :: more) = some (n, some m) := by
  rw [List.mem_append, not_or] at hcomma
  have hread : Text.readInt? 10 (Text.trim text) = some n := hcount
  have hread' : Text.readInt? 10 (Text.trim more) = some m := hmost
  obtain ⟨c, cs, hsome⟩ : ∃ c cs, Text.trim more = c :: cs := by
    refine List.exists_cons_of_ne_nil fun hnil => ?_
    rw [hnil, readInt?_nil] at hread'
    cases hread'
  rw [hsome] at hread'
  simp [countsOf, Text.splitAt_append hcomma.1, Text.splitAt_of_notMem hcomma.2, hread, hsome, hread']

/-- A piece that spells a token is taken for it. -/
theorem Counted.token_eq {text : List Char} {min : Int} {max : Option Int}
    (h : lenient.Counted text min max) (offset : Nat) (rest : List Char) :
    ∃ c cs, text = c :: cs ∧ token c ⟨offset, c :: cs ++ rest⟩ =
      (.times min max, ⟨offset + (c :: cs).length, rest⟩) := by
  have hbraces {body : List Char} (inside : '\x7d' ∉ body) (hcounts : countsOf body = some (min, max)) :
      token '\x7b' ⟨offset, '\x7b' :: (body ++ ['\x7d']) ++ rest⟩ =
        (.times min max, ⟨offset + ('\x7b' :: (body ++ ['\x7d'])).length, rest⟩) := by
    have hbody : (body ++ ['\x7d'] ++ rest).takeWhile (· ≠ '\x7d') = body := by
      rw [List.append_assoc, List.takeWhile_append_of_pos]
      · simp
      · intro c hc
        simpa using fun he : c = '\x7d' => inside (he ▸ hc)
    have htoken : token '\x7b' ⟨offset, '\x7b' :: (body ++ ['\x7d']) ++ rest⟩ =
        braces ⟨offset, '\x7b' :: (body ++ ['\x7d'] ++ rest)⟩ := rfl
    rw [htoken]
    simp only [braces, Cursor.advance, List.drop_one, List.tail_cons, hbody, hcounts]
    simp
    omega
  cases h with
  | optional => exact ⟨_, _, rfl, rfl⟩
  | star => exact ⟨_, _, rfl, rfl⟩
  | plus => exact ⟨_, _, rfl, rfl⟩
  | exactly count inside alone => exact ⟨_, _, rfl, hbraces inside (countsOf_exactly count alone)⟩
  | atLeast count missing inside alone =>
    exact ⟨_, _, rfl, hbraces (by simpa using inside) (countsOf_atLeast count missing alone)⟩
  | between count most inside alone =>
    exact ⟨_, _, rfl, hbraces (by simpa using inside) (countsOf_between count most alone)⟩

theorem token_comment {text rest : List Char} (line : ∀ c ∈ text, isLineBreak c = false)
    (hrest : ∀ c ∈ rest.head?, isLineBreak c = true) (offset : Nat) :
    token '#' ⟨offset, '#' :: text ++ rest⟩ =
      (.blank, ⟨offset + ('#' :: text).length, rest⟩) := by
  have htake : ('#' :: text ++ rest).takeWhile (fun c => !isLineBreak c) = '#' :: text := by
    rw [List.takeWhile_append_of_pos]
    · cases rest with
      | nil => simp
      | cons d ds => simp [hrest d (by simp)]
    · intro c hc
      rcases List.mem_cons.1 hc with rfl | hc
      · decide
      · simp [line c hc]
  have htoken : token '#' ⟨offset, '#' :: text ++ rest⟩ =
      (.blank, Cursor.skipWhile (fun c => !isLineBreak c) ⟨offset, '#' :: text ++ rest⟩) := rfl
  rw [htoken, Cursor.skipWhile, htake, Cursor.advance, List.drop_left]

/-- A piece that spells a token is taken for it, wherever it ends. -/
theorem Spelling.token_eq {t : Token} {piece rest : List Char} (h : lenient.Spelling t piece)
    (hends : Delimits piece rest) (offset : Nat) :
    ∃ c cs, piece = c :: cs ∧
      token c ⟨offset, c :: cs ++ rest⟩ = (t, ⟨offset + (c :: cs).length, rest⟩) := by
  cases h with
  | @name cs some chars =>
    obtain ⟨c, cs, rfl⟩ := List.exists_cons_of_ne_nil some
    exact ⟨c, cs, rfl, token_name offset chars (hends.apart.head chars)⟩
  | define => exact ⟨_, _, rfl, rfl⟩
  | literal inside => exact ⟨_, _, rfl, token_literal offset inside.read⟩
  | charClass inside plain => exact ⟨_, _, rfl, token_charClass offset inside.read plain⟩
  | exceptClass inside => exact ⟨_, _, rfl, token_exceptClass offset inside.read⟩
  | groupOpen => exact ⟨_, _, rfl, rfl⟩
  | groupClose => exact ⟨_, _, rfl, rfl⟩
  | bar => exact ⟨_, _, rfl, rfl⟩
  | times counted => exact counted.token_eq offset rest
  | @lineBreak c end' =>
    refine ⟨c, [], rfl, ?_⟩
    simp only [isLineBreak, Bool.or_eq_true, decide_eq_true_eq] at end'
    rcases end' with rfl | rfl <;> rfl
  | @space c blank =>
    refine ⟨c, [], rfl, ?_⟩
    simp only [isSpace, Bool.or_eq_true, decide_eq_true_eq] at blank
    rcases blank with rfl | rfl <;> rfl
  | comment line => exact ⟨_, _, rfl, token_comment line (hends.line rfl) offset⟩

end Numerals

/-! ## Rows of tokens -/

/-- A token that is not at fault. -/
def Token.IsSound (t : Token) : Prop :=
  t ≠ .stray ∧ ∀ failure, t ≠ .broken failure

theorem Numerals.Spelling.isSound {N : Numerals} {t : Token} {piece : List Char}
    (h : N.Spelling t piece) : t.IsSound := by
  cases h <;> simp [Token.IsSound]

theorem lexemesFrom_succ {steps offset : Nat} {c : Char} {cs : List Char} {t : Token} {next : Cursor}
    (htoken : token c ⟨offset, c :: cs⟩ = (t, next)) (hsound : ∀ failure, t ≠ .broken failure) :
    lexemesFrom (steps + 1) ⟨offset, c :: cs⟩ = ⟨offset, c, t⟩ :: lexemesFrom steps next := by
  rw [lexemesFrom]
  simp only [htoken]

/-- **Texts are cut into the tokens that they spell.** -/
theorem Numerals.Lexical.lexemes {tokens : List Token} {text : List Char}
    (h : Numerals.lenient.Lexical tokens text) : ∀ (steps offset : Nat), text.length ≤ steps →
      (lexemesFrom steps ⟨offset, text⟩).map Lexeme.token = tokens := by
  induction h with
  | nil =>
    intro steps offset _
    cases steps <;> rfl
  | cons first delimits _ ih =>
    intro steps offset hsteps
    obtain ⟨c, cs, rfl, htoken⟩ := first.token_eq delimits offset
    simp only [List.cons_append, List.length_cons, List.length_append] at hsteps
    obtain ⟨steps, rfl⟩ : ∃ n, steps = n + 1 := ⟨steps - 1, by omega⟩
    rw [List.cons_append] at htoken ⊢
    rw [lexemesFrom_succ htoken first.isSound.2, List.map_cons, ih _ _ (by omega)]

/-! ## Faults -/

/-- An escape asks for a code point that is out of all bounds. -/
def HasBoundlessEscape (text : List Char) : Prop :=
  ∃ mark digits n, escapeWidth? mark = some (List.length digits) ∧
    Text.readInt? 16 digits = some (Int.ofNat n) ∧ maxAskable < n ∧ '\\' :: mark :: digits <:+: text

/-- What cutting a text may fail with. -/
inductive Faulty (text : List Char) : Failure → Prop where
  | grammar (fault : GrammarFault) (position : Option Nat) : Faulty text (.grammar fault position)
  | escape (boundless : HasBoundlessEscape text) : Faulty text (.misuse .codePoint)

theorem Faulty.of_suffix {text rest : List Char} {e : Failure} (h : Faulty rest e)
    (hsuffix : rest <:+ text) : Faulty text e := by
  cases h with
  | grammar fault position => exact .grammar fault position
  | escape boundless =>
    obtain ⟨mark, digits, n, hmark, hread, hlarge, hinfix⟩ := boundless
    exact .escape ⟨mark, digits, n, hmark, hread, hlarge, hinfix.trans hsuffix.isInfix⟩

/-! ## What was cut -/

section Inversion

open Numerals

theorem escapedCode_eq_ok {digits : List Char} {width code : Nat} {fault : Failure}
    (h : escapedCode digits width fault = .ok code) :
    digits.length = width ∧ Text.readInt? 16 digits = some (code : Int) ∧ code ≤ maxCodePoint := by
  unfold escapedCode at h
  split_ifs at h with hlength
  split at h
  · cases h
  · cases h
  · rename_i n hread
    split_ifs at h with hmost
    obtain rfl := Except.ok.inj h
    exact ⟨not_not.1 hlength, hread, hmost⟩

/-- A character that has been read was spelled. -/
theorem unit_eq_ok {k next : Cursor} {code : Nat} (h : unit k = .ok (code, next)) :
    ∃ piece, lenient.Spells piece code ∧ k.rest = piece ++ next.rest := by
  unfold unit at h
  split at h
  · cases h
  · rename_i rest hrest
    split at h
    · cases h
    · rename_i c more
      split at h
      · rename_i width hwidth
        dsimp only at h
        cases hcode : escapedCode (more.take width) width
          (.grammar (.escape (String.ofList (c :: more.take width))) (some k.offset)) with
        | error e =>
          rw [hcode] at h
          cases h
        | ok n =>
          rw [hcode] at h
          obtain ⟨rfl, rfl⟩ := Prod.mk.inj (Except.ok.inj h)
          obtain ⟨hlength, hread, hmost⟩ := escapedCode_eq_ok hcode
          refine ⟨'\\' :: c :: more.take width, .numbered hwidth hlength hread hmost, ?_⟩
          simp [Cursor.advance, hrest, Nat.add_comm 2]
      · rename_i hwidth
        obtain ⟨rfl, rfl⟩ := Prod.mk.inj (Except.ok.inj h)
        exact ⟨['\\', c], .escaped hwidth, by simp [Cursor.advance, hrest]⟩
  · rename_i c rest hraw hrest
    obtain ⟨rfl, rfl⟩ := Prod.mk.inj (Except.ok.inj h)
    refine ⟨[c], .raw hraw, by simp [Cursor.advance, hrest]⟩

theorem escapedCode_eq_error {digits : List Char} {width position : Nat} {fault : GrammarFault}
    {e : Failure} (h : escapedCode digits width (.grammar fault (some position)) = .error e) :
    e = .grammar fault (some position) ∨ e = .misuse .codePoint ∧ digits.length = width ∧
      ∃ n, Text.readInt? 16 digits = some (Int.ofNat n) ∧ maxAskable < n := by
  unfold escapedCode at h
  split_ifs at h with hlength
  · exact .inl (Except.error.inj h).symm
  split at h
  · exact .inl (Except.error.inj h).symm
  · exact .inl (Except.error.inj h).symm
  · rename_i n hread
    split_ifs at h with hmost haskable
    · exact .inl (Except.error.inj h).symm
    · exact .inr ⟨(Except.error.inj h).symm, not_not.1 hlength, n, hread, not_le.1 haskable⟩

theorem faulty_of_unit {k : Cursor} {e : Failure} (h : unit k = .error e) : Faulty k.rest e := by
  unfold unit at h
  split at h
  · obtain rfl := Except.error.inj h
    exact .grammar _ _
  · rename_i rest hrest
    split at h
    · obtain rfl := Except.error.inj h
      exact .grammar _ _
    · rename_i c more
      split at h
      · rename_i width hwidth
        dsimp only at h
        cases hcode : escapedCode (more.take width) width
          (.grammar (.escape (String.ofList (c :: more.take width))) (some k.offset)) with
        | error e' =>
          rw [hcode] at h
          obtain rfl : e' = e := Except.error.inj h
          obtain rfl | ⟨rfl, hlength, n, hread, hlarge⟩ := escapedCode_eq_error hcode
          · exact .grammar _ _
          · refine .escape ⟨c, more.take width, n, by rw [hlength]; exact hwidth, hread, hlarge, ?_⟩
            rw [hrest]
            exact ⟨[], more.drop width, by simp⟩
        | ok n =>
          rw [hcode] at h
          cases h
      · cases h
  · cases h

theorem Spells.head_eq {N : Numerals} {piece rest more : List Char} {code : Nat}
    (h : N.Spells piece code) (heq : rest = piece ++ more) : piece.head? = rest.head? := by
  subst heq
  cases h <;> rfl

/-- A literal that has been read was quoted. -/
theorem literalBody_eq_ok {start : Nat} (steps : Nat) : ∀ {done codes : List Nat} {k next : Cursor},
    literalBody start steps done k = .ok (codes, next) →
    ∃ text more, lenient.Quoted text more ∧ codes = done.reverse ++ more ∧
      k.rest = text ++ '"' :: next.rest := by
  induction steps with
  | zero =>
    intro done codes k next h
    cases h
  | succ steps ih =>
    intro done codes k next h
    rw [literalBody] at h
    cases hpeek : k.peek? with
    | none =>
      rw [hpeek] at h
      cases h
    | some c =>
      by_cases hquote : c = '"'
      · subst hquote
        rw [hpeek] at h
        obtain ⟨rfl, rfl⟩ := Prod.mk.inj (Except.ok.inj h)
        obtain ⟨rest, hrest⟩ := List.head?_eq_some_iff.1 hpeek
        exact ⟨[], [], .nil, by simp, by simp [Cursor.advance, hrest]⟩
      · rw [hpeek] at h
        have hunit : (unit k >>= fun x => literalBody start steps (x.1 :: done) x.2) =
            .ok (codes, next) := by
          rw [← h]
          split
          · contradiction
          · simp_all
          · rfl
        obtain ⟨⟨code, mid⟩, hcode, hmore⟩ := Work.except_bind_eq_ok.1 hunit
        obtain ⟨piece, hspells, hpiece⟩ := unit_eq_ok hcode
        obtain ⟨text, more, hquoted, rfl, htext⟩ := ih hmore
        refine ⟨piece ++ text, code :: more, .cons hspells ?_ hquoted, by simp, ?_⟩
        · rw [Spells.head_eq hspells hpiece]
          have : k.rest.head? = some c := hpeek
          simpa [this] using hquote
        · rw [hpiece, htext, List.append_assoc]

theorem faulty_of_literalBody {start : Nat} {e : Failure} (steps : Nat) :
    ∀ {done : List Nat} {k : Cursor}, literalBody start steps done k = .error e → Faulty k.rest e := by
  induction steps with
  | zero =>
    intro done k h
    obtain rfl := Except.error.inj h
    exact .grammar _ _
  | succ steps ih =>
    intro done k h
    rw [literalBody] at h
    split at h
    · obtain rfl := Except.error.inj h
      exact .grammar _ _
    · cases h
    · cases hunit : unit k with
      | error e' =>
        rw [hunit] at h
        obtain rfl : e' = e := Except.error.inj h
        exact faulty_of_unit hunit
      | ok found =>
        rw [hunit] at h
        obtain ⟨piece, -, hpiece⟩ := unit_eq_ok hunit
        exact (ih h).of_suffix ⟨piece, hpiece.symm⟩

theorem rangeFollows_iff {cs : List Char} :
    rangeFollows cs = true ↔ ∃ c more, cs = '-' :: c :: more ∧ c ≠ ']' := by
  constructor
  · intro h
    unfold rangeFollows at h
    split at h
    · rename_i c more
      exact ⟨c, more, rfl, by simpa using h⟩
    · cases h
  · rintro ⟨c, more, rfl, hc⟩
    simpa [rangeFollows] using hc

/-- A class that has been read was put in brackets. -/
theorem classBody_eq_ok {start : Nat} (steps : Nat) :
    ∀ {done ranges : List (Nat × Nat)} {k next : Cursor},
      classBody start steps done k = .ok (ranges, next) →
      ∃ text more, lenient.Bracketed text more ∧ ranges = done.reverse ++ more ∧
        k.rest = text ++ ']' :: next.rest := by
  induction steps with
  | zero =>
    intro done ranges k next h
    cases h
  | succ steps ih =>
    intro done ranges k next h
    rw [classBody] at h
    cases hpeek : k.peek? with
    | none =>
      rw [hpeek] at h
      cases h
    | some c =>
      by_cases hbracket : c = ']'
      · subst hbracket
        rw [hpeek] at h
        obtain ⟨rfl, rfl⟩ := Prod.mk.inj (Except.ok.inj h)
        obtain ⟨rest, hrest⟩ := List.head?_eq_some_iff.1 hpeek
        exact ⟨[], [], .nil, by simp, by simp [Cursor.advance, hrest]⟩
      · rw [hpeek] at h
        have hunit : (unit k >>= fun x =>
            if rangeFollows x.2.rest then
              unit (x.2.advance 1) >>= fun y => classBody start steps ((x.1, y.1) :: done) y.2
            else classBody start steps ((x.1, x.1) :: done) x.2) = .ok (ranges, next) := by
          rw [← h]
          split
          · contradiction
          · simp_all
          · rfl
        obtain ⟨⟨lo, mid⟩, hlo, hmore⟩ := Work.except_bind_eq_ok.1 hunit
        obtain ⟨piece, hspells, hpiece⟩ := unit_eq_ok hlo
        have hinside : piece.head? ≠ some ']' := by
          have hhead : k.rest.head? = some c := hpeek
          rw [Spells.head_eq hspells hpiece, hhead]
          simpa using hbracket
        dsimp only at hmore
        split_ifs at hmore with hfollows
        · -- the character behind the dash is the end of the range
          obtain ⟨⟨hi, last⟩, hhi, hmore⟩ := Work.except_bind_eq_ok.1 hmore
          obtain ⟨piece', hspells', hpiece'⟩ := unit_eq_ok hhi
          obtain ⟨text, more, hbracketed, rfl, htext⟩ := ih hmore
          obtain ⟨d, behind, hmid, hd⟩ := rangeFollows_iff.1 hfollows
          have hrest : (mid.advance 1).rest = d :: behind := by simp [Cursor.advance, hmid]
          refine ⟨piece ++ '-' :: (piece' ++ text), (lo, hi) :: more,
            .range hspells hinside hspells' ?_ hbracketed, by simp, ?_⟩
          · rw [Spells.head_eq hspells' hpiece', hrest]
            simpa using hd
          · rw [hpiece, hmid, ← hrest, hpiece', htext]
            simp
        · obtain ⟨text, more, hbracketed, rfl, htext⟩ := ih hmore
          refine ⟨piece ++ text, (lo, lo) :: more, .single hspells hinside ?_ hbracketed, by simp, ?_⟩
          · rw [htext, rangeFollows_append] at hfollows
            exact Bool.eq_false_iff.2 hfollows
          · rw [hpiece, htext, List.append_assoc]

theorem faulty_of_classBody {start : Nat} {e : Failure} (steps : Nat) :
    ∀ {done : List (Nat × Nat)} {k : Cursor},
      classBody start steps done k = .error e → Faulty k.rest e := by
  induction steps with
  | zero =>
    intro done k h
    obtain rfl := Except.error.inj h
    exact .grammar _ _
  | succ steps ih =>
    intro done k h
    rw [classBody] at h
    split at h
    · obtain rfl := Except.error.inj h
      exact .grammar _ _
    · cases h
    · cases hunit : unit k with
      | error e' =>
        rw [hunit] at h
        obtain rfl : e' = e := Except.error.inj h
        exact faulty_of_unit hunit
      | ok found =>
        obtain ⟨lo, mid⟩ := found
        rw [hunit] at h
        obtain ⟨piece, -, hpiece⟩ := unit_eq_ok hunit
        have hmid : mid.rest <:+ k.rest := ⟨piece, hpiece.symm⟩
        simp only [bind, Except.bind] at h
        split_ifs at h
        · have hbehind : (mid.advance 1).rest <:+ k.rest :=
            (List.drop_suffix 1 mid.rest).trans hmid
          cases hsecond : unit (mid.advance 1) with
          | error e' =>
            rw [hsecond] at h
            obtain rfl : e' = e := Except.error.inj h
            exact (faulty_of_unit hsecond).of_suffix hbehind
          | ok last =>
            rw [hsecond] at h
            obtain ⟨piece', -, hpiece'⟩ := unit_eq_ok hsecond
            exact (ih h).of_suffix (List.IsSuffix.trans ⟨piece', hpiece'.symm⟩ hbehind)
        · exact (ih h).of_suffix hmid

theorem map_eq_pair {α β : Type} {f : α → β} {xs : List α} {y z : β} (h : xs.map f = [y, z]) :
    ∃ a b, xs = [a, b] ∧ f a = y ∧ f b = z := by
  obtain ⟨a, rest, rfl, ha, hrest⟩ := List.map_eq_cons_iff.1 h
  obtain ⟨b, rfl, hb⟩ := List.map_eq_singleton_iff.1 hrest
  exact ⟨a, b, rfl, ha, hb⟩

/-- Counts that have been read were written. -/
theorem countsOf_eq_some {body : List Char} {min : Int} {max : Option Int}
    (h : countsOf body = some (min, max)) (inside : '\x7d' ∉ body) :
    lenient.Counted ('\x7b' :: (body ++ ['\x7d'])) min max := by
  unfold countsOf at h
  split at h
  · rename_i count hcount
    obtain ⟨part, hpart, rfl⟩ := List.map_eq_singleton_iff.1 hcount
    obtain ⟨n, hn, heq⟩ := Option.map_eq_some_iff.1 h
    obtain ⟨rfl, rfl⟩ := Prod.mk.inj heq
    obtain ⟨rfl, hcomma⟩ := Text.splitAt_eq_singleton hpart
    exact .exactly hn inside hcomma
  · rename_i low hlow
    obtain ⟨part, other, hparts, rfl, hother⟩ := map_eq_pair hlow
    obtain ⟨n, hn, heq⟩ := Option.map_eq_some_iff.1 h
    obtain ⟨rfl, rfl⟩ := Prod.mk.inj heq
    obtain ⟨rfl, hcomma⟩ := Text.splitAt_eq_pair hparts
    exact .atLeast hn hother (by simpa using inside) hcomma
  · rename_i low high _ hhigh
    obtain ⟨part, other, hparts, rfl, rfl⟩ := map_eq_pair hhigh
    obtain ⟨n, hn, h⟩ := Option.bind_eq_some_iff.1 h
    obtain ⟨m, hm, h⟩ := Option.bind_eq_some_iff.1 h
    obtain ⟨rfl, rfl⟩ := Prod.mk.inj (Option.some.inj h)
    obtain ⟨rfl, hcomma⟩ := Text.splitAt_eq_pair hparts
    exact .between hn hm (by simpa using inside) hcomma
  · cases h

theorem drop_length_takeWhile (p : Char → Bool) (cs : List Char) :
    cs.drop (cs.takeWhile p).length = cs.dropWhile p := by
  calc cs.drop (cs.takeWhile p).length
      = (cs.takeWhile p ++ cs.dropWhile p).drop (cs.takeWhile p).length := by
        rw [List.takeWhile_append_dropWhile]
    _ = cs.dropWhile p := List.drop_left

theorem eq_of_mem_head?_dropWhile {p : Char → Bool} {cs : List Char} {c : Char}
    (h : c ∈ (cs.dropWhile p).head?) : p c = false := by
  have hhead := List.head?_dropWhile_not p cs
  rw [Option.mem_def.1 h] at hhead
  exact hhead

theorem delimits_mark {c : Char} (rest : List Char) (hname : isNameChar c = false)
    (hhash : c ≠ '#') : Delimits [c] rest :=
  ⟨apart_of_getLast (by simpa using hname), fun h => absurd h (by simpa using hhash)⟩

/-- Marks around a text show where it ends. -/
theorem delimits_wrapped {c d : Char} (text rest : List Char) (hname : isNameChar d = false)
    (hhash : c ≠ '#') : Delimits (c :: (text ++ [d])) rest := by
  have hlast : (c :: (text ++ [d])).getLast? = some d := by
    rw [← List.cons_append, List.getLast?_concat]
  exact ⟨apart_of_getLast (by simpa [hlast] using hname), fun h => absurd h (by simpa using hhash)⟩

/-- What cutting a token off leads to: the piece in front of the place spells the token, up to its
    end, or the token is at fault. -/
inductive Cuts (k : Cursor) : Token × Cursor → Prop where
  | spelled {t : Token} {next : Cursor} {piece : List Char} (spells : lenient.Spelling t piece)
      (some : piece ≠ []) (delimits : Delimits piece next.rest) (split : k.rest = piece ++ next.rest) :
      Cuts k (t, next)
  | stray : Cuts k (.stray, k.advance 1)
  | broken {e : Failure} (faulty : Faulty k.rest e) : Cuts k (.broken e, k)

theorem cuts_one {c : Char} {cs : List Char} {k : Cursor} {t : Token} (hrest : k.rest = c :: cs)
    (hspells : lenient.Spelling t [c]) (hname : isNameChar c = false) (hhash : c ≠ '#') :
    Cuts k (t, k.advance 1) :=
  .spelled hspells (by simp) (delimits_mark _ hname hhash) (by simp [Cursor.advance, hrest])

/-- What a name or a comment takes up: a run of characters, and none of them behind it. -/
theorem exists_run {p : Char → Bool} {c : Char} {cs : List Char} {k : Cursor}
    (hrest : k.rest = c :: cs) (hc : p c = true) :
    ∃ more, k.rest.takeWhile p = c :: more ∧ (∀ d ∈ c :: more, p d = true) ∧
      (∀ d ∈ (k.skipWhile p).rest.head?, p d = false) ∧
      k.rest = c :: more ++ (k.skipWhile p).rest := by
  have htake : k.rest.takeWhile p = c :: cs.takeWhile p := by rw [hrest, List.takeWhile_cons_of_pos hc]
  have hnext : (k.skipWhile p).rest = k.rest.dropWhile p := drop_length_takeWhile p k.rest
  refine ⟨cs.takeWhile p, htake, fun d hd => ?_, fun d hd => ?_, ?_⟩
  · rw [← htake] at hd
    exact List.mem_takeWhile_imp hd
  · rw [hnext] at hd
    exact eq_of_mem_head?_dropWhile hd
  · rw [hnext, ← htake, List.takeWhile_append_dropWhile]

theorem cuts_comment {cs : List Char} {k : Cursor} (hrest : k.rest = '#' :: cs) :
    Cuts k (.blank, k.skipWhile fun c => !isLineBreak c) := by
  obtain ⟨more, -, hall, hbehind, hsplit⟩ :=
    exists_run (p := fun c => !isLineBreak c) hrest (by decide)
  have hends : ∀ d ∈ (k.skipWhile fun c => !isLineBreak c).rest.head?, isLineBreak d = true :=
    fun d hd => by simpa using hbehind d hd
  refine .spelled (.comment fun d hd => ?_) (by simp) ⟨apart_of_head fun d hd => ?_, fun _ => hends⟩ hsplit
  · simpa using hall d (List.mem_cons_of_mem _ hd)
  · have hbreak := hends d hd
    simp only [isLineBreak, Bool.or_eq_true, decide_eq_true_eq] at hbreak
    rcases hbreak with rfl | rfl <;> decide

theorem cuts_literal {cs : List Char} {k : Cursor} (hrest : k.rest = '"' :: cs) (steps : Nat) :
    Cuts k (tokenOf .literal k (literalBody k.offset steps [] (k.advance 1))) := by
  have hinside : (k.advance 1).rest = cs := by simp [Cursor.advance, hrest]
  cases hbody : literalBody k.offset steps [] (k.advance 1) with
  | error e =>
    exact .broken ((faulty_of_literalBody _ hbody).of_suffix (List.drop_suffix 1 k.rest))
  | ok found =>
    obtain ⟨codes, next⟩ := found
    obtain ⟨text, more, hquoted, rfl, htext⟩ := literalBody_eq_ok _ hbody
    rw [hinside] at htext
    exact .spelled (.literal hquoted) (by simp) (delimits_wrapped _ _ (by decide) (by decide))
      (by simp [hrest, htext])

theorem cuts_charClass {cs : List Char} {k : Cursor} (hrest : k.rest = '[' :: cs) (steps : Nat) :
    Cuts k (let inside := k.advance 1
      let negated := inside.peek? == some '^'
      tokenOf (.charClass negated) k (classBody k.offset steps []
        (if negated then inside.advance 1 else inside))) := by
  have hinside : (k.advance 1).rest = cs := by simp [Cursor.advance, hrest]
  by_cases hnegated : cs.head? = some '^'
  · obtain ⟨more, hmore⟩ := List.head?_eq_some_iff.1 hnegated
    have hpeek : ((k.advance 1).peek? == some '^') = true := by simp [Cursor.peek?, hinside, hnegated]
    have hplace : ((k.advance 1).advance 1).rest = more := by simp [Cursor.advance, hrest, hmore]
    simp only [hpeek, if_true]
    cases hbody : classBody k.offset steps [] ((k.advance 1).advance 1) with
    | error e =>
      refine .broken ((faulty_of_classBody _ hbody).of_suffix ?_)
      exact (List.drop_suffix 1 _).trans (List.drop_suffix 1 k.rest)
    | ok found =>
      obtain ⟨ranges, next⟩ := found
      obtain ⟨text, more', hbracketed, rfl, htext⟩ := classBody_eq_ok _ hbody
      rw [hplace] at htext
      exact .spelled (.exceptClass hbracketed) (by simp)
        (delimits_wrapped ('^' :: text) _ (by decide) (by decide)) (by simp [hrest, hmore, htext])
  · have hpeek : ((k.advance 1).peek? == some '^') = false := by
      simpa [Cursor.peek?, hinside] using hnegated
    simp only [hpeek, Bool.false_eq_true, if_false]
    cases hbody : classBody k.offset steps [] (k.advance 1) with
    | error e =>
      exact .broken ((faulty_of_classBody _ hbody).of_suffix (List.drop_suffix 1 k.rest))
    | ok found =>
      obtain ⟨ranges, next⟩ := found
      obtain ⟨text, more, hbracketed, rfl, htext⟩ := classBody_eq_ok _ hbody
      rw [hinside] at htext
      refine .spelled (.charClass hbracketed fun hhead => ?_) (by simp)
        (delimits_wrapped _ _ (by decide) (by decide)) (by simp [hrest, htext])
      obtain ⟨behind, rfl⟩ := List.head?_eq_some_iff.1 hhead
      simp [htext] at hnegated

theorem cuts_braces {cs : List Char} {k : Cursor} (hrest : k.rest = '\x7b' :: cs) :
    Cuts k (braces k) := by
  unfold braces
  simp only [Cursor.advance, hrest, List.drop_one, List.tail_cons, drop_length_takeWhile]
  split_ifs with hopen
  · exact .broken (.grammar _ _)
  split
  · rename_i low high hcounts
    have hinside : '\x7d' ∉ cs.takeWhile (· ≠ '\x7d') := fun hmem => by
      simpa using List.mem_takeWhile_imp hmem
    obtain ⟨d, behind, hbehind⟩ :=
      List.exists_cons_of_ne_nil fun hnil => hopen (List.isEmpty_iff.2 hnil)
    have hd : d = '\x7d' := by
      have hfalse := eq_of_mem_head?_dropWhile (Option.mem_def.2 (congrArg List.head? hbehind))
      simpa using hfalse
    subst hd
    refine .spelled (.times (countsOf_eq_some hcounts hinside)) (by simp)
      (delimits_wrapped _ _ (by decide) (by decide)) ?_
    rw [hrest, hbehind]
    nth_rewrite 1 [← List.takeWhile_append_dropWhile (p := (· ≠ '\x7d')) (l := cs), hbehind]
    simp
  · exact .broken (.grammar _ _)

/-- Every token is cut off in one of these ways. -/
theorem cuts_token {c : Char} {cs : List Char} {k : Cursor} (hrest : k.rest = c :: cs) :
    Cuts k (token c k) := by
  unfold token
  dsimp only
  by_cases hspace : isSpace c = true
  · rw [if_pos hspace]
    have hmark : isNameChar c = false ∧ c ≠ '#' := by
      simp only [isSpace, Bool.or_eq_true, decide_eq_true_eq] at hspace
      rcases hspace with rfl | rfl <;> decide
    exact cuts_one hrest (.space hspace) hmark.1 hmark.2
  rw [if_neg hspace]
  by_cases hbreak : isLineBreak c = true
  · rw [if_pos hbreak]
    have hmark : isNameChar c = false ∧ c ≠ '#' := by
      simp only [isLineBreak, Bool.or_eq_true, decide_eq_true_eq] at hbreak
      rcases hbreak with rfl | rfl <;> decide
    exact cuts_one hrest (.lineBreak hbreak) hmark.1 hmark.2
  rw [if_neg hbreak]
  by_cases hhash : c = '#'
  · rw [if_pos hhash]
    exact cuts_comment (hhash ▸ hrest)
  rw [if_neg hhash]
  by_cases hname : isNameChar c = true
  · rw [if_pos hname]
    obtain ⟨more, htake, hall, hbehind, hsplit⟩ := exists_run hrest hname
    rw [htake]
    exact .spelled (.name (by simp) hall) (by simp)
      ⟨apart_of_head hbehind, fun hhead => absurd (by simpa using hhead) hhash⟩ hsplit
  rw [if_neg hname]
  have hname' : isNameChar c = false := Bool.eq_false_iff.2 hname
  by_cases hquote : c = '"'
  · rw [if_pos hquote]
    exact cuts_literal (hquote ▸ hrest) _
  rw [if_neg hquote]
  by_cases hbracket : c = '['
  · rw [if_pos hbracket]
    exact cuts_charClass (hbracket ▸ hrest) _
  rw [if_neg hbracket]
  by_cases hopen : c = '('
  · rw [if_pos hopen]
    exact cuts_one hrest (hopen ▸ .groupOpen) hname' hhash
  rw [if_neg hopen]
  by_cases hclose : c = ')'
  · rw [if_pos hclose]
    exact cuts_one hrest (hclose ▸ .groupClose) hname' hhash
  rw [if_neg hclose]
  by_cases hbar : c = '|'
  · rw [if_pos hbar]
    exact cuts_one hrest (hbar ▸ .bar) hname' hhash
  rw [if_neg hbar]
  by_cases hoptional : c = '?'
  · rw [if_pos hoptional]
    exact cuts_one hrest (hoptional ▸ .times .optional) hname' hhash
  rw [if_neg hoptional]
  by_cases hstar : c = '*'
  · rw [if_pos hstar]
    exact cuts_one hrest (hstar ▸ .times .star) hname' hhash
  rw [if_neg hstar]
  by_cases hplus : c = '+'
  · rw [if_pos hplus]
    exact cuts_one hrest (hplus ▸ .times .plus) hname' hhash
  rw [if_neg hplus]
  by_cases hbrace : c = '\x7b'
  · rw [if_pos hbrace]
    exact cuts_braces (hbrace ▸ hrest)
  rw [if_neg hbrace]
  by_cases hdefine : [':', ':', '='].isPrefixOf k.rest = true
  · rw [if_pos hdefine]
    obtain ⟨more, hmore⟩ := List.isPrefixOf_iff_prefix.1 hdefine
    exact .spelled .define (by simp) ⟨apart_of_getLast (by simp; decide), by simp⟩
      (by simp [Cursor.advance, ← hmore])
  · rw [if_neg hdefine]
    exact .stray

/-- **Texts are made of pieces that spell their tokens**, if none of the tokens is at fault. -/
theorem lexical_of_lexemes (steps : Nat) : ∀ (offset : Nat) (text : List Char),
    text.length ≤ steps → (∀ x ∈ lexemesFrom steps ⟨offset, text⟩, x.token.IsSound) →
    lenient.Lexical ((lexemesFrom steps ⟨offset, text⟩).map Lexeme.token) text := by
  induction steps with
  | zero =>
    intro offset text hsteps _
    rw [List.eq_nil_of_length_eq_zero (Nat.le_zero.1 hsteps)]
    exact .nil
  | succ steps ih =>
    intro offset text hsteps hsound
    cases text with
    | nil => exact .nil
    | cons c cs =>
      have hcuts := cuts_token (k := ⟨offset, c :: cs⟩) rfl
      generalize htoken : token c ⟨offset, c :: cs⟩ = taken at hcuts
      cases hcuts with
      | @spelled t next piece spells some delimits split =>
        rw [lexemesFrom_succ htoken spells.isSound.2] at hsound ⊢
        have hlength : next.rest.length ≤ steps := by
          have hpos := List.length_pos_iff.2 some
          have hsplit : (c :: cs).length = (piece ++ next.rest).length := congrArg List.length split
          rw [List.length_append] at hsplit
          omega
        have hmore := ih next.offset next.rest hlength
          fun x hx => hsound x (List.mem_cons_of_mem _ hx)
        rw [show c :: cs = piece ++ next.rest from split, List.map_cons]
        exact .cons spells delimits hmore
      | stray =>
        rw [lexemesFrom_succ htoken (by simp)] at hsound
        exact absurd rfl (hsound _ List.mem_cons_self).1
      | @broken e faulty =>
        rw [lexemesFrom] at hsound
        simp only [htoken, List.mem_singleton, forall_eq] at hsound
        exact absurd rfl (hsound.2 e)

/-- **What breaks off is faulty.** -/
theorem faulty_of_lexemes {e : Failure} (steps : Nat) : ∀ (k : Cursor),
    ∀ x ∈ lexemesFrom steps k, x.token = .broken e → Faulty k.rest e := by
  induction steps with
  | zero => exact fun k x hx => absurd hx (by simp [lexemesFrom])
  | succ steps ih =>
    rintro ⟨offset, text⟩ x hx hbroken
    cases text with
    | nil => simp [lexemesFrom] at hx
    | cons c cs =>
      have hcuts := cuts_token (k := ⟨offset, c :: cs⟩) rfl
      generalize htoken : token c ⟨offset, c :: cs⟩ = taken at hcuts
      cases hcuts with
      | @spelled t next piece spells some delimits split =>
        rw [lexemesFrom_succ htoken spells.isSound.2] at hx
        obtain rfl | hx := List.mem_cons.1 hx
        · exact absurd hbroken (spells.isSound.2 e)
        · exact (ih next x hx hbroken).of_suffix ⟨piece, split.symm⟩
      | stray =>
        rw [lexemesFrom_succ htoken (by simp)] at hx
        obtain rfl | hx := List.mem_cons.1 hx
        · cases hbroken
        · exact (ih _ x hx hbroken).of_suffix (List.drop_suffix 1 _)
      | @broken e' faulty =>
        rw [lexemesFrom] at hx
        simp only [htoken, List.mem_singleton] at hx
        subst hx
        obtain rfl := Token.broken.inj hbroken
        exact faulty

end Inversion

end Grammar

end SchemaGrammar
