import SchemaGrammar.Json.Reader
import SchemaGrammar.Proofs.Json.Standard

set_option autoImplicit false

/-! # What strings stand for

A string is spelled in pieces, one for each character, but two pieces by number may be the halves of
one character. `decoded` is what pieces stand for, read from this alone, and this is what the reader
makes of them (`IsSpelling.ofText_eq`). It has as many characters as there are pieces, less one for
each pair of halves (`length_decoded`). -/

namespace SchemaGrammar

namespace Json

open Standard (IsCharacter IsHexDigit IsEscapeLetter)

/-! ## Pieces -/

/-- The unit that a piece names by number. -/
def unitOf? : List Char → Option Nat
  | ['\\', 'u', a, b, c, d] => unit? a b c d
  | _ => none

/-- A piece names the first half of a pair. -/
def isHighHalf (piece : List Char) : Bool :=
  (unitOf? piece).any isHighSurrogate

/-- A piece names the second half of a pair. -/
def isLowHalf (piece : List Char) : Bool :=
  (unitOf? piece).any isLowSurrogate

/-- The character that a piece stands for by itself. -/
def pieceChar (piece : List Char) : Char :=
  match unitOf? piece with
  | some n => ofUnit n
  | none => match piece with
    | ['\\', c] => (simpleEscape? c).getD c
    | _ => piece.headD ' '

/-- The character that two halves stand for. -/
def pairChar (first second : List Char) : Char :=
  joinSurrogates ((unitOf? first).getD 0) ((unitOf? second).getD 0)

/-- What pieces stand for: a first half and a second half right behind it are one character. -/
def decoded : List (List Char) → List Char
  | first :: second :: rest =>
    if isHighHalf first && isLowHalf second then pairChar first second :: decoded rest
    else pieceChar first :: decoded (second :: rest)
  | [piece] => [pieceChar piece]
  | [] => []

/-- How many pairs of halves there are among pieces. -/
def pairs : List (List Char) → Nat
  | first :: second :: rest =>
    if isHighHalf first && isLowHalf second then pairs rest + 1 else pairs (second :: rest)
  | _ => 0

/-- Each pair is one character less. -/
theorem length_decoded (pieces : List (List Char)) :
    (decoded pieces).length + pairs pieces = pieces.length := by
  fun_induction decoded pieces with
  | case1 first second rest hpair ih =>
    rw [pairs, if_pos hpair]
    simp only [List.length_cons]
    omega
  | case2 first second rest hpair ih =>
    rw [pairs, if_neg hpair]
    simp only [List.length_cons] at ih ⊢
    omega
  | case3 piece => rfl
  | case4 => rfl

/-- Raw characters and escapes by letter make no pairs. -/
theorem pairs_eq_zero {pieces : List (List Char)} (h : ∀ p ∈ pieces, isHighHalf p = false) :
    pairs pieces = 0 := by
  fun_induction pairs pieces with
  | case1 first second rest hpair ih => simp [h first] at hpair
  | case2 first second rest hpair ih => exact ih fun p hp => h p (List.mem_cons_of_mem _ hp)
  | case3 => rfl

/-! ## Reading a piece -/

theorem exists_hexValue {c : Char} (h : IsHexDigit c) : ∃ n, Text.hexValue? c = some n := by
  have hall : ∀ c ∈ "0123456789abcdefABCDEF".toList, (Text.hexValue? c).isSome = true := by decide
  exact Option.isSome_iff_exists.1 (hall c h)

theorem exists_unit {a b c d : Char} (ha : IsHexDigit a) (hb : IsHexDigit b) (hc : IsHexDigit c)
    (hd : IsHexDigit d) : ∃ n, unit? a b c d = some n := by
  obtain ⟨i, hi⟩ := exists_hexValue ha
  obtain ⟨j, hj⟩ := exists_hexValue hb
  obtain ⟨k, hk⟩ := exists_hexValue hc
  obtain ⟨l, hl⟩ := exists_hexValue hd
  exact ⟨((i * 16 + j) * 16 + k) * 16 + l, by simp [unit?, hi, hj, hk, hl]⟩

theorem exists_simpleEscape {c : Char} (h : IsEscapeLetter c) :
    ∃ e, simpleEscape? c = some e ∧ c ≠ 'u' := by
  have hall : ∀ c ∈ ['"', '\\', '/', 'b', 'f', 'n', 'r', 't'],
      (simpleEscape? c).isSome = true ∧ c ≠ 'u' := by decide
  obtain ⟨hsome, hu⟩ := hall c h
  obtain ⟨e, he⟩ := Option.isSome_iff_exists.1 hsome
  exact ⟨e, he, hu⟩

theorem unitOf?_eq_some {piece : List Char} {n : Nat} (h : unitOf? piece = some n) :
    ∃ a b c d, piece = ['\\', 'u', a, b, c, d] ∧ unit? a b c d = some n := by
  unfold unitOf? at h
  split at h
  · exact ⟨_, _, _, _, rfl, h⟩
  · cases h

/-- The unit at the front of a text is that of its first piece. -/
theorem escapedUnit?_append {piece rest : List Char} (h : IsCharacter piece) (hrest : rest ≠ []) :
    escapedUnit? (piece ++ rest) = (unitOf? piece).map some := by
  obtain ⟨first, more, rfl⟩ := List.exists_cons_of_ne_nil hrest
  cases h with
  | raw space noQuote noSlash => simp [escapedUnit?, unitOf?, noSlash]
  | escaped letter =>
    obtain ⟨e, -, hu⟩ := exists_simpleEscape letter
    simp [escapedUnit?, unitOf?, hu]
  | numbered ha hb hc hd =>
    obtain ⟨n, hn⟩ := exists_unit ha hb hc hd
    simp [escapedUnit?, unitOf?, hn]

section Body

variable (start : Nat) (done : List Char) (i : Nat)

theorem stringBody_quote (rest : List Char) :
    stringBody start done i ('"' :: rest) = .ok (done.reverse, ⟨i + 1, rest⟩) := by
  rw [stringBody]

/-- A piece by itself: it is no first half, or no second half follows. -/
theorem stringBody_piece {piece rest : List Char} (h : IsCharacter piece) (hrest : rest ≠ [])
    (halone : isHighHalf piece = true →
      ∀ m, escapedUnit? rest = some m → ∃ n, m = some n ∧ isLowSurrogate n = false) :
    stringBody start done i (piece ++ rest) =
      stringBody start (pieceChar piece :: done) (i + piece.length) rest := by
  cases h with
  | @raw c space noQuote noSlash =>
    have hcontrol : ¬ c.toNat < 0x20 := Nat.not_lt.2 space
    have hpiece : pieceChar [c] = c := by simp [pieceChar, unitOf?]
    rw [List.singleton_append, stringBody, hpiece]
    · rw [if_neg hcontrol]
      rfl
    all_goals simp_all
  | @escaped c letter =>
    obtain ⟨e, he, hu⟩ := exists_simpleEscape letter
    have hpiece : pieceChar ['\\', c] = e := by simp [pieceChar, unitOf?, he]
    rw [List.cons_append, List.singleton_append, stringBody, hpiece]
    · simp only [he]
      rfl
    all_goals simp_all
  | @numbered a b c d ha hb hc hd =>
    obtain ⟨n, hn⟩ := exists_unit ha hb hc hd
    have hpiece : pieceChar ['\\', 'u', a, b, c, d] = ofUnit n := by simp [pieceChar, unitOf?, hn]
    have hunit : escapedUnit? ('\\' :: 'u' :: a :: b :: c :: d :: rest) = some (some n) := by
      have happend := escapedUnit?_append (.numbered ha hb hc hd) hrest
      simpa [unitOf?, hn] using happend
    have hhalf : isHighHalf ['\\', 'u', a, b, c, d] = isHighSurrogate n := by
      simp [isHighHalf, unitOf?, hn]
    rw [hhalf] at halone
    simp only [List.cons_append, List.nil_append]
    rw [stringBody, hunit, hpiece]
    simp only [List.drop_succ_cons, List.drop_zero]
    by_cases hhigh : isHighSurrogate n = true
    · rw [if_pos hhigh]
      cases hnext : escapedUnit? rest with
      | none => rfl
      | some m =>
        obtain ⟨m, rfl, hlow⟩ := halone hhigh m hnext
        simp only [hlow]
        rfl
    · rw [if_neg hhigh]
      rfl

/-- Two halves. -/
theorem stringBody_pair {first second rest : List Char} (hrest : rest ≠ [])
    (hhigh : isHighHalf first = true) (hlow : isLowHalf second = true) :
    stringBody start done i (first ++ (second ++ rest)) =
      stringBody start (pairChar first second :: done) (i + 12) rest := by
  obtain ⟨n, hfirst, hn⟩ := (Option.any_eq_true _ _).1 hhigh
  obtain ⟨m, hsecond, hm⟩ := (Option.any_eq_true _ _).1 hlow
  have hpair : pairChar first second = joinSurrogates n m := by simp [pairChar, hfirst, hsecond]
  obtain ⟨a, b, c, d, rfl, hunit⟩ := unitOf?_eq_some hfirst
  obtain ⟨a', b', c', d', rfl, hunit'⟩ := unitOf?_eq_some hsecond
  obtain ⟨next, more, rfl⟩ := List.exists_cons_of_ne_nil hrest
  simp only [List.cons_append, List.nil_append]
  rw [stringBody, hpair]
  simp only [escapedUnit?, hunit, hunit', List.drop_succ_cons, List.drop_zero, hn, hm, if_true]

end Body

/-- The reader makes of the pieces what they stand for. -/
theorem stringBody_pieces {pieces : List (List Char)} (h : ∀ p ∈ pieces, IsCharacter p)
    (start : Nat) (done : List Char) (i : Nat) (rest : List Char) :
    ∃ offset, stringBody start done i (pieces.flatten ++ '"' :: rest) =
      .ok (done.reverse ++ decoded pieces, ⟨offset, rest⟩) := by
  fun_induction decoded pieces generalizing done i with
  | case1 first second others hpair ih =>
    rw [Bool.and_eq_true] at hpair
    obtain ⟨offset, hread⟩ := ih (fun p hp => h p (by simp [hp]))
      (pairChar first second :: done) (i + 12)
    refine ⟨offset, ?_⟩
    rw [List.flatten_cons, List.flatten_cons, List.append_assoc, List.append_assoc,
      stringBody_pair start done i (by simp) hpair.1 hpair.2, hread]
    simp
  | case2 first second others hpair ih =>
    have hfirst : IsCharacter first := h first List.mem_cons_self
    have hsecond : IsCharacter second := h second (by simp)
    obtain ⟨offset, hread⟩ := ih (fun p hp => h p (List.mem_cons_of_mem _ hp))
      (pieceChar first :: done) (i + first.length)
    refine ⟨offset, ?_⟩
    rw [List.flatten_cons, List.append_assoc, stringBody_piece start done i hfirst (by simp), hread]
    · simp
    · intro hhigh m hm
      rw [List.flatten_cons, List.append_assoc, escapedUnit?_append hsecond (by simp)] at hm
      obtain ⟨n, hn, rfl⟩ := Option.map_eq_some_iff.1 hm
      refine ⟨n, rfl, ?_⟩
      simpa [hhigh, isLowHalf, hn] using hpair
  | case3 piece =>
    have hpiece : IsCharacter piece := h piece List.mem_cons_self
    refine ⟨i + piece.length + 1, ?_⟩
    rw [List.flatten_singleton, stringBody_piece start done i hpiece (by simp), stringBody_quote]
    · simp
    · intro _ m hm
      cases hm
  | case4 => exact ⟨i + 1, by rw [List.flatten_nil, List.nil_append, stringBody_quote, List.append_nil]⟩

/-! ## Reading a string -/

theorem isJsonBlank_of_mem_ws {w : List Char} (h : w ∈ Standard.ws) :
    ∀ c ∈ w, isJsonBlank c = true := by
  intro c hc
  obtain ⟨pieces, rfl, hpieces⟩ := Language.mem_kstar.1 h
  obtain ⟨piece, hpiece, hmem⟩ := List.mem_flatten.1 hc
  obtain ⟨d, rfl, hd⟩ := hpieces piece hpiece
  obtain rfl := List.mem_singleton.1 hmem
  have hall : ∀ c ∈ [' ', '\t', '\n', '\r'], isJsonBlank c = true := by decide
  exact hall c hd

/-- A text is a string that pieces spell, with blanks behind it. -/
def IsSpelling (text : String) (pieces : List (List Char)) : Prop :=
  (∀ p ∈ pieces, IsCharacter p) ∧
    ∃ w ∈ Standard.ws, text.toList = '"' :: (pieces.flatten ++ '"' :: w)

/-- **Strings are read by their pieces.** A string that pieces spell is read as what these stand
    for. -/
theorem IsSpelling.ofText_eq {text : String} {pieces : List (List Char)} (h : IsSpelling text pieces) :
    ofText text = .ok (.str (String.ofList (decoded pieces))) := by
  obtain ⟨h, w, hw, htext⟩ := h
  obtain ⟨offset, hbody⟩ := stringBody_pieces h 0 [] 1 w
  have hstart : skipBlanks (.start text.toList) = ⟨0, text.toList⟩ := by
    rw [htext]
    rfl
  have hstring : string ⟨1, pieces.flatten ++ '"' :: w⟩ =
      .ok (String.ofList (decoded pieces), ⟨offset, w⟩) := by
    simp [string, hbody, Except.map]
  have hvalue (depth : Nat) : value (depth + 1) ⟨0, text.toList⟩ =
      .ok (.str (String.ofList (decoded pieces)), ⟨offset, w⟩) := by
    rw [htext, value]
    simp [Text.Cursor.advance, hstring, Except.map]
  have hend : (skipBlanks ⟨offset, w⟩).rest.isEmpty = true := by
    have hall : w.takeWhile isJsonBlank = w := List.takeWhile_eq_self_iff.2 (isJsonBlank_of_mem_ws hw)
    simp [skipBlanks, Text.Cursor.skipWhile, Text.Cursor.advance, hall]
  have hmark : text.toList.head? ≠ some (Char.ofNat 0xFEFF) := by
    rw [htext]
    exact fun heq => absurd (Option.some.inj heq) (by decide)
  simp only [ofText, if_neg hmark, hstart, hvalue]
  simp only [bind, Except.bind, pure, Except.pure, hend, if_true]

end Json

end SchemaGrammar
