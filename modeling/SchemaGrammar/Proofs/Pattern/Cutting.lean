import SchemaGrammar.Proofs.Pattern.Literals
import SchemaGrammar.Proofs.Pattern.Phrases

set_option autoImplicit false

/-! # Cutting regular expressions into tokens

The text of a regular expression is cut into tokens that mean what it does (`exists_tokens`).
Classes and quantifiers are tokens by themselves, whatever surrounds them; the statements about rows
carry the literal that has been begun in front of a row, and tell which one is left behind it. -/

namespace SchemaGrammar

open Grammar (Bracketed Counted IsWritable Quoted Spells charWhere classLanguage repeated spelling)

namespace Pattern

/-! ## Classes -/

section Classes

variable {c : Char} {text more : List Char} {s : Symbol} {item : ClassItem} {items : List ClassItem}

/-- A text inside a class does not close it. -/
def Passes (text : List Char) : Prop :=
  ∀ rest, classLength (text ++ rest) = ((classLength rest).1 + text.length, (classLength rest).2)

theorem passes_nil : Passes [] :=
  fun _ => rfl

theorem Passes.append (h : Passes text) (hmore : Passes more) : Passes (text ++ more) := by
  intro rest
  rw [List.append_assoc, h, hmore, List.length_append]
  simp only [Nat.add_assoc, Nat.add_comm more.length]

theorem passes_raw (h : c ∉ [']', '\\']) : Passes [c] := by
  simp only [List.mem_cons, List.not_mem_nil, or_false, not_or] at h
  intro rest
  change classLength (c :: rest) = _
  rw [classLength.eq_def]
  split <;> simp_all

theorem passes_escape (c : Char) : Passes ['\\', c] :=
  fun _ => rfl

theorem Symbol.passes (h : s.Avoids [']', '\\']) : Passes s.text := by
  cases s with
  | raw c => exact passes_raw h
  | numbered mark digits hex width =>
    have hdigits : Passes digits := by
      clear width h
      induction digits with
      | nil => exact passes_nil
      | cons d rest ih =>
        obtain ⟨hd, hrest⟩ := List.forall_mem_cons.1 hex
        have hall : ∀ d ∈ Text.asciiHexDigits, d ∉ [']', '\\'] := by decide
        exact (passes_raw (hall d (Text.mem_asciiHexDigits hd))).append (ih hrest)
    exact (passes_escape mark).append hdigits
  | _ => exact passes_escape _

theorem ClassItem.passes (h : item.IsClosed) : Passes item.text := by
  cases item with
  | single s => exact Symbol.passes h
  | range first last ascending =>
    have hdash : Passes ['-'] := passes_raw (by decide)
    exact (Symbol.passes h.1).append (hdash.append (Symbol.passes h.2))
  | shorthand s => exact passes_escape s.letter

theorem passes_items (h : AreItems items) : Passes (itemsText items) := by
  induction items with
  | nil => exact passes_nil
  | cons item rest ih => exact (ClassItem.passes h.1).append (ih h.2.2)

theorem CharClass.passes (k : CharClass) : Passes k.body := by
  refine Passes.append ?_ (passes_items k.areItems)
  split_ifs
  · exact passes_raw (by decide)
  · exact passes_nil

theorem token_class (h : Passes text) (offset : Nat) (rest : List Char) :
    token ⟨offset, '[' :: (text ++ ']' :: rest)⟩ =
      (.charClass (String.ofList ('[' :: (text ++ [']']))),
        ⟨offset + (text.length + 2), rest⟩) := by
  have hlength : classLength (text ++ ']' :: rest) = (text.length, true) := by
    rw [h, show classLength (']' :: rest) = (0, true) from rfl, Nat.zero_add]
  have htext : '[' :: (text ++ ']' :: rest) = ('[' :: (text ++ [']'])) ++ rest := by simp
  have htake : ('[' :: (text ++ [']'])).length = text.length + 2 := by simp
  change charClass _ = _
  simp only [charClass, Text.Cursor.advance, List.drop_one, List.tail_cons, hlength, if_true]
  rw [htext, ← htake, List.take_left, List.drop_left]

/-! ### Ranges -/

/-- The codes that a grammar takes an item for. -/
def ClassItem.span : ClassItem → Nat × Nat
  | .single s => (s.code, s.code)
  | .range first last _ => (first.code, last.code)
  | .shorthand s => (s.letter.toNat, s.letter.toNat)

theorem ClassItem.span_iff (item : ClassItem) (c : Char) :
    item.span.1 ≤ c.toNat ∧ c.toNat ≤ item.span.2 ↔ item.holds .grammar c := by
  cases item with
  | single s => exact ⟨fun h => Nat.le_antisymm h.2 h.1, fun h => ⟨h.ge, h.le⟩⟩
  | range first last ascending => exact Iff.rfl
  | shorthand s =>
    refine ⟨fun h => Char.toNat_inj.1 (Nat.le_antisymm h.2 h.1), fun h => ?_⟩
    obtain rfl : c = s.letter := h
    exact ⟨le_rfl, le_rfl⟩

theorem Symbol.head_text (h : s.Avoids [']', '\\']) : s.text.head? ≠ some ']' := by
  cases s with
  | raw c =>
    have hc : c ∉ [']', '\\'] := h
    simp only [List.mem_cons, not_or] at hc
    simpa [Symbol.text] using hc.1
  | _ => simp [Symbol.text]

theorem Symbol.Avoids.mono {cs ds : List Char} (h : s.Avoids cs) (hsubset : ds ⊆ cs) :
    s.Avoids ds := by
  cases s with
  | raw c => exact fun hc => h (hsubset hc)
  | _ => trivial

theorem Symbol.spells (h : s.Avoids [']', '\\']) : Spells s.text s.code :=
  Symbol.spells_text (h.mono (by simp))

theorem rangeFollows_of_endsBefore (h : more.head? = some '-' → more = ['-']) :
    Grammar.rangeFollows (more ++ [']']) = false := by
  match more with
  | [] => rfl
  | [c] =>
    by_cases hc : c = '-'
    · subst hc
      rfl
    · simp [Grammar.rangeFollows, hc]
  | c :: d :: rest =>
    have hc : c ≠ '-' := by
      rintro rfl
      simpa using h rfl
    simp [Grammar.rangeFollows, hc]

/-- A grammar reads the items back as their codes. -/
theorem bracketed_items (h : AreItems items) :
    Bracketed (itemsText items) (items.map ClassItem.span) := by
  induction items with
  | nil => exact .nil
  | cons item rest ih =>
    obtain ⟨hclosed, hends, hrest⟩ := h
    have hinner := ih hrest
    cases item with
    | single s =>
      exact .single (Symbol.spells hclosed) (Symbol.head_text hclosed)
        (rangeFollows_of_endsBefore hends) hinner
    | range first last ascending =>
      have htext : itemsText (.range first last ascending :: rest) =
          first.text ++ '-' :: (last.text ++ itemsText rest) := by
        simp [itemsText, ClassItem.text]
      rw [htext]
      exact .range (Symbol.spells hclosed.1) (Symbol.head_text hclosed.1)
        (Symbol.spells hclosed.2) (Symbol.head_text hclosed.2) hinner
    | shorthand s =>
      have hspells : Spells ['\\', s.letter] s.letter.toNat := by
        obtain ⟨kind, negated⟩ := s
        cases kind <;> cases negated <;> exact .escaped rfl
      exact .single hspells (by simp [ClassItem.text]) (rangeFollows_of_endsBefore hends) hinner

theorem classLanguage_items (negated : Bool) (items : List ClassItem) :
    classLanguage negated (items.map ClassItem.span) =
      charWhere fun c => (∃ item ∈ items, item.holds .grammar c) ↔ negated = false := by
  rw [classLanguage_eq]
  simp only [List.mem_map, exists_exists_and_eq_and, ClassItem.span_iff]

/-- A class is one token, and means what it does to a grammar. -/
theorem phrase_charClass (dotAll : Bool) (k : CharClass) :
    Phrase dotAll .atom [.charClass (String.ofList ('[' :: (k.body ++ [']'])))]
      (charWhere (k.holds .grammar)) := by
  have hphrase : Phrase dotAll .atom _ _ := .charClass (bracketed_items k.areItems) k.unmarked
  rwa [classLanguage_items] at hphrase

end Classes

/-! ### Kinds of characters -/

/-- A kind of characters as the items of a class. -/
def Kind.items : Kind → List ClassItem
  | .digit => [.range (.raw '0') (.raw '9') (by decide)]
  | .word => [.range (.raw '0') (.raw '9') (by decide), .range (.raw 'A') (.raw 'Z') (by decide),
      .range (.raw 'a') (.raw 'z') (by decide), .single (.raw '_')]
  | .blank => [.single (.raw ' '), .single .tab, .single .lineFeed, .single .carriageReturn]

theorem Kind.areItems (k : Kind) : AreItems k.items := by
  cases k <;> simp [Kind.items, AreItems, ClassItem.IsClosed, ClassItem.EndsBefore, Symbol.Avoids,
    itemsText, ClassItem.text, Symbol.text]

theorem Kind.holds_iff (k : Kind) (c : Char) :
    k.holds c = true ↔ ∃ item ∈ k.items, item.holds .grammar c := by
  have heq (d : Char) : c = d ↔ c.toNat = d.toNat := Char.toNat_inj.symm
  cases k with
  | digit => simp [items, holds, ClassItem.holds, Symbol.code, Text.isDigit_iff]
  | word =>
    simp [items, holds, ClassItem.holds, Symbol.code, Text.isAlphanum_iff, Text.isAlpha_iff,
      Text.isDigit_iff, heq]
    omega
  | blank => simp [items, holds, ClassItem.holds, Symbol.code, heq]

/-- A shorthand as the class that it stands for. -/
def Shorthand.charClass (s : Shorthand) : CharClass where
  negated := s.negated
  items := s.kind.items
  nonempty := by cases s.kind <;> simp [Kind.items]
  areItems := s.kind.areItems
  unmarked _ := by cases s.kind <;> simp [Kind.items, itemsText, ClassItem.text, Symbol.text]

theorem Shorthand.charClass_holds (s : Shorthand) (c : Char) :
    s.charClass.holds .grammar c ↔ s.holds c = true := by
  rw [CharClass.holds, Shorthand.holds, bne_iff_ne]
  change ((∃ item ∈ s.kind.items, item.holds .grammar c) ↔ s.negated = false) ↔ _
  rw [← s.kind.holds_iff]
  cases s.kind.holds c <;> cases s.negated <;> decide

theorem shorthand?_letter (s : Shorthand) :
    shorthand? s.letter = some (String.ofList ('[' :: (s.charClass.body ++ [']']))) := by
  obtain ⟨kind, negated⟩ := s
  cases kind <;> cases negated <;> rfl

/-! ## Quantifiers -/

namespace Numeral

theorem isEmpty_trim (n : Numeral) : (Text.trim n.digits).isEmpty = false := by
  rw [Text.trim_digits n.areDigits, List.isEmpty_eq_false_iff]
  exact n.nonempty

theorem readInt?_trim (n : Numeral) : Text.readInt? 10 (Text.trim n.digits) =
    if n.digits.length ≤ Text.maxNumeralDigits then some (n.value : Int) else none := by
  rw [Text.trim_digits n.areDigits]
  split_ifs with hlength
  · exact Text.readInt?_digits n.nonempty n.areDigits hlength
  · exact Text.readInt?_tooLong n.nonempty n.areDigits (not_le.1 hlength)

theorem isWritable (n : Numeral) (h : n.digits.length ≤ Text.maxNumeralDigits) :
    IsWritable n.value :=
  lt_of_lt_of_le (Text.ofDigitChars_lt n.areDigits) (Nat.pow_le_pow_right (by decide) h)

theorem notMem (n : Numeral) {c : Char} (h : c.isDigit = false) : c ∉ n.digits := by
  intro hmem
  rw [n.areDigits c hmem] at h
  cases h

end Numeral

namespace Quantifier

variable {rest : List Char} {us : List Token}

/-- What stands between the braces, if there are any. -/
def body : Quantifier → List Char
  | .exactly n => n.digits
  | .atLeast n => n.digits ++ [',']
  | .between n m _ => n.digits ++ ',' :: m.digits
  | _ => []

/-- What braces are read as. -/
def braced (q : Quantifier) : Token :=
  if q.IsShort then .counts q.low (q.high.map Int.ofNat) else .badCounts (String.ofList q.body)

def token : Quantifier → Token
  | .star => .quantifier '*'
  | .plus => .quantifier '+'
  | .optional => .quantifier '?'
  | q => q.braced

theorem isCounted_token (q : Quantifier) : IsCounted [q.token] ↔ q.IsShort := by
  have hbraced : IsCounted [q.braced] ↔ q.IsShort := by
    unfold braced
    split_ifs with hshort <;> simp [IsCounted, hshort]
  cases q with
  | star | plus | optional => simp [IsCounted, token, IsShort, numerals]
  | exactly | atLeast | between => exact hbraced

theorem quantifierFollows_text (q : Quantifier) (rest : List Char) :
    quantifierFollows (q.text ++ rest) = true := by
  cases q <;> rfl

theorem lexes_braces {q : Quantifier} (htext : q.text = '\x7b' :: (q.body ++ ['\x7d']))
    (hbody : '\x7d' ∉ q.body) (hcounts : countsOf q.body =
      if q.IsShort then some ((q.low : Int), q.high.map Int.ofNat) else none)
    (h : Lexes rest us) : Lexes (q.text ++ rest) (q.braced :: us) := by
  -- the first closing brace is the one of the quantifier
  have hinside : (q.body ++ '\x7d' :: rest).takeWhile (· ≠ '\x7d') = q.body := by
    rw [List.takeWhile_append_of_pos fun c hc => by simpa using ne_of_mem_of_not_mem hc hbody]
    simp
  have hbraces (offset : Nat) : braces ⟨offset, '\x7b' :: (q.body ++ '\x7d' :: rest)⟩ =
      (q.braced, ⟨offset + 1 + q.body.length + 1, rest⟩) := by
    simp only [braces, Text.Cursor.advance, List.drop_one, List.tail_cons, hinside, List.drop_left,
      List.isEmpty_cons, Bool.false_eq_true, if_false, hcounts, braced]
    split_ifs <;> rfl
  rw [htext, List.cons_append, List.append_assoc]
  refine h.cons ?_ fun offset => ⟨_, hbraces offset⟩
  simp only [List.singleton_append, List.length_cons, List.length_append]
  omega

theorem lexes_text (q : Quantifier) (h : Lexes rest us) :
    Lexes (q.text ++ rest) (q.token :: us) := by
  cases q with
  | star => exact h.cons (by simp [text]) fun offset => ⟨offset + 1, rfl⟩
  | plus => exact h.cons (by simp [text]) fun offset => ⟨offset + 1, rfl⟩
  | optional => exact h.cons (by simp [text]) fun offset => ⟨offset + 1, rfl⟩
  | exactly n =>
    refine lexes_braces rfl (n.notMem (by decide)) ?_ h
    simp only [body]
    rw [countsOf, Text.splitAt_of_notMem (n.notMem (by decide))]
    simp only [List.map_cons, List.map_nil, n.readInt?_trim, IsShort, numerals,
      List.forall_mem_singleton]
    split_ifs <;> rfl
  | atLeast n =>
    refine lexes_braces (by simp [text, body]) (by simp [body, n.notMem]) ?_ h
    simp only [body]
    rw [countsOf, Text.splitAt_append (n.notMem (by decide))]
    have htrim : (Text.trim []).isEmpty = true := rfl
    simp [Text.splitAt, n.isEmpty_trim, n.readInt?_trim, htrim, IsShort, numerals]
    split_ifs <;> rfl
  | between n m le =>
    refine lexes_braces (by simp [text, body]) (by simp [body, n.notMem, m.notMem]) ?_ h
    simp only [body]
    rw [countsOf, Text.splitAt_append (n.notMem (by decide)),
      Text.splitAt_of_notMem (m.notMem (by decide))]
    by_cases hn : n.digits.length ≤ Text.maxNumeralDigits <;>
      by_cases hm : m.digits.length ≤ Text.maxNumeralDigits <;>
        simp [n.isEmpty_trim, m.isEmpty_trim, n.readInt?_trim, m.readInt?_trim, IsShort, numerals,
          hn, hm, low, high]

theorem low_le (q : Quantifier) : ∀ most ∈ q.high, q.low ≤ most := by
  cases q <;> simp [low, high]
  case between n m le => exact le

theorem isWritable_low {q : Quantifier} (h : q.IsShort) : IsWritable q.low := by
  have hone : IsWritable 1 := Nat.one_lt_pow (by decide) (by decide)
  have hzero : IsWritable 0 := Nat.zero_lt_one.trans hone
  cases q with
  | star | optional => exact hzero
  | plus => exact hone
  | exactly n => exact n.isWritable (h n (by simp [numerals]))
  | atLeast n => exact n.isWritable (h n (by simp [numerals]))
  | between n m le => exact n.isWritable (h n (by simp [numerals]))

theorem isWritable_high {q : Quantifier} (h : q.IsShort) : ∀ most ∈ q.high, IsWritable most := by
  rintro most hmost
  cases q with
  | star | plus | atLeast => cases hmost
  | optional =>
    cases hmost
    exact Nat.one_lt_pow (by decide) (by decide)
  | exactly n =>
    cases hmost
    exact n.isWritable (h n (by simp [numerals]))
  | between n m le =>
    cases hmost
    exact m.isWritable (h m (by simp [numerals]))

end Quantifier

section Quantified

variable {dotAll : Bool} {ts : List Token} {L : Language Char} {q : Quantifier}

/-- What braces make of an item. -/
theorem phrase_braced (once : Phrase dotAll .atom ts L) (occurs : q.high ≠ some 0) :
    Phrase dotAll .atom (ts ++ [q.braced]) (repeated q.low q.high L) := by
  unfold Quantifier.braced
  split_ifs with hshort
  · exact .counted once q.low_le (q.isWritable_low hshort) (q.isWritable_high hshort) occurs
  · exact .refused once

/-- What a quantifier makes of an item. -/
theorem phrase_quantified (once : Phrase dotAll .atom ts L) (occurs : q.high ≠ some 0) :
    Phrase dotAll .atom (ts ++ [q.token]) (repeated q.low q.high L) := by
  cases q with
  | star => exact .marked once .star
  | plus => exact .marked once .plus
  | optional => exact .marked once .optional
  | exactly | atLeast | between => exact phrase_braced once occurs

/-- What is repeated not at all is left out. -/
theorem phrase_unused (once : Phrase dotAll .atom ts L) (hq : q.high = some 0) :
    Phrase dotAll .row (ts ++ [q.token]) (repeated q.low q.high L) := by
  have hlow : q.low = 0 := Nat.le_zero.1 (q.low_le 0 hq)
  have htoken : q.token = q.braced := by
    cases q with
    | star | plus | optional => cases hq
    | exactly | atLeast | between => rfl
  rw [htoken, hlow, hq, Grammar.repeated_exactly, pow_zero, Quantifier.braced]
  split_ifs
  · rw [hlow, hq]
    exact .omitted once
  · exact .item (.refused once)

end Quantified

/-! ## Trees -/

section Trees

variable {dotAll : Bool} {level : Level} {rest : List Char}

/-- Is this a character that stands for itself? -/
def Regex.IsChar : Regex .atom → Prop
  | .leaf (.char _ _) => True
  | _ => False

/-- A tree in front of a text has tokens of its own, in front of which a literal stops. -/
def IsBlock (dotAll : Bool) (r : Regex level) (rest : List Char) : Prop :=
  ∃ ts, Phrase dotAll level ts (r.language .grammar dotAll) ∧ (IsCounted ts ↔ r.HasShortCounts) ∧
    Stops (r.text ++ rest) ∧ ∀ us, Lexes rest us → Lexes (r.text ++ rest) (ts ++ us)

/-- An atom is a block, unless it is a character that may join a literal. -/
def CutsAsAtom (dotAll : Bool) (a : Regex .atom) : Prop :=
  ∀ rest, (a.IsChar → quantifierFollows rest = true) → IsBlock dotAll a rest

/-- A row turns the literal that has been begun in front of it into the one that is left behind it;
    what its tokens mean, together with the literals, is not changed by that. -/
def CutsAsRow (dotAll : Bool) (r : Regex .row) : Prop :=
  ∀ rest done codes, quantifierFollows rest = false → Quoted done.reverse codes →
    ∃ ts K done' codes', Phrase dotAll .row ts K ∧ (IsCounted ts ↔ r.HasShortCounts) ∧
      Quoted done'.reverse codes' ∧
      K * spelling codes' = spelling codes * r.language .grammar dotAll ∧
      ∀ us, Cuts done' rest us → Cuts done (r.text ++ rest) (ts ++ us)

/-- A choice begins with no literal and leaves none behind. -/
def CutsAsChoice (dotAll : Bool) (r : Regex .choice) : Prop :=
  ∀ rest, quantifierFollows rest = false → Stops rest →
    ∃ ts, Phrase dotAll .choice ts (r.language .grammar dotAll) ∧
      (IsCounted ts ↔ r.HasShortCounts) ∧
      ∀ us, Lexes rest us → Lexes (r.text ++ rest) (ts ++ us)

/-- What a regular expression is cut into means what it does. -/
def CutsAs (dotAll : Bool) : {level : Level} → Regex level → Prop
  | .atom, a => CutsAsAtom dotAll a
  | .row, r => CutsAsRow dotAll r
  | .choice, r => CutsAsChoice dotAll r

/-! ### Quantifiers need something to repeat -/

theorem quantifierFollows_atom (a : Regex .atom) (rest : List Char) :
    quantifierFollows (a.text ++ rest) = false := by
  have hraw {c : Char} (h : c ∉ metacharacters) (more : List Char) :
      quantifierFollows (c :: more) = false := by
    have hall : ∀ c ∈ quantifiers, c ∈ metacharacters := by decide
    exact Bool.eq_false_iff.2 fun hc => h (hall c (List.contains_iff_mem.1 hc))
  cases a with
  | leaf l =>
    cases l with
    | char s plain =>
      cases s with
      | raw c => exact hraw plain rest
      | _ => rfl
    | _ => rfl
  | group r => rfl

theorem quantifierFollows_text {r : Regex level} (h : quantifierFollows rest = false) :
    quantifierFollows (r.text ++ rest) = false := by
  induction r generalizing rest with
  | leaf l => exact quantifierFollows_atom (.leaf l) rest
  | group r => exact quantifierFollows_atom (.group r) rest
  | once a => exact quantifierFollows_atom a rest
  | times a q lazily =>
    simp only [Regex.text, List.append_assoc]
    exact quantifierFollows_atom a _
  | empty => exact h
  | beside a b iha ihb =>
    rw [Regex.text, List.append_assoc]
    exact iha (ihb h)
  | single r ih => exact ih h
  | either a b iha ihb =>
    rw [Regex.text, List.append_assoc]
    exact iha rfl

/-! ### Blocks -/

theorem codes_eq_nil {codes : List Nat} (h : Quoted [] codes) : codes = [] := by
  generalize htext : [] = text at h
  cases h with
  | nil => rfl
  | cons first _ _ => exact absurd (List.append_eq_nil_iff.1 htext.symm).1 first.ne_nil

theorem phrase_pending {done : List Char} {codes : List Nat} (h : Quoted done.reverse codes) :
    Phrase dotAll .row (pending done) (spelling codes) := by
  unfold pending
  split_ifs with hdone
  · subst hdone
    rw [codes_eq_nil h, Grammar.spelling_nil]
    exact .empty
  · exact .item (.literal h)

theorem isCounted_pending (done : List Char) : IsCounted (pending done) := by
  unfold pending
  split_ifs <;> simp [IsCounted]

/-- A block leaves no literal behind. -/
theorem cutsAsRow_of_isBlock {r : Regex .row}
    (h : ∀ rest, quantifierFollows rest = false → IsBlock dotAll r rest) : CutsAsRow dotAll r := by
  intro rest done codes hrest hdone
  obtain ⟨ts, hphrase, hcounted, hstops, hlexes⟩ := h rest hrest
  refine ⟨pending done ++ ts, spelling codes * r.language .grammar dotAll, [], [],
    .append (phrase_pending hdone) hphrase, ?_, .nil, by rw [Grammar.spelling_nil, mul_one],
    fun us hus => ?_⟩
  · rw [isCounted_append, hcounted, and_iff_right (isCounted_pending done)]
  · rw [List.append_assoc]
    exact hstops.cuts (hlexes us (hus.lexes rfl)) done

/-! ### Atoms -/

theorem spelling_singleton (code : Nat) : spelling [code] = charWhere fun c => c.toNat = code := by
  ext text
  exact List.map_eq_singleton_iff

/-- A leaf that is one token. -/
theorem isBlock_leaf {l : Leaf} {t : Token}
    (hphrase : Phrase dotAll .atom [t] (charWhere (l.holds .grammar dotAll)))
    (hcounted : IsCounted [t]) (hstops : Stops (l.text ++ rest))
    (hlexes : ∀ us, Lexes rest us → Lexes (l.text ++ rest) (t :: us)) :
    IsBlock dotAll (.leaf l) rest :=
  ⟨[t], hphrase, iff_of_true hcounted trivial, hstops, hlexes⟩

theorem cutsAsAtom_leaf (dotAll : Bool) (l : Leaf) : CutsAsAtom dotAll (.leaf l) := by
  intro rest hchar
  have hone {t : Token} (ht : ∀ body, t ≠ .badCounts body) : IsCounted [t] :=
    isCounted_cons.2 ⟨ht, by simp [IsCounted]⟩
  cases l with
  | char s plain =>
    have hfollows : quantifierFollows rest = true := hchar trivial
    have hphrase : Phrase dotAll .atom _ _ := .literal (Symbol.quoted_spelled plain)
    rw [spelling_singleton] at hphrase
    exact isBlock_leaf hphrase (hone (by simp))
      (stops_symbol plain (Symbol.joins_of_quantifier hfollows s))
      fun us hus => hus.symbol plain (stops_quantifier hfollows)
  | dot =>
    exact isBlock_leaf .dot (hone (by simp)) (stops_operator (by decide) rest)
      fun us hus => hus.cons (by simp [Leaf.text]) fun offset => ⟨offset + 1, rfl⟩
  | shorthand s =>
    have hphrase := phrase_charClass dotAll s.charClass
    rw [funext fun c => propext (s.charClass_holds c)] at hphrase
    have htoken (offset : Nat) : token ⟨offset, '\\' :: s.letter :: rest⟩ =
        (.charClass (String.ofList ('[' :: (s.charClass.body ++ [']']))), ⟨offset + 2, rest⟩) := by
      simp only [token, shorthand?_letter]
      rfl
    have hlength : rest.length < ((Leaf.shorthand s).text ++ rest).length := by
      simp only [Leaf.text, List.length_append, List.length_cons]
      omega
    exact isBlock_leaf hphrase (hone (by simp))
      (stops_shorthand (by rw [shorthand?_letter]; rfl) rest)
      fun us hus => hus.cons hlength fun offset => ⟨_, htoken offset⟩
  | charClass k =>
    have htext : (Leaf.charClass k).text ++ rest = '[' :: (k.body ++ ']' :: rest) := by
      simp [Leaf.text]
    refine isBlock_leaf (phrase_charClass dotAll k) (hone (by simp)) ?_ fun us hus => ?_
    · rw [htext]
      exact stops_operator (by decide) _
    · rw [htext]
      refine hus.cons ?_ fun offset => ⟨_, token_class k.passes offset rest⟩
      simp only [List.length_cons, List.length_append]
      omega

theorem cutsAsAtom_group {r : Regex .choice} (h : CutsAsChoice dotAll r) :
    CutsAsAtom dotAll (.group r) := by
  intro rest _
  obtain ⟨ts, hphrase, hcounted, hlexes⟩ := h (')' :: rest) rfl (stops_operator (by decide) rest)
  have htext : (Regex.group r).text ++ rest = '(' :: (r.text ++ ')' :: rest) := by
    simp [Regex.text]
  -- what follows the bracket is no question mark, so the group has no extension
  have hinner : quantifierFollows (r.text ++ ')' :: rest) = false := quantifierFollows_text rfl
  have hopen (offset : Nat) : ∃ stop, token ⟨offset, '(' :: (r.text ++ ')' :: rest)⟩ =
      (.groupOpen, ⟨stop, r.text ++ ')' :: rest⟩) := by
    refine ⟨offset + 1, ?_⟩
    cases hmore : r.text ++ ')' :: rest with
    | nil => rfl
    | cons c more =>
      rw [hmore] at hinner
      have hc : c ≠ '?' := by
        rintro rfl
        cases hinner
      simp [token, hc, Text.Cursor.advance]
  refine ⟨_, .group hphrase, ?_, stops_operator (by decide) _, fun us hus => ?_⟩
  · rw [Regex.HasShortCounts, Regex.All, ← Regex.HasShortCounts, ← hcounted]
    simp [IsCounted]
  · have hclosed : Lexes (')' :: rest) (.groupClose :: us) :=
      hus.cons (by simp) fun offset => ⟨offset + 1, rfl⟩
    rw [htext, List.cons_append, List.append_assoc]
    exact (hlexes _ hclosed).cons (by simp) hopen

/-! ### Rows and choices -/

/-- A character joins the literal in front of it, or starts the next one. -/
theorem cutsAsRow_char {s : Symbol} (h : s.Avoids metacharacters) :
    CutsAsRow dotAll (.once (.leaf (.char s h))) := by
  intro rest done codes _ hdone
  have hquoted := Symbol.quoted_spelled h
  have hlanguage : (Regex.once (.leaf (.char s h))).language .grammar dotAll = spelling [s.code] :=
    (spelling_singleton s.code).symm
  rw [hlanguage]
  -- either the literal is one character longer, or it is a token and the character starts another
  by_cases hjoins : done = [] ∨ s.joins rest = true
  · refine ⟨[], 1, s.spelled.reverse ++ done, codes ++ [s.code], .empty,
      iff_of_true (by simp [IsCounted]) trivial, ?_, ?_, fun us hus => ?_⟩
    · rw [List.reverse_append, List.reverse_reverse]
      exact hdone.append hquoted
    · rw [one_mul, Grammar.spelling_append]
    · exact hus.symbol h hjoins
  · rw [not_or, Bool.not_eq_true] at hjoins
    refine ⟨pending done, spelling codes, s.spelled.reverse, [s.code], phrase_pending hdone,
      iff_of_true (isCounted_pending done) trivial, ?_, rfl, fun us hus => ?_⟩
    · rwa [List.reverse_reverse]
    · have hne : s.spelled.reverse ≠ [] := by simp [s.spelled_ne_nil]
      exact (stops_symbol h hjoins.2).cuts (lexes_symbol h (hus.resumes hne)) done

theorem cutsAsRow_once {a : Regex .atom} (h : CutsAsAtom dotAll a) :
    CutsAsRow dotAll (.once a) := by
  match a with
  | .leaf (.char s plain) => exact cutsAsRow_char plain
  | .leaf .dot | .leaf (.shorthand _) | .leaf (.charClass _) | .group _ =>
    refine cutsAsRow_of_isBlock fun rest _ => ?_
    obtain ⟨ts, hphrase, hblock⟩ := h rest False.elim
    exact ⟨ts, .item hphrase, hblock⟩

theorem cutsAsRow_times {a : Regex .atom} {q : Quantifier} {lazily : Bool}
    (h : CutsAsAtom dotAll a) (hlazy : lazily = true → q.high ≠ some 0) :
    CutsAsRow dotAll (.times a q lazily) := by
  refine cutsAsRow_of_isBlock fun rest _ => ?_
  have hfollows (more : List Char) : quantifierFollows (q.text ++ more) = true :=
    q.quantifierFollows_text more
  have hshort : (Regex.times a q lazily).HasShortCounts ↔ a.HasShortCounts ∧ q.IsShort := Iff.rfl
  cases lazily with
  | false =>
    obtain ⟨ts, hphrase, hcounted, hstops, hlexes⟩ := h (q.text ++ rest) fun _ => hfollows rest
    refine ⟨ts ++ [q.token], ?_, ?_, ?_, fun us hus => ?_⟩
    · by_cases hunused : q.high = some 0
      · exact phrase_unused hphrase hunused
      · exact .item (phrase_quantified hphrase hunused)
    · rw [isCounted_append, hcounted, q.isCounted_token, hshort]
    · simpa [Regex.text] using hstops
    · simpa [Regex.text] using hlexes _ (q.lexes_text hus)
  | true =>
    obtain ⟨ts, hphrase, hcounted, hstops, hlexes⟩ :=
      h (q.text ++ '?' :: rest) fun _ => hfollows _
    refine ⟨ts ++ [q.token] ++ [.quantifier '?'], ?_, ?_, ?_, fun us hus => ?_⟩
    · exact .item (.marked (phrase_quantified hphrase (hlazy rfl)) .optional)
    · rw [isCounted_append, isCounted_append, hcounted, q.isCounted_token, hshort]
      simp [IsCounted]
    · simpa [Regex.text] using hstops
    · have hmark : Lexes ('?' :: rest) (.quantifier '?' :: us) :=
        hus.cons (by simp) fun offset => ⟨offset + 1, rfl⟩
      simpa [Regex.text] using hlexes _ (q.lexes_text hmark)

theorem cutsAsRow_beside {a b : Regex .row} (ha : CutsAsRow dotAll a) (hb : CutsAsRow dotAll b) :
    CutsAsRow dotAll (.beside a b) := by
  intro rest done codes hrest hdone
  obtain ⟨ts, K, done', codes', hphrase, hcounted, hdone', hK, hcuts⟩ :=
    ha (b.text ++ rest) done codes (quantifierFollows_text hrest) hdone
  obtain ⟨us, M, done'', codes'', hphrase', hcounted', hdone'', hM, hcuts'⟩ :=
    hb rest done' codes' hrest hdone'
  refine ⟨ts ++ us, K * M, done'', codes'', .append hphrase hphrase', ?_, hdone'', ?_,
    fun vs hvs => ?_⟩
  · rw [isCounted_append, hcounted, hcounted']
    exact Iff.rfl
  · calc K * M * spelling codes''
        = K * (M * spelling codes'') := mul_assoc _ _ _
      _ = K * spelling codes' * b.language .grammar dotAll := by rw [hM, mul_assoc]
      _ = spelling codes * (a.language .grammar dotAll * b.language .grammar dotAll) := by
        rw [hK, mul_assoc]
  · rw [Regex.text, List.append_assoc, List.append_assoc]
    exact hcuts _ (hcuts' vs hvs)

theorem cutsAsChoice_single {r : Regex .row} (h : CutsAsRow dotAll r) :
    CutsAsChoice dotAll (.single r) := by
  intro rest hrest hstops
  obtain ⟨ts, K, done', codes', hphrase, hcounted, hdone', hK, hcuts⟩ := h rest [] [] hrest .nil
  rw [Grammar.spelling_nil, one_mul] at hK
  refine ⟨ts ++ pending done', ?_, ?_, fun us hus => ?_⟩
  · rw [Regex.language, ← hK]
    exact .branch (.append hphrase (phrase_pending hdone'))
  · rw [isCounted_append, hcounted, and_iff_left (isCounted_pending done')]
    exact Iff.rfl
  · rw [List.append_assoc]
    exact (hcuts _ (hstops.cuts hus done')).lexes rfl

theorem cutsAsChoice_either {a b : Regex .choice} (ha : CutsAsChoice dotAll a)
    (hb : CutsAsChoice dotAll b) : CutsAsChoice dotAll (.either a b) := by
  intro rest hrest hstops
  obtain ⟨ts, hphrase, hcounted, hlexes⟩ :=
    ha ('|' :: (b.text ++ rest)) rfl (stops_operator (by decide) _)
  obtain ⟨us, hphrase', hcounted', hlexes'⟩ := hb rest hrest hstops
  refine ⟨ts ++ .bar :: us, .or hphrase hphrase', ?_, fun vs hvs => ?_⟩
  · have hone : ∀ body, Token.bar ≠ .badCounts body := by simp
    rw [isCounted_append, isCounted_cons, and_iff_right hone, hcounted, hcounted']
    exact Iff.rfl
  · have hbar : Lexes ('|' :: (b.text ++ rest)) (.bar :: (us ++ vs)) :=
      (hlexes' vs hvs).cons (by simp) fun offset => ⟨offset + 1, rfl⟩
    rw [Regex.text, List.append_assoc, List.append_assoc]
    exact hlexes _ hbar

theorem cutsAs {r : Regex level} (h : r.IsTranslatable) : CutsAs dotAll r := by
  -- on the tree; each level has its own statement, and each constructor leads from one to the next
  induction r with
  | leaf l => exact cutsAsAtom_leaf dotAll l
  | group r ih => exact cutsAsAtom_group (ih h)
  | once a ih => exact cutsAsRow_once (ih h)
  | times a q lazily ih => exact cutsAsRow_times (ih h.1) h.2
  | empty =>
    intro rest done codes _ hdone
    exact ⟨[], 1, done, codes, .empty, iff_of_true (by simp [IsCounted]) trivial, hdone,
      by rw [one_mul, Regex.language, mul_one], fun us hus => hus⟩
  | beside a b iha ihb => exact cutsAsRow_beside (iha h.1) (ihb h.2)
  | single r ih => exact cutsAsChoice_single (ih h)
  | either a b iha ihb => exact cutsAsChoice_either (iha h.1) (ihb h.2)

/-- **A regular expression is cut into tokens** that mean what it does to a grammar. Its counts are
    those of the tokens. -/
theorem exists_tokens {r : Regex .choice} (h : r.IsTranslatable) (dotAll : Bool) :
    ∃ ts, (lexemes r.text).map Lexeme.token = ts ∧
      Phrase dotAll .choice ts (r.language .grammar dotAll) ∧
        (IsCounted ts ↔ r.HasShortCounts) := by
  obtain ⟨ts, hphrase, hcounted, hlexes⟩ :=
    (cutsAs h : CutsAsChoice dotAll r) [] rfl stops_nil
  have htokens := (hlexes [] lexes_nil).tokens
  rw [List.append_nil, List.append_nil] at htokens
  exact ⟨ts, htokens, hphrase, hcounted⟩

end Trees

end Pattern

end SchemaGrammar
