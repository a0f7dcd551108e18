import SchemaGrammar.Proofs.Grammar.Languages
import SchemaGrammar.Proofs.Rules.Repetition

set_option autoImplicit false

/-! # JSON texts

The grammar of JSON texts, rule by rule as the standard gives it and without a limit on lengths:
numbers, strings, and the values that brackets and commas put together, with blanks around these
marks and around the whole document. Whatever is claimed to be a JSON text is measured against this
grammar.

Generated grammars put blanks behind every token. So what follows here about lists is about values
with blanks behind them (`spaced`): the blanks behind a value are those before the next mark. -/

namespace SchemaGrammar

open Computability

namespace Standard

open Grammar (charWhere separated)

/-! ## Blanks -/

def IsBlank (c : Char) : Prop :=
  c ∈ [' ', '\t', '\n', '\r']

/-- All characters of a text are blanks. -/
def AreBlank (text : List Char) : Prop :=
  ∀ c ∈ text, IsBlank c

instance (text : List Char) : Decidable (AreBlank text) :=
  inferInstanceAs (Decidable (∀ c ∈ text, c ∈ [' ', '\t', '\n', '\r']))

theorem areBlank_append {front back : List Char} :
    AreBlank (front ++ back) ↔ AreBlank front ∧ AreBlank back :=
  List.forall_mem_append

theorem not_isDigit_of_isBlank {c : Char} (h : IsBlank c) : c.isDigit = false := by
  have hall : ∀ c ∈ [' ', '\t', '\n', '\r'], c.isDigit = false := by decide
  exact hall c h

/-- Any number of blanks. -/
def ws : Language Char :=
  (charWhere IsBlank)∗

/-- A mark with blanks around it. -/
def around (mark : Char) : Language Char :=
  ws * {[mark]} * ws

theorem one_le_ws : 1 ≤ ws :=
  one_le_kstar

theorem le_spaced (L : Language Char) : L ≤ L * ws :=
  le_mul_of_one_le_right' one_le_ws

theorem mark_le_around (mark : Char) : {[mark]} ≤ around mark :=
  le_trans (le_mul_of_one_le_left' one_le_ws) (le_spaced _)

/-! ## Numbers -/

def IsDigit (c : Char) : Prop :=
  c.isDigit = true

/-- Any number of digits. -/
def digits : Language Char :=
  (charWhere IsDigit)∗

/-- At least one digit. -/
def someDigits : Language Char :=
  charWhere IsDigit * digits

/-- A natural without zeros in front. -/
def natural : Language Char :=
  {['0']} + charWhere (fun c => IsDigit c ∧ c ≠ '0') * digits

def integer : Language Char :=
  (1 + {['-']}) * natural

def fraction : Language Char :=
  {['.']} * someDigits

theorem natural_le_someDigits : natural ≤ someDigits := by
  have hzero : ({['0']} : Language Char) ≤ someDigits := by
    refine Grammar.singleton_le_iff.2 (Language.append_mem_mul (a := ['0']) (b := []) ?_ ?_)
    · exact ⟨'0', rfl, rfl⟩
    · exact Language.nil_mem_kstar _
  exact add_le hzero (mul_le_mul' (Grammar.charWhere_mono fun c hc => hc.1) le_rfl)

def exponent : Language Char :=
  ({['e']} + {['E']}) * (1 + ({['+']} + {['-']})) * someDigits

def number : Language Char :=
  integer * (1 + fraction) * (1 + exponent)

theorem one_le_optional (L : Language Char) : 1 ≤ 1 + L := by
  rw [add_eq_sup]
  exact le_sup_left

theorem integer_le_number : integer ≤ number := by
  calc
    integer ≤ integer * (1 + fraction) := le_mul_of_one_le_right' (one_le_optional fraction)
    _ ≤ number := le_mul_of_one_le_right' (one_le_optional exponent)

/-- A number has a digit. -/
theorem not_areBlank_of_mem_number {text : List Char} (h : text ∈ number) : ¬ AreBlank text := by
  obtain ⟨front, hfront, _, -, rfl⟩ := Language.mem_mul.1 h
  obtain ⟨whole, hwhole, _, -, rfl⟩ := Language.mem_mul.1 hfront
  obtain ⟨_, -, ds, hds, rfl⟩ := Language.mem_mul.1 hwhole
  obtain ⟨_, ⟨d, rfl, hd⟩, _, -, rfl⟩ := Language.mem_mul.1 (natural_le_someDigits hds)
  intro hblank
  have hdigit := not_isDigit_of_isBlank (hblank d (by simp))
  rw [IsDigit, hdigit] at hd
  exact absurd hd (by simp)

/-! ## Strings -/

def IsHexDigit (c : Char) : Prop :=
  c ∈ "0123456789abcdefABCDEF".toList

/-- A letter of an escape, apart from the one by number. -/
def IsEscapeLetter (c : Char) : Prop :=
  c ∈ ['"', '\\', '/', 'b', 'f', 'n', 'r', 't']

/-- One character as it is spelled inside a string. -/
inductive IsCharacter : List Char → Prop where
  | raw {c : Char} (space : ' ' ≤ c) (noQuote : c ≠ '"') (noSlash : c ≠ '\\') : IsCharacter [c]
  | escaped {c : Char} (letter : IsEscapeLetter c) : IsCharacter ['\\', c]
  | numbered {a b c d : Char} (ha : IsHexDigit a) (hb : IsHexDigit b) (hc : IsHexDigit c)
      (hd : IsHexDigit d) : IsCharacter ['\\', 'u', a, b, c, d]

def character : Language Char :=
  {text | IsCharacter text}

/-- What may stand between the quotes of a string. -/
def content : Language Char :=
  character∗

def string : Language Char :=
  {['"']} * content * {['"']}

theorem character_le_content : character ≤ content :=
  le_kstar

theorem content_mul_content : content * content = content :=
  kstar_mul_kstar _

/-- A quote has to be escaped. -/
theorem quote_notMem_content (rest : List Char) : '"' :: rest ∉ content := by
  intro h
  obtain ⟨pieces, heq, hpieces⟩ := Language.mem_kstar_iff_exists_nonempty.1 h
  cases pieces with
  | nil => cases heq
  | cons piece others =>
    obtain ⟨hpiece, hne⟩ := hpieces piece List.mem_cons_self
    obtain ⟨c, more, rfl⟩ := List.exists_cons_of_ne_nil hne
    rw [List.flatten_cons, List.cons_append] at heq
    obtain ⟨rfl, -⟩ := List.cons.inj heq
    cases hpiece with
    | raw _ noQuote _ => exact noQuote rfl

/-- Characters that need no escape. -/
theorem raw_le_content : (charWhere fun c => ' ' ≤ c ∧ c ≠ '"' ∧ c ≠ '\\')∗ ≤ content := by
  refine kstar_mono ?_
  rintro text ⟨c, rfl, hspace, hquote, hslash⟩
  exact IsCharacter.raw hspace hquote hslash

/-- A class without quotes, backslashes and control characters. -/
theorem exceptClass_le {ranges : List (Nat × Nat)} (hquote : (34, 34) ∈ ranges)
    (hslash : (92, 92) ∈ ranges) (hcontrol : (0, 31) ∈ ranges) :
    Grammar.classLanguage true ranges ≤ content := by
  rintro text ⟨c, rfl, hc⟩
  have hout {low high : Nat} (hrange : (low, high) ∈ ranges) : ¬ (low ≤ c.toNat ∧ c.toNat ≤ high) := by
    simp only [Node.classHolds, Bool.bne_true, Bool.not_eq_true', List.any_eq_false] at hc
    simpa using hc (low, high) hrange
  have hspace : 0x20 ≤ c.toNat := by
    have := hout hcontrol
    omega
  refine character_le_content (.raw hspace ?_ ?_)
  · rintro rfl
    exact hout hquote (by decide)
  · rintro rfl
    exact hout hslash (by decide)

/-- The class of hexadecimal digits. -/
theorem hexClass_eq : Grammar.classLanguage false
    [('0'.toNat, '9'.toNat), ('a'.toNat, 'f'.toNat), ('A'.toNat, 'F'.toNat)] =
      charWhere IsHexDigit := by
  refine le_antisymm (Grammar.class_le fun c hc => ⟨c, rfl, ?_⟩) ?_
  · have hall : ∀ c ∈ Grammar.charsOf
        [('0'.toNat, '9'.toNat), ('a'.toNat, 'f'.toNat), ('A'.toNat, 'F'.toNat)],
        c ∈ "0123456789abcdefABCDEF".toList := by decide
    exact hall c hc
  · rintro text ⟨c, rfl, hc⟩
    have hall : ∀ c ∈ "0123456789abcdefABCDEF".toList, Node.classHolds false
        [('0'.toNat, '9'.toNat), ('a'.toNat, 'f'.toNat), ('A'.toNat, 'F'.toNat)] c.toNat = true := by
      decide
    exact ⟨c, rfl, hall c hc⟩

/-- An escape by letter. -/
theorem escaped_le_character {E : Language Char} (h : E ≤ charWhere IsEscapeLetter) :
    {['\\']} * E ≤ character := by
  rintro text ⟨_, rfl, letter, hletter, rfl⟩
  obtain ⟨c, rfl, hc⟩ := h hletter
  exact .escaped hc

theorem escaped_le {E : Language Char} (h : E ≤ charWhere IsEscapeLetter) :
    {['\\']} * E ≤ content :=
  le_trans (escaped_le_character h) character_le_content

/-- An escape by number. -/
theorem numbered_le_character {H : Language Char} (h : H ≤ charWhere IsHexDigit) :
    {['\\']} * ({['u']} * H ^ 4) ≤ character := by
  rintro text ⟨_, rfl, _, ⟨_, rfl, hex, hhex, rfl⟩, rfl⟩
  rw [pow_succ, pow_succ, pow_succ, pow_one] at hhex
  obtain ⟨_, ⟨_, ⟨a, ha, b, hb, rfl⟩, c, hc, rfl⟩, d, hd, rfl⟩ := hhex
  obtain ⟨a, rfl, hexA⟩ := h ha
  obtain ⟨b, rfl, hexB⟩ := h hb
  obtain ⟨c, rfl, hexC⟩ := h hc
  obtain ⟨d, rfl, hexD⟩ := h hd
  exact .numbered hexA hexB hexC hexD

theorem numbered_le {H : Language Char} (h : H ≤ charWhere IsHexDigit) :
    {['\\']} * ({['u']} * H ^ 4) ≤ content :=
  le_trans (numbered_le_character h) character_le_content

/-! ## Values -/

/-- The text of a value. -/
inductive IsValue : List Char → Prop where
  | name {text : List Char} (h : text ∈ ["null".toList, "true".toList, "false".toList]) : IsValue text
  | number {text : List Char} (h : text ∈ number) : IsValue text
  | string {text : List Char} (h : text ∈ string) : IsValue text
  | array {items : List (List Char)} {text : List Char} (values : ∀ item ∈ items, IsValue item)
      (h : text ∈ around '[' * separated (around ',') (items.map ({·})) * around ']') : IsValue text
  | object {members : List (List Char × List Char)} {text : List Char}
      (keys : ∀ member ∈ members, member.1 ∈ string) (values : ∀ member ∈ members, IsValue member.2)
      (h : text ∈ around '\x7b' *
        separated (around ',') (members.map fun member => {member.1} * around ':' * {member.2}) *
          around '\x7d') : IsValue text

def value : Language Char :=
  {text | IsValue text}

/-- A value with blanks around it. -/
def document : Language Char :=
  ws * value * ws

/-- A key with its value. -/
def member : Language Char :=
  string * around ':' * value

theorem number_le_value : number ≤ value :=
  fun _ h => .number h

theorem string_le_value : string ≤ value :=
  fun _ h => .string h

theorem array_le_value {Ls : List (Language Char)} (h : ∀ L ∈ Ls, L ≤ value) :
    around '[' * separated (around ',') Ls * around ']' ≤ value := by
  intro text htext
  obtain ⟨front, hfront, close, hclose, rfl⟩ := Language.mem_mul.1 htext
  obtain ⟨start, hstart, inner, hinner, rfl⟩ := Language.mem_mul.1 hfront
  have hvalue : ∀ L ∈ Ls, ∀ item ∈ L, ∃ a, IsValue a ∧ item ∈ ({a} : Language Char) :=
    fun L hL item hitem => ⟨item, h L hL hitem, rfl⟩
  obtain ⟨items, hitems, hinner⟩ := Grammar.exists_pieces (around ',') hvalue hinner
  exact .array hitems (Language.append_mem_mul (Language.append_mem_mul hstart hinner) hclose)

theorem object_le_value {Ls : List (Language Char)} (h : ∀ L ∈ Ls, L ≤ member) :
    around '\x7b' * separated (around ',') Ls * around '\x7d' ≤ value := by
  intro text htext
  obtain ⟨front, hfront, close, hclose, rfl⟩ := Language.mem_mul.1 htext
  obtain ⟨start, hstart, inner, hinner, rfl⟩ := Language.mem_mul.1 hfront
  have hmember : ∀ L ∈ Ls, ∀ text ∈ L, ∃ pair : List Char × List Char,
      (pair.1 ∈ string ∧ IsValue pair.2) ∧ text ∈ {pair.1} * around ':' * {pair.2} := by
    intro L hL text htext
    obtain ⟨front, hfront, value, hvalue, rfl⟩ := Language.mem_mul.1 (h L hL htext)
    obtain ⟨key, hkey, colon, hcolon, rfl⟩ := Language.mem_mul.1 hfront
    exact ⟨(key, value), ⟨hkey, hvalue⟩,
      Language.append_mem_mul (Language.append_mem_mul rfl hcolon) rfl⟩
  obtain ⟨members, hmembers, hinner⟩ := Grammar.exists_pieces (around ',') hmember hinner
  exact .object (fun pair hpair => (hmembers pair hpair).1) (fun pair hpair => (hmembers pair hpair).2)
    (Language.append_mem_mul (Language.append_mem_mul hstart hinner) hclose)

/-! ## Blanks behind values -/

/-- A value with blanks behind it. -/
def spaced : Language Char :=
  value * ws

/-- A key with its value, and blanks behind it. -/
def spacedMember : Language Char :=
  member * ws

/-- The blanks behind the parts of a list belong to the marks. -/
theorem separated_le {M : Language Char} {Ls : List (Language Char)} (h : ∀ L ∈ Ls, L ≤ M * ws) :
    separated ({[',']} * ws) Ls ≤ separated (around ',') (Ls.map fun _ => M) * ws := by
  induction Ls with
  | nil => exact le_spaced 1
  | cons L rest ih =>
    have hL : L ≤ M * ws := h L List.mem_cons_self
    have hrest := ih fun L' hL' => h L' (List.mem_cons_of_mem _ hL')
    cases rest with
    | nil => exact hL
    | cons next rest =>
      calc
        separated ({[',']} * ws) (L :: next :: rest)
            = L * ({[',']} * ws) * separated ({[',']} * ws) (next :: rest) := rfl
        _ ≤ M * ws * ({[',']} * ws) *
            (separated (around ',') ((next :: rest).map fun _ => M) * ws) :=
          mul_le_mul' (mul_le_mul' hL le_rfl) hrest
        _ = separated (around ',') ((L :: next :: rest).map fun _ => M) * ws := by
          simp only [List.map_cons, separated, around, mul_assoc]

theorem spaced_bracketed {opening closing : Char} {M : Language Char} {Ls : List (Language Char)}
    (h : ∀ L ∈ Ls, L ≤ M * ws)
    (hvalue : around opening * separated (around ',') (Ls.map fun _ => M) * around closing ≤ value) :
    {[opening]} * ws * separated ({[',']} * ws) Ls * ({[closing]} * ws) ≤ spaced := by
  calc
    {[opening]} * ws * separated ({[',']} * ws) Ls * ({[closing]} * ws)
        ≤ {[opening]} * ws * (separated (around ',') (Ls.map fun _ => M) * ws) *
          ({[closing]} * ws) := mul_le_mul' (mul_le_mul' le_rfl (separated_le h)) le_rfl
    _ = {[opening]} * ws * separated (around ',') (Ls.map fun _ => M) * (ws * {[closing]} * ws) := by
      simp only [mul_assoc]
    _ ≤ around opening * separated (around ',') (Ls.map fun _ => M) * around closing :=
      mul_le_mul' (mul_le_mul' (mul_le_mul' (le_mul_of_one_le_left' one_le_ws) le_rfl) le_rfl) le_rfl
    _ ≤ value := hvalue
    _ ≤ spaced := le_spaced value

/-- A list of spaced values is an array. -/
theorem array_le_spaced {Ls : List (Language Char)} (h : ∀ L ∈ Ls, L ≤ spaced) :
    {['[']} * ws * separated ({[',']} * ws) Ls * ({[']']} * ws) ≤ spaced := by
  refine spaced_bracketed h (array_le_value ?_)
  intro L hL
  obtain ⟨_, _, rfl⟩ := List.mem_map.1 hL
  exact le_rfl

/-- A list of spaced members is an object. -/
theorem object_le_spaced {Ls : List (Language Char)} (h : ∀ L ∈ Ls, L ≤ spacedMember) :
    {['\x7b']} * ws * separated ({[',']} * ws) Ls * ({['\x7d']} * ws) ≤ spaced := by
  refine spaced_bracketed h (object_le_value ?_)
  intro L hL
  obtain ⟨_, _, rfl⟩ := List.mem_map.1 hL
  exact le_rfl

/-- What may be repeated behind commas is a list of some length. -/
theorem exists_count {M S : Language Char} {text : List Char} (h : text ∈ 1 + M * (S * M)∗) :
    ∃ count, text ∈ separated S (List.replicate count M) := by
  rcases h with hnil | hmem
  · exact ⟨0, hnil⟩
  · obtain ⟨first, hfirst, back, hback, rfl⟩ := Language.mem_mul.1 hmem
    rw [Language.kstar_eq_iSup_pow] at hback
    obtain ⟨count, hback⟩ := Language.mem_iSup.1 hback
    refine ⟨count + 1, ?_⟩
    rw [Grammar.separated_replicate_succ]
    exact Language.append_mem_mul hfirst hback

theorem repeated_bracketed_le {opening closing : Char} {M : Language Char}
    (h : ∀ count, {[opening]} * ws * separated ({[',']} * ws) (List.replicate count M) *
      ({[closing]} * ws) ≤ spaced) :
    {[opening]} * ws * (1 + M * ({[',']} * ws * M)∗) * ({[closing]} * ws) ≤ spaced := by
  intro text htext
  obtain ⟨front, hfront, close, hclose, rfl⟩ := Language.mem_mul.1 htext
  obtain ⟨start, hstart, inner, hinner, rfl⟩ := Language.mem_mul.1 hfront
  obtain ⟨count, hinner⟩ := exists_count hinner
  exact h count (Language.append_mem_mul (Language.append_mem_mul hstart hinner) hclose)

/-- A spaced key, a colon and a spaced value are a spaced member. -/
theorem pair_le_spacedMember : string * ws * ({[':']} * ws) * spaced ≤ spacedMember :=
  le_of_eq (by simp only [spacedMember, member, spaced, around, mul_assoc])

theorem spaced_le_document : spaced ≤ document := by
  calc
    spaced ≤ ws * (value * ws) := le_mul_of_one_le_left' one_le_ws
    _ = document := (mul_assoc ws value ws).symm

end Standard

end SchemaGrammar
