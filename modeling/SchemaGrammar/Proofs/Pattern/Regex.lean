import SchemaGrammar.Pattern.Token
import SchemaGrammar.Proofs.Grammar.Languages
import SchemaGrammar.Proofs.Text.Numeral

set_option autoImplicit false

/-! # Regular expressions

The syntax of patterns as trees, how a tree is written, and which texts it describes. A tree is
written in one way; how its text is cut into tokens plays no part here.

Quantifiers and classes are written alike in patterns and in grammars, but do not always mean the
same: to a grammar a question mark behind a quantifier makes optional what stands before it, and a
shorthand inside a class is a letter. A `Dialect` says whose rules count (`Regex.language`), and
where the rules agree both describe the same texts (`language_of_isFaithful`). -/

namespace SchemaGrammar

namespace Pattern

open Grammar (charWhere repeated)

/-- Whose rules count. -/
inductive Dialect where
  | pattern
  | grammar
  deriving Repr, DecidableEq

/-! ## Characters -/

/-- The characters that have to be escaped outside classes, anchors included. -/
def metacharacters : List Char :=
  ['^', '$', '\\', '.', '[', '(', ')', '|', '\x7b', '*', '+', '?']

/-- One character as it is spelled. -/
inductive Symbol where
  | raw (c : Char)
  | escaped (c : Char) (punctuation : Text.isAlphanumeric c = false)
  | lineFeed
  | carriageReturn
  | tab
  | numbered (mark : Char) (digits : List Char) (hex : ∀ d ∈ digits, Text.isHexDigit d = true)
      (width : mark = 'x' ∧ digits.length = 2 ∨ mark = 'u' ∧ digits.length = 4)

namespace Symbol

def text : Symbol → List Char
  | .raw c => [c]
  | .escaped c _ => ['\\', c]
  | .lineFeed => ['\\', 'n']
  | .carriageReturn => ['\\', 'r']
  | .tab => ['\\', 't']
  | .numbered mark digits _ _ => '\\' :: mark :: digits

def code : Symbol → Nat
  | .raw c => c.toNat
  | .escaped c _ => c.toNat
  | .lineFeed => '\n'.toNat
  | .carriageReturn => '\r'.toNat
  | .tab => '\t'.toNat
  | .numbered _ digits _ _ => Text.ofHexDigits digits

/-- A character that is spelled by itself is none of these. -/
def Avoids (s : Symbol) (cs : List Char) : Prop :=
  match s with
  | .raw c => c ∉ cs
  | _ => True

end Symbol

/-- The kinds of characters that have a letter. -/
inductive Kind where
  | digit
  | word
  | blank

def Kind.holds : Kind → Char → Bool
  | .digit, c => c.isDigit
  | .word, c => c.isAlphanum || c = '_'
  | .blank, c => [' ', '\t', '\n', '\r'].contains c

/-- A kind of characters, or all others. -/
structure Shorthand where
  kind : Kind
  negated : Bool

def Shorthand.letter : Shorthand → Char
  | ⟨.digit, false⟩ => 'd'
  | ⟨.digit, true⟩ => 'D'
  | ⟨.word, false⟩ => 'w'
  | ⟨.word, true⟩ => 'W'
  | ⟨.blank, false⟩ => 's'
  | ⟨.blank, true⟩ => 'S'

def Shorthand.holds (s : Shorthand) (c : Char) : Bool :=
  s.kind.holds c != s.negated

/-! ## Classes -/

inductive ClassItem where
  | single (s : Symbol)
  | range (first last : Symbol) (ascending : first.code ≤ last.code)
  | shorthand (s : Shorthand)

namespace ClassItem

def text : ClassItem → List Char
  | .single s => s.text
  | .range first last _ => first.text ++ '-' :: last.text
  | .shorthand s => ['\\', s.letter]

def holds (d : Dialect) : ClassItem → Char → Prop
  | .single s, c => c.toNat = s.code
  | .range first last _, c => first.code ≤ c.toNat ∧ c.toNat ≤ last.code
  | .shorthand s, c => match d with
    | .pattern => s.holds c = true
    | .grammar => c = s.letter

/-- Characters that are spelled by themselves do not end the class or start an escape. -/
def IsClosed : ClassItem → Prop
  | .single s => s.Avoids [']', '\\']
  | .range first last _ => first.Avoids [']', '\\'] ∧ last.Avoids [']', '\\']
  | .shorthand _ => True

/-- The item is not the start of a range, given what follows it. -/
def EndsBefore (more : List Char) : ClassItem → Prop
  | .range .. => True
  | _ => more.head? = some '-' → more = ['-']

end ClassItem

/-- The text of some items. -/
def itemsText (items : List ClassItem) : List Char :=
  items.flatMap ClassItem.text

/-- The items are read back from their text. -/
def AreItems : List ClassItem → Prop
  | [] => True
  | item :: rest => item.IsClosed ∧ item.EndsBefore (itemsText rest) ∧ AreItems rest

structure CharClass where
  negated : Bool
  items : List ClassItem
  nonempty : items ≠ []
  areItems : AreItems items
  /-- A class that is not negated does not look like one. -/
  unmarked : negated = false → (itemsText items).head? ≠ some '^'

namespace CharClass

/-- What stands between the brackets. -/
def body (k : CharClass) : List Char :=
  (if k.negated then ['^'] else []) ++ itemsText k.items

def holds (d : Dialect) (k : CharClass) (c : Char) : Prop :=
  (∃ item ∈ k.items, item.holds d c) ↔ k.negated = false

end CharClass

/-! ## Leaves -/

inductive Leaf where
  | char (s : Symbol) (plain : s.Avoids metacharacters)
  | dot
  | shorthand (s : Shorthand)
  | charClass (k : CharClass)

namespace Leaf

def text : Leaf → List Char
  | .char s _ => s.text
  | .dot => ['.']
  | .shorthand s => ['\\', s.letter]
  | .charClass k => '[' :: (k.body ++ [']'])

/-- The characters that a leaf stands for. A dot may match line ends. -/
def holds (d : Dialect) (dotAll : Bool) : Leaf → Char → Prop
  | .char s _, c => c.toNat = s.code
  | .dot, c => dotAll = true ∨ c ≠ '\n' ∧ c ≠ '\r'
  | .shorthand s, c => s.holds c = true
  | .charClass k, c => k.holds d c

end Leaf

/-! ## Quantifiers -/

/-- A natural in decimal digits. -/
structure Numeral where
  digits : List Char
  nonempty : digits ≠ []
  areDigits : ∀ d ∈ digits, d.isDigit = true

def Numeral.value (n : Numeral) : Nat :=
  Nat.ofDigitChars 10 n.digits 0

inductive Quantifier where
  | star
  | plus
  | optional
  | exactly (n : Numeral)
  | atLeast (n : Numeral)
  | between (n m : Numeral) (le : n.value ≤ m.value)

namespace Quantifier

def text : Quantifier → List Char
  | .star => ['*']
  | .plus => ['+']
  | .optional => ['?']
  | .exactly n => '\x7b' :: (n.digits ++ ['\x7d'])
  | .atLeast n => '\x7b' :: (n.digits ++ [',', '\x7d'])
  | .between n m _ => '\x7b' :: (n.digits ++ ',' :: m.digits ++ ['\x7d'])

def low : Quantifier → Nat
  | .star => 0
  | .plus => 1
  | .optional => 0
  | .exactly n => n.value
  | .atLeast n => n.value
  | .between n _ _ => n.value

def high : Quantifier → Option Nat
  | .star => none
  | .plus => none
  | .optional => some 1
  | .exactly n => some n.value
  | .atLeast _ => none
  | .between _ m _ => some m.value

/-- The numerals of a quantifier. -/
def numerals : Quantifier → List Numeral
  | .exactly n => [n]
  | .atLeast n => [n]
  | .between n m _ => [n, m]
  | _ => []

/-- No numeral has more digits than can be read. -/
def IsShort (q : Quantifier) : Prop :=
  ∀ n ∈ q.numerals, n.digits.length ≤ Text.maxNumeralDigits

instance : DecidablePred IsShort :=
  fun q => inferInstanceAs (Decidable (∀ n ∈ q.numerals, n.digits.length ≤ Text.maxNumeralDigits))

end Quantifier

/-! ## Trees -/

/-- Where a part of a regular expression can stand. -/
inductive Level where
  /-- What a quantifier can follow. -/
  | atom
  | row
  | choice

inductive Regex : Level → Type where
  | leaf (l : Leaf) : Regex .atom
  | group (r : Regex .choice) : Regex .atom
  | once (a : Regex .atom) : Regex .row
  | times (a : Regex .atom) (q : Quantifier) (lazily : Bool) : Regex .row
  | empty : Regex .row
  | beside (a b : Regex .row) : Regex .row
  | single (r : Regex .row) : Regex .choice
  | either (a b : Regex .choice) : Regex .choice

namespace Regex

variable {level : Level}

def text : {level : Level} → Regex level → List Char
  | _, .leaf l => l.text
  | _, .group r => '(' :: (r.text ++ [')'])
  | _, .once a => a.text
  | _, .times a q lazily => a.text ++ q.text ++ (if lazily then ['?'] else [])
  | _, .empty => []
  | _, .beside a b => a.text ++ b.text
  | _, .single r => r.text
  | _, .either a b => a.text ++ '|' :: b.text

/-- The texts that a regular expression describes. -/
def language (d : Dialect) (dotAll : Bool) : {level : Level} → Regex level → Language Char
  | _, .leaf l => charWhere (l.holds d dotAll)
  | _, .group r => r.language d dotAll
  | _, .once a => a.language d dotAll
  | _, .times a q lazily =>
    let counted := repeated q.low q.high (a.language d dotAll)
    match d, lazily with
    | .grammar, true => repeated 0 (some 1) counted
    | _, _ => counted
  | _, .empty => 1
  | _, .beside a b => a.language d dotAll * b.language d dotAll
  | _, .single r => r.language d dotAll
  | _, .either a b => a.language d dotAll + b.language d dotAll

/-- Something holds of all leaves, and something of all quantifiers. -/
def All (P : Leaf → Prop) (Q : Quantifier → Bool → Prop) : {level : Level} → Regex level → Prop
  | _, .leaf l => P l
  | _, .group r => r.All P Q
  | _, .once a => a.All P Q
  | _, .times a q lazily => a.All P Q ∧ Q q lazily
  | _, .empty => True
  | _, .beside a b => a.All P Q ∧ b.All P Q
  | _, .single r => r.All P Q
  | _, .either a b => a.All P Q ∧ b.All P Q

theorem All.mono {P P' : Leaf → Prop} {Q Q' : Quantifier → Bool → Prop} {r : Regex level}
    (h : r.All P Q) (hP : ∀ l, P l → P' l) (hQ : ∀ q lazily, Q q lazily → Q' q lazily) :
    r.All P' Q' := by
  induction r with
  | leaf l => exact hP l h
  | group r ih => exact ih h
  | once a ih => exact ih h
  | times a q lazily ih => exact ⟨ih h.1, hQ q lazily h.2⟩
  | empty => trivial
  | beside a b iha ihb => exact ⟨iha h.1, ihb h.2⟩
  | single r ih => exact ih h
  | either a b iha ihb => exact ⟨iha h.1, ihb h.2⟩

end Regex

/-! ## Where the dialects agree -/

/-- A class has no backslash. -/
def Leaf.IsUnescaped : Leaf → Prop
  | .charClass k => '\\' ∉ k.body
  | _ => True

/-- A class has no shorthand. -/
def Leaf.IsFaithful : Leaf → Prop
  | .charClass k => ∀ s, .shorthand s ∉ k.items
  | _ => True

namespace Regex

variable {level : Level}

/-- No class has a backslash, and no quantifier is lazy. -/
def IsPlain (r : Regex level) : Prop :=
  r.All Leaf.IsUnescaped fun _ lazily => lazily = false

/-- What is repeated lazily is repeated at all. Otherwise there is nothing that a grammar could make
    optional. -/
def IsTranslatable (r : Regex level) : Prop :=
  r.All (fun _ => True) fun q lazily => lazily = true → q.high ≠ some 0

/-- No class has a shorthand, and what is repeated lazily may be missing and may occur. -/
def IsFaithful (r : Regex level) : Prop :=
  r.All Leaf.IsFaithful fun q lazily => lazily = true → q.low = 0 ∧ q.high ≠ some 0

/-- All counts can be read. -/
def HasShortCounts (r : Regex level) : Prop :=
  r.All (fun _ => True) fun q _ => q.IsShort

end Regex

theorem Leaf.isFaithful_of_isUnescaped {l : Leaf} (h : l.IsUnescaped) : l.IsFaithful := by
  cases l with
  | charClass k =>
    intro s hs
    refine h (List.mem_append.2 (.inr (List.mem_flatMap.2 ⟨_, hs, ?_⟩)))
    exact List.mem_cons_self
  | _ => trivial

theorem Regex.IsPlain.isFaithful {level : Level} {r : Regex level} (h : r.IsPlain) :
    r.IsFaithful := by
  refine h.mono (fun l => Leaf.isFaithful_of_isUnescaped) fun q lazily hgreedy hlazy => ?_
  rw [hgreedy] at hlazy
  cases hlazy

theorem Regex.IsFaithful.isTranslatable {level : Level} {r : Regex level} (h : r.IsFaithful) :
    r.IsTranslatable :=
  h.mono (fun _ _ => trivial) fun _ _ hq hlazy => (hq hlazy).2

theorem Leaf.holds_of_isFaithful {l : Leaf} (h : l.IsFaithful) (dotAll : Bool) :
    l.holds .grammar dotAll = l.holds .pattern dotAll := by
  cases l with
  | charClass k =>
    funext c
    have hitems : (∃ item ∈ k.items, item.holds .grammar c) ↔
        ∃ item ∈ k.items, item.holds .pattern c := by
      refine exists_congr fun item => and_congr_right fun hitem => ?_
      cases item with
      | shorthand s => exact absurd hitem (h s)
      | _ => exact Iff.rfl
    simp only [Leaf.holds, CharClass.holds, hitems]
  | _ => rfl

/-- What may be missing can be made optional. -/
theorem repeated_optional_repeated (high : Option Nat) (L : Language Char) :
    repeated 0 (some 1) (repeated 0 high L) = repeated 0 high L := by
  have hempty : 1 ≤ repeated 0 high L := by
    rintro text rfl
    exact ⟨0, le_rfl, by simp, rfl⟩
  rw [Grammar.repeated_optional, add_eq_sup, sup_eq_right]
  exact hempty

/-- **Where the dialects agree** a text is described by a pattern and by what a grammar makes of it
    alike. -/
theorem Regex.language_of_isFaithful {level : Level} {r : Regex level} (h : r.IsFaithful)
    (dotAll : Bool) : r.language .grammar dotAll = r.language .pattern dotAll := by
  induction r with
  | leaf l => rw [language, language, Leaf.holds_of_isFaithful h]
  | group r ih => exact ih h
  | once a ih => exact ih h
  | times a q lazily ih =>
    have hinner := ih h.1
    cases lazily with
    | false => simp only [language, hinner]
    | true => simp only [language, hinner, (h.2 rfl).1, repeated_optional_repeated]
  | empty => rfl
  | beside a b iha ihb => rw [language, language, iha h.1, ihb h.2]
  | single r ih => exact ih h
  | either a b iha ihb => rw [language, language, iha h.1, ihb h.2]

end Pattern

end SchemaGrammar
