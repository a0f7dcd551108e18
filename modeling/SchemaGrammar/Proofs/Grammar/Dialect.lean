import SchemaGrammar.Grammar.Reader
import SchemaGrammar.Proofs.Grammar.Layout
import SchemaGrammar.Proofs.Grammar.Meaning

set_option autoImplicit false

/-! # The dialect of grammar text

What grammar text is, apart from how it is read. A piece of text spells a token (`Spelling`), pieces
in a row spell a row of tokens (`Lexical`), tokens make up the body of a rule (`Phrased`), and bodies
make up a grammar (`Document`). `Renders` puts the two halves together.

How a number is written is a parameter of all this (`Numerals`): the dialect has plain digits
(`Numerals.plain`), and what is read has more (`Numerals.lenient`). -/

namespace SchemaGrammar

namespace Grammar

/-! ## Numbers -/

/-- A way to write the numbers of grammar text. -/
structure Numerals where
  /-- The digits of an escape and the code point that they name. -/
  escape : List Char → Nat → Prop
  /-- What stands for a count, up to the next comma or brace. -/
  count : List Char → Int → Prop
  /-- What may stand in the place of a greatest count that is left out. -/
  gap : List Char → Prop

/-- Spaces and tabs. -/
def IsSpaces (cs : List Char) : Prop :=
  ∀ c ∈ cs, isSpace c = true

namespace Numerals

/-- Plain digits: hexadecimal ones in escapes and decimal ones in counts, with blanks around a count
    and as many of its digits as are allowed. -/
def plain (allowed : Nat → Prop) : Numerals where
  escape digits code := digits ≠ [] ∧ (∀ c ∈ digits, Text.isHexDigit c = true) ∧
    code = Text.ofHexDigits digits
  count text n := ∃ before digits behind, text = before ++ digits ++ behind ∧
    IsSpaces before ∧ IsSpaces behind ∧ digits ≠ [] ∧ (∀ c ∈ digits, c.isDigit = true) ∧
    allowed digits.length ∧ n = Nat.ofDigitChars 10 digits 0
  gap := IsSpaces

/-- The numerals of the dialect. -/
def documented : Numerals :=
  plain fun _ => True

/-- All numerals that are read. -/
def lenient : Numerals where
  escape digits code := Text.readInt? 16 digits = some (code : Int)
  count text n := Text.readInt? 10 (Text.trim text) = some n
  gap text := Text.trim text = []

/-! ## Tokens -/

section Tokens

variable (N : Numerals)

/-- One character of a literal or a class, and its code. -/
inductive Spells : List Char → Nat → Prop where
  | raw {c : Char} (plain : c ≠ '\\') : Spells [c] c.toNat
  | escaped {c : Char} (simple : escapeWidth? c = none) : Spells ['\\', c] (simpleEscape c).toNat
  | numbered {mark : Char} {digits : List Char} {width code : Nat}
      (marked : escapeWidth? mark = some width) (length : digits.length = width)
      (value : N.escape digits code) (most : code ≤ maxCodePoint) :
      Spells ('\\' :: mark :: digits) code

/-- What stands between the quotes of a literal. -/
inductive Quoted : List Char → List Nat → Prop where
  | nil : Quoted [] []
  | cons {text more : List Char} {code : Nat} {codes : List Nat} (first : N.Spells text code)
      (inside : text.head? ≠ some '"') (others : Quoted more codes) :
      Quoted (text ++ more) (code :: codes)

/-- What stands between the brackets of a class. A dash makes a range of its neighbours, unless it
    comes first or last. -/
inductive Bracketed : List Char → List (Nat × Nat) → Prop where
  | nil : Bracketed [] []
  | single {text more : List Char} {code : Nat} {ranges : List (Nat × Nat)}
      (first : N.Spells text code) (inside : text.head? ≠ some ']')
      (alone : rangeFollows (more ++ [']']) = false) (others : Bracketed more ranges) :
      Bracketed (text ++ more) ((code, code) :: ranges)
  | range {text last more : List Char} {lo hi : Nat} {ranges : List (Nat × Nat)}
      (first : N.Spells text lo) (inside : text.head? ≠ some ']') (second : N.Spells last hi)
      (inside' : last.head? ≠ some ']') (others : Bracketed more ranges) :
      Bracketed (text ++ '-' :: (last ++ more)) ((lo, hi) :: ranges)

/-- How often an item is repeated. -/
inductive Counted : List Char → Int → Option Int → Prop where
  | optional : Counted ['?'] 0 (some 1)
  | star : Counted ['*'] 0 none
  | plus : Counted ['+'] 1 none
  | exactly {text : List Char} {n : Int} (count : N.count text n) (inside : '\x7d' ∉ text)
      (alone : ',' ∉ text) : Counted ('\x7b' :: (text ++ ['\x7d'])) n (some n)
  | atLeast {text gap : List Char} {n : Int} (count : N.count text n) (missing : N.gap gap)
      (inside : '\x7d' ∉ text ++ gap) (alone : ',' ∉ text ++ gap) :
      Counted ('\x7b' :: (text ++ ',' :: gap ++ ['\x7d'])) n none
  | between {text more : List Char} {n m : Int} (count : N.count text n) (most : N.count more m)
      (inside : '\x7d' ∉ text ++ more) (alone : ',' ∉ text ++ more) :
      Counted ('\x7b' :: (text ++ ',' :: more ++ ['\x7d'])) n (some m)

/-- A piece of text spells a token. -/
inductive Spelling : Token → List Char → Prop where
  | name {cs : List Char} (some : cs ≠ []) (chars : ∀ c ∈ cs, isNameChar c = true) :
      Spelling (.name (String.ofList cs)) cs
  | define : Spelling .define [':', ':', '=']
  | literal {text : List Char} {codes : List Nat} (inside : N.Quoted text codes) :
      Spelling (.literal codes) ('"' :: (text ++ ['"']))
  | charClass {text : List Char} {ranges : List (Nat × Nat)} (inside : N.Bracketed text ranges)
      (plain : text.head? ≠ some '^') : Spelling (.charClass false ranges) ('[' :: (text ++ [']']))
  | exceptClass {text : List Char} {ranges : List (Nat × Nat)} (inside : N.Bracketed text ranges) :
      Spelling (.charClass true ranges) ('[' :: '^' :: (text ++ [']']))
  | groupOpen : Spelling .groupOpen ['(']
  | groupClose : Spelling .groupClose [')']
  | bar : Spelling .bar ['|']
  | times {text : List Char} {min : Int} {max : Option Int} (counted : N.Counted text min max) :
      Spelling (.times min max) text
  | lineBreak {c : Char} (end' : isLineBreak c = true) : Spelling .lineBreak [c]
  | space {c : Char} (blank : isSpace c = true) : Spelling .blank [c]
  | comment {text : List Char} (line : ∀ c ∈ text, isLineBreak c = false) :
      Spelling .blank ('#' :: text)

end Tokens

end Numerals

/-- A piece of text ends where the rest begins: a name does not go on there, and a comment goes on to
    the end of its line. -/
structure Delimits (piece rest : List Char) : Prop where
  apart : Apart piece rest
  line : piece.head? = some '#' → ∀ c ∈ rest.head?, isLineBreak c = true

/-- Pieces of text in a row spell a row of tokens. -/
inductive Numerals.Lexical (N : Numerals) : List Token → List Char → Prop where
  | nil : N.Lexical [] []
  | cons {t : Token} {tokens : List Token} {piece rest : List Char} (first : N.Spelling t piece)
      (delimits : Delimits piece rest) (others : N.Lexical tokens rest) :
      N.Lexical (t :: tokens) (piece ++ rest)

/-! ## Rules -/

/-- Tokens that stand between others: blanks and, within a group, line breaks. -/
def IsGap (deep : Bool) : Token → Prop
  | .blank => True
  | .lineBreak => deep = true
  | _ => False

/-- A part of the body of a rule. -/
inductive Phrase where
  /-- Something that can be repeated. -/
  | item (node : Node)
  /-- Items in a row, within a group or outside. -/
  | row (deep : Bool) (items : List Node)
  /-- Rows with bars between them. -/
  | branches (deep : Bool) (branches : List Node)

/-- Tokens are a way to write a part of a body. -/
inductive Phrased : Phrase → List Token → Prop where
  | name (name : String) : Phrased (.item (.rule name)) [.name name]
  | literal (codes : List Nat) : Phrased (.item (.literal codes)) [.literal codes]
  | charClass (negated : Bool) (ranges : List (Nat × Nat)) :
      Phrased (.item (.charClass negated ranges)) [.charClass negated ranges]
  | group {tokens : List Token} {branches : List Node}
      (inside : Phrased (.branches true branches) tokens) :
      Phrased (.item (branchNode branches)) (.groupOpen :: (tokens ++ [.groupClose]))
  | times {tokens : List Token} {node : Node} (once : Phrased (.item node) tokens) (min : Int)
      (max : Option Int) : Phrased (.item (.rep node min max)) (tokens ++ [.times min max])
  | void {deep : Bool} : Phrased (.row deep []) []
  | gap {deep : Bool} {tokens : List Token} {items : List Node} {t : Token}
      (row : Phrased (.row deep items) tokens) (between : IsGap deep t) :
      Phrased (.row deep items) (tokens ++ [t])
  | item {deep : Bool} {tokens more : List Token} {items : List Node} {node : Node}
      (row : Phrased (.row deep items) tokens) (next : Phrased (.item node) more) :
      Phrased (.row deep (items ++ [node])) (tokens ++ more)
  | single {deep : Bool} {tokens : List Token} {items : List Node}
      (row : Phrased (.row deep items) tokens) : Phrased (.branches deep [rowNode items]) tokens
  | bar {deep : Bool} {tokens more : List Token} {branches items : List Node}
      (before : Phrased (.branches deep branches) tokens) (row : Phrased (.row deep items) more) :
      Phrased (.branches deep (branches ++ [rowNode items])) (tokens ++ .bar :: more)

/-- The name of a rule and the sign behind it. -/
inductive Header (name : String) : List Token → Prop where
  | intro {blanks : List Token} (blank : ∀ t ∈ blanks, t = .blank) :
      Header name (.name name :: (blanks ++ [.define]))

/-- Tokens are rules that have come to their ends, each with a line break. -/
inductive Ruled : List Token → Grammar → Prop where
  | nil : Ruled [] []
  | gap {tokens : List Token} {g : Grammar} {t : Token} (rules : Ruled tokens g)
      (between : IsGap true t) : Ruled (tokens ++ [t]) g
  | rule {tokens header body : List Token} {g : Grammar} {name : String} {branches : List Node}
      (rules : Ruled tokens g) (head : Header name header)
      (written : Phrased (.branches false branches) body) :
      Ruled (tokens ++ (header ++ (body ++ [.lineBreak]))) (g ++ [(name, branchNode branches)])

/-- Tokens are a grammar. The last rule may end with the text. -/
inductive Document : List Token → Grammar → Prop where
  | closed {tokens : List Token} {g : Grammar} (rules : Ruled tokens g) : Document tokens g
  | rule {tokens header body : List Token} {g : Grammar} {name : String} {branches : List Node}
      (rules : Ruled tokens g) (head : Header name header)
      (written : Phrased (.branches false branches) body) :
      Document (tokens ++ (header ++ body)) (g ++ [(name, branchNode branches)])

/-- The text is a way to write the grammar. -/
def Numerals.Renders (N : Numerals) (text : List Char) (g : Grammar) : Prop :=
  ∃ tokens, N.Lexical tokens text ∧ Document tokens g

/-- All rules that the grammar refers to are defined. -/
def IsClosed (g : Grammar) : Prop :=
  ∀ rule ∈ g, ∀ name ∈ rule.2.ruleNames, g.has name = true

/-- The rules have different names, and those that are referred to are defined. -/
structure IsWellFormed (g : Grammar) : Prop where
  nodup : (g.map Prod.fst).Nodup
  closed : IsClosed g

end Grammar

end SchemaGrammar
