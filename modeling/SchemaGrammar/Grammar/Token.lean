import SchemaGrammar.Failure
import SchemaGrammar.Text.Cursor
import SchemaGrammar.Text.Numeral
import SchemaGrammar.Text.Split

set_option autoImplicit false

/-! # The tokens of grammar text

Grammar text is cut into tokens from left to right, each with the offset and the character it
starts with. A literal, a class or a pair of braces is one token. A token that cannot be read
carries its failure, which the reader reports only if it gets there. -/

namespace SchemaGrammar

namespace Grammar

open Text (Cursor)

inductive Token where
  | name (text : String)
  /-- The sign between a rule's name and its body. -/
  | define
  | literal (text : List Nat)
  | charClass (negated : Bool) (ranges : List (Nat × Nat))
  | groupOpen
  | groupClose
  | bar
  /-- How often the item before it is repeated. -/
  | times (min : Int) (max : Option Int)
  | lineBreak
  /-- Spaces, tabs or a comment. -/
  | blank
  /-- A character that starts no token. -/
  | stray
  /-- A token that breaks off or is ill-formed. -/
  | broken (failure : Failure)
  deriving Repr

/-- A token with its place and its first character. -/
structure Lexeme where
  offset : Nat
  head : Char
  token : Token
  deriving Repr

/-! ## Characters -/

/-- The characters of rule names. -/
def isNameChar (c : Char) : Bool :=
  ('a' ≤ c && c ≤ 'z') || ('A' ≤ c && c ≤ 'Z') || ('0' ≤ c && c ≤ '9') || c = '_' || c = '-'

def isLineBreak (c : Char) : Bool :=
  c = '\n' || c = '\r'

def isSpace (c : Char) : Bool :=
  c = ' ' || c = '\t'

/-- How many digits an escape by number has. -/
def escapeWidth? : Char → Option Nat
  | 'x' => some 2
  | 'u' => some 4
  | 'U' => some 8
  | _ => none

/-- The character behind a backslash, where that is not the character itself. -/
def simpleEscape : Char → Char
  | 'n' => '\n'
  | 'r' => '\r'
  | 't' => '\t'
  | c => c

/-- The greatest code point. -/
def maxCodePoint : Nat := 0x10FFFF

/-- The greatest number that can be asked for as a code point. -/
def maxAskable : Nat := 0x7FFFFFFF

/-- The code point that the digits of an escape name. -/
def escapedCode (digits : List Char) (width : Nat) (fault : Failure) : Except Failure Nat :=
  if digits.length ≠ width then .error fault
  else match Text.readInt? 16 digits with
    | none => .error fault
    | some (.negSucc _) => .error fault
    | some (.ofNat n) =>
      if n ≤ maxCodePoint then .ok n
      else if n ≤ maxAskable then .error fault
      else .error (.misuse .codePoint)

/-- Read one character of a literal or a class, which may be escaped. -/
def unit (k : Cursor) : Except Failure (Nat × Cursor) :=
  match k.rest with
  | [] => .error (.grammar .danglingEscape (some k.offset))
  | '\\' :: rest =>
    match rest with
    | [] => .error (.grammar .danglingEscape (some k.offset))
    | c :: more =>
      match escapeWidth? c with
      | some width =>
        let digits := more.take width
        let fault : Failure := .grammar (.escape (String.ofList (c :: digits))) (some k.offset)
        (escapedCode digits width fault).map fun n => (n, k.advance (2 + width))
      | none => .ok ((simpleEscape c).toNat, k.advance 2)
  | c :: _ => .ok (c.toNat, k.advance 1)

/-! ## Literals and classes -/

/-- Read a literal up to its closing quote. Every step passes a character, so the length of the
    text bounds the number of `steps`. -/
def literalBody (start : Nat) : Nat → List Nat → Cursor → Except Failure (List Nat × Cursor)
  | 0, _, _ => .error (.grammar .openLiteral (some start))
  | steps + 1, done, k =>
    match k.peek? with
    | none => .error (.grammar .openLiteral (some start))
    | some '"' => .ok (done.reverse, k.advance 1)
    | some _ => do
      let (code, next) ← unit k
      literalBody start steps (code :: done) next

/-- Does a range go on here? A dash before the closing bracket stands for itself. -/
def rangeFollows : List Char → Bool
  | '-' :: c :: _ => c ≠ ']'
  | _ => false

/-- Read the ranges of a class up to its closing bracket. -/
def classBody (start : Nat) :
    Nat → List (Nat × Nat) → Cursor → Except Failure (List (Nat × Nat) × Cursor)
  | 0, _, _ => .error (.grammar .openClass (some start))
  | steps + 1, done, k =>
    match k.peek? with
    | none => .error (.grammar .openClass (some start))
    | some ']' => .ok (done.reverse, k.advance 1)
    | some _ => do
      let (lo, next) ← unit k
      if rangeFollows next.rest then
        let (hi, last) ← unit (next.advance 1)
        classBody start steps ((lo, hi) :: done) last
      else classBody start steps ((lo, lo) :: done) next

/-! ## Repetition in braces -/

/-- The least and greatest count that stand between braces. -/
def countsOf (body : List Char) : Option (Int × Option Int) :=
  match (Text.splitAt ',' body).map Text.trim with
  | [count] => (Text.readInt? 10 count).map fun n => (n, some n)
  | [low, []] => (Text.readInt? 10 low).map fun n => (n, none)
  | [low, high] => do
    let n ← Text.readInt? 10 low
    let m ← Text.readInt? 10 high
    return (n, some m)
  | _ => none

/-- The braces that start here. -/
def braces (k : Cursor) : Token × Cursor :=
  let inside := k.advance 1
  let body := inside.rest.takeWhile (· ≠ '\x7d')
  let behind := inside.advance body.length
  if behind.rest.isEmpty then (.broken (.grammar .openBrace (some k.offset)), k)
  else match countsOf body with
    | some (low, high) => (.times low high, behind.advance 1)
    | none => (.broken (.grammar (.repetition (String.ofList body)) (some k.offset)), k)

/-! ## Tokens -/

/-- A token from what was read, or the failure to read it. -/
def tokenOf {α : Type} (make : α → Token) (k : Cursor) :
    Except Failure (α × Cursor) → Token × Cursor
  | .ok (a, next) => (make a, next)
  | .error failure => (.broken failure, k)

/-- The token that starts with `c`, the first character at `k`, and the place behind it. -/
def token (c : Char) (k : Cursor) : Token × Cursor :=
  let steps := k.rest.length
  if isSpace c then (.blank, k.advance 1)
  else if isLineBreak c then (.lineBreak, k.advance 1)
  else if c = '#' then (.blank, k.skipWhile fun c => !isLineBreak c)
  else if isNameChar c then
    (.name (String.ofList (k.rest.takeWhile isNameChar)), k.skipWhile isNameChar)
  else if c = '"' then
    tokenOf .literal k (literalBody k.offset steps [] (k.advance 1))
  else if c = '[' then
    let inside := k.advance 1
    let negated := inside.peek? == some '^'
    tokenOf (.charClass negated) k
      (classBody k.offset steps [] (if negated then inside.advance 1 else inside))
  else if c = '(' then (.groupOpen, k.advance 1)
  else if c = ')' then (.groupClose, k.advance 1)
  else if c = '|' then (.bar, k.advance 1)
  else if c = '?' then (.times 0 (some 1), k.advance 1)
  else if c = '*' then (.times 0 none, k.advance 1)
  else if c = '+' then (.times 1 none, k.advance 1)
  else if c = '\x7b' then braces k
  else if [':', ':', '='].isPrefixOf k.rest then (.define, k.advance 3)
  else (.stray, k.advance 1)

/-- The tokens from a place on, none behind a broken one. Every token has a character, so the
    length of the text bounds their number. -/
def lexemesFrom : Nat → Cursor → List Lexeme
  | 0, _ => []
  | steps + 1, k =>
    match k.rest with
    | [] => []
    | c :: _ =>
      match token c k with
      | (.broken failure, _) => [⟨k.offset, c, .broken failure⟩]
      | (t, next) => ⟨k.offset, c, t⟩ :: lexemesFrom steps next

/-- The tokens of a text. -/
def lexemes (text : String) : List Lexeme :=
  lexemesFrom text.toList.length (.start text.toList)

end Grammar

end SchemaGrammar
