import SchemaGrammar.Failure
import SchemaGrammar.Text.Alphanumeric
import SchemaGrammar.Text.Cursor
import SchemaGrammar.Text.Numeral
import SchemaGrammar.Text.Split

set_option autoImplicit false

/-! # The tokens of a pattern

A pattern is cut into tokens from left to right. Plain characters and escapes that follow each
other are one literal, except that a character which a quantifier follows starts a literal of
its own. A token that cannot be read carries its fault. -/

namespace SchemaGrammar

namespace Pattern

open Text (Cursor)

inductive Token where
  | dot
  | groupOpen
  /-- A group with an extension, which no grammar can follow. -/
  | extension
  | groupClose
  /-- A class or shorthand class as a grammar writes it. -/
  | charClass (text : String)
  /-- A class without its closing bracket. -/
  | openClass
  | bar
  /-- One of the three quantifiers of one character. -/
  | quantifier (mark : Char)
  /-- A quantifier in braces. -/
  | counts (low : Int) (high : Option Int)
  | openBraces
  | badCounts (body : String)
  /-- A literal as a grammar writes it between its quotes. -/
  | literal (text : String)
  | broken (fault : PatternFault)
  deriving Repr

/-- A token with the offsets of its start and of the place where reading it stopped. -/
structure Lexeme where
  start : Nat
  stop : Nat
  token : Token
  deriving Repr

/-! ## Characters -/

/-- The characters that do not stand for themselves. -/
def operators : List Char := ['|', '.', '(', ')', '[', ']', '\x7b', '\x7d', '*', '+', '?']

/-- The characters that start a quantifier. -/
def quantifiers : List Char := ['*', '+', '?', '\x7b']

/-- The characters that a pattern escapes and a literal does not. -/
def escapedOperators : List Char :=
  ['^', '$', '.', '[', ']', '(', ')', '|', '\x7b', '\x7d', '*', '+', '?']

/-- The class that an escaped letter stands for. -/
def shorthand? : Char → Option String
  | 'd' => some "[0-9]"
  | 'D' => some "[^0-9]"
  | 'w' => some "[0-9A-Za-z_]"
  | 'W' => some "[^0-9A-Za-z_]"
  | 's' => some "[ \\t\\n\\r]"
  | 'S' => some "[^ \\t\\n\\r]"
  | _ => none

/-- How many digits an escape by number has. -/
def escapeWidth? : Char → Option Nat
  | 'x' => some 2
  | 'u' => some 4
  | _ => none

/-- A plain character inside a literal. -/
def plainText (c : Char) : List Char :=
  if c = '"' then ['\\', '"']
  else if c = '\n' then ['\\', 'n']
  else if c = '\r' then ['\\', 'r']
  else [c]

/-- What the escape of `c` is inside a literal, given the characters behind `c`, and the length
    of the whole escape. -/
def escapeText (c : Char) (rest : List Char) : Except PatternFault (List Char × Nat) :=
  if escapedOperators.contains c then .ok ([c], 2)
  else match escapeWidth? c with
    | some width =>
      let digits := rest.take width
      if digits.length = width && digits.all Text.isHexDigit then
        .ok ('\\' :: c :: digits, 2 + width)
      else .error (.escape (String.ofList ('\\' :: c :: digits)))
    | none =>
      if c = 'n' || c = 'r' || c = 't' || c = '\\' || c = '"' then .ok (['\\', c], 2)
      else if Text.isAlphanumeric c then .error (.unsupported (String.ofList ['\\', c]))
      else .ok ([c], 2)

/-! ## Literals -/

/-- May a plain character join a literal that has text already, given what follows it? -/
def joinsLiteral : List Char → Bool
  | [] => true
  | next :: _ => next = '.' || !operators.contains next

def quantifierFollows : List Char → Bool
  | c :: _ => quantifiers.contains c
  | [] => false

/-- Read a literal on from `k`, where `done` holds its text so far in reverse. Every step passes
    a character, so the length of the text bounds the `steps`. A fault comes with its offset. -/
def literalFrom : Nat → List Char → Cursor → Except (PatternFault × Nat) (List Char × Cursor)
  | 0, done, k => .ok (done.reverse, k)
  | steps + 1, done, k =>
    match k.rest with
    | [] => .ok (done.reverse, k)
    | '\\' :: [] => .error (.danglingEscape, k.offset)
    | '\\' :: c :: rest =>
      if (shorthand? c).isSome then .ok (done.reverse, k)
      else match escapeText c rest with
        | .error fault => .error (fault, k.offset)
        | .ok (text, length) =>
          let next := k.advance length
          if !done.isEmpty && quantifierFollows next.rest then .ok (done.reverse, k)
          else literalFrom steps (text.reverse ++ done) next
    | c :: rest =>
      if !operators.contains c && (done.isEmpty || joinsLiteral rest) then
        literalFrom steps ((plainText c).reverse ++ done) (k.advance 1)
      else if (c = ']' || c = '\x7d') && done.isEmpty then
        -- a closing bracket that closes nothing stands for itself
        literalFrom steps [c] (k.advance 1)
      else .ok (done.reverse, k)

/-! ## Classes and counts -/

/-- How many characters a class takes up to its closing bracket, and whether there is one. An
    escape takes two characters, even if the text ends behind its backslash. -/
def classLength : List Char → Nat × Bool
  | [] => (0, false)
  | ']' :: _ => (0, true)
  | '\\' :: _ :: rest => let (n, closed) := classLength rest; (n + 2, closed)
  | '\\' :: [] => (2, false)
  | _ :: rest => let (n, closed) := classLength rest; (n + 1, closed)

/-- The counts that stand between braces. A missing least count is zero. -/
def countsOf (body : List Char) : Option (Int × Option Int) :=
  match (Text.splitAt ',' body).map Text.trim with
  | [count] => (Text.readInt? 10 count).map fun n => (n, some n)
  | [low, high] => do
    let n ← if low.isEmpty then some 0 else Text.readInt? 10 low
    let m ← if high.isEmpty then some none else (Text.readInt? 10 high).map some
    return (n, m)
  | _ => none

def charClass (k : Cursor) : Token × Cursor :=
  let (length, closed) := classLength (k.rest.drop 1)
  if closed then
    (.charClass (String.ofList (k.rest.take (length + 2))), k.advance (length + 2))
  else (.openClass, k.advance (length + 1))

def braces (k : Cursor) : Token × Cursor :=
  let inside := k.advance 1
  let body := inside.rest.takeWhile (· ≠ '\x7d')
  let behind := inside.advance body.length
  if behind.rest.isEmpty then (.openBraces, behind)
  else match countsOf body with
    | some (low, high) => (.counts low high, behind.advance 1)
    | none => (.badCounts (String.ofList body), behind.advance 1)

/-! ## Tokens -/

/-- A literal, or the fault in it. -/
def literal (k : Cursor) : Token × Cursor :=
  match literalFrom k.rest.length [] k with
  | .ok (text, next) => (.literal (String.ofList text), next)
  | .error (fault, offset) => (.broken fault, ⟨offset, []⟩)

/-- The token at the front of a text that is not empty, and the place where reading it stops. -/
def token (k : Cursor) : Token × Cursor :=
  match k.rest with
  | '.' :: _ => (.dot, k.advance 1)
  | '(' :: '?' :: _ => (.extension, k.advance 1)
  | '(' :: _ => (.groupOpen, k.advance 1)
  | ')' :: _ => (.groupClose, k.advance 1)
  | '[' :: _ => charClass k
  | '|' :: _ => (.bar, k.advance 1)
  | '*' :: _ => (.quantifier '*', k.advance 1)
  | '+' :: _ => (.quantifier '+', k.advance 1)
  | '?' :: _ => (.quantifier '?', k.advance 1)
  | '\x7b' :: _ => braces k
  | '\\' :: c :: _ =>
    match shorthand? c with
    | some text => (.charClass text, k.advance 2)
    | none => literal k
  | _ => literal k

/-- The tokens from a place on. Every token has a character, so the length of the text bounds
    their number. -/
def lexemesFrom : Nat → Cursor → List Lexeme
  | 0, _ => []
  | steps + 1, k =>
    if k.rest.isEmpty then []
    else
      let (t, next) := token k
      ⟨k.offset, next.offset, t⟩ :: lexemesFrom steps next

def lexemes (cs : List Char) : List Lexeme :=
  lexemesFrom cs.length (.start cs)

end Pattern

end SchemaGrammar
