import SchemaGrammar.Json.Value
import SchemaGrammar.Text.Cursor
import SchemaGrammar.Text.Hex
import SchemaGrammar.Text.Numeral

set_option autoImplicit false

/-! # Reading JSON text

The reader takes RFC 8259 text and, beyond it, the names of the numbers that are not finite. It
reports the first fault with the offset at which it stands. Nesting is bounded by the length of
the text, so the recursion counts down from there. -/

namespace SchemaGrammar

namespace Json

open Text (Cursor)

/-! ## Faults -/

inductive Fault where
  | value
  | name
  | colon
  | comma
  | extra
  | openString
  | control
  | escape
  | unicodeEscape
  | byteOrderMark
  deriving Repr, DecidableEq

def Fault.message : Fault → String
  | .value => "Expecting value"
  | .name => "Expecting property name enclosed in double quotes"
  | .colon => "Expecting ':' delimiter"
  | .comma => "Expecting ',' delimiter"
  | .extra => "Extra data"
  | .openString => "Unterminated string starting at"
  | .control => "Invalid control character at"
  | .escape => "Invalid \\escape"
  | .unicodeEscape => "Invalid \\uXXXX escape"
  | .byteOrderMark => "Unexpected UTF-8 BOM (decode using utf-8-sig)"

/-- Why a text cannot be read: it is no JSON from some character on, or it holds a whole number
    with more digits than are taken. -/
inductive ReadError where
  | malformed (fault : Fault) (offset : Nat)
  | tooManyDigits (count : Nat)
  deriving Repr, DecidableEq

/-- The place of a character in a text as line, column and offset; lines and columns count from
    one. -/
def placeText (text : String) (offset : Nat) : String :=
  let before := text.toList.take offset
  let line := before.count '\n' + 1
  let column := (before.reverse.takeWhile (· ≠ '\n')).length + 1
  "line " ++ natText line ++ " column " ++ natText column ++ " (char " ++ natText offset ++ ")"

def ReadError.message (text : String) : ReadError → String
  | .malformed fault offset => fault.message ++ ": " ++ placeText text offset
  | .tooManyDigits count =>
    "Exceeds the limit (" ++ natText Text.maxNumeralDigits
      ++ " digits) for integer string conversion: value has " ++ natText count
      ++ " digits; use sys.set_int_max_str_digits() to increase the limit"

/-! ## Blanks and literals -/

def isJsonBlank (c : Char) : Bool :=
  c = ' ' || c = '\t' || c = '\n' || c = '\r'

def skipBlanks (k : Cursor) : Cursor :=
  k.skipWhile isJsonBlank

/-- The words that stand for a value. -/
def words : List (String × Json) :=
  [("null", .null), ("true", .bool true), ("false", .bool false), ("NaN", .num (.double .nan)),
    ("Infinity", .num (.double (.infinite false))),
    ("-Infinity", .num (.double (.infinite true)))]

/-- The word that a text starts with. -/
def word? (k : Cursor) : Option (Json × Cursor) :=
  words.findSome? fun (w, v) =>
    if w.toList.isPrefixOf k.rest then some (v, k.advance w.length) else none

/-! ## Numbers -/

def isAsciiDigit (c : Char) : Bool :=
  '0' ≤ c && c ≤ '9'

/-- The digits at the front of a text, and what follows them. -/
def digitSpan (cs : List Char) : List Char × List Char :=
  (cs.takeWhile isAsciiDigit, cs.dropWhile isAsciiDigit)

def naturalOf (ds : List Char) : Nat :=
  ds.foldl (fun n d => n * 10 + (d.toNat - 0x30)) 0

/-- The integer digits at the front of a text: a zero, or digits that start with none. -/
def integerDigits : List Char → Option (List Char × List Char)
  | '0' :: rest => some (['0'], rest)
  | cs => match digitSpan cs with
    | ([], _) => none
    | span => some span

/-- A point and digits; without digits there is no fraction. -/
def fractionDigits : List Char → List Char × List Char
  | '.' :: rest => match digitSpan rest with
    | ([], _) => ([], '.' :: rest)
    | span => span
  | cs => ([], cs)

/-- An exponent with its sign; without digits there is none. -/
def exponentOf (cs : List Char) : Option (Int × List Char) :=
  match cs with
  | e :: rest =>
    if e = 'e' || e = 'E' then
      let (negative, rest) := match rest with
        | '-' :: more => (true, more)
        | '+' :: more => (false, more)
        | _ => (false, rest)
      match digitSpan rest with
      | ([], _) => none
      | (ds, more) =>
        let n : Int := naturalOf ds
        some (if negative then -n else n, more)
    else none
  | [] => none

/-- A number: whole, unless it has a fraction or an exponent. Only a whole number is bounded in
    its digits. -/
def number (k : Cursor) : Except ReadError (Json × Cursor) :=
  let (negative, cs) := match k.rest with
    | '-' :: rest => (true, rest)
    | _ => (false, k.rest)
  match integerDigits cs with
  | none => .error (.malformed .value k.offset)
  | some (whole, afterWhole) =>
    let (fraction, afterFraction) := fractionDigits afterWhole
    let exponent := exponentOf afterFraction
    let rest := match exponent with
      | some (_, more) => more
      | none => afterFraction
    let next : Cursor := ⟨k.offset + (k.rest.length - rest.length), rest⟩
    if fraction.isEmpty && exponent.isNone then
      let n : Int := naturalOf whole
      if Text.maxNumeralDigits < whole.length then .error (.tooManyDigits whole.length)
      else .ok (.num (.whole (if negative then -n else n)), next)
    else
      let power := (exponent.map Prod.fst).getD 0 - fraction.length
      .ok (.num (.double (.ofDecimal negative (naturalOf (whole ++ fraction)) power)), next)

/-! ## Strings -/

/-- The value of four hexadecimal digits. -/
def unit? (a b c d : Char) : Option Nat := do
  let a ← Text.hexValue? a
  let b ← Text.hexValue? b
  let c ← Text.hexValue? c
  let d ← Text.hexValue? d
  return ((a * 16 + b) * 16 + c) * 16 + d

def isHighSurrogate (n : Nat) : Bool :=
  0xD800 ≤ n && n ≤ 0xDBFF

def isLowSurrogate (n : Nat) : Bool :=
  0xDC00 ≤ n && n ≤ 0xDFFF

/-- The character of an escaped unit; half a pair on its own is replaced. -/
def ofUnit (n : Nat) : Char :=
  if 0xD800 ≤ n && n ≤ 0xDFFF then Char.ofNat 0xFFFD else Char.ofNat n

def joinSurrogates (high low : Nat) : Char :=
  Char.ofNat (0x10000 + (high - 0xD800) * 0x400 + (low - 0xDC00))

/-- The character that a one-letter escape stands for. -/
def simpleEscape? : Char → Option Char
  | '"' => some '"'
  | '\\' => some '\\'
  | '/' => some '/'
  | 'b' => some '\x08'
  | 'f' => some '\x0c'
  | 'n' => some '\n'
  | 'r' => some '\r'
  | 't' => some '\t'
  | _ => none

/-- The escaped unit at the front of a text, if an escape starts there and the text goes on
    behind it; the unit itself may be ill-formed. -/
def escapedUnit? : List Char → Option (Option Nat)
  | '\\' :: 'u' :: a :: b :: c :: d :: _ :: _ => some (unit? a b c d)
  | _ => none

/-- Read the characters of a string up to its closing quote. `start` is the offset of the
    opening quote, `done` holds the characters so far in reverse. -/
def stringBody (start : Nat) (done : List Char) (i : Nat) (cs : List Char) :
    Except ReadError (List Char × Cursor) :=
  match cs with
  | [] => .error (.malformed .openString start)
  | '"' :: rest => .ok (done.reverse, ⟨i + 1, rest⟩)
  | '\\' :: 'u' :: rest =>
    match escapedUnit? ('\\' :: 'u' :: rest) with
    | some (some n) =>
      let behind := rest.drop 4
      match (if isHighSurrogate n then escapedUnit? behind else none) with
      | none => stringBody start (ofUnit n :: done) (i + 6) behind
      | some none => .error (.malformed .unicodeEscape (i + 7))
      | some (some m) =>
        if isLowSurrogate m then
          stringBody start (joinSurrogates n m :: done) (i + 12) (behind.drop 6)
        else stringBody start (ofUnit n :: done) (i + 6) behind
    | _ => .error (.malformed .unicodeEscape (i + 1))
  | '\\' :: c :: rest =>
    match simpleEscape? c with
    | some e => stringBody start (e :: done) (i + 2) rest
    | none => .error (.malformed .escape i)
  | ['\\'] => .error (.malformed .openString start)
  | c :: rest =>
    if c.toNat < 0x20 then .error (.malformed .control i)
    else stringBody start (c :: done) (i + 1) rest
termination_by cs.length
decreasing_by all_goals (simp_wf; try omega)

/-- Read a string whose opening quote has been passed. -/
def string (k : Cursor) : Except ReadError (String × Cursor) :=
  (stringBody (k.offset - 1) [] k.offset k.rest).map fun (cs, next) => (String.ofList cs, next)

/-! ## Values -/

mutual

/-- Read a value; `depth` bounds the recursion. -/
def value : Nat → Cursor → Except ReadError (Json × Cursor)
  | 0, k => .error (.malformed .value k.offset)
  | depth + 1, k =>
    match k.rest with
    | '"' :: _ => (string (k.advance 1)).map fun (s, next) => (.str s, next)
    | '[' :: _ =>
      let inside := skipBlanks (k.advance 1)
      match inside.peek? with
      | some ']' => .ok (.arr [], inside.advance 1)
      | _ => (items depth inside).map fun (vs, next) => (.arr vs, next)
    | '\x7b' :: _ =>
      let inside := skipBlanks (k.advance 1)
      match inside.peek? with
      | some '\x7d' => .ok (.obj [], inside.advance 1)
      | _ => (members depth inside).map fun (ps, next) => (.obj (Assoc.ofPairs ps), next)
    | _ => match word? k with
      | some found => .ok found
      | none => number k

/-- Read the items of a list up to its end. -/
def items : Nat → Cursor → Except ReadError (List Json × Cursor)
  | 0, k => .error (.malformed .value k.offset)
  | depth + 1, k => do
    let (v, next) ← value depth k
    let next := skipBlanks next
    match next.peek? with
    | some ']' => return ([v], next.advance 1)
    | some ',' =>
      let (vs, last) ← items depth (skipBlanks (next.advance 1))
      return (v :: vs, last)
    | _ => .error (.malformed .comma next.offset)

/-- Read the fields of an object up to its end. -/
def members : Nat → Cursor → Except ReadError (List (String × Json) × Cursor)
  | 0, k => .error (.malformed .name k.offset)
  | depth + 1, k => do
    match k.peek? with
    | some '"' =>
      let (key, next) ← string (k.advance 1)
      let next := skipBlanks next
      match next.peek? with
      | some ':' =>
        let (v, next) ← value depth (skipBlanks (next.advance 1))
        let next := skipBlanks next
        match next.peek? with
        | some '\x7d' => return ([(key, v)], next.advance 1)
        | some ',' =>
          let (ps, last) ← members depth (skipBlanks (next.advance 1))
          return ((key, v) :: ps, last)
        | _ => .error (.malformed .comma next.offset)
      | _ => .error (.malformed .colon next.offset)
    | _ => .error (.malformed .name k.offset)

end

/-- The value that a text holds. Each step of the recursion passes a character or is at most
    one step from doing so, which the bound allows for. -/
def ofText (text : String) : Except ReadError Json := do
  let cs := text.toList
  if cs.head? = some (Char.ofNat 0xFEFF) then .error (.malformed .byteOrderMark 0)
  let (v, next) ← value (2 * cs.length + 2) (skipBlanks (.start cs))
  let next := skipBlanks next
  if next.rest.isEmpty then return v else .error (.malformed .extra next.offset)

end Json

end SchemaGrammar
