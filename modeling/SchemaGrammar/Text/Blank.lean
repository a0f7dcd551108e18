import SchemaGrammar.Text.Ranges

set_option autoImplicit false

/-! # Blank characters, trimming and lines

Blanks are the characters with the bidirectional class of a separator or the category of a
space, ASCII or not. Lines end at the usual line feeds and also at the separators that Unicode
and older devices know; a text that ends with a line end has no empty last line. -/

namespace SchemaGrammar.Text

def blanks : Ranges :=
  [(0x9, 0xD), (0x1C, 0x20), (0x85, 0x85), (0xA0, 0xA0), (0x1680, 0x1680), (0x2000, 0x200A),
    (0x2028, 0x2029), (0x202F, 0x202F), (0x205F, 0x205F), (0x3000, 0x3000)]

def isBlank (c : Char) : Bool :=
  blanks.holds c

/-! ## Trimming -/

def trimLeft (cs : List Char) : List Char :=
  cs.dropWhile isBlank

def trimRight (cs : List Char) : List Char :=
  (cs.reverse.dropWhile isBlank).reverse

/-- The text without the blanks at both ends. -/
def trim (cs : List Char) : List Char :=
  trimRight (trimLeft cs)

/-- A string without the blanks at its end. -/
def dropTrailingBlanks (s : String) : String :=
  String.ofList (trimRight s.toList)

/-! ## Lines -/

/-- The characters that end a line. -/
def lineEnds : Ranges :=
  [(0xA, 0xD), (0x1C, 0x1E), (0x85, 0x85), (0x2028, 0x2029)]

def endsLine (c : Char) : Bool :=
  lineEnds.holds c

/-- The lines of a text after `line`, the reversed beginning of the current one. A carriage
    return and the line feed after it end one line together. -/
def linesFrom : List Char → List Char → List (List Char)
  | [], [] => []
  | line, [] => [line.reverse]
  | line, '\r' :: '\n' :: rest => line.reverse :: linesFrom [] rest
  | line, c :: rest =>
    if endsLine c then line.reverse :: linesFrom [] rest else linesFrom (c :: line) rest

def lines (s : String) : List String :=
  (linesFrom [] s.toList).map String.ofList

/-- A text in which carriage returns, with or without a line feed after them, are line feeds. -/
def unifyLineEnds : List Char → List Char
  | [] => []
  | '\r' :: '\n' :: rest => '\n' :: unifyLineEnds rest
  | c :: rest => (if c = '\r' then '\n' else c) :: unifyLineEnds rest

end SchemaGrammar.Text
