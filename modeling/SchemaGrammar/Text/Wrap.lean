import SchemaGrammar.Text.Blank
import SchemaGrammar.Text.Width

set_option autoImplicit false

/-! # Text in a column

A text is put into a column of so many cells. Its own line ends stay, and a line is broken in
front of a word that would not fit. A word that fits on no line is cut short. -/

namespace SchemaGrammar.Text

/-! ## Words -/

/-- A word has the blanks behind it with it, and the first word also those in front. A text of
    blanks is one word. -/
def wordsOf (line : List Char) : List (List Char) :=
  match line.splitBy fun a b => !isBlank a || isBlank b with
  | lead :: word :: rest => if lead.all isBlank then (lead ++ word) :: rest else lead :: word :: rest
  | short => short

/-! ## Words that fit on no line -/

/-- What is done with a word that is wider than the column. -/
inductive Overflow where
  /-- It is cut short. -/
  | ellipsis
  /-- It goes on in the next line. -/
  | fold
  deriving Repr, DecidableEq

/-- Clusters in pieces of at most `width` cells; `piece` is the current one and has `used` of
    them. -/
def chopClusters (width : Nat) (piece : List Char) (used : Nat) : List Cluster → List (List Char)
  | [] => if used = 0 then [] else [piece]
  | cluster :: rest =>
    if width < used + cluster.cells then
      piece :: chopClusters width cluster.chars cluster.cells rest
    else chopClusters width (piece ++ cluster.chars) (used + cluster.cells) rest

/-- The pieces that a word is put on lines in. -/
def Overflow.pieces (width : Nat) (word : List Char) : Overflow → List (List Char)
  | .ellipsis => [word]
  | .fold =>
    if width < cells (trimRight word) then chopClusters width [] 0 (clusters word) else [word]

/-! ## Lines -/

/-- Put words on lines of `width` cells, of which `used` are used up by `line`, the reversed
    beginning of the current one. -/
def fillLines (overflow : Overflow) (width : Nat) :
    List (List Char) → List Char → Nat → List (List Char)
  | [], line, _ => [line.reverse]
  | word :: rest, line, used =>
    if used + cells (trimRight word) ≤ width then
      fillLines overflow width rest (word.reverse ++ line) (used + cells word)
    else
      let pieces := overflow.pieces width word
      let last := pieces.getLastD []
      (if line.isEmpty then [] else [line.reverse]) ++ pieces.dropLast
        ++ fillLines overflow width rest last.reverse (cells last)

/-- Drop blanks from the end of a line, as long as it has more characters than `width`. -/
def dropSpareBlanks (width : Nat) (line : List Char) : List Char :=
  let spare := min (line.length - width) (line.reverse.takeWhile isBlank).length
  line.take (line.length - spare)

/-- A line that is too wide is cut. -/
def Overflow.cut (width : Nat) (line : List Char) (overflow : Overflow) : List Char :=
  if cells line ≤ width then line
  else match overflow with
    | .ellipsis => takeCells (width - 1) line ++ ['…']
    | .fold => takeCells width line

/-- The lines of a text in a column. -/
def wrap (overflow : Overflow) (width : Nat) (text : List Char) : List (List Char) :=
  (splitAt '\n' text).flatMap fun line =>
    (fillLines overflow width (wordsOf (expandTabs line)) [] 0).map fun line =>
      overflow.cut width (dropSpareBlanks width line)

end SchemaGrammar.Text
