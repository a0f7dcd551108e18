import SchemaGrammar.Cli.Markup
import SchemaGrammar.Number.Text
import SchemaGrammar.Text.Wrap

set_option autoImplicit false

/-! # What a command writes

Output is a list of blocks: lines, framed panels and tables. The one thing that is not known
before the command ends is how long it took, so a text is made of pieces, of which one stands
for that time. -/

namespace SchemaGrammar.Cli

/-- A part of a text: known, or the time that compiling took. -/
inductive Piece where
  | text (s : String)
  | elapsed
  deriving Repr, DecidableEq

abbrev Phrase := List Piece

/-- A time given in tenths of a millisecond. -/
def timeText (tenths : Nat) : String :=
  natText (tenths / 10) ++ "." ++ natText (tenths % 10) ++ " ms"

namespace Phrase

def plain (s : String) : Phrase := [.text s]

/-- The text of a phrase once the time is known. -/
def render (tenths : Nat) (phrase : Phrase) : String :=
  String.join (phrase.map fun
    | .text s => s
    | .elapsed => timeText tenths)

end Phrase

/-! ## Lines -/

def linesOf (s : String) : List String :=
  (Text.splitAt '\n' s.toList).map String.ofList

/-- A text whose tabs are blanks. -/
def withoutTabs (s : String) : String :=
  "\n".intercalate ((linesOf s).map fun line => String.ofList (Text.expandTabs line.toList))

/-- A text written to be piped on. -/
def piped (s : String) : String :=
  withoutTabs (displayedPlain s)

/-- The cells that the widest line of a text takes up. -/
def widestLine (s : String) : Nat :=
  ((Text.lines s).map fun line => Text.cells line.toList).foldl max 0

/-! ## Blocks -/

structure Column where
  head : String
  /-- The cells across. A column without a width is as wide as the widest line in it. -/
  width? : Option Nat
  overflow : Text.Overflow

namespace Column

def fixed (head : String) (width : Nat) : Column := ⟨head, some width, .ellipsis⟩

def flexible (head : String) (overflow : Text.Overflow) : Column := ⟨head, none, overflow⟩

/-- The column with its width settled by its cells. -/
def settle (column : Column) (cells : List String) : Column :=
  { column with
    width? := some (column.width?.getD ((cells.map widestLine).foldl max column.head.length)) }

def width (column : Column) : Nat := column.width?.getD 0

/-- The lines of a cell. -/
def cellLines (column : Column) (cell : String) : List String :=
  (Text.wrap column.overflow column.width cell.toList).map String.ofList

end Column

inductive Block where
  /-- Text that ends where it ends. -/
  | verbatim (text : String)
  | line (phrase : Phrase)
  | panel (title body : String)
  | table (title : String) (columns : List Column) (rows : List (List Phrase))

namespace Block

def say (s : String) : Block := .line (.plain s)

def blank : Block := say ""

/-! ### Cells -/

/-- A cell filled up with blanks. -/
def pad (width : Nat) (s : String) : String :=
  s ++ String.ofList (List.replicate (width - Text.cells s.toList) ' ')

/-! ### Frames -/

def rule (c : Char) (width : Nat) : String :=
  String.ofList (List.replicate width c)

/-- A frame line of a table. -/
def frame (left fill cross right : Char) (columns : List Column) : String :=
  left.toString ++ cross.toString.intercalate (columns.map fun c => rule fill (c.width + 2))
    ++ right.toString

/-- A row of a table: the lines of its cells side by side. -/
def rowLines (bar : Char) (columns : List Column) (cells : List String) : List String :=
  let blocks := columns.zipWith (fun column cell => (column, column.cellLines cell)) cells
  let height := (blocks.map fun (_, lines) => lines.length).foldl max 1
  (List.range height).map fun i =>
    bar.toString ++ String.join (blocks.map fun (column, lines) =>
      " " ++ pad column.width (lines.getD i "") ++ " " ++ bar.toString)

/-- The cells of a column. -/
def cellsAt (rows : List (List String)) (i : Nat) : List String :=
  rows.map fun row => row.getD i ""

def tableLines (title : String) (columns : List Column) (rows : List (List String)) :
    List String :=
  let columns := columns.zipIdx.map fun (column, i) => column.settle (cellsAt rows i)
  let total := (columns.map Column.width).foldl (· + ·) 0 + 3 * columns.length + 1
  [rule ' ' ((total - title.length) / 2) ++ title,
    frame '┏' '━' '┳' '┓' columns]
    ++ rowLines '┃' columns (columns.map Column.head)
    ++ [frame '┡' '━' '╇' '┩' columns]
    ++ rows.flatMap (rowLines '│' columns)
    ++ [frame '└' '─' '┴' '┘' columns]

def panelLines (title : String) (body : List String) : List String :=
  let width := (body.map fun line => Text.cells line.toList).foldl max (title.length + 2)
  ["╭─ " ++ title ++ " " ++ rule '─' (width - title.length - 1) ++ "╮"]
    ++ body.map (fun line => "│ " ++ pad width line ++ " │")
    ++ ["╰" ++ rule '─' (width + 2) ++ "╯"]

/-! ### Text -/

def lineText (lines : List String) : String :=
  String.join (lines.map fun line => line ++ "\n")

/-- The text of a block once the time is known. -/
def render (tenths : Nat) : Block → String
  | .verbatim text => text
  | .line phrase => lineText [withoutTabs (phrase.render tenths)]
  | .panel title body => lineText (panelLines title (linesOf (withoutTabs body)))
  | .table title columns rows =>
    lineText (tableLines title columns (rows.map fun row => row.map (Phrase.render tenths)))

end Block

/-- The text of blocks one after the other. -/
def renderBlocks (tenths : Nat) (blocks : List Block) : String :=
  String.join (blocks.map (Block.render tenths))

end SchemaGrammar.Cli
