import SchemaGrammar.Text.Blank
import SchemaGrammar.Text.Emoji

set_option autoImplicit false

/-! # Texts of users on display

Texts are displayed with style tags such as `[bold]` and emoji codes such as `:star:`. Those of
users are protected from being taken for tags, though not from being taken for codes. The
protection shows in two places: a backslash in front of a bracket that opens no tag is lost, and
a lone backslash at the end is doubled. -/

namespace SchemaGrammar.Cli

/-! ## Controls -/

/-- The control characters that a terminal would act on. -/
def isTerminalControl (c : Char) : Bool :=
  c.toNat == 7 || c.toNat == 8 || (11 ≤ c.toNat && c.toNat ≤ 13)

def dropControls (cs : List Char) : List Char :=
  cs.filter fun c => !isTerminalControl c

/-! ## Tags -/

/-- Do the characters behind a bracket make it the start of a tag? -/
def opensTag : List Char → Bool
  | [] => false
  | c :: rest =>
    (('a' ≤ c && c ≤ 'z') || c == '#' || c == '/' || c == '@')
      && (rest.takeWhile (· != '[')).contains ']'

/-- Cut a text around what looks like a tag and around the backslashes in front of it. `run` is
    the reversed beginning of the current piece. -/
def cutTags (inTag : Bool) (run : List Char) : List Char → List (List Char)
  | [] => [run.reverse]
  | c :: rest =>
    if inTag then
      if c = ']' then (c :: run).reverse :: cutTags false [] rest
      else cutTags true (c :: run) rest
    else if c = '[' && opensTag rest then
      (run.dropWhile (· == '\\')).reverse :: run.takeWhile (· == '\\') :: cutTags true [c] rest
    else cutTags false (c :: run) rest

/-- A backslash in front of a bracket is lost. -/
def dropBracketEscapes : List Char → List Char
  | [] => []
  | '\\' :: '[' :: rest => '[' :: dropBracketEscapes rest
  | c :: rest => c :: dropBracketEscapes rest

/-! ## Emoji codes -/

/-- How an emoji is to look, as the end of a code may say. -/
def looks : List (String × Char) :=
  [("-emoji", Char.ofNat 0xFE0F), ("-text", Char.ofNat 0xFE0E)]

/-- The emoji of a code without its colons. -/
def emoji? (code : List Char) : Option (List Char) :=
  match looks.find? fun (ending, _) => ending.toList.isSuffixOf code with
  | some (ending, look) =>
    (Text.Emoji.ofName? (code.take (code.length - ending.length))).map fun e => e.toList ++ [look]
  | none => (Text.Emoji.ofName? code).map String.toList

/-- What a code in colons is displayed as. -/
def codeText (code : List Char) : List Char :=
  (emoji? code).getD (':' :: code ++ [':'])

/-- Display the emoji codes of a text. A code has no blank in it and ends at the next colon;
    `open?` is the reversed beginning of one. -/
def showCodes (open? : Option (List Char)) : List Char → List Char
  | [] => match open? with
    | none => []
    | some code => ':' :: code.reverse
  | c :: rest =>
    match open? with
    | none => if c = ':' then showCodes (some []) rest else c :: showCodes none rest
    | some code =>
      if c = ':' then codeText code.reverse ++ showCodes none rest
      else if Text.isBlank c then ':' :: code.reverse ++ c :: showCodes none rest
      else showCodes (some (c :: code)) rest

/-! ## Display -/

def endsInLoneBackslash (cs : List Char) : Bool :=
  (cs.reverse.takeWhile (· == '\\')).length == 1

/-- A user's text as it is displayed. -/
def displayed (s : String) : String :=
  let cs := s.toList ++ (if endsInLoneBackslash s.toList then ['\\'] else [])
  let shown := (cutTags false [] cs).flatMap fun piece =>
    showCodes none (dropBracketEscapes piece)
  String.ofList (dropControls shown)

/-- A text that is displayed as it is, except for what a terminal would act on. -/
def displayedPlain (s : String) : String :=
  String.ofList (dropControls s.toList)

end SchemaGrammar.Cli
