import SchemaGrammar.Exclusion.Trie
import SchemaGrammar.Grammar.Literal
import SchemaGrammar.Rules.Table

set_option autoImplicit false

/-! # Any string but these

An expression for every JSON string that is not one of the given texts, used for the keys of
additional properties. The texts are put in a trie in the form they have between the quotes of
a JSON string. At each node of the trie the expression goes along an edge or leaves the trie,
and it may not stop where a text ends. As an edge can lie inside an escape, each node knows which
part of a character it stands in, and leaving it offers only what may follow there. -/

namespace SchemaGrammar

namespace Exclusion

/-- Where one stands within a character of a JSON string. -/
inductive Place where
  /-- Between two characters. -/
  | boundary
  /-- Right behind a backslash. -/
  | escape
  /-- Inside an escape by number that needs more hexadecimal digits. -/
  | digits (missing : Nat)
  deriving Repr, DecidableEq

/-- The place behind one more character. -/
def Place.next : Place → Char → Place
  | .boundary, c => if c = '\\' then .escape else .boundary
  | .escape, c => if c = 'u' then .digits 4 else .boundary
  | .digits missing, _ => if 1 < missing then .digits (missing - 1) else .boundary

/-! ## Leaving the trie -/

def classText (cs : List Char) : String :=
  String.ofList (cs.flatMap Grammar.classChar)

/-- So many hexadecimal digits. -/
def hexTimes (count : Nat) : String :=
  Builtin.times Builtin.hex (natText count)

/-- The characters that no JSON string holds unescaped, as the content of a class. -/
def neverRaw : String := "\"\\\\\\x7F\\x00-\\x1F"

/-- The letters of escapes, apart from the one by number. -/
def escapeLetters : List Char := ['"', '\\', 'b', 'f', 'n', 'r', 't']

def hexLetters : List Char := "0123456789abcdefABCDEF".toList

/-- The ways to go on from a place without taking one of the edges; `char` is the rule for one
    character of a string. -/
def leaving (place : Place) (edges : List Char) (char : String) : List String :=
  match place with
  | .boundary =>
    let raw := "[^" ++ neverRaw ++ classText edges ++ "] " ++ char ++ "*"
    if edges.contains '\\' then [raw]
    else [raw, "[\\\\] ([\"\\\\bfnrt] | \"u\" " ++ hexTimes 4 ++ ") " ++ char ++ "*"]
  | .escape =>
    let letters := escapeLetters.filter fun c => !edges.contains c
    let plain := if letters.isEmpty then [] else ["[" ++ classText letters ++ "] " ++ char ++ "*"]
    let byNumber :=
      if edges.contains 'u' then [] else ["\"u\" " ++ hexTimes 4 ++ " " ++ char ++ "*"]
    plain ++ byNumber
  | .digits missing =>
    let others := hexLetters.filter fun c => !edges.contains c
    if others.isEmpty then []
    else
      let tail := if 1 < missing then " " ++ hexTimes (missing - 1) else ""
      ["[" ++ String.ofList others ++ "]" ++ tail ++ " " ++ char ++ "*"]

/-! ## Along the trie -/

/-- Branches by the character they start with, in the order of these characters. -/
def sortBranches (branches : List (Char × String)) : List (Char × String) :=
  branches.mergeSort fun a b => a.1 ≤ b.1

mutual

/-- The ways to go on from a node: along its edges in their order, or off the trie. -/
def branches (char : String) (place : Place) : Trie → String
  | .node _ kids =>
    let sorted := sortBranches (edgeBranches char place kids)
    " | ".intercalate (sorted.map Prod.snd ++ leaving place (sorted.map Prod.fst) char)

/-- The branch of each edge. A string may stop behind an edge only between two characters and
    where no text ends. -/
def edgeBranches (char : String) (place : Place) : List (Char × Trie) → List (Char × String)
  | [] => []
  | (c, kid) :: rest =>
    let next := place.next c
    let taken := "[" ++ classText [c] ++ "]"
    let branch :=
      if kid.edges.isEmpty then if kid.ends then taken ++ " " ++ char ++ "+" else taken
      else
        taken ++ " (" ++ branches char next kid ++ ")"
          ++ (if next = .boundary && !kid.ends then "?" else "")
    (c, branch) :: edgeBranches char place rest

end

/-- The body of a rule for any JSON string whose content is not in the trie. -/
def body (char : String) (trie : Trie) : String :=
  if trie.edges.isEmpty then
    "[\"] " ++ char ++ (if trie.ends then "+" else "*") ++ " [\"] space"
  else
    "[\"] ( " ++ branches char .boundary trie ++ " )" ++ (if trie.ends then "" else "?")
      ++ " [\"] space"

/-- What stands between the quotes of a value's JSON text. -/
def content (v : Json) : List Char :=
  (v.compact.toList.drop 1).dropLast

/-- The body of a rule for any string but the given values; the rule for characters is added
    to the table. -/
def bodyFor (values : List Json) : TableM String := do
  let trie := Trie.ofTexts (values.map content)
  let char ← RuleTable.addNamed "char" "char"
  return body char trie

end Exclusion

end SchemaGrammar
