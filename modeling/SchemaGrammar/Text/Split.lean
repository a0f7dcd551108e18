set_option autoImplicit false

/-! # Cutting a text at a character or a mark -/

namespace SchemaGrammar.Text

/-- The parts between the separators; there is one part more than there are separators. -/
def splitAt (separator : Char) : List Char → List (List Char)
  | [] => [[]]
  | c :: rest =>
    if c = separator then [] :: splitAt separator rest
    else match splitAt separator rest with
      | part :: parts => (c :: part) :: parts
      | [] => [[c]]

/-- What stands before the first occurrence of a mark and what stands behind it; without an
    occurrence all stands before. -/
def cutAt (mark : List Char) : List Char → List Char × List Char
  | [] => ([], [])
  | c :: rest =>
    if mark.isPrefixOf (c :: rest) then ([], (c :: rest).drop mark.length)
    else
      let (before, behind) := cutAt mark rest
      (c :: before, behind)

end SchemaGrammar.Text
