set_option autoImplicit false

/-! # A place in a text that is being read -/

namespace SchemaGrammar.Text

/-- How many characters have been read, and those that follow. -/
structure Cursor where
  offset : Nat
  rest : List Char
  deriving Repr

namespace Cursor

def start (cs : List Char) : Cursor :=
  ⟨0, cs⟩

/-- The place some characters further on. -/
def advance (k : Cursor) (count : Nat) : Cursor :=
  ⟨k.offset + count, k.rest.drop count⟩

/-- The place behind a run of characters. -/
def skipWhile (p : Char → Bool) (k : Cursor) : Cursor :=
  k.advance (k.rest.takeWhile p).length

def peek? (k : Cursor) : Option Char :=
  k.rest.head?

end Cursor

end SchemaGrammar.Text
