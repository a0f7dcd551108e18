import SchemaGrammar.Failure
import SchemaGrammar.Text.Digit
import SchemaGrammar.Text.Numeral
import SchemaGrammar.Text.Percent
import SchemaGrammar.Text.Split

set_option autoImplicit false

/-! # Pointers into a document

A local reference is `#`, the document itself, or `#/` and segments with slashes between them.
A segment is percent-encoded; in it `~1` stands for a slash and `~0` for a tilde. It names a
field of an object or, in digits, an item of a list. -/

namespace SchemaGrammar

namespace Pointer

/-- The text with every `~1` replaced by a slash. -/
def restoreSlashes : List Char → List Char
  | [] => []
  | '~' :: '1' :: rest => '/' :: restoreSlashes rest
  | c :: rest => c :: restoreSlashes rest

/-- The text with every `~0` replaced by a tilde. -/
def restoreTildes : List Char → List Char
  | [] => []
  | '~' :: '0' :: rest => '~' :: restoreTildes rest
  | c :: rest => c :: restoreTildes rest

/-- The key or index that a segment stands for. -/
def decodeSegment (cs : List Char) : List Char :=
  restoreTildes (restoreSlashes (Text.percentDecode cs))

/-- The decoded segments of a reference: what stands behind its first slash. -/
def segments (ref : String) : List (List Char) :=
  ((Text.splitAt '/' ref.toList).drop 1).map decodeSegment

/-- Is a reference a pointer into its own document? -/
def isLocal (ref : String) : Bool :=
  ref == "#" || ref.startsWith "#/"

/-- The index that a segment names: any digits, of which all have to be decimal. -/
def index? (segment : List Char) : Except Failure (Option Nat) :=
  if segment.isEmpty || !segment.all Text.isDigit then .ok none
  else match Text.readInt? 10 segment with
    | some n => .ok (some n.toNat)
    | none => .error (.misuse (.numeral (String.ofList segment)))

/-- The step that a segment takes from a value, if it leads anywhere. -/
def step? (v : Json) (segment : List Char) : Except Failure (Option Json.Step) :=
  match v with
  | .obj fields =>
    let key := String.ofList segment
    .ok (if Json.Fields.has fields key then some (.key key) else none)
  | .arr items => do
    match ← index? segment with
    | some i => return if i < items.length then some (.index i) else none
    | none => return none
  | _ => .ok none

/-- Follow segments from a value; the steps taken come with the value they lead to. -/
def follow (ref : String) : List (List Char) → Json → Except Failure (Json.Path × Json)
  | [], v => .ok ([], v)
  | segment :: rest, v => do
    let broken := (Failure.brokenReference ref (String.ofList segment) v).raised
    match ← step? v segment with
    | none => .error broken
    | some step =>
      match v.child? step with
      | none => .error broken
      | some w =>
        let (path, target) ← follow ref rest w
        return (step :: path, target)

end Pointer

end SchemaGrammar
