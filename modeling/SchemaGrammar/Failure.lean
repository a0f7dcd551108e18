import SchemaGrammar.Json.Writer

set_option autoImplicit false

/-! # What can go wrong

Every failure is a cause with what it is about; texts are made from it in one place
(`SchemaGrammar.Diagnosis`). Most causes are faults of a schema, a pattern or a grammar. A
`Misuse` is a value of a kind that an operation does not take, such as a number where a list of
schemas belongs. -/

namespace SchemaGrammar

/-- A value used as its kind does not allow. -/
inductive Misuse where
  /-- There is nothing in the value to go through. -/
  | notIterable (kind : Json.Kind)
  /-- One cannot ask what the value contains. -/
  | noContents (kind : Json.Kind)
  /-- A text or a list is asked for a field. -/
  | noFields (kind : Json.Kind)
  /-- Two values without an order are compared; `sign` is the comparison. -/
  | unordered (sign : String) (left right : Json.Kind)
  /-- A list or an object stands where a key belongs. -/
  | noKey (kind : Json.Kind)
  /-- The value has no operation of that name. -/
  | lacks (kind : Json.Kind) (operation : String)
  /-- A whole number is too large for a double. -/
  | tooLarge
  /-- An escape names a number far above every code point. -/
  | codePoint
  /-- Digits that are not all decimal are read as a number. -/
  | numeral (text : String)
  /-- An option that does not exist. -/
  | unknownOption (name : String)
  deriving Repr, DecidableEq

/-- Why a pattern cannot become a rule. -/
inductive PatternFault where
  | unanchored
  | unsupported (text : String)
  | nothingToRepeat
  | quantifier (body : String)
  | danglingEscape
  | escape (text : String)
  /-- Something opened is not closed, or the other way round; `start` is where the innermost
      group begins. -/
  | unbalanced (what : String) (start : Nat)
  deriving Repr, DecidableEq

/-- Why a text is no grammar. -/
inductive GrammarFault where
  | expectedName
  | expectedDefine
  | expectedClose
  | duplicateRule (name : String)
  | undefinedRule (name : String)
  | unexpected (c : Char)
  | openLiteral
  | openClass
  | openBrace
  | repetition (body : String)
  | danglingEscape
  | escape (text : String)
  deriving Repr, DecidableEq

/-- Why a repetition cannot be written. -/
inductive CountFault where
  /-- The least count is above the greatest. -/
  | crossed (low high : Json)
  /-- A count has too many digits. -/
  | tooManyDigits
  deriving Repr

/-- Why a range of integers cannot be written. -/
inductive RangeFault where
  | unbounded
  | empty (low high : Int)
  /-- A bound or the ceiling has too many digits. -/
  | tooManyDigits
  deriving Repr, DecidableEq

/-- Why a text is no address. -/
inductive AddressFault where
  /-- A bracket without its partner. -/
  | brackets
  /-- The host has a version that cannot be read. -/
  | futureHost
  /-- A host that needs no brackets has them. -/
  | shortHost
  /-- The host in brackets is not numeric. -/
  | host (text : String)
  /-- The authority holds a letter that stands for a mark. -/
  | lookalike (authority : String)
  deriving Repr, DecidableEq

/-- A place in a schema that breaks a rule of the metaschema. -/
structure Issue where
  /-- The steps to the place, as text. -/
  path : List String
  message : String
  /-- The keyword of the metaschema that is broken. -/
  keyword : String
  value : Json
  deriving Repr

inductive Failure where
  | remoteReference (ref : String)
  | unsupportedReference (ref : String)
  | unresolvedReference (ref : Json)
  | brokenReference (ref segment : String) (target : Json)
  | pattern (fault : PatternFault) (source : String) (index : Option Nat)
  | unrecognized (schema : Json)
  | unsatisfiableCount (schema : Json) (minKey maxKey : String) (fault : CountFault)
  | invalidBound (schema : Json) (key : String) (value : Json)
  | unsatisfiableBounds (schema : Json) (fault : RangeFault)
  | invalidSchema (issues : List Issue)
  | unknownBuiltin (name : String)
  | builtinTaken (name : String)
  | grammar (fault : GrammarFault) (position : Option Nat)
  | count (fault : CountFault)
  | range (fault : RangeFault)
  | digitCeiling (value : Json)
  | address (fault : AddressFault)
  | misuse (cause : Misuse)
  /-- A number has too many digits to be written. -/
  | tooManyDigits
  /-- The schemas to visit never end. -/
  | endless
  deriving Repr

/-- The fault of counts in the wrong order, which shows them. -/
def CountFault.ofCounts (low high : Json) : CountFault :=
  if low.isWritable && high.isWritable then .crossed low high else .tooManyDigits

namespace Failure

/-- The values that the message of a failure shows. -/
def shownValues : Failure → List Json
  | .unresolvedReference ref => [ref]
  | .brokenReference _ _ target => [target]
  | .unrecognized schema | .unsatisfiableCount schema .. | .unsatisfiableBounds schema _ => [schema]
  | .invalidBound schema _ value => [value, schema]
  | .digitCeiling value => [value]
  | _ => []

/-- What comes of raising a failure. Its message is written first, which fails itself if a value in
    it cannot be written. -/
def raised (failure : Failure) : Failure :=
  if failure.shownValues.all Json.isWritable then failure else .tooManyDigits

end Failure

end SchemaGrammar
