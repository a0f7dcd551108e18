import SchemaGrammar.Failure

set_option autoImplicit false

/-! # The texts of failures

A failure has a message; one that a schema is to blame for also has a title, a formatted report
and a suggestion how to mend the schema. -/

namespace SchemaGrammar

/-! ## Messages -/

def Misuse.message : Misuse → String
  | .notIterable kind => "'" ++ kind.name ++ "' object is not iterable"
  | .noContents kind => "argument of type '" ++ kind.name ++ "' is not iterable"
  | .noFields .list => "list indices must be integers or slices, not str"
  | .noFields .text => "string indices must be integers, not 'str'"
  | .noFields kind => "'" ++ kind.name ++ "' object is not subscriptable"
  | .unordered sign left right =>
    "'" ++ sign ++ "' not supported between instances of '" ++ left.name ++ "' and '"
      ++ right.name ++ "'"
  | .noKey kind => "unhashable type: '" ++ kind.name ++ "'"
  | .lacks kind operation =>
    "'" ++ kind.name ++ "' object has no attribute '" ++ operation ++ "'"
  | .tooLarge => "int too large to convert to float"
  | .codePoint => "code point too large"
  | .numeral text => "invalid literal for int() with base 10: " ++ Text.quoted text
  | .unknownOption name => "unexpected option '" ++ name ++ "'"

/-- The message of a pattern's fault; all but a missing anchor name the place. -/
def PatternFault.message (fault : PatternFault) (pattern : String) (index : Nat) : String :=
  let atIndex (what : String) : String :=
    what ++ " at index " ++ natText index ++ " of /" ++ pattern ++ "/"
  match fault with
  | .unanchored => "Pattern must start with \"^\" and end with \"$\""
  | .unsupported text => atIndex ("Unsupported pattern syntax \"" ++ text ++ "\"")
  | .nothingToRepeat => atIndex "Nothing to repeat"
  | .quantifier body => atIndex ("Invalid quantifier \x7b" ++ body ++ "\x7d")
  | .danglingEscape => atIndex "Dangling escape"
  | .escape text => atIndex ("Invalid escape \"" ++ text ++ "\"")
  | .unbalanced what start =>
    "Unbalanced " ++ what ++ "; start = " ++ natText start ++ ", i = " ++ natText index
      ++ ", pattern = " ++ pattern

def GrammarFault.message : GrammarFault → String
  | .expectedName => "Expected rule name"
  | .expectedDefine => "Expected '::='"
  | .expectedClose => "Expected ')'"
  | .duplicateRule name => "Duplicate rule " ++ Text.quoted name
  | .undefinedRule name => "Undefined rule identifier " ++ Text.quoted name
  | .unexpected c => "Unexpected " ++ Text.quoted (String.singleton c)
  | .openLiteral => "Unterminated literal"
  | .openClass => "Unterminated character class"
  | .openBrace => "Unterminated '\x7b'"
  | .repetition body => "Invalid repetition \x7b" ++ body ++ "\x7d"
  | .danglingEscape => "Dangling escape"
  | .escape text => "Invalid escape \\" ++ text

/-- The message where a number has too many digits to be written. -/
def digitsMessage : String :=
  "Exceeds the limit (" ++ natText Text.maxNumeralDigits
    ++ " digits) for integer string conversion; use sys.set_int_max_str_digits() to increase "
    ++ "the limit"

def CountFault.message : CountFault → String
  | .crossed low high => "min_items " ++ low.shown ++ " is greater than max_items " ++ high.shown
  | .tooManyDigits => digitsMessage

def RangeFault.message : RangeFault → String
  | .unbounded => "At least one of min_value or max_value must be set"
  | .empty low high => "Empty integer range: " ++ intText low ++ " > " ++ intText high
  | .tooManyDigits => digitsMessage

def AddressFault.message : AddressFault → String
  | .brackets => "Invalid IPv6 URL"
  | .futureHost => "IPvFuture address is invalid"
  | .shortHost => "An IPv4 address cannot be in brackets"
  | .host text => Text.quoted text ++ " does not appear to be an IPv4 or IPv6 address"
  | .lookalike authority =>
    "netloc '" ++ authority ++ "' contains invalid characters under NFKC normalization"

namespace Issue

/-- The place as text; the top of the document has a name of its own. -/
def place (issue : Issue) : String :=
  if issue.path.isEmpty then "root" else "." ++ ".".intercalate issue.path

def text (issue : Issue) : String :=
  "At " ++ issue.place ++ ": " ++ issue.message

end Issue

namespace Failure

def message : Failure → String
  | .remoteReference ref => "Fetching remote schemas is not supported: " ++ ref
  | .unsupportedReference ref => "Unsupported ref " ++ ref
  | .unresolvedReference ref => "Unresolved ref " ++ ref.shown
  | .brokenReference ref segment target =>
    "Error resolving ref " ++ ref ++ ": " ++ segment ++ " not in " ++ target.compact
  | .pattern fault source index => fault.message source (index.getD 0)
  | .unrecognized schema => "Unrecognized schema: " ++ schema.compact
  | .unsatisfiableCount schema minKey maxKey fault =>
    "Unsatisfiable " ++ minKey ++ "/" ++ maxKey ++ " in schema " ++ schema.compact ++ ": "
      ++ fault.message
  | .invalidBound schema key value =>
    "Invalid " ++ key ++ " " ++ value.compact ++ " in schema: " ++ schema.compact
  | .unsatisfiableBounds schema fault =>
    "Unsatisfiable integer bounds in schema " ++ schema.compact ++ ": " ++ fault.message
  | .invalidSchema issues =>
    "\n".intercalate
      (("Schema failed metaschema validation with " ++ natText issues.length ++ " issue(s):")
        :: issues.map fun issue => "  - " ++ issue.text)
  | .unknownBuiltin name => "Rule " ++ name ++ " not known"
  | .builtinTaken name => "Rule " ++ name ++ " is already defined with a different body"
  | .grammar fault position =>
    fault.message ++ (match position with
      | some offset => " at offset " ++ natText offset
      | none => "")
  | .count fault => fault.message
  | .range fault => fault.message
  | .digitCeiling value => "max_int_digits must be at least 1, got " ++ value.shown
  | .address fault => fault.message
  | .misuse cause => cause.message
  | .tooManyDigits => digitsMessage
  | .endless => "the schemas to visit never end"

/-! ## Reports -/

/-- The title of a failure that a schema is to blame for. -/
def title? : Failure → Option String
  | .remoteReference _ | .unsupportedReference _ | .unresolvedReference _ =>
    some "UnsupportedRefError"
  | .brokenReference .. => some "BrokenRefError"
  | .pattern (.unbalanced ..) _ _ => some "UnbalancedPatternError"
  | .pattern .. => some "PatternSyntaxError"
  | .unrecognized _ | .unsatisfiableCount .. | .invalidBound .. | .unsatisfiableBounds .. =>
    some "UnrecognizedSchemaError"
  | .invalidSchema _ => some "InvalidSchemaError"
  | .unknownBuiltin _ | .builtinTaken _ => some "CatalogError"
  | _ => none

/-- The lines of a report that show where the failure lies. -/
def contextLines : Failure → List String
  | .remoteReference ref | .unsupportedReference ref | .brokenReference ref _ _ =>
    ["   Ref: " ++ ref]
  | .unresolvedReference ref => ["   Ref: " ++ ref.shown]
  | .pattern _ source index =>
    let lead := "   Pattern: /"
    (lead ++ source ++ "/") :: (match index with
      -- a caret under the character in question
      | some i => [String.ofList (List.replicate (lead.length + i) ' ') ++ "^"]
      | none => [])
  | _ => []

/-- The report of a failure that a schema is to blame for. -/
def report? (failure : Failure) : Option String :=
  failure.title?.map fun title =>
    "\n".intercalate
      (("❌ " ++ title) :: ("   Problem: " ++ failure.message) :: failure.contextLines)

/-! ## Suggestions -/

/-- The beginnings of references to other documents. -/
def remoteMarks : List String := ["http://", "https://"]

def isRemote (ref : String) : Bool :=
  remoteMarks.any fun mark => ref.startsWith mark

def suggestionForReference (ref : String) : String :=
  if isRemote ref then "Inline the remote schema under $defs and reference it as #/$defs/<name>"
  else "Use a local JSON pointer such as #/$defs/<name>"

/-- How to mend the schema. A reference that is no text has no suggestion. -/
def suggestion : Failure → Except Misuse String
  | .remoteReference ref | .unsupportedReference ref | .unresolvedReference (.str ref) =>
    .ok (suggestionForReference ref)
  | .unresolvedReference ref => .error (.lacks ref.kind "startswith")
  | .brokenReference _ segment _ =>
    .ok ("Define '" ++ segment ++ "' in the schema or fix the $ref path")
  | .pattern (.unbalanced ..) _ _ => .ok "Close every (, [ and \x7b in the pattern"
  | .pattern .. =>
    .ok "Anchor the pattern with ^...$ and avoid lookarounds, backreferences and \\b"
  | .unrecognized _ | .unsatisfiableCount .. | .invalidBound .. | .unsatisfiableBounds .. =>
    .ok ("Give the schema a supported type: string, number, integer, boolean, null, array or "
      ++ "object")
  | .invalidSchema _ => .ok "Fix the listed keywords, or compile without --check-schema"
  | .unknownBuiltin _ | .builtinTaken _ =>
    .ok "This is a bug in the built-in rule catalog; please report it"
  | _ => .ok "Check the schema requirements"

end Failure

end SchemaGrammar
