import SchemaGrammar.Cli.Path
import SchemaGrammar.Number.Text
import SchemaGrammar.Text.Numeral
import SchemaGrammar.Text.Quoted
import SchemaGrammar.Text.Split

set_option autoImplicit false

/-! # The command line

The words of a command line are sorted into uses of options and operands first, which needs
only the options' names. Then the uses become a `Request`. Options of the program stand in front
of the command; those of a command stand anywhere behind it. -/

namespace SchemaGrammar.Cli

/-! ## Options -/

/-- The digit ceiling when none is given. -/
def standardMaxDigits : Nat := 16

structure Switch where
  long : String
  short? : Option Char
  takesValue : Bool
  /-- The placeholder for a value in the help text. -/
  valueName : String
  purpose : String

namespace Switch

/-- How a message names an option. -/
def label (switch : Switch) : String :=
  match switch.short? with
  | some c => Text.quoted switch.long ++ " / " ++ Text.quoted ("-" ++ c.toString)
  | none => Text.quoted switch.long

def flag (long : String) (short? : Option Char) (purpose : String) : Switch :=
  ⟨long, short?, false, "<bool>", purpose⟩

def help : Switch := flag "--help" none "Show this message and exit."
def version : Switch := flag "--version" none "Show version and exit"
def verbose : Switch := flag "--verbose" (some 'v') "Log compilation details to stderr"

def schema : Switch :=
  ⟨"--schema", some 's', true, "<file>", "Path to JSON schema file"⟩

def output : Switch :=
  ⟨"--output", some 'o', true, "<path>", "Path to save the grammar (default: stdout)"⟩

def samples : Switch :=
  ⟨"--json", some 'j', true, "<list[Path]>", "JSON file to check (can be used multiple times)"⟩

def order : Switch :=
  ⟨"--prop-order", none, true, "<list[str]>",
    "Emit this property first (repeat to order several)"⟩

def dotAll : Switch := flag "--dotall" none "Let '.' in patterns match newlines"

def maxDigits : Switch :=
  ⟨"--max-int-digits", none, true, "<int range> [x>=1]",
    "Digit ceiling for integer ranges with an open side [default: "
      ++ natText standardMaxDigits ++ "]"⟩

def checkSchema : Switch :=
  flag "--check-schema" none "Validate the schema against its metaschema first"

def showSchema : Switch :=
  flag "--show-schema" none "Display the schema before compiling"

def showRules : Switch :=
  flag "--show-rules" none "Display a table of generated rules"

end Switch

inductive Command where
  | compile
  | check
  deriving Repr, DecidableEq

namespace Command

def name : Command → String
  | .compile => "compile"
  | .check => "check"

def all : List Command := [.compile, .check]

def ofName? (name : String) : Option Command :=
  all.find? fun command => command.name == name

def summary : Command → String
  | .compile => "Compile a JSON schema to a GBNF grammar."
  | .check => "Check whether the grammar compiled from a schema accepts JSON samples."

/-- The lines of an example of use. -/
def usageExample : Command → List String
  | .compile =>
    ["schema-gbnf compile \\", "    --schema person.json \\",
      "    --prop-order name --prop-order age \\", "    --output person.gbnf"]
  | .check =>
    ["schema-gbnf check \\", "    --schema person.json \\", "    --json alice.json \\",
      "    --json bob.json"]

def switches : Command → List Switch
  | .compile => [.schema, .output, .order, .dotAll, .maxDigits, .checkSchema, .showSchema,
      .showRules, .help]
  | .check => [.schema, .samples, .order, .dotAll, .maxDigits, .checkSchema, .showSchema, .help]

end Command

/-- The options that stand in front of a command. -/
def programSwitches : List Switch := [.version, .verbose, .help]

/-! ## Faults -/

/-- Why a command line asks for nothing that can be done. -/
inductive UsageFault where
  | noSuchOption (name : String)
  | noValue (name : String)
  | unwantedValue (name : String)
  | missingOption (switch : Switch)
  | invalidValue (switch : Switch) (reason : String)
  | extraArguments (words : List String)
  | noSuchCommand (name : String)

def UsageFault.message : UsageFault → String
  | .noSuchOption name => "No such option: " ++ name
  | .noValue name => "Option " ++ Text.quoted name ++ " requires an argument."
  | .unwantedValue name => "Option " ++ Text.quoted name ++ " does not take a value."
  | .missingOption switch => "Missing option " ++ switch.label ++ "."
  | .invalidValue switch reason => "Invalid value for " ++ switch.label ++ ": " ++ reason
  | .extraArguments words =>
    "Got unexpected extra argument" ++ (if words.length == 1 then "" else "s") ++ " ("
      ++ " ".intercalate words ++ ")"
  | .noSuchCommand name => "No such command " ++ Text.quoted name ++ "."

/-! ## Sorting words -/

/-- An option that was used, by its long name; a flag has an empty value. -/
structure Use where
  name : String
  value : String
  deriving Repr, DecidableEq

/-- The words of a command line, sorted. -/
structure Sorted where
  uses : List Use
  operands : List String
  deriving Repr, DecidableEq

namespace Sorted

def use (sorted : Sorted) (uses : List Use) : Sorted :=
  { sorted with uses := uses ++ sorted.uses }

def operand (sorted : Sorted) (word : String) : Sorted :=
  { sorted with operands := word :: sorted.operands }

def has (sorted : Sorted) (switch : Switch) : Bool :=
  sorted.uses.any fun u => u.name == switch.long

/-- All values that an option was given. -/
def values (sorted : Sorted) (switch : Switch) : List String :=
  (sorted.uses.filter fun u => u.name == switch.long).map Use.value

/-- The last value that an option was given. -/
def value? (sorted : Sorted) (switch : Switch) : Option String :=
  (sorted.values switch).getLast?

end Sorted

/-- What one word says: the options it uses, and the option that takes the next word, if one
    does. -/
structure WordUses where
  uses : List Use
  pending? : Option Switch

/-- A word of short options, such as `-vsFILE`. An option that takes a value takes the rest. -/
def shortUses (switches : List Switch) : List Char → Except UsageFault WordUses
  | [] => .ok ⟨[], none⟩
  | c :: rest =>
    match switches.find? fun s => s.short? == some c with
    | none => .error (.noSuchOption ("-" ++ c.toString))
    | some switch =>
      if switch.takesValue then
        if rest.isEmpty then .ok ⟨[], some switch⟩
        else .ok ⟨[⟨switch.long, String.ofList rest⟩], none⟩
      else do
        let more ← shortUses switches rest
        return { more with uses := ⟨switch.long, ""⟩ :: more.uses }

/-- A word that starts with a dash. An equals sign may divide a long option from its value. -/
def wordUses (switches : List Switch) (word : String) : Except UsageFault WordUses :=
  let (name, value) := Text.cutAt ['='] word.toList
  let name := String.ofList name
  let hasValue := word.contains '='
  match switches.find? fun s => s.long == name with
  | some switch =>
    if switch.takesValue then
      if hasValue then .ok ⟨[⟨switch.long, String.ofList value⟩], none⟩
      else .ok ⟨[], some switch⟩
    else if hasValue then .error (.unwantedValue name)
    else .ok ⟨[⟨switch.long, ""⟩], none⟩
  | none =>
    if word.startsWith "--" then .error (.noSuchOption name)
    else shortUses switches (word.toList.drop 1)

/-- A single dash is an operand. -/
def isOptionWord (word : String) : Bool :=
  word.startsWith "-" && 1 < word.length

/-- Sort the words of a command line. Two dashes end the options; so does the first operand,
    unless options may stand behind operands. -/
def sortWords (switches : List Switch) (mixed : Bool) :
    List String → Except UsageFault Sorted
  | [] => .ok ⟨[], []⟩
  | word :: rest =>
    if word == "--" then .ok ⟨[], rest⟩
    else if isOptionWord word then do
      let found ← wordUses switches word
      match found.pending? with
      | none => return (← sortWords switches mixed rest).use found.uses
      | some switch => match rest with
        | [] => throw (.noValue switch.long)
        | value :: behind =>
          return (← sortWords switches mixed behind).use (found.uses ++ [⟨switch.long, value⟩])
    else if mixed then return (← sortWords switches mixed rest).operand word
    else .ok ⟨[], word :: rest⟩

/-! ## Requests -/

/-- What the commands have in common. -/
structure Job where
  schema : Path
  /-- The properties to write first. -/
  order : List String
  dotAll : Bool
  maxDigits : Nat
  checkSchema : Bool
  showSchema : Bool
  deriving Repr, DecidableEq

/-- What a command line asks for. -/
inductive Request where
  | help (command? : Option Command)
  | version
  | compile (job : Job) (output? : Option Path) (showRules : Bool)
  | check (job : Job) (samples : List Path)
  deriving Repr, DecidableEq

def readMaxDigits (sorted : Sorted) : Except UsageFault Nat :=
  match sorted.value? .maxDigits with
  | none => .ok standardMaxDigits
  | some word =>
    match Text.readCount? word.toList with
    | none =>
      .error (.invalidValue .maxDigits (Text.quoted word ++ " is not a valid integer range."))
    | some n =>
      if n = 0 then
        .error (.invalidValue .maxDigits (natText n ++ " is not in the range x>=1."))
      else .ok n

def readJob (sorted : Sorted) : Except UsageFault Job := do
  match sorted.value? .schema with
  | none => throw (.missingOption .schema)
  | some schema =>
    let maxDigits ← readMaxDigits sorted
    return ⟨.ofText schema, sorted.values .order, sorted.has .dotAll, maxDigits,
      sorted.has .checkSchema, sorted.has .showSchema⟩

/-- The request that the words behind a command make. -/
def Command.request (command : Command) (words : List String) : Except UsageFault Request := do
  let sorted ← sortWords command.switches true words
  if sorted.has .help then return .help (some command)
  let job ← readJob sorted
  let request ← match command with
    | .compile =>
      pure (.compile job ((sorted.value? .output).map .ofText) (sorted.has .showRules))
    | .check =>
      if sorted.has .samples then
        pure (.check job ((sorted.values .samples).map .ofText))
      else throw (.missingOption .samples)
  if !sorted.operands.isEmpty then throw (.extraArguments sorted.operands)
  return request

/-- The request of a command line. Help wins over everything else, and the version over what a
    command is asked to do. -/
def Request.ofWords (words : List String) : Except UsageFault Request := do
  let sorted ← sortWords programSwitches false words
  if sorted.has .help then return .help none
  match sorted.operands with
  | [] => return if sorted.has .version then .version else .help none
  | name :: rest =>
    match Command.ofName? name with
    | none =>
      -- behind two dashes there may still stand a call for help
      let again ← sortWords programSwitches false (name :: rest)
      if again.has .help then return .help none else throw (.noSuchCommand name)
    | some command =>
      if sorted.has .version then return .version else command.request rest

end SchemaGrammar.Cli
