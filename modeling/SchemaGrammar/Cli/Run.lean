import SchemaGrammar.Cli.Arguments
import SchemaGrammar.Cli.Console
import SchemaGrammar.Cli.Save
import SchemaGrammar.Compiler
import SchemaGrammar.Diagnosis
import SchemaGrammar.Grammar.Listing
import SchemaGrammar.Grammar.Matcher
import SchemaGrammar.Grammar.Reader
import SchemaGrammar.Json.Reader

set_option autoImplicit false

/-! # The commands

A command looks at the disk, compiles and says what it finds. It stops early when something
fails; what it has said by then stays said. Nothing is written here: a file to save is part of
the report. -/

namespace SchemaGrammar.Cli

/-! ## Reports -/

inductive ExitCode where
  | success
  | failure
  | usage
  deriving Repr, DecidableEq

def ExitCode.code : ExitCode → Nat
  | .success => 0
  | .failure => 1
  | .usage => 2

/-- A file to write. -/
structure Save where
  path : Path
  text : String

/-- What a command has said and wants saved. -/
structure Output where
  stdout : List Block
  stderr : List Block
  save? : Option Save

def Output.empty : Output := ⟨[], [], none⟩

structure Report where
  exit : ExitCode
  output : Output

/-- How a command ends early: it has said why, or it leaves a message to be said. -/
inductive Stop where
  | reported
  | failed (message : String)

abbrev CommandM := EStateM Stop Output

/-! ## Saying things -/

namespace CommandM

/-- Say blocks on the standard output, or where errors go. -/
def say (blocks : List Block) (toErrors : Bool) : CommandM Unit :=
  modify fun o =>
    if toErrors then { o with stderr := o.stderr ++ blocks }
    else { o with stdout := o.stdout ++ blocks }

def out (blocks : List Block) : CommandM Unit := say blocks false

def success (s : String) : CommandM Unit := out [.say ("✓ " ++ s)]

/-- Say what went wrong and stop. -/
def fail {α : Type} (block : Block) : CommandM α := do
  out [block]
  throw .reported

def header (title : String) : CommandM Unit :=
  out [.blank, .say title, .say (Block.rule '=' title.length), .blank]

end CommandM

open CommandM (say out success fail header)

def errorLine (s : String) : Block := .say ("✗ " ++ displayed s)

def warningLine (s : String) : Block := .say ("⚠ " ++ displayed s)

def infoLine (s : String) : Block := .say ("ℹ " ++ s)

/-! ## Files -/

/-- The JSON value in a file. -/
def readJson (disk : Disk) (path : Path) (absent unreadable : String) :
    Except String Json :=
  match disk path with
  | .file raw =>
    let text := String.ofList (Text.unifyLineEnds raw.toList)
    match Json.ofText text with
    | .ok v => .ok v
    | .error (.malformed fault offset) =>
      .error (unreadable ++ ": " ++ (Json.ReadError.malformed fault offset).message text)
    | .error e => .error (e.message text)
  | _ => .error absent

/-- A schema file holds an object. -/
def readSchema (disk : Disk) (path : Path) : Except String Json := do
  let v ← readJson disk path ("Schema file not found: " ++ path.text)
    "Invalid JSON in schema file"
  match v with
  | .obj fields => return .obj fields
  | _ => throw ("Schema must be a JSON object, got " ++ v.kind.name)

/-- A sample as the compact text that a grammar is to accept. -/
def readSample (disk : Disk) (path : Path) : Except String String := do
  let v ← readJson disk path ("Sample file not found: " ++ path.text)
    ("Invalid JSON in sample file " ++ path.text)
  return v.compact

def loadSchema (disk : Disk) (path : Path) : CommandM Json :=
  match readSchema disk path with
  | .ok v => return v
  | .error message => fail (errorLine ("Failed to load schema: " ++ message))

/-! ## Compiling -/

/-- The priorities of properties are their places on the command line. A name that is given
    twice has the later place. -/
def Job.priorities (job : Job) : Json :=
  .obj (Assoc.ofPairs (job.order.zipIdx.map fun (name, i) => (name, .num (.whole i))))

def Job.options (job : Job) : Options :=
  ⟨job.priorities, job.dotAll, .whole job.maxDigits, job.checkSchema, fun _ => none⟩

/-- The report of a failure that the schema is to blame for, with a suggestion. -/
def failureBlocks (report suggestion : String) : List Block :=
  [.blank, .panel "Compilation Failed" (displayed report),
    infoLine ("Suggestion: " ++ displayed suggestion), .blank]

/-- Compile a schema; a failure ends the command. -/
def compileSchema (job : Job) (schema : Json) : CommandM RuleTable :=
  match Compiler.compile job.options schema with
  | .ok table => return table
  | .error e =>
    match e.report? with
    | none => throw (.failed e.message)
    | some report =>
      match e.suggestion with
      | .error cause => throw (.failed cause.message)
      | .ok suggestion => do
        out (failureBlocks report suggestion)
        throw .reported

/-! ## Panels and tables -/

def schemaBlock (schema : Json) : Block :=
  .panel "Schema" (displayedPlain schema.indented)

/-- A table of the rules of a grammar. -/
def ruleBlocks (grammar : String) : List Block :=
  let columns : List Column := [.fixed "#" 4, .flexible "Rule" .ellipsis, .flexible "Body" .fold]
  let rows := (Grammar.listing grammar).zipIdx.map fun ((name, body), i) =>
    [Phrase.plain (natText (i + 1)), .plain (displayed name), .plain (displayedPlain body)]
  [.blank, .table "Rules" columns rows, .blank]

def statisticsBlocks (source : String) (rules : Nat) (grammar : String) : List Block :=
  let columns : List Column := [.fixed "Metric" 20, .fixed "Value" 40]
  let rows : List (List Phrase) :=
    [[.plain "Schema", .plain (displayed source)],
      [.plain "Rules", .plain (natText rules)],
      [.plain "Grammar Size", .plain (natText grammar.length ++ " chars")],
      [.plain "Compile Time", [.elapsed]]]
  [.blank, .table "Compilation Statistics" columns rows, .blank]

/-- A sample that was checked, under its file name. -/
structure Checked where
  name : String
  verdict : Grammar.Verdict

def Checked.row (checked : Checked) (i : Nat) : List Phrase :=
  let v := checked.verdict
  let head := [Phrase.plain (natText (i + 1)), .plain (displayed checked.name)]
  if v.accepted then head ++ [.plain "✓", .plain "", .plain ""]
  else head ++ [.plain "✗", .plain (natText v.furthest), .plain (displayedPlain v.context)]

def sampleBlocks (results : List Checked) : List Block :=
  let columns : List Column := [.fixed "#" 4, .fixed "Sample" 30, .fixed "Accepted" 10,
    .fixed "Stopped At" 10, .flexible "Context" .ellipsis]
  let accepted := results.countP fun c => c.verdict.accepted
  [.blank,
    .table "Sample Check Results" columns (results.zipIdx.map fun (c, i) => c.row i),
    .say (natText accepted ++ "/" ++ natText results.length ++ " sample(s) accepted"), .blank]

/-! ## Compile -/

/-- Without a place to save the grammar it is all that the standard output gets, so that it can
    be piped; what else is to be shown goes where errors go. -/
def compileToOutput (disk : Disk) (job : Job) (showRules : Bool) : CommandM Unit := do
  let schema ← loadSchema disk job.schema
  if job.showSchema then say [schemaBlock schema] true
  let table ← compileSchema job schema
  if showRules then say (ruleBlocks table.text) true
  out [.verbatim (piped table.text)]

def compileToFile (disk : Disk) (job : Job) (output : Path) (showRules : Bool) :
    CommandM Unit := do
  let schema ← loadSchema disk job.schema
  let source := job.schema.text
  header "schema-gbnf - Compile"
  success ("Loaded schema from: " ++ displayed source)
  if job.showSchema then out [schemaBlock schema]
  let table ← compileSchema job schema
  success ("Compiled " ++ natText table.size ++ " rules")
  if showRules then out (ruleBlocks table.text)
  out (statisticsBlocks source table.size table.text)
  match disk.prepareSave output with
  | .error .nullByte => throw (.failed SaveFault.nullByte.message)
  | .error fault => fail (errorLine ("Failed to save grammar: " ++ fault.message))
  | .ok () =>
    modify fun o => { o with save? := some ⟨output, table.text⟩ }
    success ("Grammar saved to: " ++ displayed output.text)

/-! ## Check -/

/-- Read a sample and match it against a grammar. -/
def checkSample (disk : Disk) (g : Grammar) (path : Path) : CommandM Checked :=
  match readSample disk path with
  | .error message => fail (warningLine message)
  | .ok text =>
    match g.check text Grammar.startRule with
    | .ok verdict => return ⟨path.name, verdict⟩
    | .error e => throw (.failed e.message)

def checkSamples (disk : Disk) (job : Job) (samples : List Path) : CommandM Unit := do
  header "schema-gbnf - Check Samples"
  let schema ← loadSchema disk job.schema
  success ("Loaded schema from: " ++ displayed job.schema.text)
  if job.showSchema then out [schemaBlock schema]
  let table ← compileSchema job schema
  out [.line [.text ("✓ Compiled " ++ natText table.size ++ " rules in "), .elapsed],
    .say (Block.rule '─' 70)]
  match Grammar.ofText table.text with
  | .error e => throw (.failed e.message)
  | .ok g =>
    let results ← samples.mapM (checkSample disk g)
    out (sampleBlocks results)
    let rejected := (results.filter fun c => !c.verdict.accepted).map Checked.name
    if rejected.isEmpty then success "All samples accepted"
    else fail (errorLine ("Rejected by grammar: " ++ ", ".intercalate rejected))

/-! ## Help -/

def programName : String := "schema-gbnf"

def programVersion : String := "0.1.0"

/-- Must an option of a command be given? -/
def isRequired (switch : Switch) : Bool :=
  switch.long == Switch.schema.long || switch.long == Switch.samples.long

/-- An option in a help text; one that is required is starred. -/
def switchLine (switch : Switch) : String :=
  let short := match switch.short? with
    | some c => " -" ++ c.toString
    | none => ""
  let line := switch.long ++ short ++ " " ++ switch.valueName ++ " " ++ switch.purpose
  if isRequired switch then "* " ++ line ++ " [required]" else line

def switchLines (switches : List Switch) : String :=
  "\n".intercalate (switches.map switchLine)

def programHelp : List Block :=
  [.blank, .say ("Usage: " ++ programName ++ " [OPTIONS] COMMAND [ARGS]..."), .blank,
    .say (programName ++ " - Compile JSON Schema to GBNF grammars"), .blank,
    .panel "Options" (switchLines programSwitches),
    .panel "Commands"
      ("\n".intercalate (Command.all.map fun c => c.name ++ " " ++ c.summary))]

def commandHelp (command : Command) : List Block :=
  [.blank, .say ("Usage: " ++ programName ++ " " ++ command.name ++ " [OPTIONS]"), .blank,
    .say command.summary, .blank, .say "Example:", .blank]
    ++ command.usageExample.map .say
    ++ [.blank, .panel "Options" (switchLines command.switches)]

/-! ## Requests -/

/-- The paths that a request looks at. -/
def Request.paths : Request → List Path
  | .help _ | .version => []
  | .compile job none _ => [job.schema]
  | .compile job (some output) _ => job.schema :: output.waypoints
  | .check job samples => job.schema :: samples

/-- A path that is to be read must lead to a file. -/
def checkReadable (disk : Disk) (switch : Switch) (path : Path) : Except UsageFault Unit :=
  match disk path with
  | .file _ => .ok ()
  | .missing =>
    .error (.invalidValue switch ("File " ++ Text.quoted path.text ++ " does not exist."))
  | .folder =>
    .error (.invalidValue switch ("File " ++ Text.quoted path.text ++ " is a directory."))

def Request.checkFiles (disk : Disk) : Request → Except UsageFault Unit
  | .help _ | .version => .ok ()
  | .compile job _ _ => checkReadable disk .schema job.schema
  | .check job samples => do
    checkReadable disk .schema job.schema
    samples.forM (checkReadable disk .samples)

def Request.perform (disk : Disk) : Request → CommandM Unit
  | .help none => out programHelp
  | .help (some command) => out (commandHelp command)
  | .version => out [.say (programName ++ " version " ++ programVersion)]
  | .compile job none showRules => compileToOutput disk job showRules
  | .compile job (some output) showRules =>
    compileToFile disk job output showRules
  | .check job samples => checkSamples disk job samples

/-- The report on a command line that cannot be followed. -/
def usageReport (fault : UsageFault) : Report :=
  ⟨.usage, { Output.empty with
    stderr := [.say ("Usage: " ++ programName ++ " [OPTIONS] COMMAND [ARGS]..."),
      .say ("Error: " ++ fault.message)] }⟩

/-- How a command ended, as a report. -/
def reportOf : EStateM.Result Stop Output Unit → Report
  | .ok _ o => ⟨.success, o⟩
  | .error .reported o => ⟨.failure, o⟩
  | .error (.failed message) o =>
    ⟨.failure, { o with stdout := o.stdout ++ [errorLine ("Command failed: " ++ message)] }⟩

/-- Do what a command line asks for. -/
def run (disk : Disk) (words : List String) : Report :=
  match Request.ofWords words with
  | .error fault => usageReport fault
  | .ok request =>
    match request.checkFiles disk with
    | .error fault => usageReport fault
    | .ok () => reportOf (request.perform disk Output.empty)

/-- The paths that a command line leads to. -/
def pathsOf (words : List String) : List Path :=
  match Request.ofWords words with
  | .error _ => []
  | .ok request => request.paths

end SchemaGrammar.Cli
