import SchemaGrammar.Grammar.Repetition
import SchemaGrammar.Schema.ObjectRule
import SchemaGrammar.Schema.Shape

set_option autoImplicit false

/-! # Rules for schemas

Each shape of schema has a builder, which compiles the schemas inside and registers a rule. A
builder is given the way to compile a schema, so that it can be read without the recursion; the
recursion itself stands at the end. -/

namespace SchemaGrammar

namespace Schema

open Session

/-- What a builder works on: the schema, the name hint it was given and the name for its
    rule. -/
structure Site where
  fields : Json.Fields
  name : String
  ruleName : String

namespace Site

def schema (x : Site) : Json := .obj x.fields

def keyword? (x : Site) (key : String) : Option Json :=
  Json.Fields.get? x.fields key

/-- A keyword that the shape of the schema says is there. -/
def keyword (x : Site) (key : String) : Json :=
  (x.keyword? key).getD .null

end Site

/-! ## References -/

/-- The characters that the name of a reference's rule keeps. -/
def keepsInReference (c : Char) : Bool :=
  c.isAlphanum || c = '-'

/-- The name for the rule of a reference: what stands behind its last hash sign. -/
def referenceName (ref : String) : String :=
  let fragment := ((Text.splitAt '#' ref.toList).getLast?).getD []
  "ref" ++ String.ofList (RuleTable.dashRuns keepsInReference false fragment)

/-- The rule of a reference. The first time it is met its target is compiled; the name is
    claimed before, so that the target may refer to itself. -/
def referenceRule (visit : Visit) (ref : String) (target : Json) : CompileM String := do
  let claimed ← reserve (referenceName ref)
  nameReference ref claimed
  note (.claimed ref claimed)
  let found ← visit target claimed
  if found != claimed then
    -- the target has the rule of another schema, such as a built-in one
    release claimed
    nameReference ref found
  note (.settled ref found)
  return found

def visitRef (visit : Visit) (x : Site) : CompileM String := do
  let ref := x.keyword "$ref"
  orFail (checkKey ref)
  match ref with
  | .str r =>
    let rule ← match (← get).ruleNames.lookup r with
      | some name => pure name
      | none => do referenceRule visit r (← target ref)
    let name ← addRule x.ruleName rule
    note (.linked r name rule)
    return name
  | _ => throw (Failure.unresolvedReference ref).raised

/-! ## Alternatives -/

/-- The rules of alternatives, which are numbered below the name. -/
def alternatives (visit : Visit) (name : String) (schemas : List Json) : CompileM String := do
  let rules ← schemas.zipIdx.mapM fun (schema, i) =>
    visit schema ((if name.isEmpty then "alternative" else name) ++ "-" ++ natText i)
  return " | ".intercalate rules

def visitUnion (visit : Visit) (x : Site) : CompileM String := do
  let choices := match given? x.fields "oneOf" with
    | some v => v
    | none => x.keyword "anyOf"
  let schemas ← orFail (elements choices)
  addRule x.ruleName (← alternatives visit x.name schemas)

/-- A list of types is the union of the schema with each type alone. -/
def visitTypeUnion (visit : Visit) (x : Site) : CompileM String := do
  let types ← orFail (elements (x.keyword "type"))
  let schemas := types.map fun t => Json.obj (Json.Fields.set x.fields "type" t)
  addRule x.ruleName (← alternatives visit x.name schemas)

/-! ## Constants -/

def visitConst (x : Site) : CompileM String := do
  orFail (checkWritable (x.keyword "const"))
  addRule x.ruleName (constant (x.keyword "const") ++ " space")

/-- One of some constants. -/
def choiceOf (literals : List String) : String :=
  "(" ++ " | ".intercalate literals ++ ") space"

def visitEnum (x : Site) : CompileM String := do
  let values ← orFail (elements (x.keyword "enum"))
  orFail (values.forM checkWritable)
  addRule x.ruleName (choiceOf (values.map constant))

/-! ## Objects -/

def visitObject (visit : Visit) (options : Options) (x : Site) : CompileM String := do
  let properties ← orFail (declaredProperties x.fields)
  let required ← orFail (requiredNames x.fields)
  let body ←
    objectBody visit options x.name properties required (x.keyword "additionalProperties")
  addRule x.ruleName body

/-- What the parts of a combined schema add up to. -/
structure Merged where
  required : List String
  properties : List (String × Json)
  /-- The JSON texts of each list of constants. -/
  enums : List (List String)

/-- Add a part, or what it refers to. -/
def addPart (m : Merged) (part : Json) (isRequired : Bool) : CompileM Merged := do
  let part ←
    if ← orFail (containsText part "$ref") then target (← orFail (fieldOf part "$ref"))
    else pure part
  let fields ← orFail (fieldsFor "get" part)
  let properties ← orFail (declaredProperties fields)
  let enums ← match Json.Fields.get? fields "enum" with
    | some v => do
      let values ← orFail (elements v)
      orFail (values.forM checkWritable)
      pure [(values.map Json.compact).eraseDups]
    | none => pure []
  return {
    required := m.required ++ (if isRequired then properties.map Prod.fst else [])
    properties := m.properties ++ properties
    enums := m.enums ++ enums }

/-- Add a branch: its alternatives without requiring anything, or itself. -/
def addBranch (m : Merged) (branch : Json) : CompileM Merged := do
  if ← orFail (containsText branch "anyOf") then
    let parts ← orFail (elements (← orFail (fieldOf branch "anyOf")))
    parts.foldlM (fun m part => addPart m part false) m
  else addPart m branch true

/-- The constants that all lists share. -/
def commonConstants : List (List String) → List String
  | [] => []
  | first :: others => first.filter fun text => others.all fun list => list.contains text

def visitAllOf (visit : Visit) (options : Options) (x : Site) : CompileM String := do
  let branches ← orFail (elements (x.keyword "allOf"))
  let merged ← branches.foldlM addBranch ⟨[], [], []⟩
  let common := commonConstants merged.enums
  if common.isEmpty then
    let body ← objectBody visit options x.name merged.properties merged.required .null
    addRule x.ruleName body
  else
    addRule x.ruleName (choiceOf ((Assoc.sortNames common).map Grammar.literalText))

/-! ## Lists -/

def visitTuple (visit : Visit) (x : Site) : CompileM String := do
  let items := match x.keyword? "prefixItems" with
    | some (.arr items) => items
    | _ => match x.keyword? "items" with
      | some (.arr items) => items
      | _ => []
  let rules ← items.zipIdx.mapM fun (item, i) =>
    visit item (subName x.name ("tuple-" ++ natText i))
  addRule x.ruleName
    ("\"[\" space " ++ " \",\" space ".intercalate rules ++ " \"]\" space")

/-- How often something is repeated, by the keywords for the least and the greatest count. A
    schema that no count satisfies is at fault itself. -/
def counted (x : Site) (minKey maxKey : String)
    (build : Json → Json → Except Failure String) : CompileM String :=
  let low := orElse (x.keyword? minKey) (.num (.whole 0))
  match build low (x.keyword maxKey) with
  | .error (.count fault) => throw (Failure.unsatisfiableCount x.schema minKey maxKey fault).raised
  | result => orFail result

def visitArray (visit : Visit) (x : Site) : CompileM String := do
  let list (itemRule : String) : CompileM String := do
    let items ← counted x "minItems" "maxItems"
      (Grammar.separatedRepetition itemRule "\",\" space")
    addRule x.ruleName ("\"[\" space " ++ items ++ " \"]\" space")
  match x.keyword "items" with
  | .bool false => addRule x.ruleName "\"[\" space \"]\" space"
  | .bool true => list (← addNamed "value" "value")
  | .obj [] => list (← addNamed "value" "value")
  | items => list (← visit items (subName x.name "item"))

/-! ## Strings -/

def visitPattern (options : Options) (x : Site) : CompileM String :=
  match x.keyword "pattern" with
  | .str pattern => onTable (Pattern.toRule pattern x.ruleName options.dotAll)
  | v => throw (.misuse (.lacks v.kind "startswith"))

/-- The name of a built-in rule that the whole schema may be. -/
def builtinName (x : Site) (name : String) : String :=
  if x.ruleName == "root" then "root" else name

def visitUuid (x : Site) : CompileM String :=
  addNamed (builtinName x (x.keyword "format").shown) "uuid"

def visitFormatString (x : Site) : CompileM String := do
  let format := formatRuleName (x.keyword "format").shown
  addRule x.ruleName (← addNamed format format)

def visitBoundedString (x : Site) : CompileM String := do
  let char ← addNamed "char" "char"
  let chars ← counted x "minLength" "maxLength" (Grammar.repetition char)
  addRule x.ruleName ("\"\\\"\" " ++ chars ++ " \"\\\"\" space")

/-! ## Integers -/

/-- The bounds found so far. -/
structure Bounds where
  low : Option Int
  high : Option Int

def Bounds.raise (b : Bounds) (n : Int) : Bounds :=
  { b with low := some (match b.low with
      | some m => max m n
      | none => n) }

def Bounds.lower (b : Bounds) (n : Int) : Bounds :=
  { b with high := some (match b.high with
      | some m => min m n
      | none => n) }

/-- The number that bounds an integer; anything but a finite number is no bound. -/
def boundValue (schema : Json) (key : String) (v : Json) : Except Failure Number :=
  match v with
  | .num n =>
    if !n.fitsDouble then .error (.misuse .tooLarge)
    else if n.isFinite then .ok n
    else .error (Failure.invalidBound schema key v).raised
  | _ => .error (Failure.invalidBound schema key v).raised

/-- Take a keyword into account. A bound that is no whole number moves to the next one inside
    the range. -/
def addBound (schema : Json) (fields : Json.Fields) (b : Bounds) (key : String) :
    Except Failure Bounds :=
  match Json.Fields.get? fields key with
  | none => .ok b
  | some v => do
    let n ← boundValue schema key v
    let floor := n.floor?.getD 0
    let ceil := n.ceil?.getD 0
    return if key == "minimum" then b.raise ceil
      else if key == "exclusiveMinimum" then b.raise (floor + 1)
      else if key == "maximum" then b.lower floor
      else b.lower (ceil - 1)

def visitIntRange (options : Options) (x : Site) : CompileM String := do
  let b ← orFail (boundKeys.foldlM (addBound x.schema x.fields) ⟨none, none⟩)
  match IntRange.expression b.low b.high options.maxDigits with
  | .ok expression => addRule x.ruleName ("(" ++ expression ++ ") space")
  | .error fault => throw (Failure.unsatisfiableBounds x.schema fault).raised

/-! ## Plain kinds -/

def visitGenericObject (x : Site) : CompileM String := do
  addRule x.ruleName (← addNamed "object" "object")

def visitPrimitive (x : Site) : CompileM String :=
  let type := (x.keyword "type").shown
  addNamed (builtinName x type) type

/-! ## All shapes -/

/-- The name for the rule of a schema with a name hint. The whole schema is the root; a hint
    that would be a reserved name gets a dash. -/
def ruleNameFor (name : String) : String :=
  let escaped := RuleTable.escapeName name
  if Builtin.reservedNames.contains escaped then escaped ++ "-"
  else if name.isEmpty then "root"
  else name

/-- Compile a schema, given the way to compile those inside. -/
def visitWith (visit : Visit) (options : Options) : Visit := fun schema name =>
  match schema with
  | .obj fields =>
    let x : Site := ⟨fields, name, ruleNameFor name⟩
    match shape fields with
    | .ref => visitRef visit x
    | .union => visitUnion visit x
    | .typeUnion => visitTypeUnion visit x
    | .const => visitConst x
    | .enum => visitEnum x
    | .object => visitObject visit options x
    | .allOf => visitAllOf visit options x
    | .tuple => visitTuple visit x
    | .array => visitArray visit x
    | .pattern => visitPattern options x
    | .uuid => visitUuid x
    | .formatString => visitFormatString x
    | .boundedString => visitBoundedString x
    | .intRange => visitIntRange options x
    | .genericObject => visitGenericObject x
    | .primitive => visitPrimitive x
    | .unrecognized => throw (Failure.unrecognized schema).raised
  | v => throw (Failure.unrecognized v).raised

/-- Compile a schema, with at most `depth` schemas inside each other. -/
def visit (options : Options) : Nat → Visit
  | 0 => fun _ _ => throw .endless
  | depth + 1 => visitWith (visit options depth) options

/-- How deep schemas can nest before they nest forever. A schema is entered from the one around
    it, from a reference, which leads to its target only once, or from a part that a combined
    schema refers to. Entering the same part twice without a new reference between repeats
    without end, so there are at most as many such steps as pairs of parts and references. -/
def depthLimit (documents : List Json) : Nat :=
  let n := Json.sizeOfItems documents + 1
  2 * n * n * n

end Schema

end SchemaGrammar
