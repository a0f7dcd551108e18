import SchemaGrammar.Metaschema
import SchemaGrammar.Schema.Visit

set_option autoImplicit false

/-! # From a schema to a grammar

A schema is checked against the metaschema if that is asked for; then its references are
resolved and it is compiled from the top. The result is a table of rules, whose text is the
grammar. -/

namespace SchemaGrammar

namespace Compiler

open Schema (depthLimit)

/-- Compile a schema under a name hint as part of a session. -/
def visit (options : Options) (schema : Json) (name : String) : CompileM String := do
  let s ← get
  Schema.visit options (depthLimit (schema :: s.resolver.documents)) schema name

/-- Resolve the references of a document as part of a session. -/
def resolve (document : Nat) (top : Json.Path) (url : String) : CompileM Unit :=
  Session.onResolver (Resolver.resolve document top url)

/-- Resolve the references of a document and compile it from the top. -/
def compileDocument (options : Options) : CompileM String := do
  resolve 0 [] ""
  let s ← get
  visit options (s.resolver.read 0 []) ""

/-- The rules for a schema. -/
def compile (options : Options) (schema : Json) : Except Failure RuleTable := do
  if options.checkSchema then
    let issues ← Metaschema.checkIn options.dialects schema
    if !issues.isEmpty then throw (.invalidSchema issues)
  match compileDocument options (Session.new [schema]) with
  | .ok _ s => return s.table
  | .error e _ => throw e

end Compiler

end SchemaGrammar
