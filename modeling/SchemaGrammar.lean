import SchemaGrammar.Main
import SchemaGrammar.Proofs.AdditionalKeys
import SchemaGrammar.Proofs.Blank
import SchemaGrammar.Proofs.CommonConstants
import SchemaGrammar.Proofs.Compiler
import SchemaGrammar.Proofs.Exactness
import SchemaGrammar.Proofs.Exclusions
import SchemaGrammar.Proofs.Failures
import SchemaGrammar.Proofs.Grammar.Encoding
import SchemaGrammar.Proofs.Grammar.Furthest
import SchemaGrammar.Proofs.Grammar.Pruning
import SchemaGrammar.Proofs.Grammar.Recognition
import SchemaGrammar.Proofs.Grammar.Rendering
import SchemaGrammar.Proofs.Grammar.Termination
import SchemaGrammar.Proofs.Integers
import SchemaGrammar.Proofs.Legibility
import SchemaGrammar.Proofs.Listing
import SchemaGrammar.Proofs.Narrowing
import SchemaGrammar.Proofs.Numbers
import SchemaGrammar.Proofs.Pattern.Places
import SchemaGrammar.Proofs.Patterns
import SchemaGrammar.Proofs.Ranges
import SchemaGrammar.Proofs.Recording
import SchemaGrammar.Proofs.Reference.Separation
import SchemaGrammar.Proofs.Repetitions
import SchemaGrammar.Proofs.Rules.Names
import SchemaGrammar.Proofs.Rules.Sharing
import SchemaGrammar.Proofs.RunSort
import SchemaGrammar.Proofs.Samples
import SchemaGrammar.Proofs.Schema.Calls
import SchemaGrammar.Proofs.Schema.ObjectBody
import SchemaGrammar.Proofs.StringLengths
