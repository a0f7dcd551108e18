import SchemaGrammar.Proofs.Exactness
import SchemaGrammar.Proofs.Metaschema
import SchemaGrammar.Proofs.Rules.Verdicts

set_option autoImplicit false

/-! # Documents that refer to nothing

A document without references is compiled in the first session, and its whole grammar comes from one
builder (`compileDocument_of_sites`). If that builder is exact, the grammar accepts the texts of the
document (`accepts_of_compiled`), whatever the options for bounded integers are. If all that a document
adds to a new table is the rule of its root, only the body of that rule counts (`accepts_of_root`). -/

namespace SchemaGrammar

namespace Compiler

variable {options : Options} {schema : Json} {name : String} {s : Session}

/-- Without references there is nothing to resolve. -/
theorem resolve_of_sites (h : Resolver.sites schema = []) :
    Resolver.resolve 0 [] "" (Resolver.new [schema]) = .ok () (Resolver.new [schema]) := by
  have hread : (Resolver.new [schema]).read 0 [] = schema :=
    (Resolver.records_new schema).read []
  have hrun : Resolver.resolve 0 [] "" (Resolver.new [schema]) =
      (Resolver.sites ((Resolver.new [schema]).read 0 [])).forM (Resolver.resolveSite 0 [] "")
        (Resolver.new [schema]) := rfl
  rw [hrun, hread, h]
  rfl

theorem compileDocument_of_sites (options : Options) (h : Resolver.sites schema = []) :
    ∃ depth, compileDocument options (Session.new [schema]) =
      Schema.visitWith (Schema.visit options depth) options schema "" (Session.new [schema]) := by
  have hresolved := resolve_of_sites h
  obtain ⟨r, hresolve, hrun⟩ | ⟨e, r, hfailed, -⟩ := compileDocument_run options schema
  · obtain rfl : Resolver.new [schema] = r := by
      rw [hresolved] at hresolve
      exact (EStateM.Result.ok.inj hresolve).2
    obtain ⟨depth, hdepth⟩ : ∃ depth, Schema.depthLimit [schema, schema] = depth + 1 :=
      Nat.exists_eq_succ_of_ne_zero (by simp [Schema.depthLimit])
    refine ⟨depth, ?_⟩
    rw [hrun, hdepth, Schema.visit]
    rfl
  · rw [hresolved] at hfailed
    cases hfailed

theorem soundSession_new (options : Options) (schema : Json) (plain : Prop) :
    Schema.SoundSession options schema plain (fun _ => False) (Session.new [schema]) :=
  soundSession_prepared (Resolver.records_new schema)

/-- What compiling comes to, where the metaschema has nothing against the document. -/
theorem compile_of_check (hcheck : Metaschema.checkIn options.dialects schema = .ok []) :
    compile options schema = match compileDocument options (Session.new [schema]) with
      | .ok _ s => .ok s.table
      | .error e _ => .error e := by
  unfold compile
  by_cases h : options.checkSchema = true
  · simp only [h, hcheck]
    rfl
  · simp only [h]
    rfl

/-- A document whose builder is exact has a grammar of its texts. -/
theorem accepts_of_compiled {builder : CompileM String}
    (hcheck : Metaschema.checkIn options.dialects schema = .ok [])
    (hsites : Resolver.sites schema = [])
    (hbuilder : ∀ depth, Schema.visitWith (Schema.visit options depth) options schema "" = builder)
    (hrun : builder (Session.new [schema]) = .ok name s)
    (hcompiled : Schema.Compiled options schema True (fun _ => False) schema ""
      (Session.new [schema]) s name)
    (hstart : Schema.start schema = schema) :
    ∃ t g, compile options schema = .ok t ∧ Grammar.ofText t.text = .ok g ∧
      g.Accepts (Schema.language options schema schema) := by
  have htable := hcompiled.session.table
  have hroot : s.table.Denotes "root" (Schema.language options schema schema) := by
    have hrooted := hcompiled.rooted rfl rfl
    rwa [hstart] at hrooted
  obtain ⟨g, hread, haccepts⟩ := htable.complete.accepts (htable.readable trivial) hroot
  obtain ⟨depth, hdocument⟩ := compileDocument_of_sites options hsites
  refine ⟨s.table, g, ?_, hread, haccepts⟩
  rw [compile_of_check hcheck, hdocument, hbuilder, hrun]

/-- A document whose root is the only rule of its own. -/
theorem accepts_of_root {resolver : Resolver} {body : String} {L : Language Char}
    (hrun : Session.addRule (Schema.ruleNameFor "") body (prepared resolver) = .ok name s)
    (hw : RuleTable.new.Writes body L) :
    ∃ g, Grammar.ofText s.table.text = .ok g ∧ g.Accepts L := by
  obtain ⟨t, hadd, rfl⟩ := Session.addRule_eq_ok.1 hrun
  obtain ⟨t', g, hroot, hread, haccepts⟩ := (RuleTable.sound_new True).accepts_root rfl hw
  obtain rfl : t' = t := (Prod.mk.inj (hroot.symm.trans hadd)).2
  exact ⟨g, hread, haccepts⟩

end Compiler

end SchemaGrammar
