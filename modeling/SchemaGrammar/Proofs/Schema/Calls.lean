import SchemaGrammar.Compiler
import SchemaGrammar.Proofs.Schema.Linking

set_option autoImplicit false

/-! # Calls to a session

A session is used by calls that resolve references and calls that compile schemas, in any order.
Calls may fail, and later ones go on with what is left. Whatever is called, the built-in rules in
the table are those of the catalog, with everything that they need (`catalog_kept`). -/

namespace SchemaGrammar

/-! ## The catalog -/

namespace Builtin

/-- One built-in rule needs another one, directly or by way of others. -/
def Requires : String → String → Prop :=
  Relation.TransGen fun name need => ∃ rule, find? name = some rule ∧ need ∈ rule.needs

/-- Failures that only a broken catalog can cause. -/
def IsFault (e : Failure) : Prop :=
  ∃ name, e = .unknownBuiltin name ∨ e = .builtinTaken name

end Builtin

namespace RuleTable

/-- The built-in rules of a table are those of the catalog. -/
structure HasCatalog (t : RuleTable) : Prop where
  bodies : ∀ name rule, Builtin.find? name = some rule → t.has name = true →
    t.find? name = some rule.body
  needs : ∀ name need, t.has name = true → Builtin.Requires name need →
    ∃ rule, Builtin.find? need = some rule ∧ t.find? need = some rule.body
  space : t.find? "space" = some Builtin.space

/-- Each rule that a built-in one needs is built in. -/
theorem find?_of_need {name need : String} {rule : Builtin} (h : Builtin.find? name = some rule)
    (hneed : need ∈ rule.needs) : ∃ needed, Builtin.find? need = some needed := by
  have hall : ∀ x ∈ Builtin.catalog, ∀ need ∈ x.2.needs, (Builtin.find? need).isSome = true := by
    decide
  exact Option.isSome_iff_exists.1 (hall (name, rule) (Assoc.mem_of_lookup h) need hneed)

theorem Coherent.hasCatalog {t : RuleTable} (h : t.Coherent False fun _ => False) : t.HasCatalog := by
  have hstep {name need : String} (hhas : t.has name = true)
      (hneed : ∃ rule, Builtin.find? name = some rule ∧ need ∈ rule.needs) :
      t.has need = true ∧ ∃ rule, Builtin.find? need = some rule ∧ t.find? need = some rule.body := by
    obtain ⟨rule, hrule, hmem⟩ := hneed
    have hthere := ((h.builtin name rule hrule hhas).2 need hmem).resolve_right id
    obtain ⟨needed, hneeded⟩ := find?_of_need hrule hmem
    exact ⟨hthere, needed, hneeded, (h.builtin need needed hneeded hthere).1⟩
  refine ⟨fun name rule hrule hhas => (h.builtin name rule hrule hhas).1,
    fun name need hhas hneeds => ?_, h.space⟩
  -- what is needed in one step is there, so what that needs is there, too
  have hall : t.has need = true ∧
      ∃ rule, Builtin.find? need = some rule ∧ t.find? need = some rule.body := by
    induction hneeds with
    | single hneed => exact hstep hhas hneed
    | tail _ hneed ih => exact hstep ih.1 hneed
  exact hall.2

end RuleTable

/-! ## Runs of calls -/

namespace Session

/-- A call to a session. Compiling may be cut short at any depth. -/
inductive Call where
  | resolve (document : Nat) (top : Json.Path) (url : String)
  | visit (depth : Nat) (schema : Json) (hint : String)

/-- The session that a call leaves behind, whether it ends well or not. -/
def call (options : Options) (s : Session) : Call → Session
  | .resolve document top url => Work.leaves (Compiler.resolve document top url) s
  | .visit depth schema hint => Work.leaves (Schema.visit options depth schema hint) s

/-- The session that some calls leave behind. -/
def calls (options : Options) (documents : List Json) (list : List Call) : Session :=
  list.foldl (call options) (new documents)

/-- Resolving references leaves everything else alone. -/
theorem leaves_resolve (document : Nat) (top : Json.Path) (url : String) (s : Session) :
    ∃ resolver, Work.leaves (Compiler.resolve document top url) s = { s with resolver := resolver } := by
  unfold Work.leaves Compiler.resolve onResolver
  cases Resolver.resolve document top url s.resolver with
  | ok _ resolver => exact ⟨resolver, rfl⟩
  | error _ resolver => exact ⟨resolver, rfl⟩

/-- Where bodies need not be tidy, nothing has to be known about a schema. -/
theorem supports_anything (schema : Json) (s : Session) : Schema.Supports .null False schema s :=
  ⟨False.elim, False.elim⟩

theorem Orderly.call {s : Session} (h : s.Orderly False) (options : Options) (c : Call) :
    (s.call options c).Orderly False := by
  cases c with
  | resolve document top url =>
    obtain ⟨resolver, hleaves⟩ := leaves_resolve document top url s
    rw [Session.call, hleaves]
    exact ⟨h.table, h.names, h.links⟩
  | visit depth schema hint =>
    obtain ⟨hok, herror⟩ :=
      Work.leads_iff.1 (Schema.runs_visit options depth hint h (supports_anything schema s))
    rw [Session.call, Work.leaves]
    cases hrun : Schema.visit options depth schema hint s with
    | ok name s' => exact (hok name s' hrun).1.orderly
    | error e s' => exact (herror e s' hrun).1.orderly

theorem orderly_calls (options : Options) (documents : List Json) (list : List Call) :
    (calls options documents list).Orderly False := by
  have hrun : ∀ s : Session, s.Orderly False → (list.foldl (Session.call options) s).Orderly False := by
    induction list with
    | nil => exact fun s hs => hs
    | cons c rest ih => exact fun s hs => ih _ (hs.call options c)
  exact hrun _ (orderly_new documents)

/-- **The catalog is never corrupted.** After any calls, failed ones included, the built-in rules in
    the table have the bodies of the catalog, everything that they need is there, and so is the rule
    for blanks. Hence no schema that is compiled next meets a broken catalog. -/
theorem catalog_kept (options : Options) (documents : List Json) (list : List Call) :
    (calls options documents list).table.HasCatalog ∧
      ∀ depth schema hint e s',
        Schema.visit options depth schema hint (calls options documents list) = .error e s' →
          ¬ Builtin.IsFault e := by
  have horderly := orderly_calls options documents list
  refine ⟨horderly.table.coherent.hasCatalog, fun depth schema hint e s' hrun => ?_⟩
  have hruns :=
    Schema.runs_visit options depth hint horderly (supports_anything schema _)
  rintro ⟨name, hfault⟩
  rcases ((Work.leads_iff.1 hruns).2 e s' hrun).2 with hordinary | rfl
  · obtain ⟨hunknown, htaken⟩ := hordinary.1 name
    exact hfault.elim hunknown htaken
  · exact hfault.elim (by simp) (by simp)

end Session

end SchemaGrammar
