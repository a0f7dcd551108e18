import SchemaGrammar.Proofs.Rules.Table
import SchemaGrammar.Proofs.Schema.Keywords
import SchemaGrammar.Proofs.Work

set_option autoImplicit false

/-! # Resolving a document that has no address

References of a document without an address are in their full form already. Resolving them leaves
the document as it is and records for each of them the part that its pointer leads to. -/

namespace SchemaGrammar

/-! ## Places -/

namespace Json

theorem setChild_child {v w : Json} {step : Step} (h : v.child? step = some w) :
    v.setChild step w = v := by
  cases v with
  | obj fields =>
    cases step with
    | key name =>
      have hget : fields.lookup name = some w := h
      rw [setChild, if_pos (by simp [Fields.has, Fields.get?, hget]), Fields.set,
        Assoc.set_of_lookup_eq_some hget]
    | index i => exact absurd h (by simp [child?])
  | arr items =>
    cases step with
    | key name => exact absurd h (by simp [child?])
    | index i =>
      have hget : items[i]? = some w := h
      obtain ⟨hi, hw⟩ := List.getElem?_eq_some_iff.1 hget
      rw [setChild, ← hw, List.set_getElem_self]
  | _ => cases step <;> rfl

/-- Changing a part into itself changes nothing. -/
theorem modifyAt_eq_self {f : Json → Json} {path : Path} {v w : Json} (h : v.at? path = some w)
    (hf : f w = w) : v.modifyAt f path = v := by
  induction path generalizing v with
  | nil =>
    obtain rfl : v = w := by simpa [at?] using h
    exact hf
  | cons step rest ih =>
    rw [at?] at h
    cases hchild : v.child? step with
    | none => rw [modifyAt, hchild]
    | some part =>
      rw [hchild] at h
      rw [modifyAt, hchild]
      dsimp only
      rw [ih h, setChild_child hchild]

end Json

theorem Pointer.at?_of_follow {ref : String} {segments : List (List Char)} {v w : Json}
    {path : Json.Path} (h : Pointer.follow ref segments v = .ok (path, w)) :
    v.at? path = some w := by
  induction segments generalizing v path with
  | nil =>
    obtain ⟨rfl, rfl⟩ := Prod.mk.inj (Except.ok.inj h)
    rfl
  | cons segment rest ih =>
    rw [Pointer.follow] at h
    cases hstep : Pointer.step? v segment with
    | error e => simp [hstep, bind, Except.bind] at h
    | ok found =>
      cases found with
      | none => simp [hstep, bind, Except.bind] at h
      | some step =>
        cases hchild : v.child? step with
        | none => simp [hstep, hchild, bind, Except.bind] at h
        | some part =>
          cases hrest : Pointer.follow ref rest part with
          | error e => simp [hstep, hchild, hrest, bind, Except.bind] at h
          | ok pair =>
            obtain ⟨steps, target⟩ := pair
            simp only [hstep, hchild, hrest, bind, Except.bind, pure, Except.pure,
              Except.ok.injEq, Prod.mk.injEq] at h
            obtain ⟨rfl, rfl⟩ := h
            rw [Json.at?, hchild]
            exact ih hrest

namespace Resolver

/-- The reference of a value, if it is an object with one that is a text. -/
def reference? (v : Json) : Option String :=
  match v.get? refKey with
  | some (.str ref) => some ref
  | _ => none

/-- The reference at a place. -/
def referenceAt? (document : Json) (path : Json.Path) : Option String :=
  (document.at? path).bind reference?

theorem reference?_eq_some {v : Json} {ref : String} :
    reference? v = some ref ↔ v.get? refKey = some (.str ref) := by
  unfold reference?
  cases hget : v.get? refKey with
  | none => simp
  | some w => cases w <;> simp

/-- Recording one reference of a document. -/
theorem record_run (document : Nat) (url ref : String) (r : Resolver) :
    Resolver.record document [] url ref r =
      if Failure.isRemote ref = true then .error (.remoteReference ref) r
      else if Pointer.isLocal ref = false then .error (.unsupportedReference ref) r
      else if r.knows (url ++ ref) = true then .ok (url ++ ref) r
      else match Pointer.follow ref (Pointer.segments ref) (r.read document []) with
        | .ok (path, v) => .ok (url ++ ref)
            { r with
              targets := Assoc.set r.targets (url ++ ref) (Resolver.targetOf document path v) }
        | .error e => .error e r := by
  unfold Resolver.record
  dsimp only
  by_cases hremote : Failure.isRemote ref = true
  · rw [if_pos hremote, if_pos hremote]
    rfl
  rw [if_neg hremote, if_neg hremote]
  cases hlocal : Pointer.isLocal ref with
  | false =>
    rw [if_pos rfl]
    rfl
  | true =>
    rw [if_neg (by simp), if_neg (by simp)]
    refine Eq.trans (b := (if r.knows (url ++ ref) = true then
        (pure (url ++ ref) : ResolveM String) else do
      let found ← MonadExcept.ofExcept
        (Pointer.follow ref (Pointer.segments ref) (r.read document []))
      modify fun r => { r with
        targets := Assoc.set r.targets (url ++ ref)
          (Resolver.targetOf document found.1 found.2) }
      return url ++ ref) r) rfl ?_
    split_ifs
    · rfl
    · cases Pointer.follow ref (Pointer.segments ref) (r.read document []) with
      | ok found => rfl
      | error e => rfl

/-- Resolving one reference of a document. -/
theorem resolveSite_run (document : Nat) (url : String) (site : Json.Path) (r : Resolver) :
    Resolver.resolveSite document [] url site r = match reference? (r.read document site) with
      | none => .ok () r
      | some ref => if r.knows ref = true then .ok () r
        else match Resolver.record document [] url ref r with
          | .ok full r' => .ok () (r'.qualify document site full)
          | .error e r' => .error e r' := by
  have hrun : Resolver.resolveSite document [] url site r =
      (match (r.read document site).get? refKey with
        | some (.str ref) => do
          if !r.knows ref then
            let full ← Resolver.record document [] url ref
            modify fun r => r.qualify document ([] ++ site) full
        | _ => pure () : ResolveM Unit) r := rfl
  rw [hrun]
  cases href : reference? (r.read document site) with
  | none =>
    cases hget : (r.read document site).get? refKey with
    | none => rfl
    | some v =>
      cases v with
      | str ref =>
        rw [reference?_eq_some.2 hget] at href
        cases href
      | _ => rfl
  | some ref =>
    rw [reference?_eq_some.1 href]
    dsimp only
    cases hknows : r.knows ref with
    | true => rfl
    | false =>
      rw [if_pos (show (!false) = true from rfl), if_neg (show ¬ false = true by simp)]
      change EStateM.bind (Resolver.record document [] url ref) _ r = _
      unfold EStateM.bind
      cases Resolver.record document [] url ref r with
      | error e r' => rfl
      | ok full r' => rfl

/-- All that is recorded is what the pointers of the document lead to. -/
structure Records (document : Json) (r : Resolver) : Prop where
  documents : r.documents = [document]
  targets : ∀ ref target, r.targets.lookup ref = some target →
    Schema.targetOf document ref = some (r.targetValue target)

section Records

variable {document : Json} {r r' : Resolver}

theorem Records.read (h : r.Records document) (path : Json.Path) :
    r.read 0 path = (document.at? path).getD .null := by
  rw [Resolver.read, h.documents]
  rfl

theorem Records.find? (h : r.Records document) {ref : String} {v : Json}
    (hfind : r.find? ref = some v) : Schema.targetOf document ref = some v := by
  rw [Resolver.find?, Option.map_eq_some_iff] at hfind
  obtain ⟨target, hlookup, rfl⟩ := hfind
  exact h.targets ref target hlookup

theorem records_new (document : Json) : (Resolver.new [document]).Records document :=
  ⟨rfl, by simp [Resolver.new]⟩

/-- What a pointer leads to is recorded so that it can be found again. -/
theorem Records.set (h : r.Records document) {ref : String} {path : Json.Path} {v : Json}
    (hfollow : Pointer.follow ref (Pointer.segments ref) document = .ok (path, v)) :
    Records document { r with targets := Assoc.set r.targets ref (Resolver.targetOf 0 path v) } := by
  refine ⟨h.documents, fun other target hlookup => ?_⟩
  have hvalue : Resolver.targetValue
      { r with targets := Assoc.set r.targets ref (Resolver.targetOf 0 path v) } =
        r.targetValue := by
    funext target
    cases target <;> rfl
  rw [hvalue]
  rw [Assoc.lookup_set] at hlookup
  split_ifs at hlookup with hother
  · obtain rfl := Option.some.inj hlookup
    have hread : r.read 0 path = v := by
      rw [h.read, Pointer.at?_of_follow hfollow]
      rfl
    rw [hother, Schema.targetOf, hfollow]
    cases v <;> simp [Resolver.targetOf, Resolver.targetValue, hread]
  · exact h.targets other target hlookup

/-- Putting a reference in its full form changes nothing where it has that form. -/
theorem Records.qualify (h : r.Records document) {path : Json.Path} {ref : String}
    (hsite : (r.read 0 path).get? refKey = some (.str ref)) : r.qualify 0 path ref = r := by
  rw [h.read] at hsite
  cases hat : document.at? path with
  | none => simp [hat, Json.get?] at hsite
  | some w =>
    rw [hat, Option.getD_some] at hsite
    have hsame : w.setChild (.key refKey) (.str ref) = w := by
      cases w with
      | obj fields => exact Json.setChild_child hsite
      | _ => rfl
    have hmodify : document.modifyAt (fun v => v.setChild (.key refKey) (.str ref)) path = document :=
      Json.modifyAt_eq_self hat hsame
    rw [Resolver.qualify]
    cases r with
    | mk documents targets =>
      obtain rfl : documents = [document] := h.documents
      simp [List.modify, hmodify]

/-- Recording a reference in a document without an address. -/
theorem Records.record_run (h : r.Records document) (ref : String) :
    Resolver.record 0 [] "" ref r =
      if Failure.isRemote ref = true then .error (.remoteReference ref) r
      else if Pointer.isLocal ref = false then .error (.unsupportedReference ref) r
      else if r.knows ref = true then .ok ref r
      else match Pointer.follow ref (Pointer.segments ref) document with
        | .ok (path, v) => .ok ref
            { r with targets := Assoc.set r.targets ref (Resolver.targetOf 0 path v) }
        | .error e => .error e r := by
  have hread : r.read 0 [] = document := h.read []
  rw [Resolver.record_run, hread, String.empty_append]

theorem Records.record (h : r.Records document) {ref full : String}
    (hrun : Resolver.record 0 [] "" ref r = .ok full r') : full = ref ∧ r'.Records document := by
  rw [h.record_run] at hrun
  split_ifs at hrun
  · obtain ⟨rfl, rfl⟩ := EStateM.Result.ok.inj hrun
    exact ⟨rfl, h⟩
  · cases hfollow : Pointer.follow ref (Pointer.segments ref) document with
    | error e => simp [hfollow] at hrun
    | ok found =>
      rw [hfollow] at hrun
      obtain ⟨rfl, rfl⟩ := EStateM.Result.ok.inj hrun
      exact ⟨rfl, h.set hfollow⟩

theorem Records.referenceAt? (h : r.Records document) (path : Json.Path) :
    referenceAt? document path = reference? (r.read 0 path) := by
  rw [h.read, Resolver.referenceAt?]
  cases document.at? path with
  | none => rfl
  | some v => rfl

/-- Resolving one reference in a document without an address. -/
theorem Records.resolveSite_run (h : r.Records document) (site : Json.Path) :
    Resolver.resolveSite 0 [] "" site r = match Resolver.referenceAt? document site with
      | none => .ok () r
      | some ref => if r.knows ref = true then .ok () r
        else match Resolver.record 0 [] "" ref r with
          | .ok _ r' => .ok () r'
          | .error e r' => .error e r' := by
  rw [Resolver.resolveSite_run, h.referenceAt?]
  cases href : reference? (r.read 0 site) with
  | none => rfl
  | some ref =>
    dsimp only
    split_ifs
    · rfl
    · cases hrecord : Resolver.record 0 [] "" ref r with
      | error e r' => rfl
      | ok full r' =>
        obtain ⟨rfl, hrecords⟩ := h.record hrecord
        have hget := reference?_eq_some.1 href
        rw [h.read, ← hrecords.read] at hget
        dsimp only
        rw [hrecords.qualify hget]

theorem Records.resolveSite (h : r.Records document) {site : Json.Path} {u : Unit}
    (hrun : Resolver.resolveSite 0 [] "" site r = .ok u r') : r'.Records document := by
  rw [h.resolveSite_run] at hrun
  split at hrun
  · obtain ⟨-, rfl⟩ := EStateM.Result.ok.inj hrun
    exact h
  · split_ifs at hrun
    · obtain ⟨-, rfl⟩ := EStateM.Result.ok.inj hrun
      exact h
    · split at hrun
      · rename_i hrecord
        obtain ⟨-, rfl⟩ := EStateM.Result.ok.inj hrun
        exact (h.record hrecord).2
      · cases hrun

/-- **Resolving a document without an address.** The document stays as it is, and what is recorded
    for a reference is what its pointer leads to. -/
theorem records_resolve {u : Unit}
    (hrun : Resolver.resolve 0 [] "" (Resolver.new [document]) = .ok u r) : r.Records document := by
  unfold Resolver.resolve at hrun
  obtain ⟨r₁, r₂, hget, hloop⟩ := Work.bind_eq_ok.1 hrun
  obtain ⟨rfl, rfl⟩ := Work.get_eq_ok.1 hget
  have hreaches := Work.forM_reaches (I := fun r => r.Records document) (Q := fun _ _ => True)
    (fun _ _ _ _ _ h hsite => ⟨h.resolveSite hsite, trivial, fun _ _ => trivial⟩)
    (records_new document) hloop
  exact hreaches.1

end Records

end Resolver

end SchemaGrammar
