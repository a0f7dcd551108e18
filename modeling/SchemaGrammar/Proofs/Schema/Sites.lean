import SchemaGrammar.Proofs.Schema.Resolving

set_option autoImplicit false

/-! # Which references are recorded

Resolving a document goes through the places of its references in order (`Resolver.sites`): those
of all objects with a reference that is a text, constants and names of properties included, except
below the keyword itself (`mem_sites`). It succeeds if and only if each of these references has
a target in the document (`resolve_succeeds_iff`), and then it has recorded all of them
(`Sound.find?`). -/

namespace SchemaGrammar

namespace Resolver

open Json (Path Fields)

/-! ## Places of references -/

theorem hasReference_eq (fields : Fields) :
    hasReference fields = (reference? (.obj fields)).isSome := by
  unfold hasReference reference?
  dsimp only [Json.get?]
  cases Fields.get? fields refKey with
  | none => rfl
  | some v => cases v <;> rfl

theorem mem_itemSites_iff {i : Nat} {items : List Json} {path : Path} :
    path ∈ itemSites i items ↔
      ∃ j v rest, items[j]? = some v ∧ rest ∈ sites v ∧ path = .index (i + j) :: rest := by
  induction items generalizing i with
  | nil => simp [itemSites]
  | cons v items ih =>
    rw [itemSites, List.mem_append, List.mem_map, ih]
    constructor
    · rintro (⟨rest, hrest, rfl⟩ | ⟨j, w, rest, hw, hrest, rfl⟩)
      · exact ⟨0, v, rest, rfl, hrest, rfl⟩
      · exact ⟨j + 1, w, rest, by simpa using hw, hrest, by rw [Nat.add_right_comm, Nat.add_assoc]⟩
    · rintro ⟨j, w, rest, hw, hrest, rfl⟩
      cases j with
      | zero =>
        obtain rfl : v = w := by simpa using hw
        exact .inl ⟨rest, hrest, rfl⟩
      | succ j =>
        refine .inr ⟨j, w, rest, by simpa using hw, hrest, ?_⟩
        rw [Nat.add_right_comm, Nat.add_assoc]

theorem mem_fieldSites_iff {fields : Fields} {path : Path} :
    path ∈ fieldSites fields ↔ ∃ key v rest, (key, v) ∈ fields ∧ key ≠ refKey ∧ rest ∈ sites v ∧
      path = .key key :: rest := by
  induction fields with
  | nil => simp [fieldSites]
  | cons field fields ih =>
    obtain ⟨key, v⟩ := field
    rw [fieldSites, List.mem_append, ih]
    constructor
    · rintro (hhere | ⟨other, w, rest, hw, hkey, hrest, rfl⟩)
      · split_ifs at hhere with hkey
        · exact absurd hhere (by simp)
        · obtain ⟨rest, hrest, rfl⟩ := List.mem_map.1 hhere
          exact ⟨key, v, rest, by simp, by simpa using hkey, hrest, rfl⟩
      · exact ⟨other, w, rest, List.mem_cons_of_mem _ hw, hkey, hrest, rfl⟩
    · rintro ⟨other, w, rest, hw, hkey, hrest, rfl⟩
      rcases List.mem_cons.1 hw with heq | hw
      · obtain ⟨rfl, rfl⟩ := Prod.mk.inj heq
        rw [if_neg (by simpa using hkey)]
        exact .inl (List.mem_map_of_mem hrest)
      · exact .inr ⟨other, w, rest, hw, hkey, hrest, rfl⟩

/-- No place of a reference is below the keyword of references. -/
theorem notMem_of_mem_sites {v : Json} {path : Path} (h : path ∈ sites v) :
    Json.Step.key refKey ∉ path := by
  induction path generalizing v with
  | nil => simp
  | cons step rest ih =>
    cases v with
    | arr items =>
      obtain ⟨j, w, rest', -, hrest, heq⟩ := mem_itemSites_iff.1 (by simpa only [sites] using h)
      obtain ⟨rfl, rfl⟩ := List.cons.inj heq
      simpa using ih hrest
    | obj fields =>
      have hfields : step :: rest ∈ fieldSites fields := by
        rw [sites] at h
        refine (List.mem_append.1 h).resolve_left fun hhere => ?_
        split_ifs at hhere <;> simp at hhere
      obtain ⟨key, w, rest', -, hkey, hrest, heq⟩ := mem_fieldSites_iff.1 hfields
      obtain ⟨rfl, rfl⟩ := List.cons.inj heq
      simpa [hkey.symm] using ih hrest
    | _ => simp [sites] at h

/-- Every reference that is not below the keyword of references is met. -/
theorem mem_sites {v : Json} {path : Path} {ref : String} (h : referenceAt? v path = some ref)
    (hout : Json.Step.key refKey ∉ path) : path ∈ sites v := by
  induction path generalizing v with
  | nil =>
    have href : reference? v = some ref := h
    cases v with
    | obj fields =>
      rw [sites, hasReference_eq, href]
      simp
    | _ => simp [reference?, Json.get?] at href
  | cons step rest ih =>
    obtain ⟨hstep, hrest⟩ := not_or.1 (mt List.mem_cons.2 hout)
    unfold referenceAt? at h
    rw [Json.at?] at h
    cases hchild : v.child? step with
    | none => simp [hchild] at h
    | some w =>
      rw [hchild] at h
      have hmem : rest ∈ sites w := ih h hrest
      cases v with
      | arr items =>
        cases step with
        | index i =>
          rw [sites, mem_itemSites_iff]
          exact ⟨i, w, rest, hchild, hmem, by rw [Nat.zero_add]⟩
        | key name => simp [Json.child?] at hchild
      | obj fields =>
        cases step with
        | index i => simp [Json.child?] at hchild
        | key name =>
          rw [sites]
          refine List.mem_append_right _ (mem_fieldSites_iff.2 ⟨name, w, rest, ?_, ?_, hmem, rfl⟩)
          · exact Assoc.mem_of_lookup hchild
          · rintro rfl
            exact hstep rfl
      | _ => cases step <;> simp [Json.child?] at hchild

/-! ## Recording one reference -/

/-- A reference has a target in the document. -/
structure IsResolvable (document : Json) (ref : String) : Prop where
  near : Failure.isRemote ref = false
  isLocal : Pointer.isLocal ref = true
  target : (Schema.targetOf document ref).isSome = true

/-- What has been recorded has a target. -/
structure Sound (document : Json) (r : Resolver) : Prop extends r.Records document where
  resolvable : ∀ ref, r.knows ref = true → IsResolvable document ref

variable {document : Json} {r r' : Resolver} {ref : String} {path : Path}

theorem sound_new (document : Json) : Sound document (Resolver.new [document]) :=
  ⟨records_new document, fun ref h => by simp [new, knows, Assoc.has] at h⟩

theorem knows_set {target : Target} {other : String} :
    Resolver.knows { r with targets := Assoc.set r.targets ref target } other = true ↔
      other = ref ∨ r.knows other = true := by
  unfold knows Assoc.has
  rw [Assoc.lookup_set]
  split_ifs with heq <;> simp [heq]

theorem Sound.set (h : Sound document r) (hnear : Failure.isRemote ref = false)
    (hlocal : Pointer.isLocal ref = true) {path : Path} {v : Json}
    (hfollow : Pointer.follow ref (Pointer.segments ref) document = .ok (path, v)) :
    Sound document { r with targets := Assoc.set r.targets ref (Resolver.targetOf 0 path v) } := by
  refine ⟨h.toRecords.set hfollow, fun other hother => ?_⟩
  rcases knows_set.1 hother with rfl | hold
  · exact ⟨hnear, hlocal, by rw [Schema.targetOf, hfollow]; rfl⟩
  · exact h.resolvable other hold

theorem Sound.record (h : Sound document r) {full : String}
    (hrun : Resolver.record 0 [] "" ref r = .ok full r') :
    Sound document r' ∧ r'.knows ref = true ∧
      ∀ other, r.knows other = true → r'.knows other = true := by
  rw [h.toRecords.record_run] at hrun
  split_ifs at hrun with hremote hlocal hknown
  · obtain ⟨-, rfl⟩ := EStateM.Result.ok.inj hrun
    exact ⟨h, hknown, fun _ => id⟩
  · cases hfollow : Pointer.follow ref (Pointer.segments ref) document with
    | error e => simp [hfollow] at hrun
    | ok found =>
      rw [hfollow] at hrun
      obtain ⟨-, rfl⟩ := EStateM.Result.ok.inj hrun
      exact ⟨h.set (by simpa using hremote) (by simpa using hlocal) hfollow, knows_set.2 (.inl rfl),
        fun other hother => knows_set.2 (.inr hother)⟩

/-- What recording a reference may fail with. -/
inductive ReferenceFault (document : Json) (ref : String) : Failure → Prop
  | remote (h : Failure.isRemote ref = true) : ReferenceFault document ref (.remoteReference ref)
  | foreign (h : Pointer.isLocal ref = false) :
      ReferenceFault document ref (.unsupportedReference ref)
  | broken {e} (h : Pointer.follow ref (Pointer.segments ref) document = .error e) :
      ReferenceFault document ref e

theorem Sound.record_error (h : Sound document r) {e : Failure}
    (hrun : Resolver.record 0 [] "" ref r = .error e r') : ReferenceFault document ref e := by
  rw [h.toRecords.record_run] at hrun
  split_ifs at hrun with hremote hlocal
  · obtain ⟨rfl, -⟩ := EStateM.Result.error.inj hrun
    exact .remote hremote
  · obtain ⟨rfl, -⟩ := EStateM.Result.error.inj hrun
    exact .foreign hlocal
  · cases hfollow : Pointer.follow ref (Pointer.segments ref) document with
    | ok found => simp [hfollow] at hrun
    | error e' =>
      rw [hfollow] at hrun
      obtain ⟨rfl, -⟩ := EStateM.Result.error.inj hrun
      exact .broken hfollow

/-- A reference with a target can be recorded. -/
theorem Sound.record_succeeds (h : Sound document r) (href : IsResolvable document ref) :
    ∃ r', Resolver.record 0 [] "" ref r = .ok ref r' := by
  rw [h.toRecords.record_run, if_neg (by simp [href.near]), if_neg (by simp [href.isLocal])]
  split_ifs
  · exact ⟨r, rfl⟩
  · have htarget := href.target
    rw [Schema.targetOf] at htarget
    cases hfollow : Pointer.follow ref (Pointer.segments ref) document with
    | error e => simp [hfollow] at htarget
    | ok found => exact ⟨_, rfl⟩

/-! ## Recording all references -/

theorem Sound.resolveSite (h : Sound document r) {u : Unit}
    (hrun : Resolver.resolveSite 0 [] "" path r = .ok u r') :
    Sound document r' ∧ (∀ ref, referenceAt? document path = some ref → r'.knows ref = true) ∧
      ∀ other, r.knows other = true → r'.knows other = true := by
  rw [h.toRecords.resolveSite_run] at hrun
  cases href : referenceAt? document path with
  | none =>
    rw [href] at hrun
    obtain ⟨-, rfl⟩ := EStateM.Result.ok.inj hrun
    exact ⟨h, by simp, fun _ => id⟩
  | some ref =>
    rw [href] at hrun
    dsimp only at hrun
    split_ifs at hrun with hknown
    · obtain ⟨-, rfl⟩ := EStateM.Result.ok.inj hrun
      exact ⟨h, fun other hother => Option.some.inj hother ▸ hknown, fun _ => id⟩
    · cases hrecord : Resolver.record 0 [] "" ref r with
      | error e r₁ => simp [hrecord] at hrun
      | ok full r₁ =>
        rw [hrecord] at hrun
        obtain ⟨-, rfl⟩ := EStateM.Result.ok.inj hrun
        obtain ⟨hsound, hknows, hkept⟩ := h.record hrecord
        exact ⟨hsound, fun other hother => Option.some.inj hother ▸ hknows, hkept⟩

theorem Sound.resolveSite_succeeds (h : Sound document r)
    (hpath : ∀ ref, referenceAt? document path = some ref → IsResolvable document ref) :
    ∃ u r', Resolver.resolveSite 0 [] "" path r = .ok u r' ∧ Sound document r' := by
  have hrun := h.toRecords.resolveSite_run path
  have hsome : ∃ r', Resolver.resolveSite 0 [] "" path r = .ok () r' := by
    rw [hrun]
    cases href : referenceAt? document path with
    | none => exact ⟨r, rfl⟩
    | some ref =>
      dsimp only
      split_ifs
      · exact ⟨r, rfl⟩
      · obtain ⟨r', hrecord⟩ := h.record_succeeds (hpath ref href)
        rw [hrecord]
        exact ⟨r', rfl⟩
  obtain ⟨r', hok⟩ := hsome
  exact ⟨(), r', hok, (h.resolveSite hok).1⟩

theorem Sound.resolveSite_error (h : Sound document r) {e : Failure}
    (hrun : Resolver.resolveSite 0 [] "" path r = .error e r') :
    ∃ ref, referenceAt? document path = some ref ∧ ReferenceFault document ref e := by
  rw [h.toRecords.resolveSite_run] at hrun
  cases href : referenceAt? document path with
  | none => simp [href] at hrun
  | some ref =>
    rw [href] at hrun
    dsimp only at hrun
    split_ifs at hrun
    cases hrecord : Resolver.record 0 [] "" ref r with
    | ok full r₁ => simp [hrecord] at hrun
    | error e' r₁ =>
      rw [hrecord] at hrun
      obtain ⟨rfl, -⟩ := EStateM.Result.error.inj hrun
      exact ⟨ref, rfl, h.record_error hrecord⟩

/-- What resolving a document has recorded. -/
theorem sound_resolve {u : Unit}
    (hrun : Resolver.resolve 0 [] "" (Resolver.new [document]) = .ok u r) :
    Sound document r ∧ ∀ path ref, referenceAt? document path = some ref →
      Json.Step.key refKey ∉ path → r.knows ref = true := by
  have hstep : ∀ path ∈ sites document, ∀ s s' u, Sound document s →
      Resolver.resolveSite 0 [] "" path s = .ok u s' → Sound document s' ∧
        (∀ ref, referenceAt? document path = some ref → s'.knows ref = true) ∧
        ∀ other, (∀ ref, referenceAt? document other = some ref → s.knows ref = true) →
          ∀ ref, referenceAt? document other = some ref → s'.knows ref = true := by
    intro path _ s s' u h hsite
    obtain ⟨hsound, hknows, hkept⟩ := h.resolveSite hsite
    exact ⟨hsound, hknows, fun other hother ref href => hkept ref (hother ref href)⟩
  obtain ⟨hsound, hall, -⟩ := Work.forM_reaches hstep (sound_new document) hrun
  exact ⟨hsound, fun path ref href hout => hall path (mem_sites href hout) ref href⟩

/-- **What resolving rests on.** The references of a document can be resolved if and only if each
    of them has a target, except those below the keyword of references. -/
theorem resolve_succeeds_iff :
    (∃ u r, Resolver.resolve 0 [] "" (Resolver.new [document]) = .ok u r) ↔
      ∀ path ref, referenceAt? document path = some ref → Json.Step.key refKey ∉ path →
        IsResolvable document ref := by
  constructor
  · rintro ⟨u, r, hrun⟩ path ref href hout
    obtain ⟨hsound, hknows⟩ := sound_resolve hrun
    exact hsound.resolvable ref (hknows path ref href hout)
  · intro h
    have hall : ∀ path ∈ sites document, ∀ r, Sound document r →
        ∃ u r', Resolver.resolveSite 0 [] "" path r = .ok u r' ∧ Sound document r' :=
      fun path hpath r hr => hr.resolveSite_succeeds fun ref href =>
        h path ref href (notMem_of_mem_sites hpath)
    obtain ⟨u, r, hrun, -⟩ := Work.forM_succeeds hall (sound_new document)
    exact ⟨u, r, hrun⟩

/-- Resolving fails only by a reference without a target. -/
theorem resolve_error {e : Failure}
    (hrun : Resolver.resolve 0 [] "" (Resolver.new [document]) = .error e r) :
    ∃ path ref, referenceAt? document path = some ref ∧ ReferenceFault document ref e := by
  obtain ⟨path, -, r₁, hsound, hfails⟩ := Work.forM_error (I := Sound document)
    (fun _ _ _ _ _ h hsite => (h.resolveSite hsite).1) (sound_new document) hrun
  exact ⟨path, hsound.resolveSite_error hfails⟩

/-- What has been recorded for a reference is its target. -/
theorem Sound.find? (h : Sound document r) (hknows : r.knows ref = true) :
    r.find? ref = Schema.targetOf document ref := by
  obtain ⟨target, htarget⟩ := Option.isSome_iff_exists.1 hknows
  have hfind : r.find? ref = some (r.targetValue target) := by
    rw [Resolver.find?, htarget]
    rfl
  rw [hfind, h.toRecords.find? hfind]

end Resolver

end SchemaGrammar
