import SchemaGrammar.Proofs.Reference.Rewriting

set_option autoImplicit false

/-! # Documents with addresses of their own

Several documents are resolved one after the other, each under its own address. A reference of
a document is put in its full form, and the full form finds the part of that same document, unless
a document without an address was resolved before that has the same reference: then the reference
looks like a full form, is left as it is and finds the part of that other document
(`references_separate`). One call keeps what `Rewrites` says, a run of calls what `Resolves` says.

Addresses have no hash here. With one, the address and the pointer of a full form could not be told
apart. -/

namespace SchemaGrammar

open Json (Path Step)
open Pointer (place? place?_eq_some place?_setAt)

namespace Resolver

/-! ## References as texts of a document -/

/-- Is a reference met when a document is resolved? -/
def Meets (document : Json) (ref : String) : Prop :=
  ∃ site, referenceAt? document site = some ref ∧ Step.key refKey ∉ site

theorem referenceAt?_eq_some_iff {document : Json} {site : Path} {ref : String} :
    referenceAt? document site = some ref ↔
      document.at? (site ++ [.key refKey]) = some (.str ref) := by
  have hchild : ∀ w : Json, w.at? [.key refKey] = w.get? refKey := by
    intro w
    rw [Json.at?_cons]
    cases w with
    | obj fields => exact Option.bind_fun_some (Json.Fields.get? fields refKey)
    | _ => rfl
  rw [referenceAt?, Json.at?_append]
  cases document.at? site with
  | none => simp
  | some w => rw [Option.bind_some, Option.bind_some, reference?_eq_some, hchild]

theorem reference?_read (r : Resolver) (d : Nat) (site : Path) :
    reference? (r.read d site) = referenceAt? (r.read d []) site := by
  change reference? (((r.read d []).at? site).getD .null) = _
  rw [referenceAt?]
  cases (r.read d []).at? site <;> rfl

/-- Putting a full reference in its place changes one text. -/
theorem read_qualify (r : Resolver) (d : Nat) (site : Path) (full : String) :
    (r.qualify d site full).read d [] =
      (r.read d []).setAt site (.key refKey) (.str full) := by
  change ((r.documents.modify d _)[d]?.getD .null) = (r.documents[d]?.getD .null).setAt site _ _
  rw [List.getElem?_modify_eq]
  cases r.documents[d]? with
  | none => cases site <;> rfl
  | some document => rfl

theorem documents_qualify_of_ne {r : Resolver} {d e : Nat} (h : e ≠ d) (site : Path)
    (full : String) : (r.qualify d site full).documents[e]? = r.documents[e]? := by
  simp [qualify, Ne.symm h]

theorem knows_iff {r : Resolver} {key : String} :
    r.knows key = true ↔ ∃ target, r.targets.lookup key = some target :=
  Option.isSome_iff_exists

theorem read_congr {r r' : Resolver} {d : Nat} (h : r'.documents[d]? = r.documents[d]?)
    (path : Path) : r'.read d path = r.read d path := by
  rw [read, read, h]

/-! ## One call -/

/-- A target as it is recorded for a place. A value that is recorded itself stands there now, or it
    is the text of a reference that stood there before. -/
def IsTargetAt (d : Nat) (before now : Json) (path : Path) : Target → Prop
  | .place e other => e = d ∧ other = path
  | .value v => v.IsLeaf ∧
    (now.at? path = some v ∨ (∃ front, path = front ++ [.key refKey]) ∧ before.at? path = some v)

theorem isTargetAt_targetOf {d : Nat} {before now v : Json} {path : Path}
    (h : now.at? path = some v) : IsTargetAt d before now path (targetOf d path v) := by
  cases v with
  | arr items => exact ⟨rfl, rfl⟩
  | obj fields => exact ⟨rfl, rfl⟩
  | _ => exact ⟨fun step => by cases step <;> rfl, .inl h⟩

/-- What resolving a document under an address has done so far, from the state it started in. -/
structure Rewrites (r₀ : Resolver) (d : Nat) (url : String) (r : Resolver) : Prop where
  others : ∀ e, e ≠ d → r.documents[e]? = r₀.documents[e]?
  places : ∀ ref segments, place? ref segments (r.read d []) = place? ref segments (r₀.read d [])
  references : ∀ site, referenceAt? (r.read d []) site = referenceAt? (r₀.read d []) site ∨
    ∃ ref, referenceAt? (r₀.read d []) site = some ref ∧ r₀.knows ref = false ∧
      referenceAt? (r.read d []) site = some (url ++ ref) ∧ r.knows (url ++ ref) = true
  old : ∀ key target, r₀.targets.lookup key = some target → r.targets.lookup key = some target
  new : ∀ key target, r.targets.lookup key = some target →
    r₀.targets.lookup key = some target ∨
      ∃ ref path, key = url ++ ref ∧ Pointer.isLocal ref = true ∧ Meets (r₀.read d []) ref ∧
        place? ref (Pointer.segments ref) (r₀.read d []) = some path ∧
        IsTargetAt d (r₀.read d []) (r.read d []) path target

section Rewrites

variable {r₀ r r' : Resolver} {d : Nat} {url ref full : String} {site : Path}

theorem Rewrites.refl (r₀ : Resolver) (d : Nat) (url : String) : Rewrites r₀ d url r₀ :=
  ⟨fun _ _ => rfl, fun _ _ => rfl, fun _ => .inl rfl, fun _ _ => id, fun _ _ => .inl⟩

theorem Rewrites.knows (h : Rewrites r₀ d url r) {key : String} (hknows : r₀.knows key = true) :
    r.knows key = true := by
  obtain ⟨target, htarget⟩ := knows_iff.1 hknows
  exact knows_iff.2 ⟨target, h.old key target htarget⟩

/-- A reference that is not known yet is the one that the document had. -/
theorem Rewrites.reference_of_unknown (h : Rewrites r₀ d url r)
    (href : referenceAt? (r.read d []) site = some ref) (hunknown : r.knows ref = false) :
    referenceAt? (r₀.read d []) site = some ref ∧ r₀.knows ref = false := by
  constructor
  · rcases h.references site with hsame | ⟨other, -, -, hfull, hknown⟩
    · rw [← hsame, href]
    · obtain rfl : url ++ other = ref := Option.some.inj (hfull.symm.trans href)
      rw [hunknown] at hknown
      cases hknown
  · cases hknown : r₀.knows ref with
    | false => rfl
    | true =>
      rw [h.knows hknown] at hunknown
      cases hunknown

/-- Recording a reference gives its full form, which is known then. -/
theorem Rewrites.record (h : Rewrites r₀ d url r) (hmeets : Meets (r₀.read d []) ref)
    (hrun : Resolver.record d [] url ref r = .ok full r') :
    full = url ++ ref ∧ r'.documents = r.documents ∧ r'.knows (url ++ ref) = true ∧
      (∀ key, r.knows key = true → r'.knows key = true) ∧ Rewrites r₀ d url r' := by
  rw [record_run] at hrun
  split_ifs at hrun with hremote hlocal hknown
  · obtain ⟨rfl, rfl⟩ := EStateM.Result.ok.inj hrun
    exact ⟨rfl, rfl, hknown, fun _ => id, h⟩
  · cases hfollow : Pointer.follow ref (Pointer.segments ref) (r.read d []) with
    | error e => simp [hfollow] at hrun
    | ok found =>
      obtain ⟨path, v⟩ := found
      rw [hfollow] at hrun
      obtain ⟨rfl, rfl⟩ := EStateM.Result.ok.inj hrun
      have hkeeps : ∀ key, r.knows key = true →
          Resolver.knows { r with
            targets := Assoc.set r.targets (url ++ ref) (targetOf d path v) } key = true :=
        fun key hkey => knows_set.2 (.inr hkey)
      refine ⟨rfl, rfl, knows_set.2 (.inl rfl), hkeeps, ?_⟩
      refine ⟨h.others, h.places, fun site => ?_, fun key target hlookup => ?_,
        fun key target hlookup => ?_⟩
      · refine (h.references site).imp_right fun ⟨other, hother, hunknown, hsite, hfull⟩ =>
          ⟨other, hother, hunknown, hsite, hkeeps _ hfull⟩
      · -- the full form was not known, so setting it hides nothing
        have hold := h.old key target hlookup
        have hne : key ≠ url ++ ref := by
          rintro rfl
          exact hknown (knows_iff.2 ⟨target, hold⟩)
        rw [Assoc.lookup_set, if_neg hne]
        exact hold
      · rw [Assoc.lookup_set] at hlookup
        split_ifs at hlookup with hkey
        · obtain rfl := Option.some.inj hlookup
          have hplace := place?_eq_some.2 ⟨v, hfollow⟩
          rw [h.places] at hplace
          exact .inr ⟨ref, path, hkey, by simpa using hlocal, hmeets, hplace,
            isTargetAt_targetOf (Pointer.at?_of_follow hfollow)⟩
        · exact h.new key target hlookup

/-- Putting the full form of a reference in its place. -/
theorem Rewrites.qualify (h : Rewrites r₀ d url r)
    (href : referenceAt? (r.read d []) site = some ref)
    (horiginal : referenceAt? (r₀.read d []) site = some ref) (hunknown : r₀.knows ref = false)
    (hfull : r.knows (url ++ ref) = true) :
    Rewrites r₀ d url (r.qualify d site (url ++ ref)) ∧
      referenceAt? ((r.qualify d site (url ++ ref)).read d []) site = some (url ++ ref) ∧
      ∀ other, other ≠ site → referenceAt? ((r.qualify d site (url ++ ref)).read d []) other =
        referenceAt? (r.read d []) other := by
  have htext := referenceAt?_eq_some_iff.1 href
  have hleaf := Json.isLeaf_str ref
  have hread := read_qualify r d site (url ++ ref)
  have hstays : ∀ {path : Path} {v : Json}, v.IsLeaf → path ≠ site ++ [.key refKey] →
      (((r.qualify d site (url ++ ref)).read d []).at? path = some v ↔
        (r.read d []).at? path = some v) := by
    intro path v hv hne
    rw [hread]
    exact Json.at?_setAt_of_ne htext hleaf (Json.isLeaf_str _) hne hv
  have hhere : referenceAt? ((r.qualify d site (url ++ ref)).read d []) site =
      some (url ++ ref) := by
    rw [referenceAt?_eq_some_iff, hread]
    exact Json.at?_setAt_self htext _
  have hthere : ∀ other, other ≠ site →
      referenceAt? ((r.qualify d site (url ++ ref)).read d []) other =
        referenceAt? (r.read d []) other := by
    refine fun other hne => Option.ext fun x => ?_
    rw [referenceAt?_eq_some_iff, referenceAt?_eq_some_iff]
    exact hstays (Json.isLeaf_str x) fun heq => hne (List.append_cancel_right heq)
  refine ⟨⟨fun e he => ?_, fun other segments => ?_, fun other => ?_, h.old,
    fun key target hlookup => ?_⟩, hhere, hthere⟩
  · rw [documents_qualify_of_ne he, h.others e he]
  · rw [hread, place?_setAt htext hleaf (Json.isLeaf_str _), h.places]
  · by_cases hother : other = site
    · subst hother
      exact .inr ⟨ref, horiginal, hunknown, hhere, hfull⟩
    · rw [hthere other hother]
      exact h.references other
  · refine (h.new key target hlookup).imp_right fun ⟨other, path, hkey, hlocal, hmeets, hplace,
      htarget⟩ => ⟨other, path, hkey, hlocal, hmeets, hplace, ?_⟩
    cases target with
    | place e place => exact htarget
    | value v =>
      obtain ⟨hv, hnow | hbefore⟩ := htarget
      · refine ⟨hv, ?_⟩
        by_cases hpath : path = site ++ [.key refKey]
        · -- the text that is replaced is the one that the document had
          rw [hpath, htext] at hnow
          refine .inr ⟨⟨site, hpath⟩, ?_⟩
          rw [hpath, ← hnow, ← referenceAt?_eq_some_iff]
          exact horiginal
        · exact .inl ((hstays hv hpath).2 hnow)
      · exact ⟨hv, .inr hbefore⟩

/-- One reference is resolved: its place has a reference that is known then, and places with one
    keep it. -/
theorem Rewrites.resolveSite (h : Rewrites r₀ d url r) (hout : Step.key refKey ∉ site) {u : Unit}
    (hrun : Resolver.resolveSite d [] url site r = .ok u r') :
    Rewrites r₀ d url r' ∧
      (∀ ref, referenceAt? (r.read d []) site = some ref →
        ∃ x, referenceAt? (r'.read d []) site = some x ∧ r'.knows x = true) ∧
      ∀ other x, referenceAt? (r.read d []) other = some x → r.knows x = true →
        referenceAt? (r'.read d []) other = some x ∧ r'.knows x = true := by
  rw [resolveSite_run, reference?_read] at hrun
  cases href : referenceAt? (r.read d []) site with
  | none =>
    rw [href] at hrun
    obtain ⟨-, rfl⟩ := EStateM.Result.ok.inj hrun
    exact ⟨h, by simp, fun _ _ hx hknown => ⟨hx, hknown⟩⟩
  | some ref =>
    rw [href] at hrun
    dsimp only at hrun
    split_ifs at hrun with hknown
    · obtain ⟨-, rfl⟩ := EStateM.Result.ok.inj hrun
      refine ⟨h, fun other hother => ⟨ref, href, hknown⟩, fun _ _ hx hknown => ⟨hx, hknown⟩⟩
    · have hunknown : r.knows ref = false := by simpa using hknown
      obtain ⟨horiginal, hunknown₀⟩ := h.reference_of_unknown href hunknown
      cases hrecord : Resolver.record d [] url ref r with
      | error e r₁ => simp [hrecord] at hrun
      | ok full r₁ =>
        rw [hrecord] at hrun
        obtain ⟨-, rfl⟩ := EStateM.Result.ok.inj hrun
        obtain ⟨rfl, hdocuments, hfull, hkeeps, h₁⟩ := h.record ⟨site, horiginal, hout⟩ hrecord
        have hread : r₁.read d [] = r.read d [] := read_congr (by rw [hdocuments]) []
        obtain ⟨h', hhere, hthere⟩ :=
          h₁.qualify (by rw [hread, href]) horiginal hunknown₀ hfull
        refine ⟨h', fun _ _ => ⟨_, hhere, hfull⟩, fun other x hx hxknown => ?_⟩
        have hne : other ≠ site := by
          rintro rfl
          obtain rfl : ref = x := Option.some.inj (href.symm.trans hx)
          exact hknown hxknown
        rw [hthere other hne, hread]
        exact ⟨hx, hkeeps x hxknown⟩

/-- A whole call: each reference that it meets is known then, in one of its two forms. -/
theorem rewrites_resolve {u : Unit} (hrun : Resolver.resolve d [] url r = .ok u r') :
    Rewrites r d url r' ∧ ∀ site ref, referenceAt? (r.read d []) site = some ref →
      Step.key refKey ∉ site →
      ∃ x, referenceAt? (r'.read d []) site = some x ∧ r'.knows x = true := by
  unfold Resolver.resolve at hrun
  obtain ⟨s, s', hget, hloop⟩ := Work.bind_eq_ok.1 hrun
  obtain ⟨rfl, rfl⟩ := Work.get_eq_ok.1 hget
  have hstep : ∀ site ∈ sites (r.read d []), ∀ s s' u, Rewrites r d url s →
      Resolver.resolveSite d [] url site s = .ok u s' → Rewrites r d url s' ∧
        ((referenceAt? (r.read d []) site).isSome = true →
          ∃ x, referenceAt? (s'.read d []) site = some x ∧ s'.knows x = true) ∧
        ∀ other,
          ((referenceAt? (r.read d []) other).isSome = true →
            ∃ x, referenceAt? (s.read d []) other = some x ∧ s.knows x = true) →
          (referenceAt? (r.read d []) other).isSome = true →
            ∃ x, referenceAt? (s'.read d []) other = some x ∧ s'.knows x = true := by
    intro site hsite s s' u h hrun
    obtain ⟨h', hhere, hkept⟩ := h.resolveSite (notMem_of_mem_sites hsite) hrun
    refine ⟨h', fun hsome => ?_, fun other hother hsome => ?_⟩
    · obtain ⟨ref, href⟩ := Option.isSome_iff_exists.1 hsome
      rcases h.references site with hsame | ⟨other, -, -, hfull, -⟩
      · exact hhere ref (hsame.trans href)
      · exact hhere _ hfull
    · obtain ⟨x, hx, hknown⟩ := hother hsome
      exact ⟨x, hkept other x hx hknown⟩
  obtain ⟨h, hall, -⟩ := Work.forM_reaches hstep (Rewrites.refl r d url) hloop
  exact ⟨h, fun site ref href hout => hall site (mem_sites href hout) (by rw [href]; rfl)⟩

end Rewrites

/-! ## Calls in a row -/

/-- One call for each document and its address. -/
def resolveEach (calls : List (Nat × String)) : ResolveM Unit :=
  calls.forM fun call => resolve call.1 [] call.2

/-- What a run of calls has done. -/
structure Resolves (calls : List (Nat × String)) (r₀ r : Resolver) : Prop where
  others : ∀ e, e ∉ calls.map Prod.fst → r.documents[e]? = r₀.documents[e]?
  old : ∀ key target, r₀.targets.lookup key = some target → r.targets.lookup key = some target
  new : ∀ key, r.knows key = true → r₀.knows key = true ∨
    ∃ call ∈ calls, ∃ ref, Pointer.isLocal ref = true ∧ Meets (r₀.read call.1 []) ref ∧
      key = call.2 ++ ref
  met : ∀ call ∈ calls, call.2 = "" → ∀ ref, Meets (r₀.read call.1 []) ref → r.knows ref = true

section Resolves

variable {r₀ r r' : Resolver} {calls before after : List (Nat × String)} {d : Nat}
  {url ref : String} {site : Path}

/-- A document without an address leaves all its references known. -/
theorem knows_of_meets {u : Unit} (hrun : resolve d [] "" r = .ok u r')
    (hmeets : Meets (r.read d []) ref) : r'.knows ref = true := by
  obtain ⟨h, hmet⟩ := rewrites_resolve hrun
  obtain ⟨site, href, hout⟩ := hmeets
  obtain ⟨x, hx, hknown⟩ := hmet site ref href hout
  obtain rfl : x = ref := by
    rcases h.references site with hsame | ⟨other, hother, -, hfull, -⟩
    · exact Option.some.inj (hx.symm.trans (hsame.trans href))
    · obtain rfl : other = ref := Option.some.inj (hother.symm.trans href)
      rw [String.empty_append] at hfull
      exact Option.some.inj (hx.symm.trans hfull)
  exact hknown

theorem resolves_each (hdocuments : (calls.map Prod.fst).Nodup) {u : Unit}
    (hrun : resolveEach calls r₀ = .ok u r) : Resolves calls r₀ r := by
  induction calls generalizing r₀ with
  | nil =>
    obtain ⟨-, rfl⟩ := Work.pure_eq_ok.1 hrun
    exact ⟨fun _ _ => rfl, fun _ _ => id, fun _ => .inl, by simp⟩
  | cons call rest ih =>
    obtain ⟨d, url⟩ := call
    obtain ⟨hd, hrest⟩ := List.nodup_cons.1 hdocuments
    obtain ⟨u₁, r₁, hcall, hcalls⟩ := Work.bind_eq_ok.1 hrun
    have h := (rewrites_resolve hcall).1
    have h' := ih hrest hcalls
    have hread : ∀ call ∈ rest, r₁.read call.1 [] = r₀.read call.1 [] := fun call hcall =>
      read_congr (h.others call.1 fun heq => hd (List.mem_map.2 ⟨call, hcall, heq⟩)) []
    refine ⟨fun e he => ?_, fun key target hkey => h'.old key target (h.old key target hkey),
      fun key hkey => ?_, fun call hmem hurl ref hmeets => ?_⟩
    · obtain ⟨hne, hnot⟩ := not_or.1 (mt List.mem_cons.2 he)
      rw [h'.others e hnot, h.others e hne]
    · rcases h'.new key hkey with hknown | ⟨call, hmem, ref, hlocal, hmeets, hfull⟩
      · obtain ⟨target, htarget⟩ := knows_iff.1 hknown
        rcases h.new key target htarget with hold | ⟨ref, -, hfull, hlocal, hmeets, -⟩
        · exact .inl (knows_iff.2 ⟨target, hold⟩)
        · exact .inr ⟨(d, url), by simp, ref, hlocal, hmeets, hfull⟩
      · rw [hread call hmem] at hmeets
        exact .inr ⟨call, List.mem_cons_of_mem _ hmem, ref, hlocal, hmeets, hfull⟩
    · rcases List.mem_cons.1 hmem with rfl | hmem
      · obtain rfl : url = "" := hurl
        obtain ⟨target, htarget⟩ := knows_iff.1 (knows_of_meets hcall hmeets)
        exact knows_iff.2 ⟨target, h'.old ref target htarget⟩
      · rw [← hread call hmem] at hmeets
        exact h'.met call hmem hurl ref hmeets

/-- An address without a hash is told apart from the pointer behind it. -/
theorem append_inj_of_hash {url url' ref ref' : String} (hurl : '#' ∉ url.toList)
    (hurl' : '#' ∉ url'.toList) (href : Pointer.isLocal ref = true)
    (href' : Pointer.isLocal ref' = true) (h : url ++ ref = url' ++ ref') :
    url = url' ∧ ref = ref' := by
  obtain ⟨rest, hrest⟩ := Pointer.exists_of_isLocal href
  obtain ⟨rest', hrest'⟩ := Pointer.exists_of_isLocal href'
  have hlists : url.toList ++ '#' :: rest = url'.toList ++ '#' :: rest' := by
    rw [← hrest, ← hrest', ← String.toList_append, ← String.toList_append, h]
  have hfronts : ∀ {front : List Char} (behind : List Char), '#' ∉ front →
      (front ++ '#' :: behind).takeWhile (· ≠ '#') = front := by
    intro front behind hfront
    rw [List.takeWhile_append_of_pos]
    · simp
    · intro c hc
      simpa using fun heq : c = '#' => hfront (heq ▸ hc)
  have hsame : url.toList = url'.toList := by
    rw [← hfronts rest hurl, hlists, hfronts rest' hurl']
  rw [hsame, List.append_cancel_left_eq, ← hrest, ← hrest'] at hlists
  exact ⟨String.toList_inj.1 hsame, String.toList_inj.1 hlists⟩

/-- The full form of a reference finds the part of the document that the reference leads to, as it
    is at the end. If that is the text of a reference, it may be the text that stood there at the
    start. -/
def FindsPart (start : Json) (r : Resolver) (d : Nat) (url ref : String) : Prop :=
  ∃ path v w, Pointer.follow ref (Pointer.segments ref) start = .ok (path, v) ∧
    Pointer.follow ref (Pointer.segments ref) (r.read d []) = .ok (path, w) ∧
    (r.find? (url ++ ref) = some w ∨
      (∃ front, path = front ++ [.key refKey]) ∧ r.find? (url ++ ref) = some v)

/-- What a call has recorded for a reference of its document is the part of that document. -/
theorem Rewrites.findsPart {r₁ r₂ : Resolver} (h : Rewrites r₁ d url r₂)
    (hlocal : Pointer.isLocal ref = true) (hnew : r₁.knows (url ++ ref) = false)
    (hknown : r₂.knows (url ++ ref) = true)
    (hdocument : r.documents[d]? = r₂.documents[d]?)
    (hold : ∀ key target, r₂.targets.lookup key = some target →
      r.targets.lookup key = some target)
    (hurl : '#' ∉ url.toList) : FindsPart (r₁.read d []) r d url ref := by
  obtain ⟨target, htarget⟩ := knows_iff.1 hknown
  rcases h.new _ target htarget with hbefore | ⟨other, path, hkey, hother, -, hplace, hat⟩
  · rw [knows_iff.2 ⟨target, hbefore⟩] at hnew
    cases hnew
  obtain ⟨-, rfl⟩ := append_inj_of_hash hurl hurl hlocal hother hkey
  have hplace' := h.places ref (Pointer.segments ref)
  rw [hplace, ← read_congr hdocument] at hplace'
  obtain ⟨v, hv⟩ := place?_eq_some.1 hplace
  obtain ⟨w, hw⟩ := place?_eq_some.1 hplace'
  have hnow := Pointer.at?_of_follow hw
  refine ⟨path, v, w, hv, hw, ?_⟩
  rw [find?, hold _ target htarget, Option.map_some]
  cases target with
  | place e place =>
    obtain ⟨rfl, rfl⟩ := hat
    refine .inl (congrArg some ?_)
    change ((r.read _ []).at? _).getD .null = w
    rw [hnow, Option.getD_some]
  | value u =>
    rw [← read_congr hdocument] at hat
    obtain ⟨-, hat | ⟨hends, hat⟩⟩ := hat
    · exact .inl (hat.symm.trans hnow)
    · exact .inr ⟨hends, hat.symm.trans (Pointer.at?_of_follow hv)⟩

/-- A run of calls with one of them singled out. -/
theorem resolveEach_split {u : Unit}
    (hdocuments : ((before ++ (d, url) :: after).map Prod.fst).Nodup)
    (hrun : resolveEach (before ++ (d, url) :: after) r₀ = .ok u r) :
    ∃ r₁ r₂, Resolves before r₀ r₁ ∧ resolve d [] url r₁ = .ok () r₂ ∧ Resolves after r₂ r ∧
      r₁.read d [] = r₀.read d [] ∧ r.documents[d]? = r₂.documents[d]? := by
  rw [List.map_append, List.map_cons] at hdocuments
  obtain ⟨hbefore, hrest, hapart⟩ := List.nodup_append.1 hdocuments
  obtain ⟨hafter, hafter'⟩ := List.nodup_cons.1 hrest
  obtain ⟨r₁, hfirst, hrun⟩ := Work.forM_append_eq_ok.1 hrun
  obtain ⟨u₂, r₂, hcall, hlast⟩ := Work.bind_eq_ok.1 hrun
  have h₁ := resolves_each hbefore hfirst
  have h₂ := resolves_each hafter' hlast
  exact ⟨r₁, r₂, h₁, hcall, h₂,
    read_congr (h₁.others d fun hd => hapart d hd d (by simp) rfl) [], h₂.others d hafter⟩

/-- What a call has recorded for a reference is found at the end of a run. -/
theorem findsPart_of_call {documents : List Json} {r₁ r₂ : Resolver}
    (hurls : ((before ++ (d, url) :: after).map Prod.snd).Nodup)
    (hplain : ∀ call ∈ before ++ (d, url) :: after, '#' ∉ call.2.toList)
    (h₁ : Resolves before (new documents) r₁) (hcall : resolve d [] url r₁ = .ok () r₂)
    (h₂ : Resolves after r₂ r) (hend : r.documents[d]? = r₂.documents[d]?)
    (hlocal : Pointer.isLocal ref = true) (hknown : r₂.knows (url ++ ref) = true) :
    FindsPart (r₁.read d []) r d url ref := by
  have hurl : '#' ∉ url.toList := hplain (d, url) (by simp)
  have hnew : r₁.knows (url ++ ref) = false := by
    rw [Bool.eq_false_iff]
    intro hknows
    rcases h₁.new _ hknows with hempty | ⟨call, hmem, other, hother, -, heq⟩
    · cases hempty
    · -- the address would have been given to an earlier call
      obtain ⟨hsame, -⟩ := append_inj_of_hash hurl (hplain call (by simp [hmem])) hlocal hother heq
      rw [List.map_append, List.map_cons] at hurls
      exact (List.nodup_append.1 hurls).2.2 call.2 (List.mem_map_of_mem hmem) url (by simp)
        hsame.symm
  exact (rewrites_resolve hcall).1.findsPart hlocal hnew hknown hend h₂.old hurl

/-- **Documents with addresses of their own stay separate, but for one without.** Several documents
    are resolved one after the other under different addresses. In each, a reference is rewritten to
    the address of its document and the pointer, and finds the part of that document. The exception
    is a reference that a document without an address has, too, if that was resolved before: it is
    left as it is and finds the part of the other document. -/
theorem references_separate {documents : List Json}
    (hdocuments : ((before ++ (d, url) :: after).map Prod.fst).Nodup)
    (hurls : ((before ++ (d, url) :: after).map Prod.snd).Nodup)
    (hplain : ∀ call ∈ before ++ (d, url) :: after, '#' ∉ call.2.toList)
    (hrun : resolveEach (before ++ (d, url) :: after) (new documents) = .ok () r)
    (href : referenceAt? ((new documents).read d []) site = some ref)
    (hout : Step.key refKey ∉ site) (hlocal : Pointer.isLocal ref = true) :
    ((∀ other, (other, "") ∈ before → ¬ Meets ((new documents).read other []) ref) →
        referenceAt? (r.read d []) site = some (url ++ ref) ∧
          FindsPart ((new documents).read d []) r d url ref) ∧
      ∀ other, (other, "") ∈ before → Meets ((new documents).read other []) ref →
        referenceAt? (r.read d []) site = some ref ∧
          FindsPart ((new documents).read other []) r other "" ref := by
  have hurl : '#' ∉ url.toList := hplain (d, url) (by simp)
  obtain ⟨r₁, r₂, h₁, hcall, h₂, hstart, hend⟩ := resolveEach_split hdocuments hrun
  obtain ⟨h, hmet⟩ := rewrites_resolve hcall
  rw [← hstart] at href
  obtain ⟨x, hx, hxknown⟩ := hmet site ref href hout
  rw [read_congr hend]
  refine ⟨fun hclear => ?_, fun other hother hmeets => ?_⟩
  · have hunknown : r₁.knows ref = false := by
      rw [Bool.eq_false_iff]
      intro hknows
      rcases h₁.new _ hknows with hempty | ⟨call, hmem, pointer, hpointer, hmeets, heq⟩
      · cases hempty
      · rw [← String.empty_append (s := ref)] at heq
        obtain ⟨hplainCall, rfl⟩ :=
          append_inj_of_hash (by simp) (hplain call (by simp [hmem])) hlocal hpointer heq
        exact hclear call.1 (by rw [hplainCall]; exact hmem) hmeets
    have hfull : x = url ++ ref := by
      rcases h.references site with hsame | ⟨other, hother, -, hfull, -⟩
      · -- a reference that was left as it is has been recorded under an empty address
        obtain rfl : x = ref := Option.some.inj (hx.symm.trans (hsame.trans href))
        obtain ⟨target, htarget⟩ := knows_iff.1 hxknown
        rcases h.new x target htarget with hold | ⟨pointer, -, heq, hpointer, -⟩
        · rw [knows_iff.2 ⟨target, hold⟩] at hunknown
          cases hunknown
        · rw [← String.empty_append (s := x)] at heq
          obtain ⟨hempty, -⟩ := append_inj_of_hash (by simp) hurl hlocal hpointer heq
          rw [← hempty, String.empty_append]
      · obtain rfl : other = ref := Option.some.inj (hother.symm.trans href)
        exact Option.some.inj (hx.symm.trans hfull)
    rw [hfull] at hx hxknown
    rw [← hstart]
    exact ⟨hx, findsPart_of_call hurls hplain h₁ hcall h₂ hend hlocal hxknown⟩
  · have hknown : r₁.knows ref = true := h₁.met (other, "") hother rfl ref hmeets
    have hkept : x = ref := by
      rcases h.references site with hsame | ⟨pointer, hpointer, hunknown, -⟩
      · exact Option.some.inj (hx.symm.trans (hsame.trans href))
      · obtain rfl : pointer = ref := Option.some.inj (hpointer.symm.trans href)
        rw [hknown] at hunknown
        cases hunknown
    rw [hkept] at hx
    refine ⟨hx, ?_⟩
    -- the other call is one of the run, too
    obtain ⟨front, back, rfl⟩ := List.append_of_mem hother
    rw [List.append_assoc, List.cons_append] at hdocuments hurls hplain hrun
    obtain ⟨s₁, s₂, h₁', hcall', h₂', hstart', hend'⟩ := resolveEach_split hdocuments hrun
    rw [← hstart'] at hmeets ⊢
    refine findsPart_of_call hurls hplain h₁' hcall' h₂' hend' hlocal ?_
    rw [String.empty_append]
    exact knows_of_meets hcall' hmeets

end Resolves

/-- A document that is what a definition of its own says. -/
def definedAs (type : String) : Json :=
  .obj [("$ref", .str "#/$defs/x"), ("$defs", .obj [("x", .obj [("type", .str type)])])]

/-- A document that comes before the one without an address is kept apart from it, one that comes
    after it is not. -/
theorem references_separate_definedAs :
    ∃ r, resolveEach [(0, "a.json"), (1, ""), (2, "c.json")]
        (new [definedAs "null", definedAs "string", definedAs "integer"]) = .ok () r ∧
      (referenceAt? (r.read 0 []) [] = some "a.json#/$defs/x" ∧
        FindsPart (definedAs "null") r 0 "a.json" "#/$defs/x") ∧
      referenceAt? (r.read 2 []) [] = some "#/$defs/x" ∧
        FindsPart (definedAs "string") r 1 "" "#/$defs/x" := by
  have hran : Work.result? (resolveEach [(0, "a.json"), (1, ""), (2, "c.json")]
      (new [definedAs "null", definedAs "string", definedAs "integer"])) = some () := by
    decide +kernel
  obtain ⟨r, hrun⟩ := Work.exists_of_result? hran
  have hlocal : Pointer.isLocal "#/$defs/x" = true := by decide +kernel
  have hsite : ∀ type, referenceAt? (definedAs type) [] = some "#/$defs/x" := fun _ => rfl
  refine ⟨r, hrun, ?_, ?_⟩
  · have hfirst : resolveEach ([] ++ (0, "a.json") :: [(1, ""), (2, "c.json")]) _ = .ok () r := hrun
    exact (references_separate (by decide) (by decide) (by decide) hfirst (hsite "null") (by simp)
      hlocal).1 (by simp)
  · have hlast : resolveEach ([(0, "a.json"), (1, "")] ++ (2, "c.json") :: []) _ = .ok () r := hrun
    exact (references_separate (by decide) (by decide) (by decide) hlast (hsite "integer") (by simp)
      hlocal).2 1 (by simp) ⟨[], rfl, by simp⟩

/-- A document that is resolved under an address of its own, but after one without, may keep
    a reference as it was, and nothing is found for its full form. -/
theorem references_mixed :
    let start := new [definedAs "string", definedAs "null"]
    let calls := resolveEach [(0, ""), (1, "b.json")]
    let r := Work.leaves calls start
    Work.result? (calls start) = some () ∧
      referenceAt? (start.read 1 []) [] = some "#/$defs/x" ∧
      Pointer.isLocal "#/$defs/x" = true ∧
      referenceAt? (r.read 1 []) [] ≠ some ("b.json" ++ "#/$defs/x") ∧
      (r.find? ("b.json" ++ "#/$defs/x")).isNone = true := by
  decide +kernel

end Resolver

end SchemaGrammar
