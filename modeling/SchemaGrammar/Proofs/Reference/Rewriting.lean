import SchemaGrammar.Proofs.Reference.Pointers
import SchemaGrammar.Proofs.Schema.Parts

set_option autoImplicit false

/-! # Documents while their references are rewritten

Resolving puts the full form of a reference in its place. That changes one text of the document: all
other values without parts stay where they are (`Json.at?_setAt_of_ne`), and pointers lead to the
same places (`Pointer.place?_setAt`). What one call of `Resolver.resolve` may do to a document and to
what is recorded is an invariant of its steps (`Resolver.Rewrites`), which leaves open in which order
they are taken. -/

namespace SchemaGrammar

open Json (Path Step Fields)

/-! ## Changing a value without parts -/

namespace Json

/-- A value that no step leads on from. -/
def IsLeaf (v : Json) : Prop :=
  ∀ step, v.child? step = none

theorem isLeaf_str (s : String) : IsLeaf (.str s) := by
  intro step
  cases step <;> rfl

/-- The document with a part of the value at a place replaced. -/
def setAt (v : Json) (path : Path) (step : Step) (u : Json) : Json :=
  v.modifyAt (fun w => w.setChild step u) path

theorem child?_setChild_self {v w : Json} {step : Step} (h : v.child? step = some w) (u : Json) :
    (v.setChild step u).child? step = some u := by
  cases v with
  | obj fields =>
    cases step with
    | key name =>
      have hget : Fields.get? fields name = some w := h
      rw [setChild, if_pos (by rw [Fields.has, hget]; rfl)]
      change (Assoc.set fields name u).lookup name = some u
      rw [Assoc.lookup_set, if_pos rfl]
    | index i => cases h
  | arr items =>
    cases step with
    | key name => cases h
    | index i =>
      have hlt : i < items.length := (List.getElem?_eq_some_iff.1 h).1
      change (items.set i u)[i]? = some u
      rw [List.getElem?_set_self hlt]
  | _ => cases step <;> cases h

theorem child?_setChild_of_ne {v : Json} {step other : Step} (h : other ≠ step) (u : Json) :
    (v.setChild step u).child? other = v.child? other := by
  cases v with
  | obj fields =>
    cases step with
    | key name =>
      rw [setChild]
      split_ifs with hhas
      · cases other with
        | key other =>
          have hne : other ≠ name := fun heq => h (heq ▸ rfl)
          change (Assoc.set fields name u).lookup other = fields.lookup other
          rw [Assoc.lookup_set, if_neg hne]
        | index i => rfl
      · rfl
    | index i => rfl
  | arr items =>
    cases step with
    | key name => rfl
    | index i =>
      cases other with
      | key name => rfl
      | index j =>
        have hne : i ≠ j := fun heq => h (heq ▸ rfl)
        change (items.set i u)[j]? = items[j]?
        rw [List.getElem?_set_ne hne]
  | _ => cases step <;> rfl

theorem at?_cons (v : Json) (step : Step) (rest : Path) :
    v.at? (step :: rest) = (v.child? step).bind (·.at? rest) := by
  rw [at?]
  cases v.child? step <;> rfl

theorem IsLeaf.at?_cons {v : Json} (h : v.IsLeaf) (step : Step) (rest : Path) :
    v.at? (step :: rest) = none := by
  rw [Json.at?_cons, h step, Option.bind_none]

theorem modifyAt_cons {f : Json → Json} {v w : Json} {step : Step} (h : v.child? step = some w)
    (rest : Path) : v.modifyAt f (step :: rest) = v.setChild step (w.modifyAt f rest) := by
  rw [modifyAt, h]

variable {v w old u leaf : Json} {step : Step} {site path : Path}

theorem at?_setAt_self (h : v.at? (site ++ [step]) = some old) (u : Json) :
    (v.setAt site step u).at? (site ++ [step]) = some u := by
  unfold setAt
  induction site generalizing v with
  | nil =>
    rw [List.nil_append, at?_cons] at h
    obtain ⟨w, hw, -⟩ := Option.bind_eq_some_iff.1 h
    rw [List.nil_append, at?_cons, modifyAt, child?_setChild_self hw]
    rfl
  | cons first site ih =>
    rw [List.cons_append, at?_cons] at h
    obtain ⟨w, hw, hrest⟩ := Option.bind_eq_some_iff.1 h
    rw [List.cons_append, at?_cons, modifyAt_cons hw, child?_setChild_self hw]
    exact ih hrest

/-- Values without parts at other places stay. -/
theorem at?_setAt_of_ne (hold : v.at? (site ++ [step]) = some old) (holdleaf : old.IsLeaf)
    (hu : u.IsLeaf) (hne : path ≠ site ++ [step]) (hleaf : leaf.IsLeaf) :
    (v.setAt site step u).at? path = some leaf ↔ v.at? path = some leaf := by
  -- a value with a part is no leaf, and a place off the changed part has what it had
  have hstep : ∀ (v w w' : Json) (step : Step) (path : Path), v.child? step = some w →
      (∀ rest, path = step :: rest → (w'.at? rest = some leaf ↔ w.at? rest = some leaf)) →
        ((v.setChild step w').at? path = some leaf ↔ v.at? path = some leaf) := by
    intro v w w' step path hchild hpart
    have hchild' := child?_setChild_self hchild w'
    cases path with
    | nil =>
      have hnone : ∀ v w : Json, v.child? step = some w → v.at? [] ≠ some leaf := by
        intro v w hchild hv
        rw [Option.some.inj hv, hleaf step] at hchild
        cases hchild
      exact iff_of_false (hnone _ _ hchild') (hnone _ _ hchild)
    | cons other rest =>
      rw [at?_cons, at?_cons]
      by_cases hother : other = step
      · rw [hother, hchild, hchild', Option.bind_some, Option.bind_some]
        exact hpart rest (by rw [hother])
      · rw [child?_setChild_of_ne hother]
  unfold setAt
  induction site generalizing v path with
  | nil =>
    rw [List.nil_append, at?_cons] at hold
    obtain ⟨w, hw, hwold⟩ := Option.bind_eq_some_iff.1 hold
    obtain rfl : w = old := Option.some.inj hwold
    refine hstep v w u step path hw fun rest heq => ?_
    -- nothing stands below the text that is replaced, nor below the one in its place
    cases rest with
    | nil => exact absurd heq hne
    | cons next rest => rw [hu.at?_cons, holdleaf.at?_cons]
  | cons first site ih =>
    rw [List.cons_append, at?_cons] at hold
    obtain ⟨w, hw, hrest⟩ := Option.bind_eq_some_iff.1 hold
    rw [modifyAt_cons hw]
    exact hstep v w _ first path hw fun rest heq => ih hrest fun hsame => hne (by rw [heq, hsame]; rfl)

end Json

/-! ## Pointers into a changed document -/

namespace Pointer

variable {v w old u : Json} {step : Step} {site : Path}

/-- The place that segments lead to. -/
def place? (ref : String) (segments : List (List Char)) (v : Json) : Option Path :=
  match follow ref segments v with
  | .ok (path, _) => some path
  | .error _ => none

theorem place?_eq_some {ref : String} {segments : List (List Char)} {path : Path} :
    place? ref segments v = some path ↔ ∃ w, follow ref segments v = .ok (path, w) := by
  unfold place?
  cases follow ref segments v with
  | error e => simp
  | ok found => simp [Prod.ext_iff]

theorem place?_cons (ref : String) (segment : List Char) (rest : List (List Char)) (v : Json) :
    place? ref (segment :: rest) v = match step? v segment with
      | .ok (some step) => (v.child? step).bind fun w => (place? ref rest w).map (step :: ·)
      | _ => none := by
  unfold place?
  rw [follow]
  cases step? v segment with
  | error e => rfl
  | ok found =>
    cases found with
    | none => rfl
    | some step =>
      dsimp only [bind, Except.bind]
      cases v.child? step with
      | none => rfl
      | some w =>
        dsimp only [Option.bind_some]
        cases follow ref rest w with
        | error e => rfl
        | ok found => rfl

/-- A segment takes the same step when the part at a place is replaced. -/
theorem step?_setChild (h : v.child? step = some w) (u : Json) (segment : List Char) :
    step? (v.setChild step u) segment = step? v segment := by
  cases v with
  | obj fields =>
    cases step with
    | key name =>
      have hget : Fields.get? fields name = some w := h
      have hhas : Fields.has fields name = true := by rw [Fields.has, hget]; rfl
      have hsame : ∀ key, Fields.has (Fields.set fields name u) key = Fields.has fields key := by
        intro key
        change ((Assoc.set fields name u).lookup key).isSome = Fields.has fields key
        rw [Assoc.lookup_set]
        split_ifs with hkey
        · rw [hkey, hhas]
          rfl
        · rfl
      rw [Json.setChild, if_pos hhas, step?, step?, hsame]
    | index i => cases h
  | arr items =>
    cases step with
    | key name => cases h
    | index i => simp only [Json.setChild, step?, List.length_set]
  | _ => cases step <;> cases h

theorem place?_leaf (h : v.IsLeaf) (ref : String) (segment : List Char)
    (rest : List (List Char)) : place? ref (segment :: rest) v = none := by
  rw [place?_cons]
  cases step? v segment with
  | error e => rfl
  | ok found =>
    cases found with
    | none => rfl
    | some step => simp only [h step, Option.bind_none]

/-- Two values without parts are alike for pointers. -/
theorem place?_of_leaves (hv : v.IsLeaf) (hw : w.IsLeaf) (ref : String)
    (segments : List (List Char)) : place? ref segments v = place? ref segments w := by
  cases segments with
  | nil => rfl
  | cons segment rest => rw [place?_leaf hv, place?_leaf hw]

/-- Replacing one text by another changes no way through the document. -/
theorem place?_setAt (hold : v.at? (site ++ [step]) = some old) (holdleaf : old.IsLeaf)
    (hu : u.IsLeaf) (ref : String) (segments : List (List Char)) :
    place? ref segments (v.setAt site step u) = place? ref segments v := by
  unfold Json.setAt
  -- one step at a time: a way off the changed place stays, one along it goes on in the part
  have hstep : ∀ (segments : List (List Char)) (v w w' : Json) (step : Step),
      v.child? step = some w → (∀ rest, place? ref rest w' = place? ref rest w) →
        place? ref segments (v.setChild step w') = place? ref segments v := by
    intro segments v w w' step hchild hpart
    cases segments with
    | nil => rfl
    | cons segment rest =>
      rw [place?_cons, place?_cons, step?_setChild hchild]
      cases step? v segment with
      | error e => rfl
      | ok found =>
        cases found with
        | none => rfl
        | some other =>
          dsimp only
          by_cases hother : other = step
          · rw [hother, hchild, Json.child?_setChild_self hchild, Option.bind_some,
              Option.bind_some, hpart]
          · rw [Json.child?_setChild_of_ne hother]
  induction site generalizing v segments with
  | nil =>
    rw [List.nil_append, Json.at?_cons] at hold
    obtain ⟨w, hw, hwold⟩ := Option.bind_eq_some_iff.1 hold
    obtain rfl : w = old := Option.some.inj hwold
    exact hstep segments v _ u step hw fun rest => place?_of_leaves hu holdleaf ref rest
  | cons first site ih =>
    rw [List.cons_append, Json.at?_cons] at hold
    obtain ⟨w, hw, hrest⟩ := Option.bind_eq_some_iff.1 hold
    rw [Json.modifyAt_cons hw]
    exact hstep segments v w _ first hw fun rest => ih hrest rest

end Pointer

end SchemaGrammar
