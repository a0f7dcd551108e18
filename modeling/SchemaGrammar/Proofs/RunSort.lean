import Mathlib.Data.List.Perm.Basic
import Mathlib.Tactic.SplitIfs
import SchemaGrammar.Proofs.Work
import SchemaGrammar.Schema.Options

set_option autoImplicit false

/-! # Sorting keeps all items

Whatever the comparison says, a sort that ends well has rearranged its items. -/

namespace SchemaGrammar

open Work (except_bind_eq_ok)

namespace RunSort

variable {α ε : Type} {less : α → α → Except ε Bool}

theorem takeRun_append {falling : Bool} {last : α} {items run behind : List α}
    (h : takeRun less falling last items = .ok (run, behind)) : run ++ behind = items := by
  induction items generalizing last run with
  | nil =>
    obtain ⟨rfl, rfl⟩ := Prod.mk.inj (Except.ok.inj h)
    rfl
  | cons x rest ih =>
    obtain ⟨answer, -, hmore⟩ := except_bind_eq_ok.1 h
    split_ifs at hmore
    · obtain ⟨⟨front, back⟩, hrest, hlast⟩ := except_bind_eq_ok.1 hmore
      obtain ⟨rfl, rfl⟩ := Prod.mk.inj (Except.ok.inj hlast)
      rw [List.cons_append, ih hrest]
    · obtain ⟨rfl, rfl⟩ := Prod.mk.inj (Except.ok.inj hmore)
      rfl

/-- A list is what stands below its middle, the middle and what stands above. -/
theorem take_middle_drop (first : α) (rest : List α) :
    (first :: rest).take ((first :: rest).length / 2) ++
      ((first :: rest).drop ((first :: rest).length / 2)).headD first ::
        (first :: rest).drop ((first :: rest).length / 2 + 1) = first :: rest := by
  have hlt : (first :: rest).length / 2 < (first :: rest).length :=
    Nat.div_lt_self (by simp) (by decide)
  rw [List.drop_eq_getElem_cons hlt, List.headD_cons, ← List.drop_eq_getElem_cons hlt,
    List.take_append_drop]

theorem perm_insert {x : α} (sorted : List α) {result : List α}
    (h : insert less x sorted = .ok result) : result.Perm (x :: sorted) := by
  induction sorted using insert.induct generalizing result with
  | case1 =>
    rw [insert] at h
    rw [← Except.ok.inj h]
  | case2 first rest half below above ihbelow =>
    rename_i ihabove
    rw [insert] at h
    obtain ⟨answer, -, hmore⟩ := except_bind_eq_ok.1 h
    have hwhole := take_middle_drop first rest
    split_ifs at hmore
    · obtain ⟨inner, hinner, hlast⟩ := except_bind_eq_ok.1 hmore
      rw [← Except.ok.inj hlast]
      refine ((ihbelow hinner).append_right _).trans ?_
      rw [List.cons_append, hwhole]
    · obtain ⟨inner, hinner, hlast⟩ := except_bind_eq_ok.1 hmore
      rw [← Except.ok.inj hlast]
      refine (((ihabove hinner).cons _).append_left _).trans ?_
      refine ((List.Perm.swap _ _ _).append_left _).trans ?_
      refine List.perm_middle.trans (List.Perm.cons _ ?_)
      rw [hwhole]

theorem perm_foldlM (behind : List α) {sorted result : List α}
    (h : behind.foldlM (fun sorted z => insert less z sorted) sorted = .ok result) :
    result.Perm (behind ++ sorted) := by
  induction behind generalizing sorted with
  | nil => rw [← Except.ok.inj h, List.nil_append]
  | cons z rest ih =>
    rw [List.foldlM_cons] at h
    obtain ⟨next, hnext, hrest⟩ := except_bind_eq_ok.1 h
    refine (ih hrest).trans (((perm_insert sorted hnext).append_left rest).trans ?_)
    exact List.perm_middle

/-- Sorting rearranges. -/
theorem perm_sort {items result : List α} (h : sort less items = .ok result) :
    result.Perm items := by
  unfold sort at h
  split at h
  · rename_i x y rest
    obtain ⟨falling, -, hmore⟩ := except_bind_eq_ok.1 h
    obtain ⟨⟨run, behind⟩, hrun, hlast⟩ := except_bind_eq_ok.1 hmore
    have hfront : (if falling then (x :: y :: run).reverse else x :: y :: run).Perm
        (x :: y :: run) := by
      split_ifs
      · exact List.reverse_perm _
      · exact .refl _
    refine (perm_foldlM behind hlast).trans ((hfront.append_left behind).trans ?_)
    refine List.perm_append_comm.trans ?_
    rw [List.cons_append, List.cons_append, takeRun_append hrun]
  · rw [← Except.ok.inj h]

end RunSort

namespace Options

theorem map_ranked {o : Options} {names : List (String × Nat)} {ranked : List Ranked}
    (h : names.mapM (fun (name, i) => return ⟨name, ← o.priority name, i⟩) =
      (.ok ranked : Except Failure (List Ranked))) :
    ranked.map Ranked.name = names.map Prod.fst := by
  induction names generalizing ranked with
  | nil =>
    obtain rfl := Except.ok.inj h
    rfl
  | cons first rest ih =>
    rw [List.mapM_cons] at h
    obtain ⟨head, hhead, hmore⟩ := except_bind_eq_ok.1 h
    obtain ⟨tail, htail, hlast⟩ := except_bind_eq_ok.1 hmore
    obtain ⟨priority, -, hpure⟩ := except_bind_eq_ok.1 hhead
    rw [← Except.ok.inj hlast, ← Except.ok.inj hpure, List.map_cons, List.map_cons, ih htail]

/-- Properties are put in order, and none is lost. -/
theorem perm_sortProperties {o : Options} {names sorted : List String}
    (h : o.sortProperties names = .ok sorted) : sorted.Perm names := by
  unfold sortProperties at h
  obtain ⟨ranked, hranked, hmore⟩ := except_bind_eq_ok.1 h
  obtain ⟨result, hresult, hlast⟩ := except_bind_eq_ok.1 hmore
  rw [← Except.ok.inj hlast]
  have hperm := (RunSort.perm_sort hresult).map Ranked.name
  rw [map_ranked hranked] at hperm
  simpa using hperm

end Options

end SchemaGrammar
