import Mathlib.Data.List.Perm.Basic
import SchemaGrammar.Proofs.Grammar.Layout
import SchemaGrammar.Proofs.Rules.Table

set_option autoImplicit false

/-! # Reading a table back

The text of a table has a line for each rule. If the names can be read, each body is the body of
some node and every rule that a body refers to is there, the text is read as the grammar that has
these nodes under these names (`ofText_text`). -/

namespace SchemaGrammar

namespace Grammar

open Text (Cursor)

/-! ## Lines -/

/-- A rule as a line of text. -/
def line (name body : String) : String :=
  name ++ " ::= " ++ body ++ "\n"

theorem apart_line (name body : String) (rest : List Char) :
    Apart (line name body).toList rest := by
  have htext : (line name body).toList = name.toList ++ " ::= ".toList ++ body.toList ++ ['\n'] := by
    simp [line]
  rw [htext]
  exact apart_of_getLast (by rw [List.getLast?_concat]; simp; decide)

theorem passes_sign (done : Grammar) (name : String) (start : Nat) (h : done.has name = false) :
    Passes " ::= ".toList ⟨done, .named name start⟩ ⟨done, .inside (.start name)⟩ := by
  have hblank : Passes [' '] ⟨done, .named name start⟩ ⟨done, .named name start⟩ :=
    .of_token (t := .blank) (fun _ _ _ => rfl) (by simp) fun _ => rfl
  have hsign : Passes [':', ':', '='] ⟨done, .named name start⟩ ⟨done, .inside (.start name)⟩ :=
    .of_token (t := .define) (fun _ _ _ => rfl) (by simp) fun _ => by simp [step, h]
  have hblank' : Passes [' '] ⟨done, .inside (.start name)⟩ ⟨done, .inside (.start name)⟩ :=
    .of_token (t := .blank) (fun _ _ _ => rfl) (by simp) fun _ => rfl
  exact hblank.append (hsign.append hblank' (apart_of_head (by simp; decide)))
    (apart_of_head (by simp; decide))

/-- A rule starts with its name and the sign; what is read behind them is its body. -/
theorem passes_rule {name : String} {more : List Char} {done : Grammar} {s' : State}
    (hname : IsReadable name) (hnew : done.has name = false)
    (hmore : Passes more ⟨done, .inside (.start name)⟩ s') :
    Passes (name.toList ++ (" ::= ".toList ++ more)) ⟨done, .between⟩ s' := by
  obtain ⟨c, cs, hcs⟩ := List.exists_cons_of_ne_nil hname.1
  have hchars := hname.2
  rw [hcs] at hchars ⊢
  refine Passes.cons (fun offset rest hrest => token_name offset hchars (hrest.head hchars)) (by simp)
    (fun _ => rfl) (fun offset => ?_) (apart_of_head (by simp; decide))
  rw [← hcs, String.ofList_toList]
  exact (passes_sign done name offset hnew).append hmore (apart_of_getLast (by simp; decide))

theorem passes_line {name body : String} {node : Node} {done : Grammar} (hname : IsReadable name)
    (hbody : IsBody body node) (hnew : done.has name = false) :
    Passes (line name body).toList ⟨done, .between⟩ ⟨(name, node) :: done, .between⟩ := by
  have htext : (line name body).toList =
      name.toList ++ (" ::= ".toList ++ (body.toList ++ ['\n'])) := by
    simp [line]
  rw [htext]
  exact passes_rule hname hnew (hbody name done)

/-- The beginning of a rule: its name, the sign and an expression. -/
theorem passes_beginning {P : String → Prop} {name e : String} {rows : List (List Node)}
    {done : Grammar} (hname : IsReadable name) (hnew : done.has name = false)
    (h : Written P (.rows rows) e.toList) (hP : ∀ other, P other → IsReadable other) :
    ∃ flag, Passes (name.toList ++ (" ::= ".toList ++ e.toList)) ⟨done, .between⟩
      ⟨done, .inside ⟨name, Draft.empty.take rows, [], flag⟩⟩ := by
  obtain ⟨flag, hbody⟩ := h.isReadFrom hP done (.start name)
  exact ⟨flag, passes_rule hname hnew hbody⟩

/-! ## Tables -/

section Lines

variable {names : List String} {body : String → String} {node : String → Node}

theorem passes_lines (hnodup : names.Nodup)
    (h : ∀ name ∈ names, IsReadable name ∧ IsBody (body name) (node name)) (done : Grammar)
    (hdone : ∀ name ∈ names, done.has name = false) :
    Passes (names.flatMap fun name => (line name (body name)).toList) ⟨done, .between⟩
      ⟨(names.map fun name => (name, node name)).reverse ++ done, .between⟩ := by
  induction names generalizing done with
  | nil => exact .nil _
  | cons name rest ih =>
    obtain ⟨hname, hrest⟩ := List.nodup_cons.1 hnodup
    obtain ⟨hreadable, hbody⟩ := h name (by simp)
    have hfirst := passes_line hreadable hbody (hdone name (by simp))
    have hothers : ∀ other ∈ rest, Grammar.has ((name, node name) :: done) other = false := by
      intro other hother
      have hne : other ≠ name := by
        rintro rfl
        exact hname hother
      have hold := hdone other (List.mem_cons_of_mem _ hother)
      simp only [has, find?, Assoc.lookup_cons, if_neg hne] at hold ⊢
      exact hold
    have hmore := ih hrest (fun other hother => h other (List.mem_cons_of_mem _ hother)) _ hothers
    rw [List.flatMap_cons, List.map_cons, List.reverse_cons, List.append_assoc]
    exact hfirst.append hmore (apart_line name (body name) _)

theorem lexemesFrom_nil (steps offset : Nat) : lexemesFrom steps ⟨offset, []⟩ = [] := by
  cases steps <;> rfl

/-- Lines whose names and bodies can be read are read, apart from names that have no rule. -/
theorem ofText_lines_eq (hnodup : names.Nodup)
    (h : ∀ name ∈ names, IsReadable name ∧ IsBody (body name) (node name)) :
    ofText (String.join (names.map fun name => line name (body name))) = (do
      checkReferences (names.map fun name => (name, node name))
      return names.map fun name => (name, node name)) := by
  have htext : (String.join (names.map fun name => line name (body name))).toList =
      names.flatMap fun name => (line name (body name)).toList := by
    simp [String.toList_join, List.flatMap_def, Function.comp_def]
  obtain ⟨left, -, hread⟩ := passes_lines hnodup h [] (by simp [has, find?]) 0 _ []
    (apart_of_head (by simp)) (Nat.le_refl _)
  have hlexemes : (lexemes (String.join (names.map fun name => line name (body name)))).foldlM step
      ⟨[], .between⟩ = .ok ⟨(names.map fun name => (name, node name)).reverse, .between⟩ := by
    rw [lexemes, htext]
    simpa [lexemesFrom_nil, pure, Except.pure, Cursor.start] using hread
  rw [ofText, hlexemes]
  simp [finish, bind, Except.bind]

theorem ofText_lines (hnodup : names.Nodup)
    (h : ∀ name ∈ names, IsReadable name ∧ IsBody (body name) (node name))
    (hrefs : ∀ name ∈ names, ∀ other ∈ (node name).ruleNames, other ∈ names) :
    ofText (String.join (names.map fun name => line name (body name))) =
      .ok (names.map fun name => (name, node name)) := by
  have hfind : ((names.map fun name => (name, node name)).flatMap fun x => x.2.ruleNames).find?
      (fun name => !Grammar.has (names.map fun name => (name, node name)) name) = none := by
    rw [List.find?_eq_none]
    intro other hother
    obtain ⟨pair, hpair, hmem⟩ := List.mem_flatMap.1 hother
    obtain ⟨name, hname, rfl⟩ := List.mem_map.1 hpair
    have hthere : other ∈ (names.map fun name => (name, node name)).map Prod.fst := by
      simpa using hrefs name hname other hmem
    simp [has, find?, Assoc.lookup_isSome_iff.2 hthere]
  rw [ofText_lines_eq hnodup h]
  simp [checkReferences, hfind, bind, Except.bind, pure, Except.pure]

end Lines

end Grammar

namespace RuleTable

open Grammar (IsReadable IsBody)

theorem perm_names (t : RuleTable) : t.names.Perm (t.rules.map Prod.fst) :=
  List.mergeSort_perm _ _

theorem mem_names_iff {t : RuleTable} {name : String} : name ∈ t.names ↔ t.has name = true := by
  rw [t.perm_names.mem_iff, has_iff_mem]

/-- The text of a table is read as its bodies, apart from names that have no rule. -/
theorem ofText_text_eq {t : RuleTable} (ht : t.WellFormed) {node : String → Node}
    (h : ∀ name body, t.find? name = some body → IsReadable name ∧ IsBody body (node name)) :
    Grammar.ofText t.text = (do
      Grammar.checkReferences (t.names.map fun name => (name, node name))
      return t.names.map fun name => (name, node name)) := by
  refine Grammar.ofText_lines_eq (t.perm_names.nodup_iff.2 ht.nodup) fun name hname => ?_
  obtain ⟨body, hbody⟩ := Option.isSome_iff_exists.1 (mem_names_iff.1 hname)
  rw [hbody]
  exact h name body hbody

/-- The text of a table is the grammar of its bodies. -/
theorem ofText_text {t : RuleTable} (ht : t.WellFormed) {node : String → Node}
    (h : ∀ name body, t.find? name = some body → IsReadable name ∧ IsBody body (node name))
    (hrefs : ∀ name, t.has name = true → ∀ other ∈ (node name).ruleNames, t.has other = true) :
    Grammar.ofText t.text = .ok (t.names.map fun name => (name, node name)) := by
  refine Grammar.ofText_lines (t.perm_names.nodup_iff.2 ht.nodup) ?_ ?_
  · intro name hname
    obtain ⟨body, hbody⟩ := Option.isSome_iff_exists.1 (mem_names_iff.1 hname)
    rw [hbody]
    exact h name body hbody
  · intro name hname other hother
    exact mem_names_iff.2 (hrefs name (mem_names_iff.1 hname) other hother)

end RuleTable

end SchemaGrammar
