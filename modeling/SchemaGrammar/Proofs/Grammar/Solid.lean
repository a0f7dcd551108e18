import SchemaGrammar.Proofs.Grammar.Phrases
import SchemaGrammar.Proofs.Json.Standard

set_option autoImplicit false

/-! # Texts that are more than blanks

A node is solid over some names if its own shape makes sure that no text of blanks is derived from
it, given that none is derived from the rules of these names (`Node.IsSolid`). If the bodies of these
rules are solid over the same names, nothing more has to be known: a derivation is finite, so it
comes to a mark or a character in the end, even where the rules lead back to themselves
(`Node.IsSolid.not_areBlank`). -/

namespace SchemaGrammar

open Standard (AreBlank)

/-! ## Nodes -/

/-- No text of blanks is derived from a node, if none is derived from the rules that `V` names. -/
inductive Node.IsSolid (V : String → Prop) : Node → Prop where
  /-- Whatever the rules are. -/
  | marked {node : Node} (never : ∀ g text, Grammar.Derives g node text → ¬ AreBlank text) :
      IsSolid V node
  | rule {name : String} (solid : V name) : IsSolid V (.rule name)
  | seq {items : List Node} {node : Node} (mem : node ∈ items) (solid : IsSolid V node) :
      IsSolid V (.seq items)
  | alt {branches : List Node} (solid : ∀ node ∈ branches, IsSolid V node) :
      IsSolid V (.alt branches)
  | rep {node : Node} {min : Int} {max : Option Int} (least : 1 ≤ min) (solid : IsSolid V node) :
      IsSolid V (.rep node min max)

namespace Node.IsSolid

variable {V W : String → Prop} {node : Node} {g : Grammar}

/-- Only the names count that the node refers to. -/
theorem mono (h : node.IsSolid V) (hVW : ∀ name ∈ node.ruleNames, V name → W name) :
    node.IsSolid W := by
  induction h with
  | marked never => exact .marked never
  | rule solid => exact .rule (hVW _ (by simp [Node.ruleNames]) solid)
  | @seq items node mem _ ih =>
    refine .seq mem (ih fun name hname => hVW name ?_)
    rw [Node.ruleNames, Node.ruleNamesOf_eq]
    exact List.mem_flatMap.2 ⟨node, mem, hname⟩
  | @alt branches _ ih =>
    refine .alt fun node hnode => ih node hnode fun name hname => hVW name ?_
    rw [Node.ruleNames, Node.ruleNamesOf_eq]
    exact List.mem_flatMap.2 ⟨node, hnode, hname⟩
  | rep least _ ih => exact .rep least (ih fun name hname => hVW name hname)

/-- **Solid nodes derive no blanks**, in any grammar in which the rules that `V` names have solid
    bodies. -/
theorem not_areBlank (hV : ∀ name body, V name → g.find? name = some body → body.IsSolid V)
    {text : List Char} (hd : Grammar.Derives g node text) (h : node.IsSolid V) : ¬ AreBlank text := by
  -- on the derivation, which ends; the bodies of the rules need not
  induction hd with
  | literal text =>
    cases h with
    | marked never => exact never g _ (.literal text)
  | charClass holds =>
    cases h with
    | marked never => exact never g _ (.charClass holds)
  | rule defined derives ih =>
    cases h with
    | marked never => exact never g _ (.rule defined derives)
    | rule solid => exact ih (hV _ _ solid defined)
  | nil =>
    cases h with
    | marked never => exact never g _ .nil
    | seq mem _ => exact absurd mem List.not_mem_nil
  | cons first others ih ih' =>
    cases h with
    | marked never => exact never g _ (.cons first others)
    | seq mem solid =>
      rw [Standard.areBlank_append]
      rintro ⟨hfront, hback⟩
      rcases List.mem_cons.1 mem with rfl | mem
      · exact ih solid hfront
      · exact ih' (.seq mem solid) hback
  | alt mem derives ih =>
    cases h with
    | marked never => exact never g _ (.alt mem derives)
    | alt solid => exact ih (solid _ mem)
  | @rep node min max text count least most derives ih =>
    cases h with
    | marked never => exact never g _ (.rep count least most derives)
    | rep once solid =>
      have hmem : node ∈ List.replicate count node := List.mem_replicate.2 ⟨by omega, rfl⟩
      exact ih (.seq hmem solid)

/-- What has the same texts in all grammars is solid if none of these is blank. -/
theorem of_language {L : Language Char} (hL : ∀ g : Grammar, g.language node = L)
    (hmarked : ∀ text ∈ L, ¬ AreBlank text) : node.IsSolid V := by
  refine .marked fun g text hd => hmarked text ?_
  rw [← hL g]
  exact hd

end Node.IsSolid

namespace Grammar

/-- Rows are solid if each has an item that is. -/
theorem isSolid_ofRows {V : String → Prop} {rows : List (List Node)} (hne : rows ≠ [])
    (h : ∀ row ∈ rows, ∃ node ∈ row, node.IsSolid V) : (ofRows rows).IsSolid V := by
  have hrow (row : List Node) (hrow : ∃ node ∈ row, node.IsSolid V) : (rowNode row).IsSolid V := by
    obtain ⟨node, hnode, hsolid⟩ := hrow
    unfold rowNode
    split
    · obtain rfl := List.mem_singleton.1 hnode
      exact hsolid
    · exact .seq hnode hsolid
  have hall : ∀ node ∈ rows.map rowNode, node.IsSolid V := by
    intro node hnode
    obtain ⟨row, hmem, rfl⟩ := List.mem_map.1 hnode
    exact hrow row (h row hmem)
  obtain ⟨first, rest, rfl⟩ := List.exists_cons_of_ne_nil hne
  rw [ofRows_cons]
  unfold branchNode
  split
  · rename_i node heq
    exact hall node (by rw [heq]; simp)
  · exact .alt hall

/-! ## Expressions -/

/-- The text is an item from which no blanks are derived. -/
def IsSolidItem (V : String → Prop) (e : String) : Prop :=
  ∃ node, Written IsReadable (.item node) e.toList ∧ node.IsSolid V

/-- The text is a row of items that can be read. -/
def IsLegibleRow (e : String) : Prop :=
  ∃ row, Written IsReadable (.rows [row]) e.toList

/-- The text is a row of items from one of which no blanks are derived. -/
def IsSolidRow (V : String → Prop) (e : String) : Prop :=
  ∃ row, Written IsReadable (.rows [row]) e.toList ∧ ∃ node ∈ row, node.IsSolid V

/-- The text is an expression from which no blanks are derived: each branch has a solid item. -/
def IsSolid (V : String → Prop) (e : String) : Prop :=
  ∃ rows, Written IsReadable (.rows rows) e.toList ∧
    ∀ row ∈ rows, ∃ node ∈ row, node.IsSolid V

section Expressions

variable {V : String → Prop} {Q : Grammar → Prop} {a b e : String} {L : Language Char}

theorem isSolidItem_name {name : String} (hname : IsReadable name) (h : V name) :
    IsSolidItem V name :=
  ⟨.rule name, .name hname, .rule h⟩

/-- An item that means the same in all grammars. -/
theorem ReadsItem.isSolidItem (h : ReadsItem IsReadable (fun _ => True) e L)
    (hmarked : ∀ text ∈ L, ¬ AreBlank text) : IsSolidItem V e := by
  obtain ⟨node, hw, hL⟩ := h
  exact ⟨node, hw, .of_language (fun g => hL g trivial) hmarked⟩

theorem isSolidItem_literal {s : String} (h : ¬ AreBlank s.toList) :
    IsSolidItem V (literalText s) := by
  refine (readsItem_literal s).isSolidItem fun text htext => ?_
  obtain rfl : text = s.toList := htext
  exact h

theorem ReadsRow.isLegibleRow (h : ReadsRow IsReadable Q e L) : IsLegibleRow e := by
  obtain ⟨row, hw, -⟩ := h
  exact ⟨row, hw⟩

/-- Where there is no grammar to ask, a row has any language. -/
theorem IsLegibleRow.reads (h : IsLegibleRow e) : ReadsRow IsReadable (fun _ => False) e L := by
  obtain ⟨row, hw⟩ := h
  exact ⟨row, hw, fun _ hfalse => hfalse.elim⟩

theorem IsSolidItem.row (h : IsSolidItem V e) : IsSolidRow V e := by
  obtain ⟨node, hw, hsolid⟩ := h
  exact ⟨[node], .single hw, by simpa using hsolid⟩

/-- A solid row in front is enough, whatever stands behind it. -/
theorem IsSolidRow.beside (ha : IsSolidRow V a) (hb : IsLegibleRow b) :
    IsSolidRow V (a ++ " " ++ b) := by
  obtain ⟨row, hw, node, hnode, hsolid⟩ := ha
  obtain ⟨row', hw'⟩ := hb
  exact ⟨_, hw.beside hw', node, List.mem_append_left _ hnode, hsolid⟩

theorem IsSolidRow.isSolid (h : IsSolidRow V e) : IsSolid V e := by
  obtain ⟨row, hw, hsolid⟩ := h
  exact ⟨[row], hw, by simpa using hsolid⟩

theorem IsSolid.group (h : IsSolid V e) : IsSolidItem V ("(" ++ e ++ ")") := by
  obtain ⟨rows, hw, hsolid⟩ := h
  have htext : ("(" ++ e ++ ")").toList = '(' :: (e.toList ++ [')']) := by simp
  exact ⟨_, by rw [htext]; exact .group hw, isSolid_ofRows hw.fits.1 hsolid⟩

theorem IsSolid.or (ha : IsSolid V a) (hb : IsSolid V b) : IsSolid V (a ++ " | " ++ b) := by
  obtain ⟨rows, hw, hrows⟩ := ha
  obtain ⟨rows', hw', hrows'⟩ := hb
  exact ⟨rows ++ rows', hw.or hw', List.forall_mem_append.2 ⟨hrows, hrows'⟩⟩

theorem isSolid_choices {es : List String} (hne : es ≠ []) (h : ∀ e ∈ es, IsSolid V e) :
    IsSolid V (" | ".intercalate es) := by
  induction es with
  | nil => exact absurd rfl hne
  | cons e rest ih =>
    obtain ⟨hfirst, hrest⟩ := List.forall_mem_cons.1 h
    cases rest with
    | nil => simpa using hfirst
    | cons e' rest =>
      rw [String.intercalate_cons_cons]
      exact hfirst.or (ih (List.cons_ne_nil _ _) hrest)

end Expressions

end Grammar

end SchemaGrammar
