import Mathlib.Algebra.BigOperators.Group.List.Basic
import SchemaGrammar.Proofs.Grammar.Derivation
import SchemaGrammar.Proofs.Grammar.Layout
import SchemaGrammar.Proofs.Grammar.LeftRecursion

set_option autoImplicit false

/-! # The languages of what is written

Equations for the language of each kind of node, in the algebra of languages: a row is a product,
branches are a sum and a repetition is a range of powers. The language of a node depends on no
other rules than those that can be reached from it (`derives_of_agree`). -/

namespace SchemaGrammar

namespace Node

theorem haveNaturalCounts_iff {nodes : List Node} :
    haveNaturalCounts nodes = true ↔ ∀ node ∈ nodes, node.hasNaturalCounts = true := by
  induction nodes with
  | nil => simp [haveNaturalCounts]
  | cons node rest ih => simp [haveNaturalCounts, ih]

/-- All counts are natural, and all rules referred to are allowed. -/
structure Fits (P : String → Prop) (node : Node) : Prop where
  names : ∀ name ∈ node.ruleNames, P name
  counts : node.hasNaturalCounts = true

theorem Fits.mono {P Q : String → Prop} {node : Node} (h : node.Fits P)
    (hPQ : ∀ name, P name → Q name) : node.Fits Q :=
  ⟨fun name hname => hPQ name (h.names name hname), h.counts⟩

theorem fits_seq {P : String → Prop} {items : List Node} (h : ∀ node ∈ items, node.Fits P) :
    (Node.seq items).Fits P := by
  refine ⟨fun name hname => ?_, ?_⟩
  · rw [ruleNames, ruleNamesOf_eq] at hname
    obtain ⟨node, hnode, hname⟩ := List.mem_flatMap.1 hname
    exact (h node hnode).names name hname
  · exact haveNaturalCounts_iff.2 fun node hnode => (h node hnode).counts

theorem fits_alt {P : String → Prop} {branches : List Node} (h : ∀ node ∈ branches, node.Fits P) :
    (Node.alt branches).Fits P :=
  ⟨(fits_seq h).names, (fits_seq h).counts⟩

theorem fits_rep {P : String → Prop} {node : Node} (h : node.Fits P) (low : Nat)
    (high : Option Nat) : (Node.rep node low (high.map Int.ofNat)).Fits P := by
  refine ⟨h.names, ?_⟩
  cases high <;> simp [hasNaturalCounts, h.counts]

end Node

namespace Grammar

/-- From `low` to `high` texts of a language in a row; without `high` any number from `low` on. -/
def repeated (low : Nat) (high : Option Nat) (L : Language Char) : Language Char :=
  {text | ∃ count, low ≤ count ∧ (∀ most ∈ high, count ≤ most) ∧ text ∈ L ^ count}

theorem mem_repeated {low : Nat} {high : Option Nat} {L : Language Char} {text : List Char} :
    text ∈ repeated low high L ↔
      ∃ count, low ≤ count ∧ (∀ most ∈ high, count ≤ most) ∧ text ∈ L ^ count :=
  Iff.rfl

/-- A text of each language in turn, with a text of `sep` between each two. -/
def separated (sep : Language Char) : List (Language Char) → Language Char
  | [] => 1
  | [L] => L
  | L :: next :: rest => L * sep * separated sep (next :: rest)

/-- A character that a class holds. -/
def classLanguage (negated : Bool) (ranges : List (Nat × Nat)) : Language Char :=
  {text | ∃ c : Char, text = [c] ∧ Node.classHolds negated ranges c.toNat = true}

/-! ## Nodes -/

section Nodes

variable (g : Grammar)

theorem language_literal (text : List Char) :
    g.language (.literal (text.map Char.toNat)) = {text} := by
  ext other
  rw [mem_language, derives_literal_iff]
  exact List.map_inj_right (fun a b h => Char.toNat_inj.1 h)

theorem language_charClass (negated : Bool) (ranges : List (Nat × Nat)) :
    g.language (.charClass negated ranges) = classLanguage negated ranges := by
  ext text
  rw [mem_language, derives_charClass_iff]
  rfl

theorem language_rule {name : String} {body : Node} (h : g.find? name = some body) :
    g.language (.rule name) = g.language body := by
  ext text
  rw [mem_language, mem_language, derives_rule_iff]
  simp [h]

theorem language_seq (items : List Node) :
    g.language (.seq items) = (items.map g.language).prod := by
  induction items with
  | nil =>
    ext text
    rw [mem_language, derives_seq_nil_iff]
    rfl
  | cons node rest ih =>
    ext text
    rw [mem_language, derives_seq_cons_iff, List.map_cons, List.prod_cons, ← ih, Language.mem_mul]
    simp only [mem_language]
    constructor
    · rintro ⟨front, back, rfl, hf, hb⟩
      exact ⟨front, hf, back, hb, rfl⟩
    · rintro ⟨front, hf, back, hb, rfl⟩
      exact ⟨front, back, rfl, hf, hb⟩

theorem mem_sum {languages : List (Language Char)} {text : List Char} :
    text ∈ languages.sum ↔ ∃ L ∈ languages, text ∈ L := by
  induction languages with
  | nil => simp
  | cons L rest ih => simp [Language.mem_add, ih]

theorem language_alt (branches : List Node) :
    g.language (.alt branches) = (branches.map g.language).sum := by
  ext text
  rw [mem_language, derives_alt_iff, mem_sum]
  simp [mem_language]

theorem language_rep (node : Node) (low : Nat) (high : Option Nat) :
    g.language (.rep node low (high.map Int.ofNat)) = repeated low high (g.language node) := by
  have hpow (count : Nat) :
      g.language (.seq (List.replicate count node)) = g.language node ^ count := by
    rw [language_seq, List.map_replicate, List.prod_replicate]
  ext text
  rw [mem_language, derives_rep_iff, mem_repeated]
  simp only [← hpow, mem_language]
  cases high <;> simp

end Nodes

/-! ## Rows -/

/-- A row as one node. -/
def rowNode : List Node → Node
  | [node] => node
  | nodes => .seq nodes

/-- Branches as one node. -/
def branchNode : List Node → Node
  | [node] => node
  | nodes => .alt nodes

theorem Draft.node_take (branches : List Node) (items : List Node) {rows : List (List Node)}
    (h : rows ≠ []) :
    (Draft.take ⟨branches, items.reverse⟩ rows).node =
      branchNode (branches.reverse ++ match rows with
        | [] => []
        | row :: rest => rowNode (items ++ row) :: rest.map rowNode) := by
  induction rows generalizing branches items with
  | nil => exact absurd rfl h
  | cons row rest ih =>
    have hsequence (branches : List Node) (row : List Node) :
        Draft.sequence ⟨branches, row.reverse ++ items.reverse⟩ = rowNode (items ++ row) := by
      rw [Draft.sequence, ← List.reverse_append, List.reverse_reverse]
      rfl
    cases rest with
    | nil =>
      simp only [Draft.take, Draft.node, hsequence, List.reverse_cons]
      rfl
    | cons next rest =>
      have hnext : Draft.take ⟨branches, items.reverse⟩ (row :: next :: rest) =
          Draft.take ⟨rowNode (items ++ row) :: branches, ([] : List Node).reverse⟩
            (next :: rest) := by
        rw [Draft.take, Draft.nextBranch, hsequence]
        rfl
      rw [hnext, ih _ _ (List.cons_ne_nil _ _)]
      simp

theorem ofRows_cons (row : List Node) (rest : List (List Node)) :
    ofRows (row :: rest) = branchNode ((row :: rest).map rowNode) := by
  have h := Draft.node_take [] [] (List.cons_ne_nil row rest)
  simpa [ofRows, Draft.empty] using h

/-- The language of rows of items. -/
def rowsLanguage (g : Grammar) (rows : List (List Node)) : Language Char :=
  (rows.map fun row => (row.map g.language).prod).sum

theorem language_rowNode (g : Grammar) (row : List Node) :
    g.language (rowNode row) = (row.map g.language).prod := by
  unfold rowNode
  split
  · simp
  · exact language_seq g row

theorem language_branchNode (g : Grammar) (branches : List Node) :
    g.language (branchNode branches) = (branches.map g.language).sum := by
  unfold branchNode
  split
  · simp
  · exact language_alt g branches

theorem language_ofRows (g : Grammar) {rows : List (List Node)} (h : rows ≠ []) :
    g.language (ofRows rows) = g.rowsLanguage rows := by
  obtain ⟨row, rest, rfl⟩ := List.exists_cons_of_ne_nil h
  rw [ofRows_cons, language_branchNode, List.map_map, rowsLanguage]
  congr 2
  funext row
  exact language_rowNode g row

/-! ## Rules that matter -/

/-- The language of a node is the same in two grammars that agree on the rules it reaches. -/
theorem derives_of_agree {g g' : Grammar} {N : String → Prop}
    (hagree : ∀ name body, N name → g.find? name = some body →
      g'.find? name = some body ∧ ∀ other ∈ body.ruleNames, N other)
    {node : Node} {text : List Char} (h : Derives g node text)
    (hnode : ∀ name ∈ node.ruleNames, N name) : Derives g' node text := by
  induction h with
  | literal text => exact .literal text
  | charClass holds => exact .charClass holds
  | @rule name body text defined _ ih =>
    obtain ⟨hbody, hnames⟩ := hagree name body (hnode name (by simp [Node.ruleNames])) defined
    exact .rule hbody (ih hnames)
  | nil => exact .nil
  | @cons node rest text more _ _ ih ih' =>
    simp only [Node.ruleNames, Node.ruleNamesOf, List.mem_append] at hnode ih'
    exact .cons (ih fun name h => hnode name (.inl h)) (ih' fun name h => hnode name (.inr h))
  | @alt node branches text mem _ ih =>
    refine .alt mem (ih fun name h => hnode name ?_)
    rw [Node.ruleNames, Node.ruleNamesOf_eq]
    exact List.mem_flatMap.2 ⟨node, mem, h⟩
  | @rep node min max text count least most _ ih =>
    refine .rep count least most (ih fun name h => hnode name ?_)
    rw [Node.ruleNames, Node.ruleNamesOf_eq] at h
    obtain ⟨other, hother, hname⟩ := List.mem_flatMap.1 h
    rwa [(List.mem_replicate.1 hother).2] at hname

/-! ## Names and counts of what is written -/

theorem fits_ofRows {P : String → Prop} {rows : List (List Node)} (hrows : rows ≠ [])
    (h : ∀ row ∈ rows, ∀ node ∈ row, node.Fits P) : (ofRows rows).Fits P := by
  have hrow (row : List Node) (hrow : ∀ node ∈ row, node.Fits P) : (rowNode row).Fits P := by
    unfold rowNode
    split
    · exact hrow _ (by simp)
    · exact Node.fits_seq hrow
  have hall : ∀ node ∈ rows.map rowNode, node.Fits P := by
    intro node hnode
    obtain ⟨row, hmem, rfl⟩ := List.mem_map.1 hnode
    exact hrow row (h row hmem)
  obtain ⟨first, rest, rfl⟩ := List.exists_cons_of_ne_nil hrows
  rw [ofRows_cons]
  unfold branchNode
  split
  · rename_i node heq
    exact hall node (by rw [heq]; simp)
  · exact Node.fits_alt hall

/-- All items of a form fit. -/
def Form.Fits (P : String → Prop) : Form → Prop
  | .item node => node.Fits P
  | .rows written => written ≠ [] ∧ ∀ row ∈ written, ∀ node ∈ row, node.Fits P

theorem joinRows_ne_nil {rows : List (List Node)} (h : rows ≠ []) (others : List (List Node)) :
    joinRows rows others ≠ [] := by
  match rows, others with
  | [], _ => exact absurd rfl h
  | [row], [] => simp [joinRows]
  | [row], first :: more => simp [joinRows]
  | row :: next :: rows, others => simp [joinRows]

theorem forall_joinRows {Q : Node → Prop} {rows others : List (List Node)}
    (h : ∀ row ∈ rows, ∀ node ∈ row, Q node) (h' : ∀ row ∈ others, ∀ node ∈ row, Q node) :
    ∀ row ∈ joinRows rows others, ∀ node ∈ row, Q node := by
  induction rows with
  | nil => exact h'
  | cons row rest ih =>
    match rest, others with
    | [], [] => exact h
    | [], first :: more =>
      intro r hr node hnode
      rcases List.mem_cons.1 hr with rfl | hr
      · rcases List.mem_append.1 hnode with hnode | hnode
        · exact h _ (by simp) node hnode
        · exact h' first (by simp) node hnode
      · exact h' r (List.mem_cons_of_mem _ hr) node hnode
    | next :: rest, others =>
      intro r hr node hnode
      rcases List.mem_cons.1 hr with rfl | hr
      · exact h _ (by simp) node hnode
      · exact ih (fun row hrow => h row (List.mem_cons_of_mem _ hrow)) r hr node hnode

theorem Written.fits {P : String → Prop} {form : Form} {text : List Char}
    (h : Written P form text) : form.Fits P := by
  induction h with
  | name allowed => exact ⟨by simpa [Node.ruleNames] using allowed, rfl⟩
  | literal _ => exact ⟨by simp [Node.ruleNames], rfl⟩
  | charClass _ _ => exact ⟨by simp [Node.ruleNames], rfl⟩
  | exceptClass _ => exact ⟨by simp [Node.ruleNames], rfl⟩
  | group _ ih => exact fits_ofRows ih.1 ih.2
  | times _ _ ih => exact Node.fits_rep ih _ _
  | void => exact ⟨by simp, by simp⟩
  | blank => exact ⟨by simp, by simp⟩
  | bar => exact ⟨by simp, by simp⟩
  | single _ ih =>
    have hnode : Node.Fits P _ := ih
    exact ⟨by simp, by simpa using hnode⟩
  | append _ _ _ ih ih' => exact ⟨joinRows_ne_nil ih.1 _, forall_joinRows ih.2 ih'.2⟩

/-! ## Rows side by side -/

theorem rowsLanguage_single (g : Grammar) (row : List Node) :
    g.rowsLanguage [row] = (row.map g.language).prod := by
  simp [rowsLanguage]

theorem joinRows_bar (rows : List (List Node)) (others : List (List Node)) (h : rows ≠ [])
    (h' : others ≠ []) : joinRows (joinRows rows [[], []]) others = rows ++ others := by
  induction rows with
  | nil => exact absurd rfl h
  | cons row rest ih =>
    obtain ⟨other, more, rfl⟩ := List.exists_cons_of_ne_nil h'
    cases rest with
    | nil => simp [joinRows]
    | cons next rest =>
      have hih := ih (List.cons_ne_nil _ _)
      have hne := joinRows_ne_nil (List.cons_ne_nil next rest) [[], []]
      obtain ⟨a, as, ha⟩ := List.exists_cons_of_ne_nil hne
      rw [joinRows, ha, joinRows, ← ha, hih]
      rfl

theorem joinRows_blank (rows : List (List Node)) (h : rows ≠ []) : joinRows rows [[]] = rows := by
  induction rows with
  | nil => exact absurd rfl h
  | cons row rest ih =>
    cases rest with
    | nil => simp [joinRows]
    | cons next rest => rw [joinRows, ih (List.cons_ne_nil _ _)]

theorem blank_joinRows (rows : List (List Node)) (h : rows ≠ []) : joinRows [[]] rows = rows := by
  obtain ⟨row, rest, rfl⟩ := List.exists_cons_of_ne_nil h
  rw [joinRows, List.nil_append]

end Grammar

end SchemaGrammar
