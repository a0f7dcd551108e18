import SchemaGrammar.Proofs.Rules.Expression

set_option autoImplicit false

/-! # The trees of the built-in rules

What the texts of the built-in rules are read as, and what is true of them together: each refers
only to what it needs, and none starts with itself. -/

namespace SchemaGrammar

namespace Builtin

open Grammar (IsBody)

/-! ## Trees -/

def markNode (c : Char) : Node :=
  .literal [c.toNat]

def classNode (lo hi : Char) : Node :=
  .charClass false [(lo.toNat, hi.toNat)]

def digitNode : Node :=
  classNode '0' '9'

def hexNode (count : Nat) : Node :=
  .rep (.charClass false [(48, 57), (97, 102), (65, 70)]) count (some count)

def optionalNode (node : Node) : Node :=
  .rep node 0 (some 1)

/-- Something between the quotes of a JSON string. -/
def quotedNode (node : Node) : Node :=
  .seq [markNode '"', node, markNode '"', .rule "space"]

/-- Hours from 00 to 23. -/
def hourNode : Node :=
  .alt [.seq [.charClass false [(48, 48), (49, 49)], digitNode],
    .seq [markNode '2', classNode '0' '3']]

/-- The trees of all built-in rules. -/
def nodes : List (String × Node) :=
  [("space", .alt [.seq [], markNode ' ',
      .seq [.rep (markNode '\n') 1 (some 2), .rep (.charClass false [(32, 32), (9, 9)]) 0 (some 20)]]),
    ("boolean", .seq [.alt [.literal (['t', 'r', 'u', 'e'].map Char.toNat),
      .literal (['f', 'a', 'l', 's', 'e'].map Char.toNat)], .rule "space"]),
    ("decimal-part", .rep digitNode 1 (some 16)),
    ("integral-part", .alt [classNode '0' '0', .seq [classNode '1' '9', .rep digitNode 0 (some 15)]]),
    ("number", .seq [.seq [optionalNode (markNode '-'), .rule "integral-part"],
      optionalNode (.seq [markNode '.', .rule "decimal-part"]),
      optionalNode (.seq [.charClass false [(101, 101), (69, 69)],
        optionalNode (.charClass false [(45, 45), (43, 43)]), .rule "integral-part"]),
      .rule "space"]),
    ("integer", .seq [.seq [optionalNode (markNode '-'), .rule "integral-part"], .rule "space"]),
    ("value", .alt [.rule "object", .rule "array", .rule "string", .rule "number", .rule "boolean",
      .rule "null"]),
    ("object", .seq [markNode '\x7b', .rule "space",
      optionalNode (.seq [.rule "string", markNode ':', .rule "space", .rule "value",
        .rep (.seq [markNode ',', .rule "space", .rule "string", markNode ':', .rule "space",
          .rule "value"]) 0 none]),
      markNode '\x7d', .rule "space"]),
    ("array", .seq [markNode '[', .rule "space",
      optionalNode (.seq [.rule "value",
        .rep (.seq [markNode ',', .rule "space", .rule "value"]) 0 none]),
      markNode ']', .rule "space"]),
    ("uuid", .seq [markNode '"', hexNode 8, markNode '-', hexNode 4, markNode '-', hexNode 4,
      markNode '-', hexNode 4, markNode '-', hexNode 12, markNode '"', .rule "space"]),
    ("char", .alt [.charClass true [(34, 34), (92, 92), (127, 127), (0, 31)],
      .seq [classNode '\\' '\\', .alt [.charClass false [(34, 34), (92, 92), (98, 98), (102, 102),
        (110, 110), (114, 114), (116, 116)], .seq [markNode 'u', hexNode 4]]]]),
    ("string", quotedNode (.rep (.rule "char") 0 none)),
    ("null", .seq [.literal (['n', 'u', 'l', 'l'].map Char.toNat), .rule "space"]),
    ("date", .seq [.rep digitNode 4 (some 4), markNode '-',
      .alt [.seq [markNode '0', classNode '1' '9'], .seq [markNode '1', classNode '0' '2']],
      markNode '-', .alt [.seq [markNode '0', classNode '1' '9'],
        .seq [classNode '1' '2', digitNode], .seq [markNode '3', classNode '0' '1']]]),
    ("time", .seq [hourNode, markNode ':', classNode '0' '5', digitNode, markNode ':',
      classNode '0' '5', digitNode,
      optionalNode (.seq [markNode '.', .rep digitNode 3 (some 3)]),
      .alt [markNode 'Z', .seq [.alt [markNode '+', markNode '-'], hourNode, markNode ':',
        classNode '0' '5', digitNode]]]),
    ("date-time", .seq [.rule "date", markNode 'T', .rule "time"]),
    ("date-string", quotedNode (.rule "date")),
    ("time-string", quotedNode (.rule "time")),
    ("date-time-string", quotedNode (.rule "date-time"))]

/-- The texts of all built-in rules, with the one for blanks. -/
def bodies : List (String × String) :=
  (spaceName, space) :: catalog.map fun (name, rule) => (name, rule.body)

/-! ## Reading the texts -/

/-- A text of so many tokens is read as a tree in any surroundings. -/
def ReadsAs (cs : List Char) (node : Node) (count : Nat) : Prop :=
  ∀ (name : String) (done : Grammar) (offset left : Nat) (rest : List Char),
    (Grammar.lexemesFrom (left + count) ⟨offset, cs ++ '\n' :: rest⟩).foldlM Grammar.step
        ⟨done, .inside (.start name)⟩ =
      (Grammar.lexemesFrom left ⟨offset + (cs.length + 1), rest⟩).foldlM Grammar.step
        ⟨(name, node) :: done, .between⟩

theorem ReadsAs.isBody {body : String} {node : Node} {count : Nat}
    (h : ReadsAs body.toList node count) (hcount : count ≤ body.toList.length + 1) :
    IsBody body node := by
  intro name done offset steps rest _ hsteps
  simp only [List.length_append, List.length_cons, List.length_nil] at hsteps
  obtain ⟨left, rfl⟩ : ∃ n, steps = n + count := ⟨steps - count, by omega⟩
  refine ⟨left, by omega, ?_⟩
  rw [List.append_assoc, List.singleton_append, h name]
  simp

/-- How many tokens each text has, with the line break behind it. -/
def tokenCounts : List Nat :=
  [12, 10, 3, 9, 26, 9, 22, 36, 24, 29, 17, 9, 4, 41, 72, 6, 8, 8, 8]

/-- Each text with its tree and the number of its tokens. -/
def readings : List ((String × String) × (String × Node) × Nat) :=
  bodies.zip (nodes.zip tokenCounts)

theorem readsAs_nodes : ∀ x ∈ readings,
    ReadsAs x.1.2.toList x.2.1.2 x.2.2 ∧ x.2.2 ≤ x.1.2.toList.length + 1 := by
  simp only [readings, bodies, nodes, tokenCounts, catalog, values, formats, space, times, hex,
    List.cons_append, List.nil_append, List.map_cons, List.map_nil, List.zip_cons_cons,
    List.zip_nil_right, List.forall_mem_cons, String.toList_append]
  repeat rw [String.toList_ofList]
  simp only [List.cons_append, List.nil_append]
  refine ⟨⟨?_, by simp⟩, ⟨?_, by simp⟩, ⟨?_, by simp⟩, ⟨?_, by simp⟩, ⟨?_, by simp⟩,
    ⟨?_, by simp⟩, ⟨?_, by simp⟩, ⟨?_, by simp⟩, ⟨?_, by simp⟩, ⟨?_, by simp⟩, ⟨?_, by simp⟩,
    ⟨?_, by simp⟩, ⟨?_, by simp⟩, ⟨?_, by simp⟩, ⟨?_, by simp⟩, ⟨?_, by simp⟩, ⟨?_, by simp⟩,
    ⟨?_, by simp⟩, ⟨?_, by simp⟩, by simp⟩
  all_goals
    intro name done offset left rest
    cbv

theorem names_nodes : bodies.map Prod.fst = nodes.map Prod.fst := by
  decide

theorem nodup_nodes : (nodes.map Prod.fst).Nodup := by
  decide

theorem mem_readings {name body : String} (h : (name, body) ∈ bodies) :
    ∃ node count, (name, node) ∈ nodes ∧ ((name, body), (name, node), count) ∈ readings := by
  obtain ⟨i, hi, hbody⟩ := List.mem_iff_getElem.1 h
  have hlength : bodies.length = nodes.length := by simpa using congrArg List.length names_nodes
  have hi' : i < nodes.length := hlength ▸ hi
  have hname : (nodes[i]).1 = name := by
    have hget := congrArg (fun names => names[i]?) names_nodes
    simp only [List.getElem?_map, List.getElem?_eq_getElem hi, List.getElem?_eq_getElem hi',
      Option.map_some, Option.some.injEq, hbody] at hget
    exact hget.symm
  have hcount : i < tokenCounts.length := hi'
  refine ⟨(nodes[i]).2, tokenCounts[i], List.mem_iff_getElem.2 ⟨i, hi', ?_⟩,
    List.mem_iff_getElem.2 ⟨i, ?_, ?_⟩⟩
  · rw [← hname]
    rfl
  · simp only [readings, List.length_zip]
    omega
  · simp only [readings, List.getElem_zip, hbody, ← hname]
    rfl

/-- The tree of a built-in rule. -/
theorem exists_node {name body : String} (h : (name, body) ∈ bodies) :
    ∃ node, nodes.lookup name = some node ∧ IsBody body node := by
  obtain ⟨node, count, hnode, hmem⟩ := mem_readings h
  obtain ⟨hread, hcount⟩ := readsAs_nodes _ hmem
  exact ⟨node, Assoc.lookup_of_mem nodup_nodes hnode, hread.isBody hcount⟩

/-! ## What the trees have in common -/

/-- The names of all built-in rules, with the one for blanks. -/
def names : List String :=
  bodies.map Prod.fst

theorem readable_names : ∀ name ∈ names, Grammar.IsReadable name := by
  decide

theorem fits_nodes {name : String} {node : Node} (h : nodes.lookup name = some node) :
    node.Fits (· ∈ names) := by
  have hall : ∀ x ∈ nodes,
      (∀ name ∈ x.2.ruleNames, name ∈ names) ∧ x.2.hasNaturalCounts = true := by decide
  obtain ⟨hnames, hcounts⟩ := hall _ (Assoc.mem_of_lookup h)
  exact ⟨hnames, hcounts⟩

/-- A built-in rule refers to nothing but blanks and what it needs. -/
theorem ruleNames_subset {name : String} {rule : Builtin} {node : Node}
    (hrule : find? name = some rule) (hnode : nodes.lookup name = some node) :
    ∀ other ∈ node.ruleNames, other = spaceName ∨ other ∈ rule.needs := by
  have hall : ∀ x ∈ catalog, ∀ y ∈ nodes, x.1 = y.1 →
      ∀ other ∈ y.2.ruleNames, other = spaceName ∨ other ∈ x.2.needs := by decide
  exact hall _ (Assoc.mem_of_lookup hrule) _ (Assoc.mem_of_lookup hnode) rfl

/-- How far a built-in rule is from those that start with a character. -/
def rank (name : String) : Nat :=
  if name = "value" then 2 else if name ∈ ["number", "integer", "date-time"] then 1 else 0

theorem rank_leading {name : String} {node : Node} (h : nodes.lookup name = some node) :
    ∀ other ∈ node.leading, rank other < rank name := by
  have hall : ∀ x ∈ nodes, ∀ other ∈ x.2.leading, rank other < rank x.1 := by decide
  exact hall _ (Assoc.mem_of_lookup h)

end Builtin

end SchemaGrammar
