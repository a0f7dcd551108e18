import SchemaGrammar.Proofs.Compiler
import SchemaGrammar.Proofs.Schema.Lines

set_option autoImplicit false

/-! # One line for each rule

A listing reads the rules off a grammar text line by line. It gives back the table if and only if
each body is on one line (`listing_text_iff`). A schema that keeps to a line compiles to such a
table; a line end that JSON text does not escape gets into a literal, and a line end of a pattern or
a count into the rule for it, and breaks its line. -/

namespace SchemaGrammar

open Text (IsOneLine isOneLine_of_mem_lines lines_join)

namespace RuleTable

variable {t : RuleTable}

/-- The names of the rules with their bodies, in the order of their text. -/
def rows (t : RuleTable) : List (String × String) :=
  t.names.map fun name => (name, (t.find? name).getD "")

/-- There is a row for each rule. -/
theorem length_rows (t : RuleTable) : t.rows.length = t.size := by
  rw [rows, List.length_map, t.perm_names.length_eq, List.length_map]
  rfl

theorem text_eq_join (t : RuleTable) : t.text =
    String.join ((t.rows.map fun row => row.1 ++ Grammar.definitionSign ++ row.2).map (· ++ "\n")) := by
  rw [text, rows, List.map_map, List.map_map]
  rfl

theorem mem_rows_iff (ht : t.WellFormed) {row : String × String} : row ∈ t.rows ↔ row ∈ t.rules := by
  rw [rows, List.mem_map]
  constructor
  · rintro ⟨name, hname, rfl⟩
    obtain ⟨body, hbody⟩ := Option.isSome_iff_exists.1 (mem_names_iff.1 hname)
    rw [hbody]
    exact Assoc.mem_of_lookup hbody
  · intro hrow
    have hfind : t.find? row.1 = some row.2 := Assoc.lookup_of_mem ht.nodup hrow
    exact ⟨row.1, mem_names_iff.2 (has_of_find? hfind), by rw [hfind]; rfl⟩

/-- **The lines of a table's text are its rules** if and only if each body is on one line. -/
theorem listing_text_iff (ht : t.WellFormed) (hnames : ∀ name, t.has name = true → IsStorable name) :
    Grammar.listing t.text = t.rows ↔ t.IsListable := by
  have hname (row : String × String) (hrow : row ∈ t.rows) : IsStorable row.1 := by
    obtain ⟨name, hname, rfl⟩ := List.mem_map.1 hrow
    exact hnames name (mem_names_iff.1 hname)
  constructor
  · intro hlisting rule hrule
    rw [← mem_rows_iff ht, ← hlisting] at hrule
    obtain ⟨line, hline, rfl⟩ := List.mem_map.1 hrule
    exact Grammar.isOneLine_rowOf (isOneLine_of_mem_lines hline)
  · intro hlistable
    have hlines : ∀ line ∈ t.rows.map fun row => row.1 ++ Grammar.definitionSign ++ row.2,
        IsOneLine line := by
      intro line hline
      obtain ⟨row, hrow, rfl⟩ := List.mem_map.1 hline
      have hfirst : IsOneLine row.1 := fun c hc => endsLine_of_keepsInName ((hname row hrow).2 c hc)
      exact .between hfirst (by decide) (hlistable row ((mem_rows_iff ht).1 hrow))
    rw [Grammar.listing, text_eq_join, lines_join hlines, List.map_map]
    refine (List.map_congr_left fun row hrow => ?_).trans (List.map_id _)
    refine Grammar.rowOf_line fun hblank => ?_
    exact absurd ((hname row hrow).2 ' ' hblank) (by decide)

end RuleTable

namespace Compiler

variable {options : Options} {schema : Json} {t : RuleTable}

/-- A schema that keeps to a line compiles to bodies on one line. -/
theorem isListable_of_compiled (hschema : schema.keepsLine = true)
    (h : compile options schema = .ok t) : t.IsListable := by
  obtain ⟨resolver, depth, name, s, hrecords, rfl, hrun⟩ := exists_visited h
  have hstart : (prepared resolver).IsListable schema :=
    ⟨RuleTable.isListable_new, by simp [prepared], hrecords⟩
  have hvisit := Schema.lists_visitWith hschema (Schema.lists_visit hschema options depth) options
  exact (hvisit schema "" hschema _ name s hstart hrun).1.table

/-- **One line for each rule.** Reading the text of a compiled grammar line by line gives back its
    rules exactly where each body is on one line, and this is so for each schema that keeps to a
    line: one without a line end that JSON text leaves as it is, and with patterns and counts on one
    line. -/
theorem listing_of_compiled (h : compile options schema = .ok t) :
    t.rows.length = t.size ∧ (Grammar.listing t.text = t.rows ↔ t.IsListable) ∧
      (schema.keepsLine = true → Grammar.listing t.text = t.rows) := by
  obtain ⟨name, s, hrun, rfl⟩ := compile_eq_ok h
  obtain ⟨horderly, -⟩ := compileDocument_spec (fun hfalse : False => hfalse.elim) hrun
  have hiff := RuleTable.listing_text_iff horderly.table.coherent.wellFormed
    horderly.table.coherent.storable
  exact ⟨s.table.length_rows, hiff, fun hschema => hiff.2 (isListable_of_compiled hschema h)⟩

/-- An object with a key of two lines, whose values have two lines, too. -/
def twoLines : Json :=
  .obj [("properties", .obj [("a\nb", .obj [("enum", .arr [.str "c\r\nd", .str "e\x0bf"])])]),
    ("additionalProperties", .bool true)]

/-- Line ends that JSON text escapes do no harm. -/
theorem listing_of_twoLines : ∃ t, compile .standard twoLines = .ok t ∧
    t.rows.length = t.size ∧ (Grammar.listing t.text = t.rows ↔ t.IsListable) ∧
      Grammar.listing t.text = t.rows := by
  obtain ⟨t, ht⟩ := exists_of_isOk (show (compile .standard twoLines).isOk = true by decide +kernel)
  obtain ⟨hsize, hiff, hlisting⟩ := listing_of_compiled ht
  exact ⟨t, ht, hsize, hiff, hlisting (by decide +kernel)⟩

/-- A constant with a line separator, which JSON text does not escape. -/
def separatedLines : Json :=
  .obj [("const", .str "a\u2028b")]

/-- Its grammar has two rules and three lines. -/
theorem listing_of_separatedLines : ∃ t, compile .standard separatedLines = .ok t ∧
    t.rows = [("root", "\"\\\"a\u2028b\\\"\" space"), ("space", Builtin.space)] ∧
      Grammar.listing t.text =
        [("root", "\"\\\"a"), ("b\\\"\" space", ""), ("space", Builtin.space)] := by
  obtain ⟨t, hcompile, hrules⟩ := exists_of_seen (show (compile .standard separatedLines).toOption.map
    RuleTable.rules = some [("space", Builtin.space), ("root", "\"\\\"a\u2028b\\\"\" space")] by
      decide +kernel)
  have hnames : t.names = ["root", "space"] := by
    have hafter : Assoc.nameLe "space" "root" = false := by decide
    rw [RuleTable.names, hrules]
    simp [Assoc.sortNames, List.mergeSort, List.MergeSort.Internal.splitInTwo, hafter]
  have hrows : t.rows = [("root", "\"\\\"a\u2028b\\\"\" space"), ("space", Builtin.space)] := by
    have hfind (name : String) : t.find? name = List.lookup name _ := congrArg (List.lookup name) hrules
    rw [RuleTable.rows, hnames, List.map_cons, List.map_cons, hfind, hfind]
    rfl
  refine ⟨t, hcompile, hrows, ?_⟩
  rw [RuleTable.text_eq_join, hrows]
  decide +kernel

end Compiler

end SchemaGrammar
