import SchemaGrammar.Proofs.Exclusion.Exact
import SchemaGrammar.Proofs.Schema.Standard

set_option autoImplicit false

/-! # The built-in rules for values

What the built-in rules for values accept, as equations between their languages. The equations for
values, objects and lists refer to each other, so they do not say yet what a value is; but they say
what a value is made of. -/

namespace SchemaGrammar

open Computability

open Grammar (charWhere classLanguage repeated listed)

/-! ## Trees -/

namespace Builtin

section Trees

variable (g : Grammar)

theorem language_markNode (c : Char) : g.language (markNode c) = {[c]} :=
  Grammar.language_literal g [c]

theorem language_optionalNode (node : Node) :
    g.language (optionalNode node) = 1 + g.language node := by
  have h := Grammar.language_rep g node 0 (some 1)
  rwa [Grammar.repeated_optional] at h

theorem language_anyNode (node : Node) : g.language (.rep node 0 none) = (g.language node)∗ := by
  have h := Grammar.language_rep g node 0 none
  rwa [Grammar.repeated_any] at h

/-- The characters from one to another. -/
theorem language_classNode (lo hi : Char) :
    g.language (classNode lo hi) = IntRange.fromTo lo hi := by
  rw [classNode, Grammar.language_charClass, IntRange.classLanguage_single]
  rfl

/-- One of two characters. -/
theorem language_eitherClass (a b : Char) :
    g.language (.charClass false [(a.toNat, a.toNat), (b.toNat, b.toNat)]) = {[a]} + {[b]} := by
  have hchars : classLanguage false [(a.toNat, a.toNat), (b.toNat, b.toNat)] =
      charWhere (· ∈ [a, b]) := Grammar.classLanguage_chars [a, b]
  rw [Grammar.language_charClass, hchars]
  ext text
  constructor
  · rintro ⟨c, rfl, hc⟩
    rcases List.mem_pair.1 hc with rfl | rfl
    · exact .inl rfl
    · exact .inr rfl
  · rintro (rfl | rfl)
    · exact ⟨a, rfl, by simp⟩
    · exact ⟨b, rfl, by simp⟩

end Trees

end Builtin

namespace Schema

open Builtin (nodes markNode language_markNode language_optionalNode language_anyNode)

/-! ## Rules -/

section Rules

variable {name : String} {node : Node}

/-- The language of a built-in rule is that of its tree. -/
theorem builtin_eq (hname : (Builtin.find? name).isSome = true) (hnode : nodes.lookup name = some node) :
    builtin name = Grammar.language nodes node := by
  obtain ⟨rule, hrule⟩ := Option.isSome_iff_exists.1 hname
  obtain ⟨tree, htree, hbody⟩ := Builtin.exists_node (RuleTable.mem_bodies hrule)
  obtain rfl : tree = node := Option.some.inj (htree.symm.trans hnode)
  have hfits := Builtin.fits_nodes hnode
  rw [builtin, hrule]
  exact Builtin.languageOf_eq (.inl ⟨hbody, hfits.names, hfits.counts⟩)

theorem language_rule_builtin (hname : (Builtin.find? name).isSome = true) :
    Grammar.language nodes (.rule name) = builtin name := by
  obtain ⟨rule, hrule⟩ := Option.isSome_iff_exists.1 hname
  obtain ⟨tree, htree, -⟩ := Builtin.exists_node (RuleTable.mem_bodies hrule)
  rw [Grammar.language_rule nodes htree, builtin_eq hname htree]

theorem language_rule_space : Grammar.language nodes (.rule "space") = blanks := by
  have hspace : (Builtin.spaceName, Builtin.space) ∈ Builtin.bodies := List.mem_cons_self
  obtain ⟨node, hnode, hbody⟩ := Builtin.exists_node hspace
  have hfits := Builtin.fits_nodes hnode
  have hrule : nodes.lookup "space" = some node := hnode
  rw [blanks, Grammar.language_rule nodes hrule,
    Builtin.languageOf_eq (.inl ⟨hbody, hfits.names, hfits.counts⟩)]

end Rules

/-! ## Values -/

/-- The rules for the kinds of values. -/
def kinds : List String :=
  ["object", "array", "string", "number", "boolean", "null"]

theorem builtin_value : builtin "value" = (kinds.map builtin).sum := by
  have hkinds : ∀ name ∈ kinds, (Builtin.find? name).isSome = true := by decide
  have htree : builtin "value" = Grammar.language nodes (.alt (kinds.map .rule)) := builtin_eq rfl rfl
  rw [htree, Grammar.language_alt, List.map_map]
  congr 1
  exact List.map_congr_left fun name hname => language_rule_builtin (hkinds name hname)

theorem builtin_null : builtin "null" = mark "null" := by
  have htree : builtin "null" = Grammar.language nodes
      (.seq [.literal ("null".toList.map Char.toNat), .rule "space"]) := builtin_eq rfl rfl
  rw [htree, Grammar.language_seq]
  simp only [List.map_cons, List.map_nil, List.prod_cons, List.prod_nil, mul_one,
    Grammar.language_literal, language_rule_space]
  rfl

theorem builtin_boolean : builtin "boolean" = mark "true" + mark "false" := by
  have htree : builtin "boolean" = Grammar.language nodes
      (.seq [.alt [.literal ("true".toList.map Char.toNat), .literal ("false".toList.map Char.toNat)],
        .rule "space"]) := builtin_eq rfl rfl
  rw [htree, Grammar.language_seq]
  simp only [List.map_cons, List.map_nil, List.prod_cons, List.prod_nil, mul_one,
    Grammar.language_alt, List.sum_cons, List.sum_nil, add_zero, Grammar.language_literal,
    language_rule_space, add_mul]
  rfl

theorem builtin_string : builtin "string" = quoted (builtin "char")∗ := by
  have hchar : Grammar.language nodes (.rule "char") = builtin "char" :=
    language_rule_builtin (by decide)
  rw [builtin_eq rfl rfl, Builtin.quotedNode, Grammar.language_seq]
  simp only [List.map_cons, List.map_nil, List.prod_cons, List.prod_nil, mul_one,
    language_markNode, language_anyNode, language_rule_space, hchar, quoted, mul_assoc]

/-- Any number of items with separators, item by item. -/
theorem listed_any (sep L : Language Char) : listed sep 0 none L = 1 + L * (sep * L)∗ := by
  have hnone : ∀ most ∈ (none : Option Nat), 0 < most := by simp
  have hfirst : L * repeated 0 none (sep * L) = listed sep 1 none L := Grammar.mul_repeated 1 hnone
  rw [← Grammar.one_add_listed, ← hfirst, Grammar.repeated_any]

theorem builtin_array :
    builtin "array" = bracketed (listed (mark ",") 0 none (builtin "value")) := by
  have hvalue : Grammar.language nodes (.rule "value") = builtin "value" :=
    language_rule_builtin (by decide)
  rw [builtin_eq rfl rfl, Grammar.language_seq]
  simp only [List.map_cons, List.map_nil, List.prod_cons, List.prod_nil, mul_one,
    language_markNode, language_optionalNode, language_anyNode, Grammar.language_seq,
    language_rule_space, hvalue]
  rw [listed_any, bracketed]
  simp only [mark, mul_assoc]
  rfl

theorem builtin_object : builtin "object" =
    mark "\x7b" * listed (mark ",") 0 none (pair (builtin "string") (builtin "value")) *
      mark "\x7d" := by
  have hstring : Grammar.language nodes (.rule "string") = builtin "string" :=
    language_rule_builtin (by decide)
  have hvalue : Grammar.language nodes (.rule "value") = builtin "value" :=
    language_rule_builtin (by decide)
  rw [builtin_eq rfl rfl, Grammar.language_seq]
  simp only [List.map_cons, List.map_nil, List.prod_cons, List.prod_nil, mul_one,
    language_markNode, language_optionalNode, language_anyNode, Grammar.language_seq,
    language_rule_space, hstring, hvalue]
  rw [listed_any]
  simp only [mark, pair, mul_assoc]
  rfl

end Schema

end SchemaGrammar
