import SchemaGrammar.Proofs.Grammar.Typing
import SchemaGrammar.Proofs.Json.Standard
import SchemaGrammar.Proofs.Rules.Standalone

set_option autoImplicit false

/-! # The built-in rules are typed

Each built-in rule stands for a part of a JSON text: blanks, a piece of a number, a piece of a
string, a key or a value with blanks behind it (`typeOf`). That their bodies keep to this is checked
rule by rule (`typed_nodes`), and so an expression over built-in rules has the bound that follows from
how it is put together (`languageOf_le`). -/

namespace SchemaGrammar

open Computability

open Grammar (classLanguage charWhere)
open Standard (ws spaced spacedMember content natural integer number fraction exponent someDigits
  digits string value IsCharacter)

namespace Builtin

/-- The part of a JSON text that a built-in rule stands for. -/
def typeOf (name : String) : Language Char :=
  if name = "space" then ws
  else if name = "integral-part" then natural
  else if name = "decimal-part" then someDigits
  else if name = "char" then content
  else if name = "date" then content
  else if name = "time" then content
  else if name = "date-time" then content
  else if name = "string" then string * ws
  else spaced

theorem typeOf_space : typeOf "space" = ws :=
  rfl

theorem typeOf_string : typeOf "string" = string * ws :=
  rfl

theorem typeOf_value : typeOf "value" = spaced :=
  rfl

/-! ## Pieces -/

section Pieces

variable (T : String → Language Char)

theorem bound_markNode (c : Char) : (markNode c).bound T = {[c]} :=
  Grammar.spelling_map [c]

theorem bound_optionalNode (node : Node) : (optionalNode node).bound T = 1 + node.bound T :=
  Grammar.copies_optional (node.bound T)

/-- Is a character one that needs no escape in a string? -/
def isRaw (c : Char) : Bool :=
  decide (' ' ≤ c) && c != '"' && c != '\\'

theorem bound_le_content {node : Node} (h : node.consistsOf isRaw = true) : node.bound T ≤ content := by
  refine le_trans (Node.bound_le_of_consistsOf node h) ?_
  refine le_trans (kstar_mono (Grammar.charWhere_mono fun c hc => ?_)) Standard.raw_le_content
  simpa [isRaw, and_assoc] using hc

/-- Something between quotes. -/
theorem bound_quotedNode {node : Node} (hspace : T "space" ≤ ws) (h : node.bound T ≤ content) :
    (quotedNode node).bound T ≤ string * ws := by
  simp only [quotedNode, Node.bound, Node.rowBound, bound_markNode, mul_one]
  calc
    {['"']} * (node.bound T * ({['"']} * T "space"))
        ≤ {['"']} * (content * ({['"']} * ws)) :=
      mul_le_mul' le_rfl (mul_le_mul' h (mul_le_mul' le_rfl hspace))
    _ = string * ws := by simp only [string, mul_assoc]

end Pieces

theorem name_le_value {text : List Char} (h : text ∈ ["null".toList, "true".toList, "false".toList]) :
    ({text} : Language Char) ≤ value :=
  Grammar.singleton_le_iff.2 (Standard.IsValue.name h)

theorem string_le_spaced : string * ws ≤ spaced :=
  mul_le_mul' Standard.string_le_value le_rfl

/-! ## Rules -/

theorem bound_space : (Node.alt [.seq [], markNode ' ', .seq [.rep (markNode '\n') 1 (some 2),
    .rep (.charClass false [(32, 32), (9, 9)]) 0 (some 20)]]).bound typeOf ≤ ws := by
  refine le_trans (Node.bound_le_of_consistsOf (P := [' ', '\t', '\n', '\r'].contains) _ (by decide))
    (kstar_mono (Grammar.charWhere_mono fun c hc => ?_))
  exact List.contains_iff_mem.1 hc

theorem bound_digitNode : digitNode.bound typeOf ≤ charWhere Standard.IsDigit := by
  refine Grammar.class_le fun c hc => ⟨c, rfl, ?_⟩
  exact (by decide : ∀ c ∈ Grammar.charsOf [('0'.toNat, '9'.toNat)], c.isDigit = true) c hc

theorem bound_digits {min : Int} {max : Option Int} (h : 1 ≤ min) :
    (Node.rep digitNode min max).bound typeOf ≤ someDigits :=
  le_trans (Grammar.copies_le_plus _ h max) (mul_le_mul' bound_digitNode (kstar_mono bound_digitNode))

theorem bound_natural : (classNode '0' '0').bound typeOf + (classNode '1' '9').bound typeOf *
    Grammar.copies 0 (some 15) (digitNode.bound typeOf) ≤ natural := by
  refine add_le_add ?_ (mul_le_mul' ?_ ?_)
  · refine Grammar.class_le fun c hc => ?_
    obtain rfl := (by decide : ∀ c ∈ Grammar.charsOf [('0'.toNat, '0'.toNat)], c = '0') c hc
    rfl
  · refine Grammar.class_le fun c hc => ⟨c, rfl, ?_⟩
    exact (by decide : ∀ c ∈ Grammar.charsOf [('1'.toNat, '9'.toNat)], c.isDigit = true ∧ c ≠ '0') c hc
  · refine le_trans (Grammar.copies_le_kstar _ 0 _) (kstar_mono ?_)
    exact bound_digitNode

theorem bound_uuid : (Node.seq [markNode '"', hexNode 8, markNode '-', hexNode 4, markNode '-', hexNode 4,
      markNode '-', hexNode 4, markNode '-', hexNode 12, markNode '"', .rule "space"]).bound typeOf ≤
    string * ws := by
  have hinner : (Node.seq [hexNode 8, markNode '-', hexNode 4, markNode '-', hexNode 4, markNode '-',
      hexNode 4, markNode '-', hexNode 12]).bound typeOf ≤ content :=
    bound_le_content typeOf (by decide)
  refine le_trans (le_of_eq ?_) (bound_quotedNode typeOf le_rfl hinner)
  simp only [quotedNode, Node.bound, Node.rowBound, mul_assoc, mul_one]

theorem bound_char : (Node.alt [.charClass true [(34, 34), (92, 92), (127, 127), (0, 31)],
      .seq [classNode '\\' '\\', .alt [.charClass false [(34, 34), (92, 92), (98, 98), (102, 102),
        (110, 110), (114, 114), (116, 116)], .seq [markNode 'u', hexNode 4]]]]).bound typeOf ≤ content := by
  have hhex : classLanguage false [(48, 57), (97, 102), (65, 70)] ≤ charWhere Standard.IsHexDigit := by
    refine Grammar.class_le fun c hc => ⟨c, rfl, ?_⟩
    exact (by decide : ∀ c ∈ Grammar.charsOf [(48, 57), (97, 102), (65, 70)],
      c ∈ "0123456789abcdefABCDEF".toList) c hc
  have hslash : (classNode '\\' '\\').bound typeOf ≤ {['\\']} := by
    refine Grammar.class_le fun c hc => ?_
    obtain rfl := (by decide : ∀ c ∈ Grammar.charsOf [('\\'.toNat, '\\'.toNat)], c = '\\') c hc
    rfl
  have hexact : (hexNode 4).bound typeOf = classLanguage false [(48, 57), (97, 102), (65, 70)] ^ 4 :=
    Grammar.copies_exactly _ 4
  simp only [Node.bound, Node.choiceBound, Node.rowBound, bound_markNode, mul_one, add_zero, mul_add, hexact]
  refine add_le ?raw (add_le ?escaped ?numbered)
  case raw => exact Standard.exceptClass_le (by decide) (by decide) (by decide)
  case escaped =>
    refine le_trans (mul_le_mul' hslash le_rfl) (Standard.escaped_le ?_)
    refine Grammar.class_le fun c hc => ⟨c, rfl, ?_⟩
    exact (by decide : ∀ c ∈ Grammar.charsOf [(34, 34), (92, 92), (98, 98), (102, 102), (110, 110),
      (114, 114), (116, 116)], c ∈ ['"', '\\', '/', 'b', 'f', 'n', 'r', 't']) c hc
  case numbered => exact le_trans (mul_le_mul' hslash le_rfl) (Standard.numbered_le hhex)

/-- The texts of a number from its pieces. -/
theorem number_pieces_le {sign mark : Language Char} (hmark : mark ≤ {['e']} + {['E']})
    (hsign : sign ≤ {['+']} + {['-']}) :
    (1 + {['-']}) * natural * ((1 + {['.']} * someDigits) *
      ((1 + mark * ((1 + sign) * natural)) * ws)) ≤ spaced := by
  have hexponent : mark * ((1 + sign) * natural) ≤ exponent := by
    rw [← mul_assoc]
    exact mul_le_mul' (mul_le_mul' hmark (add_le_add le_rfl hsign)) Standard.natural_le_someDigits
  calc
    (1 + {['-']}) * natural * ((1 + {['.']} * someDigits) * ((1 + mark * ((1 + sign) * natural)) * ws))
        ≤ integer * ((1 + fraction) * ((1 + exponent) * ws)) :=
      mul_le_mul' le_rfl (mul_le_mul' le_rfl (mul_le_mul' (add_le_add le_rfl hexponent) le_rfl))
    _ = number * ws := by simp only [number, mul_assoc]
    _ ≤ spaced := mul_le_mul' Standard.number_le_value le_rfl

/-- **The built-in rules keep to their types.** -/
theorem typed_nodes : ∀ x ∈ nodes, x.2.bound typeOf ≤ typeOf x.1 := by
  simp only [nodes, List.forall_mem_cons]
  refine ⟨bound_space, ?boolean, ?decimalPart, ?integralPart, ?number, ?integer, ?value, ?object, ?array,
    ?uuid, ?char, ?string, ?null, ?date, ?time, ?dateTime, ?dateString, ?timeString, ?dateTimeString,
    by simp⟩
  case decimalPart => exact bound_digits (by decide)
  case string => 
    refine bound_quotedNode typeOf le_rfl ?_
    have hrep : (Node.rep (.rule "char") 0 none).bound typeOf ≤ content∗ :=
      Grammar.copies_le_kstar _ _ _
    exact le_trans hrep (le_of_eq (kstar_idem _))
  case date => exact bound_le_content typeOf (by decide)
  case time => exact bound_le_content typeOf (by decide)
  case dateString => exact le_trans (bound_quotedNode typeOf le_rfl (le_refl content)) string_le_spaced
  case timeString => exact le_trans (bound_quotedNode typeOf le_rfl (le_refl content)) string_le_spaced
  case dateTimeString =>
    exact le_trans (bound_quotedNode typeOf le_rfl (le_refl content)) string_le_spaced
  case uuid => exact le_trans bound_uuid string_le_spaced
  case char => exact bound_char
  -- the other bodies are made of names, marks and repetitions, so their bounds can be written out
  all_goals
    simp only [Node.bound, Node.choiceBound, Node.rowBound, bound_markNode, bound_optionalNode,
      Grammar.copies_any, Grammar.spelling_map, mul_one, add_zero]
  case boolean => exact mul_le_mul' (add_le (name_le_value (by simp)) (name_le_value (by simp))) le_rfl
  case null => exact mul_le_mul' (name_le_value (by simp)) le_rfl
  case integralPart => exact bound_natural
  case number =>
    refine number_pieces_le ?_ ?_
    · refine Grammar.class_le fun c hc => ?_
      rcases (by decide : ∀ c ∈ Grammar.charsOf [(101, 101), (69, 69)], c = 'e' ∨ c = 'E') c hc
        with rfl | rfl
      · exact .inl rfl
      · exact .inr rfl
    · refine Grammar.class_le fun c hc => ?_
      rcases (by decide : ∀ c ∈ Grammar.charsOf [(45, 45), (43, 43)], c = '-' ∨ c = '+') c hc
        with rfl | rfl
      · exact .inr rfl
      · exact .inl rfl
  case integer => exact mul_le_mul' (le_trans Standard.integer_le_number Standard.number_le_value) le_rfl
  case value =>
    exact add_le le_rfl (add_le le_rfl (add_le string_le_spaced (add_le le_rfl (add_le le_rfl le_rfl))))
  case dateTime =>
    have hmark : ({['T']} : Language Char) ≤ content :=
      le_trans (Grammar.singleton_le_iff.2 (.raw (by decide) (by decide) (by decide)))
        Standard.character_le_content
    calc
      typeOf "date" * ({['T']} * typeOf "time") ≤ content * (content * content) :=
        mul_le_mul' le_rfl (mul_le_mul' hmark le_rfl)
      _ = content := by rw [Standard.content_mul_content, Standard.content_mul_content]
  case object =>
    have hmembers := Standard.repeated_bracketed_le (M := string * ws * ({[':']} * ws) * spaced)
      fun count => Standard.object_le_spaced fun L hL => by
        rw [(List.mem_replicate.1 hL).2]
        exact Standard.pair_le_spacedMember
    rw [typeOf_space, typeOf_string, typeOf_value, show typeOf "object" = spaced from rfl]
    simpa only [mul_assoc] using hmembers
  case array =>
    have hitems := Standard.repeated_bracketed_le (M := spaced)
      fun count => Standard.array_le_spaced fun L hL => by rw [(List.mem_replicate.1 hL).2]
    rw [typeOf_space, typeOf_value, show typeOf "array" = spaced from rfl]
    simpa only [mul_assoc] using hitems

/-! ## Expressions -/

/-- What the built-in rules derive is of their types. -/
theorem language_le_bound (node : Node) : Grammar.language nodes node ≤ node.bound typeOf :=
  Grammar.language_le_bound (fun _ _ hfind => typed_nodes _ (Assoc.mem_of_lookup hfind)) node

/-- The body of a built-in rule has the type of the rule. -/
theorem languageOf_body_le {name body : String} (h : (name, body) ∈ bodies) :
    languageOf body ≤ typeOf name := by
  obtain ⟨node, hnode, hbody⟩ := exists_node h
  have hfits := fits_nodes hnode
  rw [languageOf_eq (.inl ⟨hbody, hfits.names, hfits.counts⟩)]
  exact le_trans (language_le_bound node) (typed_nodes _ (Assoc.mem_of_lookup hnode))

/-- The built-in rules alone. -/
def table : RuleTable :=
  ⟨bodies, []⟩

theorem builtins_standalone (e : String) : (standalone e).builtins = table := by
  have hall : ∀ x ∈ bodies, decide (x.1 ∈ names) = true := fun x hx =>
    decide_eq_true (List.mem_map_of_mem hx)
  rw [RuleTable.builtins, standalone, List.filter_cons_of_neg (by simpa using root_notMem_names),
    List.filter_eq_self.2 hall]
  rfl

/-- The grammar of the built-in rules holds the rules themselves. -/
theorem holds_table : Grammar.Holds nodes table := by
  refine ⟨fun name hname => readable_names name (RuleTable.has_iff_mem.1 hname), ?_⟩
  intro name body hfind
  obtain ⟨node, hnode, hbody⟩ := exists_node (Assoc.mem_of_lookup hfind)
  exact ⟨node, hbody, hnode⟩

/-- A bound for what is written over the built-in rules. -/
theorem languageOf_le {e : String} {K : Language Char} (h : table.Within e K) : languageOf e ≤ K := by
  obtain ⟨L, hL, rows, hw, hlanguage⟩ := h
  have hbuiltin : Grammar.Written (· ∈ names) (.rows rows) e.toList :=
    hw.mono fun _ hknows => RuleTable.has_iff_mem.1 hknows
  rw [languageOf_eq (.inr ⟨rows, hbuiltin, rfl⟩), Grammar.language_ofRows nodes hw.fits.1,
    hlanguage nodes holds_table]
  exact hL

end Builtin

namespace RuleTable

/-- A built-in rule is an item of its type. -/
theorem HoldsCatalog.itemWithin_builtin {t : RuleTable} {name : String} (h : t.HoldsCatalog)
    (hname : t.KnowsBuiltin name) : t.builtins.ItemWithin name (Builtin.typeOf name) :=
  (h.writesItem_builtin hname).within (Builtin.language_le_bound (.rule name))

theorem itemWithin_table {name : String} (h : name ∈ Builtin.names) :
    Builtin.table.ItemWithin name (Builtin.typeOf name) := by
  rw [← Builtin.builtins_standalone ""]
  exact (Builtin.holdsCatalog_standalone "").itemWithin_builtin
    ⟨h, Builtin.has_standalone.2 (.inr h)⟩

end RuleTable

end SchemaGrammar
