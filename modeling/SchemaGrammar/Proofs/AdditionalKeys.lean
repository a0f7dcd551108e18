import Mathlib.Order.FixedPoints
import Mathlib.Order.CompletePartialOrder
import SchemaGrammar.Json.Reader
import SchemaGrammar.Proofs.Exactness
import SchemaGrammar.Proofs.Exclusions
import SchemaGrammar.Proofs.Schema.ObjectBody

set_option autoImplicit false

/-! # The keys of additional pairs

The rule for additional keys leaves out the declared ones as JSON writes them. So no additional pair
of an object has the text of a declared key, and what stands behind such a text follows the schema of
the property (`language_object_le`). But only texts are kept apart: a key that is spelled with an
escape it does not need is another text, and it reads as the declared key all the same
(`escaped_key_shadows`). -/

namespace SchemaGrammar

open Grammar (ReadsItem ReadsRow)
open Standard (string ws)

namespace Exclusion

/-! ## The rule for the keys -/

section Agreeing

variable {g : Grammar} {t : RuleTable} {char : String}

/-- The built-in rule for characters is an item with its language. -/
theorem readsItem_char (hg : g.Agrees t) (hchar : t.HasBuiltin "char" char) :
    ReadsItem t.Knows (· = g) char character := by
  obtain ⟨rule, hrule, hfind⟩ := hchar
  cases hrule
  exact hg.item hfind reads_character

/-- What the expression for any string but some keys is read as. -/
theorem readsRow_keys (hg : g.Agrees t) (hspace : t.find? Builtin.spaceName = some Builtin.space)
    (hchar : t.HasBuiltin "char" char) (keys : List String) :
    ReadsRow t.Knows (· = g) (body char (keyTrie keys))
      ({['"']} * outside .boundary (keyTrie keys) * ({['"']} * Schema.blanks)) :=
  readsRow_body (readsItem_char hg hchar) (hg.space hspace) (grows_keys keys) (Trie.tidy_ofTexts _)

end Agreeing

end Exclusion

namespace Schema

open Exclusion (outside keyTrie content)
open Json (Fields)

theorem otherKeys_eq {names : List String} (hne : names ≠ []) : otherKeys names =
    {['"']} * outside .boundary (keyTrie names) * ({['"']} * blanks) := by
  have hg := Builtin.holds_table.agrees
  have hchar : Builtin.table.HasBuiltin "char" "char" := ⟨_, rfl, rfl⟩
  obtain ⟨row, hw, hL⟩ := Exclusion.readsRow_keys hg rfl hchar names
  have hstands : RuleTable.Stands (· ∈ Builtin.names) (Exclusion.body "char" (keyTrie names))
      (Grammar.ofRows [row]) :=
    .inr ⟨[row], hw.mono fun _ hknows => RuleTable.has_iff_mem.1 hknows, rfl⟩
  rw [otherKeys, if_neg (by simpa using hne)]
  refine (Builtin.languageOf_eq hstands).trans ?_
  rw [Grammar.language_ofRows _ hw.fits.1, Grammar.rowsLanguage_single, hL _ rfl]


/-- The rule for the keys of additional pairs has in an agreeing grammar what it has by itself. -/
theorem IsKeyRule.language {g : Grammar} {t : RuleTable} {keys : List String} {rule : String}
    (h : IsKeyRule keys t rule) (hg : g.Agrees t)
    (hspace : t.find? Builtin.spaceName = some Builtin.space) (hne : keys ≠ []) :
    g.language (.rule rule) = otherKeys keys := by
  rw [IsKeyRule, if_neg (by simpa using hne)] at h
  obtain ⟨char, hchar, hfind⟩ := h
  rw [otherKeys_eq hne]
  exact hg.language_rule hfind (Exclusion.readsRow_keys hg hspace hchar keys).reads

/-! ## Apart from the declared keys -/

/-- Strings with blanks behind them, but no text of one of the names. -/
def stringsApart (names : List String) : Language Char :=
  {text | text ∈ string * ws ∧ ∀ name ∈ names, text ∉ valueText (.str name)}

/-- No additional key is written as one of the names is. -/
theorem otherKeys_le_stringsApart {names : List String} (hne : names ≠ []) :
    otherKeys names ≤ stringsApart names := by
  intro text htext
  refine ⟨otherKeys_le names htext, fun name hname hmem => ?_⟩
  rw [otherKeys_eq hne] at htext
  obtain ⟨front, hfront, back, hback, rfl⟩ := Language.mem_mul.1 htext
  obtain ⟨_, rfl, e, ⟨-, hkeys⟩, rfl⟩ := Language.mem_mul.1 hfront
  obtain ⟨_, rfl, w, hw, rfl⟩ := Language.mem_mul.1 hback
  obtain ⟨_, rfl, w', hw', heq⟩ := Language.mem_mul.1 hmem
  -- both end with a quote and blanks, so the same stands between the quotes
  rw [Exclusion.compact_str] at heq
  have hsame : content (.str name) ++ '"' :: w' = e ++ '"' :: w := by
    simpa using heq
  have he := Exclusion.eq_of_append_mark (Schema.quote_notMem_blanks hw')
    (Schema.quote_notMem_blanks hw) hsame
  exact hkeys (Exclusion.holds_keyTrie.2 ⟨name, hname, he.symm⟩)

/-! ## Objects -/

section Objects

variable {visit : Visit} {name : String} {declared : List (String × Json)} {additional : Json}
variable {s s' : Session} {t t' : RuleTable} {r : ObjectRules}

theorem Assembled.extend (h : Assembled visit name declared additional s t r) (ht : t.Extends t') :
    Assembled visit name declared additional s t' r :=
  ⟨h.perm, fun property hproperty => (h.pairs property hproperty).extend ht, h.admits,
    fun e he => (h.extra e he).extend ht⟩

/-- The additional pairs of a body have keys that are no text of a declared one. -/
theorem Assembled.extraLanguage_le {g : Grammar} (h : Assembled visit name declared additional s t r)
    (hg : g.Agrees t) (hspace : t.find? Builtin.spaceName = some Builtin.space)
    (hsome : declared ≠ []) :
    (r.extraLanguage g).getD 0 ≤ (r.extra.map fun e =>
      pair (stringsApart (declared.map Prod.fst)) (g.language (.rule e.value))).getD 0 := by
  rw [ObjectRules.extraLanguage]
  cases hextra : r.extra with
  | none => exact le_rfl
  | some e =>
    have hne : r.keys ≠ [] := by
      intro hnil
      have hperm := h.perm
      rw [hnil] at hperm
      exact hsome (List.map_eq_nil_iff.1 hperm.nil_eq.symm)
    have hkey : g.language (.rule e.key) ≤ stringsApart (declared.map Prod.fst) := by
      rw [(h.extra e hextra).key.language hg hspace hne]
      intro text htext
      obtain ⟨hstring, hapart⟩ := otherKeys_le_stringsApart hne htext
      exact ⟨hstring, fun key hkey => hapart key (h.perm.mem_iff.2 hkey)⟩
    exact mul_le_mul' (mul_le_mul' hkey le_rfl) le_rfl

end Objects

/-- **No additional key has the text of a declared one.** Once an object with declared properties is
    compiled, a grammar that agrees with the table, however much has been added to it since, has for
    the object only texts in which the value behind each declared key follows the schema of the
    property, and the additional keys are strings that are written like none of the declared ones. -/
theorem language_object_le {options : Options} {depth : Nat} {fields : Fields} {hint rule : String}
    {s s' : Session} (hs : s.Orderly False) (hshape : shape fields = .object)
    (hnames : ((properties fields).map Prod.fst).Nodup) (hsome : properties fields ≠ [])
    (hrun : visit options (depth + 1) (.obj fields) hint s = .ok rule s') :
    ∃ r : ObjectRules, Assembled (visit options depth) hint (properties fields)
        (keyword fields "additionalProperties") s s'.table r ∧
      ∀ (t : RuleTable) (g : Grammar), s'.table.Extends t → g.Agrees t →
        g.language (.rule rule) ≤ objectLanguage
          (fun key => pair (valueText (.str key)) (g.language (.rule (r.valueOf key))))
          (r.first (required fields)) (r.optional (required fields))
          ((r.extra.map fun e => pair (stringsApart ((properties fields).map Prod.fst))
            (g.language (.rule e.value))).getD 0) := by
  rw [visit, visitWith] at hrun
  simp only [hshape] at hrun
  obtain ⟨declared, s₁, hdeclared, h₁⟩ := Work.bind_eq_ok.1 hrun
  obtain ⟨hproperties, rfl⟩ := Work.ofExcept_eq_ok.1 hdeclared
  obtain ⟨names, s₂, hnames', h₂⟩ := Work.bind_eq_ok.1 h₁
  obtain ⟨hrequired, rfl⟩ := Work.ofExcept_eq_ok.1 hnames'
  obtain ⟨body, s₃, hbody, hadd⟩ := Work.bind_eq_ok.1 h₂
  -- what was read without failures is what the keywords hold
  have hdeclared : properties fields = declared := by rw [properties, hproperties]
  have hnamed : required fields = names := by rw [required, hrequired]
  rw [hdeclared] at hnames hsome ⊢
  rw [hnamed]
  obtain ⟨r, rest, hwf, -, hassembled, hspace, hoptional, rfl⟩ :=
    objectBody_ok (isSteady_visit options depth) hs hnames hbody
  obtain ⟨t', hstored, rfl⟩ := Session.addRule_eq_ok.1 hadd
  have hadds := RuleTable.adds_add hwf (ruleNameFor hint)
    ("\"\x7b\" space " ++ " \",\" space ".intercalate ((r.first names).map r.pairOf) ++ rest ++
      " \"\x7d\" space")
  rw [hstored] at hadds
  -- the rule is stored behind those it refers to, and the grammar agrees with all of them
  refine ⟨r, hassembled.extend hadds.extends, fun t g ht hg => ?_⟩
  have hbefore := hg.of_extends (hadds.extends.trans ht)
  have hreads := (hassembled.reads_body hbefore hspace hoptional).reads.mono
    fun _ => (hadds.extends.trans ht).has
  rw [hg.language_rule (ht.find? hadds.find?) hreads]
  exact objectLanguage_mono (fun _ => le_rfl)
    (hassembled.extraLanguage_le hbefore hspace hsome) _ _

/-- A property whose value is a zero, and additional ones whose values are ones. -/
def zeroAmongOnes : Fields :=
  [("properties", .obj [("a", .obj [("const", .num (.whole 0))])]),
    ("additionalProperties", .obj [("const", .num (.whole 1))])]

theorem language_zeroAmongOnes : ∃ rule s' r,
    visit .standard 2 (.obj zeroAmongOnes) "" (.new []) = .ok rule s' ∧
      Assembled (visit .standard 1) "" (properties zeroAmongOnes)
        (keyword zeroAmongOnes "additionalProperties") (.new []) s'.table r ∧
      ∀ g : Grammar, g.Agrees s'.table → g.language (.rule rule) ≤ objectLanguage
        (fun key => pair (valueText (.str key)) (g.language (.rule (r.valueOf key))))
        (r.first []) (r.optional [])
        ((r.extra.map fun e => pair (stringsApart ["a"]) (g.language (.rule e.value))).getD 0) := by
  obtain ⟨s', hrun⟩ :
      ∃ s', visit .standard 2 (.obj zeroAmongOnes) "" (.new []) = .ok "root" s' :=
    Work.exists_of_result? (by decide +kernel)
  obtain ⟨r, hassembled, hlanguage⟩ :=
    language_object_le (Session.orderly_new []) (by decide +kernel) (by decide +kernel)
      (by decide +kernel) hrun
  exact ⟨_, s', r, hrun, hassembled, fun g hg => hlanguage s'.table g (.refl _) hg⟩

end Schema

/-! ## The same key in another spelling -/

namespace Compiler

open Schema (Core zeroAmongOnes Reaches language start)

theorem reaches_zeroAmongOnes {S : Json} (h : Reaches (.obj zeroAmongOnes) (.obj zeroAmongOnes) S) :
    S = .obj zeroAmongOnes ∨ ∃ v, S = .obj [("const", v)] := by
  have hinside : Schema.inside (.obj zeroAmongOnes) (.obj zeroAmongOnes) =
    [.obj [("const", .num (.whole 0))], .obj [("const", .num (.whole 1))]] := rfl
  have hend (v : Json) : Schema.inside (.obj zeroAmongOnes) (.obj [("const", v)]) = [] := rfl
  have hmem : S ∈ [Json.obj zeroAmongOnes, .obj [("const", .num (.whole 0))],
      .obj [("const", .num (.whole 1))]] :=
    h.mem_of_closed List.mem_cons_self (by simp [hinside, hend])
  simp only [List.mem_cons, List.not_mem_nil, or_false] at hmem
  exact hmem.imp_right fun hvalue => hvalue.elim (⟨_, ·⟩) (⟨_, ·⟩)

theorem core_zeroAmongOnes : Core (.obj zeroAmongOnes) := by
  refine ⟨fun S hS => ?_, fun ref target S S' hS hrefers _ _ _ => ?_⟩
  · rcases reaches_zeroAmongOnes hS with rfl | ⟨v, rfl⟩ <;> exact trivial
  · -- there are no references
    obtain ⟨fields, rfl, hshape, -⟩ := hrefers
    rcases reaches_zeroAmongOnes hS with hfields | ⟨v, hfields⟩ <;> cases hfields <;> cases hshape

/-- The object whose one additional key is spelled with an escape that it does not need. -/
def escapedOne : String :=
  "\x7b\"\\u0061\":1\x7d"

theorem escapedOne_mem_language :
    escapedOne.toList ∈ language .standard (.obj zeroAmongOnes) (start (.obj zeroAmongOnes)) := by
  have hnames : Schema.propertyNames .standard zeroAmongOnes = ["a"] := by decide +kernel
  -- between the quotes stands one escape by number, which is not how the name is written
  have hkey : ['"', '\\', 'u', '0', '0', '6', '1', '"'] ∈ Schema.otherKeys ["a"] := by
    rw [Schema.otherKeys_eq (List.cons_ne_nil _ _), Exclusion.stringsBut_eq (by decide)]
    refine ⟨['\\', 'u', '0', '0', '6', '1'], [], rfl, ?_, Schema.nil_mem_blanks, by decide +kernel⟩
    have hdigit : ∀ c ∈ ['0', '6', '1'], c ∈ Exclusion.hexLetters := by decide +kernel
    rw [Exclusion.builtin_char, Exclusion.kstar_character]
    refine Exclusion.isSpelled_boundary_cons.2 (.inr ⟨rfl, ?_⟩)
    refine Exclusion.isSpelled_escape_cons.2 (.inr ⟨rfl, ?_⟩)
    exact ⟨hdigit _ (by simp), hdigit _ (by simp), hdigit _ (by simp), hdigit _ (by simp), rfl⟩
  have hvalue : ['1'] ∈
      language .standard (.obj zeroAmongOnes) (.obj [("const", .num (.whole 1))]) := by
    rw [Schema.language_eq]
    exact Schema.mem_mark "1"
  have hextra : Schema.additionalPairs .standard (language .standard (.obj zeroAmongOnes))
      zeroAmongOnes = Schema.pair (Schema.otherKeys (Schema.propertyNames .standard zeroAmongOnes))
        (language .standard (.obj zeroAmongOnes) (.obj [("const", .num (.whole 1))])) := rfl
  have hpair : ['"', '\\', 'u', '0', '0', '6', '1', '"'] ++ [':'] ++ ['1'] ∈
      Schema.additionalPairs .standard (language .standard (.obj zeroAmongOnes)) zeroAmongOnes := by
    rw [hextra, hnames]
    exact Language.append_mem_mul (Language.append_mem_mul hkey (Schema.mem_mark ":")) hvalue
  have hobject : language .standard (.obj zeroAmongOnes) (.obj zeroAmongOnes) =
      Schema.objectMeaning .standard (language .standard (.obj zeroAmongOnes)) zeroAmongOnes :=
    Schema.language_eq .standard (.obj zeroAmongOnes) (.obj zeroAmongOnes)
  have hstart : start (.obj zeroAmongOnes) = .obj zeroAmongOnes := Schema.start_of_none rfl
  have htext : escapedOne.toList =
      ['\x7b'] ++ (['"', '\\', 'u', '0', '0', '6', '1', '"'] ++ [':'] ++ ['1']) ++ ['\x7d'] := by
    decide +kernel
  have hfirst : ["a"].filter (Schema.required zeroAmongOnes).contains = [] := rfl
  rw [htext, hstart, hobject, Schema.objectMeaning, hnames, hfirst]
  refine ⟨[], 1, List.nil_sublist _, ?_⟩
  refine Language.append_mem_mul ?_ (Schema.mem_mark "\x7d")
  exact Language.append_mem_mul (Schema.mem_mark "\x7b") hpair

theorem hasReadableKeys_zeroAmongOnes : Schema.HasReadableKeys (.obj zeroAmongOnes) := by
  intro S hS
  rcases reaches_zeroAmongOnes hS with rfl | ⟨v, rfl⟩ <;> intro key hkey
  · have hmem : key ∈ ["a"] := hkey
    rw [List.mem_singleton.1 hmem]
    decide
  · cases hkey

/-- The key and the value of an object with one whole number. -/
def soleCount? : Except Json.ReadError Json → Option (String × Int)
  | .ok (.obj [(key, .num (.whole n))]) => some (key, n)
  | _ => none

theorem eq_of_soleCount? {read : Except Json.ReadError Json} {key : String} {n : Int}
    (h : soleCount? read = some (key, n)) : read = .ok (.obj [(key, .num (.whole n))]) := by
  unfold soleCount? at h
  split at h
  · cases h
    rfl
  · cases h

theorem ofText_escapedOne : Json.ofText escapedOne = .ok (.obj [("a", .num (.whole 1))]) :=
  eq_of_soleCount? (by decide +kernel)

/-- An escape hides a declared key: the grammar accepts an object that reads as one with the declared
    key, but with a value that only additional keys may have. -/
theorem escaped_key_shadows : ∃ t g v, compile .standard (.obj zeroAmongOnes) = .ok t ∧
    Grammar.ofText t.text = .ok g ∧
    Grammar.checkIn .ascending g escapedOne Grammar.startRule = .ok v ∧ v.accepted = true ∧
    Json.ofText escapedOne = .ok (.obj [("a", .num (.whole 1))]) := by
  obtain ⟨t, hrun⟩ : ∃ t, compile .standard (.obj zeroAmongOnes) = .ok t :=
    exists_of_isOk (by decide +kernel)
  obtain ⟨g, hread⟩ :=
    exists_grammar core_zeroAmongOnes hasCeiling_standard hasReadableKeys_zeroAmongOnes hrun
  obtain ⟨v, hv, hexact⟩ := accepts_iff_of_ofText .ascending core_zeroAmongOnes
    hasCeiling_standard hrun hread escapedOne
  exact ⟨t, g, v, hrun, hread, hv, hexact.2 escapedOne_mem_language, ofText_escapedOne⟩

end Compiler

end SchemaGrammar
