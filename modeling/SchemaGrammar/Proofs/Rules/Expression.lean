import SchemaGrammar.Proofs.Grammar.Phrases
import SchemaGrammar.Proofs.Rules.Reading
import SchemaGrammar.Proofs.Text.Numeral

set_option autoImplicit false

/-! # What expressions over a table mean

An expression may refer to the rules of a table. `Writes t e L` says that the text `e` is written
properly and has the language `L`, in every grammar that holds the bodies of the table, whatever
else it has. Expressions that stand side by side are rows (`WritesRow`), and those that can be
repeated are items (`WritesItem`). These are the phrases over the names of the table in the
grammars that hold it, and are put together as such; `denotes_of_adds` is for the rule that such a
text becomes. -/

namespace SchemaGrammar

/-- A grammar has all bodies of a table, whose names can be read. -/
structure Grammar.Holds (g : Grammar) (t : RuleTable) : Prop where
  readable : ∀ name, t.has name = true → Grammar.IsReadable name
  bodies : ∀ name body, t.find? name = some body →
    ∃ node, Grammar.IsBody body node ∧ g.find? name = some node

namespace RuleTable

open Grammar (Written rowsLanguage repeated IsReadable Bracketed Counted Apart)

/-- The table has a rule of that name. -/
def Knows (t : RuleTable) (name : String) : Prop :=
  t.has name = true

theorem Extends.holds {g : Grammar} {t t' : RuleTable} (h : t.Extends t') (hg : g.Holds t') :
    g.Holds t :=
  ⟨fun name hname => hg.readable name (h.has hname),
    fun name body hbody => hg.bodies name body (h.find? hbody)⟩

/-- A rule has a language, whatever is added to the table. -/
structure Denotes (t : RuleTable) (name : String) (L : Language Char) : Prop where
  known : t.Knows name
  language : ∀ g : Grammar, g.Holds t → g.language (.rule name) = L

/-- The text is an item with a language. -/
def WritesItem (t : RuleTable) (e : String) (L : Language Char) : Prop :=
  ∃ node, Written t.Knows (.item node) e.toList ∧
    ∀ g : Grammar, g.Holds t → g.language node = L

/-- The text is a row of items with a language. -/
def WritesRow (t : RuleTable) (e : String) (L : Language Char) : Prop :=
  ∃ row, Written t.Knows (.rows [row]) e.toList ∧
    ∀ g : Grammar, g.Holds t → (row.map g.language).prod = L

/-- The text is an expression with a language. -/
def Writes (t : RuleTable) (e : String) (L : Language Char) : Prop :=
  ∃ rows, Written t.Knows (.rows rows) e.toList ∧
    ∀ g : Grammar, g.Holds t → g.rowsLanguage rows = L

section Extends

variable {t t' : RuleTable} {e name : String} {L : Language Char}

theorem Denotes.extend (h : t.Denotes name L) (ht : t.Extends t') : t'.Denotes name L :=
  ⟨ht.has h.known, fun g hg => h.language g (ht.holds hg)⟩

theorem WritesRow.extend (h : t.WritesRow e L) (ht : t.Extends t') : t'.WritesRow e L := by
  obtain ⟨row, hw, hL⟩ := h
  exact ⟨row, hw.mono fun _ => ht.has, fun g hg => hL g (ht.holds hg)⟩

theorem Writes.extend (h : t.Writes e L) (ht : t.Extends t') : t'.Writes e L := by
  obtain ⟨rows, hw, hL⟩ := h
  exact ⟨rows, hw.mono fun _ => ht.has, fun g hg => hL g (ht.holds hg)⟩

end Extends

section Combinators

variable {t : RuleTable} {a b e : String} {A B L : Language Char}

/-! ## Items -/

theorem Denotes.item {name : String} (h : t.Denotes name L) : t.WritesItem name L :=
  Grammar.readsItem_name h.known h.language

theorem WritesItem.row (h : t.WritesItem e L) : t.WritesRow e L :=
  Grammar.ReadsItem.row h

theorem WritesRow.writes (h : t.WritesRow e L) : t.Writes e L :=
  Grammar.ReadsRow.reads h

theorem WritesItem.writes (h : t.WritesItem e L) : t.Writes e L :=
  h.row.writes

theorem Writes.group (h : t.Writes e L) : t.WritesItem ("(" ++ e ++ ")") L :=
  Grammar.Reads.group h

theorem WritesItem.times {low : Nat} {high : Option Nat} {counts : String} (h : t.WritesItem e L)
    (hc : Counted counts.toList low high) :
    t.WritesItem (e ++ counts) (repeated low high L) :=
  Grammar.ReadsItem.times h hc

theorem WritesItem.optional (h : t.WritesItem e L) :
    t.WritesItem (e ++ "?") (repeated 0 (some 1) L) :=
  h.times .optional

theorem WritesItem.star (h : t.WritesItem e L) : t.WritesItem (e ++ "*") (repeated 0 none L) :=
  h.times .star

theorem WritesItem.plus (h : t.WritesItem e L) : t.WritesItem (e ++ "+") (repeated 1 none L) :=
  h.times .plus

/-! ## Rows -/

theorem writesRow_empty (t : RuleTable) : t.WritesRow "" 1 :=
  Grammar.readsRow_empty

/-- Two rows with a blank between them. -/
theorem WritesRow.beside (ha : t.WritesRow a A) (hb : t.WritesRow b B) :
    t.WritesRow (a ++ " " ++ b) (A * B) :=
  Grammar.ReadsRow.beside ha hb

/-! ## Branches -/

theorem Writes.or (ha : t.Writes a A) (hb : t.Writes b B) : t.Writes (a ++ " | " ++ b) (A + B) :=
  Grammar.Reads.or ha hb

theorem Writes.blank_append (h : t.Writes e L) : t.Writes (" " ++ e) L :=
  Grammar.Reads.blank_append h

theorem Writes.append_blank (h : t.Writes e L) : t.Writes (e ++ " ") L :=
  Grammar.Reads.append_blank h

/-- Blanks around an expression. -/
theorem Writes.padded (h : t.Writes e L) : t.Writes (" " ++ e ++ " ") L :=
  h.blank_append.append_blank

/-! ## Lists -/

theorem writes_choices {es : List String} {Ls : List (Language Char)} (hne : es ≠ [])
    (h : List.Forall₂ t.Writes es Ls) : t.Writes (" | ".intercalate es) Ls.sum :=
  Grammar.reads_choices hne h

/-- Rows in a row, with a separator between each two. -/
theorem writesRow_separated {sep : String} {S : Language Char} {es : List String}
    {Ls : List (Language Char)} (hsep : t.WritesRow sep S) (h : List.Forall₂ t.WritesRow es Ls) :
    t.WritesRow ((" " ++ sep ++ " ").intercalate es) (Grammar.separated S Ls) :=
  Grammar.readsRow_separated hsep h

/-! ## Literals and classes -/

theorem writesItem_literal (t : RuleTable) (s : String) :
    t.WritesItem (Grammar.literalText s) {s.toList} :=
  Grammar.readsItem_literal s

theorem writesItem_charClass (t : RuleTable) {text : List Char} {ranges : List (Nat × Nat)}
    (h : Bracketed text ranges) (plain : text.head? ≠ some '^') :
    t.WritesItem ("[" ++ String.ofList text ++ "]") (Grammar.classLanguage false ranges) :=
  Grammar.readsItem_charClass h plain

theorem writesItem_exceptClass (t : RuleTable) {text : List Char} {ranges : List (Nat × Nat)}
    (h : Bracketed text ranges) :
    t.WritesItem ("[^" ++ String.ofList text ++ "]") (Grammar.classLanguage true ranges) :=
  Grammar.readsItem_exceptClass h

end Combinators

/-! ## Expressions without names -/

/-- The table without rules. -/
def blank : RuleTable :=
  ⟨[], []⟩

theorem not_knows_blank (name : String) : ¬ blank.Knows name := by
  simp [Knows, blank, has, find?]

theorem holds_blank (g : Grammar) : g.Holds blank :=
  ⟨fun name hname => absurd hname (not_knows_blank name),
    fun name _ hbody => absurd (has_of_find? hbody) (not_knows_blank name)⟩

section Blank

variable {P : String → Prop} {Q : Grammar → Prop} {e : String} {L : Language Char}

/-- An item that refers to no rule means the same everywhere. -/
theorem WritesItem.anywhere (h : blank.WritesItem e L) : Grammar.ReadsItem P Q e L := by
  obtain ⟨node, hw, hL⟩ := h
  exact ⟨node, hw.mono fun name hname => absurd hname (not_knows_blank name),
    fun g _ => hL g (holds_blank g)⟩

theorem WritesRow.anywhere (h : blank.WritesRow e L) : Grammar.ReadsRow P Q e L := by
  obtain ⟨row, hw, hL⟩ := h
  exact ⟨row, hw.mono fun name hname => absurd hname (not_knows_blank name),
    fun g _ => hL g (holds_blank g)⟩

end Blank

/-! ## Expressions of some language -/

/-- The text is an item. -/
def IsItem (t : RuleTable) (e : String) : Prop :=
  ∃ L, t.WritesItem e L

/-- The text is an expression. -/
def IsExpression (t : RuleTable) (e : String) : Prop :=
  ∃ L, t.Writes e L

/-- The text is an item whose texts are in `K`. -/
def ItemWithin (t : RuleTable) (e : String) (K : Language Char) : Prop :=
  ∃ L ≤ K, t.WritesItem e L

/-- The text is a row of items whose texts are in `K`. -/
def RowWithin (t : RuleTable) (e : String) (K : Language Char) : Prop :=
  ∃ L ≤ K, t.WritesRow e L

/-- The text is an expression whose texts are in `K`. -/
def Within (t : RuleTable) (e : String) (K : Language Char) : Prop :=
  ∃ L ≤ K, t.Writes e L

section Within

variable {t : RuleTable} {a b e : String} {A B K L : Language Char}

theorem WritesItem.within (h : t.WritesItem e L) (hL : L ≤ K) : t.ItemWithin e K :=
  ⟨L, hL, h⟩

theorem WritesRow.within (h : t.WritesRow e L) (hL : L ≤ K) : t.RowWithin e K :=
  ⟨L, hL, h⟩

theorem ItemWithin.optional (h : t.ItemWithin e K) (hK : 1 ≤ K) : t.ItemWithin (e ++ "?") K := by
  obtain ⟨L, hL, h⟩ := h
  refine ⟨_, ?_, h.optional⟩
  rw [Grammar.repeated_optional]
  exact add_le hK hL

theorem ItemWithin.row (h : t.ItemWithin e K) : t.RowWithin e K := by
  obtain ⟨L, hL, h⟩ := h
  exact ⟨L, hL, h.row⟩

theorem RowWithin.within (h : t.RowWithin e K) : t.Within e K := by
  obtain ⟨L, hL, h⟩ := h
  exact ⟨L, hL, h.writes⟩

theorem RowWithin.mono (h : t.RowWithin e A) (hAB : A ≤ B) : t.RowWithin e B := by
  obtain ⟨L, hL, h⟩ := h
  exact ⟨L, le_trans hL hAB, h⟩

theorem Within.isExpression (h : t.Within e K) : t.IsExpression e := by
  obtain ⟨L, -, h⟩ := h
  exact ⟨L, h⟩

theorem Within.group (h : t.Within e K) : t.ItemWithin ("(" ++ e ++ ")") K := by
  obtain ⟨L, hL, h⟩ := h
  exact ⟨L, hL, h.group⟩

theorem Within.padded (h : t.Within e K) : t.Within (" " ++ e ++ " ") K := by
  obtain ⟨L, hL, h⟩ := h
  exact ⟨L, hL, h.padded⟩

theorem RowWithin.beside (ha : t.RowWithin a A) (hb : t.RowWithin b B) :
    t.RowWithin (a ++ " " ++ b) (A * B) := by
  obtain ⟨L, hL, ha⟩ := ha
  obtain ⟨M, hM, hb⟩ := hb
  exact ⟨L * M, mul_le_mul' hL hM, ha.beside hb⟩

theorem Within.or (ha : t.Within a A) (hb : t.Within b B) : t.Within (a ++ " | " ++ b) (A + B) := by
  obtain ⟨L, hL, ha⟩ := ha
  obtain ⟨M, hM, hb⟩ := hb
  exact ⟨L + M, add_le_add hL hM, ha.or hb⟩

theorem within_choices {es : List String} (hne : es ≠ []) (h : ∀ e ∈ es, t.Within e K) :
    t.Within (" | ".intercalate es) K := by
  induction es with
  | nil => exact absurd rfl hne
  | cons e rest ih =>
    have hfirst := h e List.mem_cons_self
    cases rest with
    | nil => simpa using hfirst
    | cons e' rest =>
      obtain ⟨L, hL, hfirst⟩ := hfirst
      obtain ⟨M, hM, hrest⟩ := ih (List.cons_ne_nil _ _) fun e he => h e (List.mem_cons_of_mem _ he)
      rw [String.intercalate_cons_cons]
      refine ⟨L + M, ?_, hfirst.or hrest⟩
      rintro text (htext | htext)
      · exact hL htext
      · exact hM htext

end Within

/-! ## Rules -/

/-- A rule whose body is written has the language of its body. -/
theorem denotes_of_adds {t t' : RuleTable} {name body slot : String} {L : Language Char}
    (hadds : Adds t name body slot t') (hw : t.Writes body L) : t'.Denotes slot L := by
  have hbody := hadds.find?
  refine ⟨has_of_find? hbody, fun g hg => ?_⟩
  obtain ⟨rows, hwritten, hL⟩ := hw
  obtain ⟨node, hnode, hfind⟩ := hg.bodies slot body hbody
  have hreadable : ∀ name, t.Knows name → IsReadable name := fun name hname =>
    hg.readable name (hadds.extends.has hname)
  rw [Grammar.language_rule g hfind, hnode.unique (hwritten.isBody hreadable),
    Grammar.language_ofRows g hwritten.fits.1]
  exact hL g (hadds.extends.holds hg)

end RuleTable

end SchemaGrammar
