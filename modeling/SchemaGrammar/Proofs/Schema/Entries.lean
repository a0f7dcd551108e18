import Mathlib.Algebra.BigOperators.Ring.List
import SchemaGrammar.Proofs.Grammar.Languages
import SchemaGrammar.Proofs.Schema.Language
import SchemaGrammar.Proofs.Schema.Requests

set_option autoImplicit false

/-! # The optional entries of an object

The optional part of an object's body is put together from rules for the entries that may still
follow. Its language is that of the ways to select some of the entries in their order, where the
last one may be taken more than once (`objectLanguage_eq`). -/

namespace SchemaGrammar

open Grammar (separated repeated following separated_cons separated_append following_append
  following_replicate ReadsItem ReadsRow Reads)

namespace Schema

/-! ## Selections -/

/-- The ways to take some of the entries in their order; an entry that repeats may be taken any
    number of times. -/
inductive Selects : List (Language Char × Bool) → List (Language Char) → Prop where
  | nil : Selects [] []
  | cons {L : Language Char} {repeats : Bool} {rest : List (Language Char × Bool)}
      {chosen : List (Language Char)} (count : Nat) (many : repeats = true ∨ count ≤ 1)
      (others : Selects rest chosen) :
      Selects ((L, repeats) :: rest) (List.replicate count L ++ chosen)

section Selections

variable (sep : Language Char)

/-- A text of some selection behind separators. -/
def tailLanguage (entries : List (Language Char × Bool)) : Language Char :=
  {text | ∃ chosen, Selects entries chosen ∧ text ∈ following sep chosen}

/-- A text of some selection that takes something. -/
def headLanguage (entries : List (Language Char × Bool)) : Language Char :=
  {text | ∃ chosen, Selects entries chosen ∧ chosen ≠ [] ∧ text ∈ separated sep chosen}

/-- How often an entry may be taken. -/
def most (repeats : Bool) : Option Nat :=
  if repeats then none else some 1

theorem mem_most {repeats : Bool} {count : Nat} :
    (∀ n ∈ most repeats, count ≤ n) ↔ repeats = true ∨ count ≤ 1 := by
  cases repeats <;> simp [most]

theorem tailLanguage_nil : tailLanguage sep [] = 1 := by
  ext text
  constructor
  · rintro ⟨chosen, hchosen, htext⟩
    cases hchosen
    exact htext
  · exact fun htext => ⟨[], .nil, htext⟩

theorem tailLanguage_cons (L : Language Char) (repeats : Bool)
    (rest : List (Language Char × Bool)) :
    tailLanguage sep ((L, repeats) :: rest) =
      repeated 0 (most repeats) (sep * L) * tailLanguage sep rest := by
  ext text
  rw [Language.mem_mul]
  constructor
  · rintro ⟨chosen, hchosen, htext⟩
    cases hchosen with
    | @cons _ _ _ others count many hothers =>
      rw [following_append, following_replicate, Language.mem_mul] at htext
      obtain ⟨front, hfront, back, hback, rfl⟩ := htext
      exact ⟨front, ⟨count, Nat.zero_le _, mem_most.2 many, hfront⟩, back,
        ⟨others, hothers, hback⟩, rfl⟩
  · rintro ⟨front, ⟨count, -, hmost, hfront⟩, back, ⟨others, hothers, hback⟩, rfl⟩
    refine ⟨_, .cons count (mem_most.1 hmost) hothers, ?_⟩
    rw [following_append, following_replicate]
    exact Language.append_mem_mul hfront hback

/-- The first entry, as often as it repeats, and some of the others. -/
def firstLanguage (L : Language Char) (repeats : Bool) (rest : List (Language Char × Bool)) :
    Language Char :=
  L * (if repeats then repeated 0 none (sep * L) else 1) * tailLanguage sep rest

theorem mem_firstLanguage {L : Language Char} {repeats : Bool}
    {rest : List (Language Char × Bool)} {text : List Char} :
    text ∈ firstLanguage sep L repeats rest ↔ ∃ count chosen,
      (repeats = true ∨ count = 0) ∧ Selects rest chosen ∧
        text ∈ separated sep (List.replicate (count + 1) L ++ chosen) := by
  have hlanguage : (if repeats then repeated 0 none (sep * L) else 1) =
      repeated 0 (if repeats then none else some 0) (sep * L) := by
    cases repeats <;> simp [Grammar.repeated_exactly]
  have hcount {count : Nat} : (∀ n ∈ (if repeats then none else some 0 : Option Nat), count ≤ n) ↔
      repeats = true ∨ count = 0 := by
    cases repeats <;> simp
  have hseparated (count : Nat) (chosen : List (Language Char)) :
      separated sep (List.replicate (count + 1) L ++ chosen) =
        L * (sep * L) ^ count * following sep chosen := by
    rw [List.replicate_succ, List.cons_append, separated_cons, following_append,
      following_replicate, mul_assoc]
  rw [firstLanguage, hlanguage]
  constructor
  · intro htext
    obtain ⟨front, hfront, back, ⟨chosen, hchosen, hback⟩, rfl⟩ := Language.mem_mul.1 htext
    obtain ⟨a, ha, b, ⟨count, -, hmost, hb⟩, rfl⟩ := Language.mem_mul.1 hfront
    refine ⟨count, chosen, hcount.1 hmost, hchosen, ?_⟩
    rw [hseparated]
    exact Language.append_mem_mul (Language.append_mem_mul ha hb) hback
  · rintro ⟨count, chosen, hrepeats, hchosen, htext⟩
    rw [hseparated] at htext
    obtain ⟨front, hfront, back, hback, rfl⟩ := Language.mem_mul.1 htext
    obtain ⟨a, ha, b, hb, rfl⟩ := Language.mem_mul.1 hfront
    exact Language.append_mem_mul (Language.append_mem_mul ha
      ⟨count, Nat.zero_le _, hcount.2 hrepeats, hb⟩) ⟨chosen, hchosen, hback⟩

theorem headLanguage_nil : headLanguage sep [] = 0 := by
  ext text
  constructor
  · rintro ⟨chosen, hchosen, hne, -⟩
    cases hchosen
    exact absurd rfl hne
  · exact fun htext => htext.elim

/-- A selection starts with the first entry or takes nothing of it. -/
theorem headLanguage_cons (L : Language Char) (repeats : Bool)
    (rest : List (Language Char × Bool)) :
    headLanguage sep ((L, repeats) :: rest) =
      firstLanguage sep L repeats rest + headLanguage sep rest := by
  ext text
  rw [Language.mem_add, mem_firstLanguage]
  constructor
  · rintro ⟨chosen, hchosen, hne, htext⟩
    cases hchosen with
    | @cons _ _ _ others count many hothers =>
      cases count with
      | zero => exact .inr ⟨others, hothers, by simpa using hne, by simpa using htext⟩
      | succ count => exact .inl ⟨count, others, many.imp_right (by omega), hothers, htext⟩
  · rintro (⟨count, chosen, hrepeats, hchosen, htext⟩ | ⟨chosen, hchosen, hne, htext⟩)
    · exact ⟨_, .cons (count + 1) (hrepeats.imp_right (by omega)) hchosen, by simp, htext⟩
    · exact ⟨_, .cons 0 (.inr (Nat.zero_le 1)) hchosen, by simpa using hne, by simpa using htext⟩

end Selections

/-! ## The rules of entries -/

/-- What the entries of an object stand for. -/
def Describes (t : RuleTable) (entries : List Entry) (languages : List (Language Char × Bool)) :
    Prop :=
  List.Forall₂ (fun entry x => t.Denotes entry.pair x.1 ∧ entry.repeats = x.2) entries languages

theorem Describes.extend {t t' : RuleTable} {entries : List Entry}
    {languages : List (Language Char × Bool)} (h : Describes t entries languages)
    (ht : t.Extends t') : Describes t' entries languages :=
  h.imp fun _ _ hx => ⟨hx.1.extend ht, hx.2⟩

/-! ## The texts of objects -/

/-- The text of an entry in front of the others. -/
def entryText (present : Bool) (entry : Entry) : String :=
  let more := "( \",\" space " ++ entry.pair ++ " )"
  if present then entry.pair ++ (if entry.repeats then " " ++ more ++ "*" else "")
  else more ++ (if entry.repeats then "*" else "?")

/-- The texts of an entry in front of the others. -/
def entryLanguage (present : Bool) (L : Language Char) (repeats : Bool) : Language Char :=
  if present then L * (if repeats then repeated 0 none (mark "," * L) else 1)
  else repeated 0 (most repeats) (mark "," * L)

theorem braces_eq (pairs rest : String) : "\"\x7b\" space " ++ pairs ++ rest ++ " \"\x7d\" space" =
    Grammar.literalText "\x7b" ++ " " ++ "space" ++ " " ++ (pairs ++ rest) ++ " " ++
      (Grammar.literalText "\x7d" ++ " " ++ "space") := by
  rw [← String.toList_inj]
  simp [Grammar.literalText, Grammar.literalChar]

section Phrases

variable {P : String → Prop} {Q : Grammar → Prop} {keyRule valueRule : String} {K L : Language Char}
variable (hspace : ReadsItem P Q "space" blanks)

include hspace

/-- A mark with blanks behind it, in quotes. -/
theorem readsRow_mark (s : String) : ReadsRow P Q (Grammar.literalText s ++ " " ++ "space") (mark s) :=
  (Grammar.readsItem_literal s).row.beside hspace.row

theorem readsItem_more (hpair : ReadsItem P Q keyRule L) :
    ReadsItem P Q ("( \",\" space " ++ keyRule ++ " )") (mark "," * L) := by
  have hrow := (readsRow_mark hspace ",").beside hpair.row
  have htext : "( \",\" space " ++ keyRule ++ " )" =
      "(" ++ (" " ++ (Grammar.literalText "," ++ " " ++ "space" ++ " " ++ keyRule) ++ " ") ++ ")" := by
    rw [← String.toList_inj]
    simp [Grammar.literalText, Grammar.literalChar]
  rw [htext]
  exact hrow.reads.padded.group

theorem readsRow_entry (present : Bool) {entry : Entry} (hpair : ReadsItem P Q entry.pair L) :
    ReadsRow P Q (entryText present entry) (entryLanguage present L entry.repeats) := by
  have hmore := readsItem_more hspace hpair
  rw [entryText, entryLanguage]
  cases present with
  | true =>
    cases hrepeats : entry.repeats with
    | true =>
      have hrow := hpair.row.beside hmore.star.row
      simpa [String.append_assoc] using hrow
    | false => simpa using hpair.row
  | false =>
    cases hrepeats : entry.repeats with
    | true => simpa [most] using hmore.star.row
    | false => simpa [most] using hmore.optional.row

/-- The places to start at as choices that may be left out. -/
theorem readsRow_optional {es : List String} {heads : List (Language Char)} (hasRequired : Bool)
    (hne : es ≠ []) (hheads : List.Forall₂ (Reads P Q) es heads) :
    ReadsRow P Q (" (" ++ (if hasRequired then " \",\" space ( " ++ " | ".intercalate es ++ " )"
        else " | ".intercalate es) ++ " )?")
      (1 + (if hasRequired then mark "," else 1) * heads.sum) := by
  have hchoices := Grammar.reads_choices hne hheads
  rw [← Grammar.repeated_optional]
  cases hasRequired with
  | true =>
    have hrow := (readsRow_mark hspace ",").beside hchoices.padded.group.row
    have hpart := hrow.reads.padded.group.optional.row.blank_append
    have htext : " (" ++ (" \",\" space ( " ++ " | ".intercalate es ++ " )") ++ " )?" =
        " " ++ ("(" ++ (" " ++ (Grammar.literalText "," ++ " " ++ "space" ++ " " ++
          ("(" ++ (" " ++ " | ".intercalate es ++ " ") ++ ")")) ++ " ") ++ ")" ++ "?") := by
      rw [← String.toList_inj]
      simp [Grammar.literalText, Grammar.literalChar]
    simp only [if_true]
    rw [htext]
    exact hpart
  | false =>
    have hpart := hchoices.append_blank.group.optional.row.blank_append
    have htext : " (" ++ " | ".intercalate es ++ " )?" =
        " " ++ ("(" ++ (" | ".intercalate es ++ " ") ++ ")" ++ "?") := by
      rw [← String.toList_inj]
      simp
    simp only [Bool.false_eq_true, if_false, one_mul]
    rw [htext]
    exact hpart

/-- A declared key and its value. -/
theorem readsRow_pair (key : String) (hvalue : ReadsItem P Q valueRule L) :
    ReadsRow P Q (constant (.str key) ++ " space \":\" space " ++ valueRule)
      (pair (valueText (.str key)) L) := by
  have htext : constant (.str key) ++ " space \":\" space " ++ valueRule =
      Grammar.literalText (Json.str key).compact ++ " " ++ "space" ++ " " ++
        (Grammar.literalText ":" ++ " " ++ "space") ++ " " ++ valueRule := by
    rw [← String.toList_inj, constant]
    simp [Grammar.literalText, Grammar.literalChar]
  rw [htext]
  exact ((readsRow_mark hspace _).beside (readsRow_mark hspace ":")).beside hvalue.row

/-- A key of an additional pair and its value. -/
theorem readsRow_additional (hkey : ReadsItem P Q keyRule K) (hvalue : ReadsItem P Q valueRule L) :
    ReadsRow P Q (keyRule ++ " \":\" space " ++ valueRule) (pair K L) := by
  have htext : keyRule ++ " \":\" space " ++ valueRule =
      keyRule ++ " " ++ (Grammar.literalText ":" ++ " " ++ "space") ++ " " ++ valueRule := by
    rw [← String.toList_inj]
    simp [Grammar.literalText, Grammar.literalChar]
  rw [htext]
  exact (hkey.row.beside (readsRow_mark hspace ":")).beside hvalue.row

/-- Pairs with commas between them and what may follow them. -/
theorem readsRow_pairs {rules : List String} {rest : String} {Ls : List (Language Char)}
    {R : Language Char} (hrules : List.Forall₂ (ReadsRow P Q) rules Ls) (hrest : ReadsRow P Q rest R)
    (hapart : ∀ text, Grammar.Apart text rest.toList) :
    ReadsRow P Q (" \",\" space ".intercalate rules ++ rest) (separated (mark ",") Ls * R) := by
  have hsep : " " ++ (Grammar.literalText "," ++ " " ++ "space") ++ " " = " \",\" space " := by
    decide
  rw [← hsep]
  exact (Grammar.readsRow_separated (readsRow_mark hspace ",") hrules).append hrest (hapart _)

/-- Pairs and what may follow them between braces. -/
theorem readsRow_object {rules : List String} {rest : String} {Ls : List (Language Char)}
    {R : Language Char} (hrules : List.Forall₂ (ReadsRow P Q) rules Ls) (hrest : ReadsRow P Q rest R)
    (hapart : ∀ text, Grammar.Apart text rest.toList) :
    ReadsRow P Q
      ("\"\x7b\" space " ++ " \",\" space ".intercalate rules ++ rest ++ " \"\x7d\" space")
      (mark "\x7b" * (separated (mark ",") Ls * R) * mark "\x7d") := by
  have hinner := readsRow_pairs hspace hrules hrest hapart
  rw [braces_eq]
  exact ((readsRow_mark hspace "\x7b").beside hinner).beside (readsRow_mark hspace "\x7d")

end Phrases

section Texts

variable {t : RuleTable} {L : Language Char}

theorem writesRow_mark (h : t.Complete) (s : String) :
    t.WritesRow (Grammar.literalText s ++ " " ++ "space") (mark s) :=
  readsRow_mark h.denotes_space.item s

theorem writesRow_entry (h : t.Complete) (present : Bool) {entry : Entry}
    (hpair : t.Denotes entry.pair L) :
    t.WritesRow (entryText present entry) (entryLanguage present L entry.repeats) :=
  readsRow_entry h.denotes_space.item present hpair.item

end Texts

/-- The texts of some entries, of which the first one has to be there or may be missing. -/
def entriesLanguage (present : Bool) : List (Language Char × Bool) → Language Char
  | [] => 1
  | (L, repeats) :: rest => entryLanguage present L repeats * tailLanguage (mark ",") rest

theorem entriesLanguage_false (languages : List (Language Char × Bool)) :
    entriesLanguage false languages = tailLanguage (mark ",") languages := by
  cases languages with
  | nil => rw [entriesLanguage, tailLanguage_nil]
  | cons x rest =>
    rw [entriesLanguage, tailLanguage_cons]
    rfl

theorem entriesFrom_cons (name : String) (present : Bool) (entry : Entry) (rest : List Entry) :
    entriesFrom name present (entry :: rest) =
      if rest.isEmpty then pure (entryText present entry)
      else do
        let following ← entriesFrom name false rest
        let rule ← Session.addRule (subName name (entry.key ++ "-rest")) following
        return entryText present entry ++ " " ++ rule := by
  rw [entriesFrom]
  rfl

section Builders

variable {plain : Prop} {name : String} (hname : plain → RuleTable.HasPlainDigits name)

include hname

theorem entriesFrom_writes {entries : List Entry} {languages : List (Language Char × Bool)}
    {present : Bool} {s s' : Session} {e : String} (hs : s.table.Sound plain)
    (hkeys : plain → ∀ entry ∈ entries, RuleTable.HasPlainDigits entry.key)
    (hd : Describes s.table entries languages)
    (hrun : entriesFrom name present entries s = .ok e s') :
    Session.Grows plain s s' ∧ s'.table.WritesRow e (entriesLanguage present languages) := by
  induction entries generalizing languages present s s' e with
  | nil =>
    cases hd
    obtain ⟨rfl, rfl⟩ := Work.pure_eq_ok.1 hrun
    exact ⟨.refl hs, RuleTable.writesRow_empty _⟩
  | cons entry rest ih =>
    cases hd with | @cons _ x _ others hentry hrest
    obtain ⟨L, repeats⟩ := x
    obtain ⟨hpair, rfl⟩ := hentry
    rw [entriesFrom_cons] at hrun
    split_ifs at hrun with hempty
    · obtain rfl : rest = [] := by simpa using hempty
      cases hrest
      obtain ⟨rfl, rfl⟩ := Work.pure_eq_ok.1 hrun
      rw [entriesLanguage, tailLanguage_nil, mul_one]
      exact ⟨.refl hs, writesRow_entry hs.complete present hpair⟩
    · obtain ⟨following, s₁, hfollowing, hmore⟩ := Work.bind_eq_ok.1 hrun
      obtain ⟨rule, s₂, hadd, hlast⟩ := Work.bind_eq_ok.1 hmore
      obtain ⟨rfl, rfl⟩ := Work.pure_eq_ok.1 hlast
      obtain ⟨hgrows, hwrites⟩ := ih hs (fun hp other ho => hkeys hp other (by simp [ho])) hrest
        hfollowing
      obtain ⟨hask, hroot⟩ := requestable_key (show "-rest" ∈ _ by simp) hname
        fun hp => hkeys hp entry (by simp)
      obtain ⟨hgrows', hdenotes⟩ := Session.addRule_grows hgrows.table.sound hask hroot
        hwrites.writes hadd
      rw [entriesLanguage_false] at hdenotes
      refine ⟨hgrows.trans hgrows', ?_⟩
      have hextends := (hgrows.trans hgrows').table.extends_
      exact (writesRow_entry hgrows'.table.sound.complete present (hpair.extend hextends)).beside
        hdenotes.item.row

theorem startings_writes {entries : List Entry} {languages : List (Language Char × Bool)}
    {s s' : Session} {es : List String} (hs : s.table.Sound plain)
    (hkeys : plain → ∀ entry ∈ entries, RuleTable.HasPlainDigits entry.key)
    (hd : Describes s.table entries languages) (hrun : startings name entries s = .ok es s') :
    Session.Grows plain s s' ∧ es.length = entries.length ∧
      ∃ heads, List.Forall₂ s'.table.Writes es heads ∧
        heads.sum = headLanguage (mark ",") languages := by
  induction entries generalizing languages s s' es with
  | nil =>
    cases hd
    obtain ⟨rfl, rfl⟩ := Work.pure_eq_ok.1 hrun
    exact ⟨.refl hs, rfl, [], .nil, by rw [headLanguage_nil]; rfl⟩
  | cons entry rest ih =>
    obtain ⟨here, s₁, hhere, hmore⟩ := Work.bind_eq_ok.1 hrun
    obtain ⟨others, s₂, hothers, hlast⟩ := Work.bind_eq_ok.1 hmore
    obtain ⟨rfl, rfl⟩ := Work.pure_eq_ok.1 hlast
    obtain ⟨hgrows, hwrites⟩ := entriesFrom_writes hname hs hkeys hd hhere
    cases hd with | @cons _ x _ languages hentry hrest
    obtain ⟨L, repeats⟩ := x
    have hrest' : Describes s₁.table rest languages :=
      Describes.extend hrest hgrows.table.extends_
    obtain ⟨hgrows', hlength, heads, hheads, hsum⟩ := ih hgrows.table.sound
      (fun hp other ho => hkeys hp other (by simp [ho])) hrest' hothers
    refine ⟨hgrows.trans hgrows', by simp [hlength], _,
      .cons (hwrites.writes.extend hgrows'.table.extends_) hheads, ?_⟩
    rw [List.sum_cons, hsum, headLanguage_cons]
    rfl

/-- The texts of the optional part, behind required pairs or alone. -/
def optionalLanguage (hasRequired : Bool) (languages : List (Language Char × Bool)) :
    Language Char :=
  1 + (if hasRequired then mark "," else 1) * headLanguage (mark ",") languages

theorem optionalPart_writes {entries : List Entry} {languages : List (Language Char × Bool)}
    {hasRequired : Bool} {s s' : Session} {e : String} (hs : s.table.Sound plain)
    (hkeys : plain → ∀ entry ∈ entries, RuleTable.HasPlainDigits entry.key)
    (hd : Describes s.table entries languages)
    (hrun : optionalPart name hasRequired entries s = .ok e s') :
    Session.Grows plain s s' ∧ s'.table.WritesRow e (optionalLanguage hasRequired languages) ∧
      ∀ text, Grammar.Apart text e.toList := by
  rw [optionalPart] at hrun
  by_cases hempty : entries = []
  · subst hempty
    cases hd
    obtain ⟨rfl, rfl⟩ := Work.pure_eq_ok.1 hrun
    rw [optionalLanguage, headLanguage_nil, mul_zero, add_zero]
    exact ⟨.refl hs, RuleTable.writesRow_empty _, fun _ => Grammar.apart_of_head (by simp)⟩
  · rw [if_neg (by simpa using hempty)] at hrun
    obtain ⟨es, s₁, hstartings, hlast⟩ := Work.bind_eq_ok.1 hrun
    obtain ⟨rfl, rfl⟩ := Work.pure_eq_ok.1 hlast
    obtain ⟨hgrows, hlength, heads, hheads, hsum⟩ := startings_writes hname hs hkeys hd hstartings
    have hne : es ≠ [] := by
      rintro rfl
      exact hempty (by simpa using hlength.symm)
    have hpart := readsRow_optional hgrows.table.sound.complete.denotes_space.item hasRequired hne
      hheads
    rw [hsum] at hpart
    exact ⟨hgrows, hpart, fun _ => Grammar.apart_of_head (by simp; decide)⟩

end Builders

/-! ## Whole objects -/

theorem selects_nil (languages : List (Language Char × Bool)) : Selects languages [] := by
  induction languages with
  | nil => exact .nil
  | cons x rest ih =>
    obtain ⟨L, repeats⟩ := x
    exact .cons 0 (.inr (Nat.zero_le 1)) ih

theorem following_eq {sep : Language Char} {chosen : List (Language Char)} (h : chosen ≠ []) :
    following sep chosen = sep * separated sep chosen := by
  obtain ⟨L, rest, rfl⟩ := List.exists_cons_of_ne_nil h
  rw [separated_cons, following, List.map_cons, List.prod_cons, ← following, mul_assoc]

/-- Required pairs and the optional part together are the selections behind the required pairs. -/
theorem mem_separated_mul_optional {first : List (Language Char)}
    {languages : List (Language Char × Bool)} {text : List Char} :
    text ∈ separated (mark ",") first * optionalLanguage (!first.isEmpty) languages ↔
      ∃ chosen, Selects languages chosen ∧ text ∈ separated (mark ",") (first ++ chosen) := by
  have hsplit : separated (mark ",") first * optionalLanguage (!first.isEmpty) languages =
      separated (mark ",") first + separated (mark ",") first *
        ((if !first.isEmpty then mark "," else 1) * headLanguage (mark ",") languages) := by
    rw [optionalLanguage, mul_add, mul_one]
  have happend {chosen : List (Language Char)} (hne : chosen ≠ []) :
      separated (mark ",") first * ((if !first.isEmpty then mark "," else 1) *
        separated (mark ",") chosen) = separated (mark ",") (first ++ chosen) := by
    cases first with
    | nil => simp [separated]
    | cons L rest =>
      rw [separated_append _ (List.cons_ne_nil _ _), following_eq hne]
      rfl
  rw [hsplit, Language.mem_add]
  constructor
  · rintro (htext | htext)
    · exact ⟨[], selects_nil languages, by simpa using htext⟩
    · obtain ⟨front, hfront, back, hback, rfl⟩ := Language.mem_mul.1 htext
      obtain ⟨a, ha, b, ⟨chosen, hchosen, hne, hb⟩, rfl⟩ := Language.mem_mul.1 hback
      refine ⟨chosen, hchosen, ?_⟩
      rw [← happend hne]
      exact Language.append_mem_mul hfront (Language.append_mem_mul ha hb)
  · rintro ⟨chosen, hchosen, htext⟩
    by_cases hne : chosen = []
    · exact .inl (by simpa [hne] using htext)
    · rw [← happend hne] at htext
      obtain ⟨front, hfront, back, hback, rfl⟩ := Language.mem_mul.1 htext
      obtain ⟨a, ha, b, hb, rfl⟩ := Language.mem_mul.1 hback
      exact .inr (Language.append_mem_mul hfront
        (Language.append_mem_mul ha ⟨chosen, hchosen, hne, hb⟩))

section Objects

variable {pairOf : String → Language Char} {optional : List String}

/-- Entries that do not repeat are taken as a sublist. -/
theorem selects_map_append {others : List (Language Char × Bool)} {chosen : List (Language Char)} :
    Selects (optional.map (fun key => (pairOf key, false)) ++ others) chosen ↔
      ∃ keys rest, List.Sublist keys optional ∧ Selects others rest ∧
        chosen = keys.map pairOf ++ rest := by
  induction optional generalizing chosen with
  | nil => simp
  | cons key optional ih =>
    rw [List.map_cons, List.cons_append]
    constructor
    · intro h
      cases h with
      | @cons _ _ _ chosen count many hothers =>
        obtain ⟨keys, rest, hsub, hrest, rfl⟩ := ih.1 hothers
        rcases many with hfalse | hcount
        · exact absurd hfalse (by simp)
        · interval_cases count
          · exact ⟨keys, rest, hsub.cons key, hrest, by simp⟩
          · exact ⟨key :: keys, rest, hsub.cons_cons key, hrest, by simp⟩
    · rintro ⟨keys, rest, hsub, hrest, rfl⟩
      cases hsub with
      | cons _ hsub =>
        exact .cons 0 (.inr (Nat.zero_le 1)) (ih.2 ⟨_, rest, hsub, hrest, rfl⟩)
      | @cons_cons keys _ _ hsub =>
        exact .cons 1 (.inr (Nat.le_refl 1)) (ih.2 ⟨keys, rest, hsub, hrest, rfl⟩)

/-- The entry for additional pairs, if there are any. -/
def extraLanguages (extra : Option (Language Char)) : List (Language Char × Bool) :=
  (extra.map fun L => (L, true)).toList

/-- Where there is nothing to choose from there is no text. -/
theorem separated_eq_zero {sep : Language Char} {languages : List (Language Char)}
    (h : 0 ∈ languages) : separated sep languages = 0 := by
  cases languages with
  | nil => simp at h
  | cons L rest =>
    rw [separated_cons]
    rcases List.mem_cons.1 h with rfl | h
    · exact zero_mul _
    · have hzero : (0 : Language Char) ∈ rest.map (sep * ·) :=
        List.mem_map.2 ⟨0, h, mul_zero _⟩
      rw [following, List.prod_eq_zero hzero, mul_zero]

/-- The selections of additional pairs. -/
theorem selects_extraLanguages {sep : Language Char} {extra : Option (Language Char)}
    {front : List (Language Char)} {text : List Char} :
    (∃ rest, Selects (extraLanguages extra) rest ∧ text ∈ separated sep (front ++ rest)) ↔
      ∃ count, text ∈ separated sep (front ++ List.replicate count (extra.getD 0)) := by
  cases extra with
  | none =>
    constructor
    · rintro ⟨rest, hrest, htext⟩
      cases hrest
      exact ⟨0, htext⟩
    · rintro ⟨count, htext⟩
      cases count with
      | zero => exact ⟨[], .nil, htext⟩
      | succ count =>
        rw [separated_eq_zero (by simp)] at htext
        exact htext.elim
  | some L =>
    constructor
    · rintro ⟨rest, hrest, htext⟩
      cases hrest with
      | @cons _ _ _ others count _ hothers =>
        cases hothers
        exact ⟨count, by simpa using htext⟩
    · rintro ⟨count, htext⟩
      exact ⟨_, .cons count (.inl rfl) .nil, by simpa using htext⟩

/-- **The body of an object.** Required pairs and the optional part between braces are the
    ordered-key objects. -/
theorem objectLanguage_eq (first : List String) (extra : Option (Language Char)) :
    mark "\x7b" * (separated (mark ",") (first.map pairOf) *
        optionalLanguage (!first.isEmpty)
          (optional.map (fun key => (pairOf key, false)) ++ extraLanguages extra)) *
      mark "\x7d" = objectLanguage pairOf first optional (extra.getD 0) := by
  have hmiddle (text : List Char) : text ∈ separated (mark ",") (first.map pairOf) *
        optionalLanguage (!first.isEmpty)
          (optional.map (fun key => (pairOf key, false)) ++ extraLanguages extra) ↔
      ∃ keys count, List.Sublist keys optional ∧ text ∈ separated (mark ",")
        ((first ++ keys).map pairOf ++ List.replicate count (extra.getD 0)) := by
    have hempty : first.isEmpty = (first.map pairOf).isEmpty := by simp
    rw [hempty, mem_separated_mul_optional]
    constructor
    · rintro ⟨chosen, hchosen, htext⟩
      obtain ⟨keys, rest, hsub, hrest, rfl⟩ := selects_map_append.1 hchosen
      rw [← List.append_assoc, ← List.map_append] at htext
      obtain ⟨count, hcount⟩ := selects_extraLanguages.1 ⟨rest, hrest, htext⟩
      exact ⟨keys, count, hsub, hcount⟩
    · rintro ⟨keys, count, hsub, htext⟩
      obtain ⟨rest, hrest, htext⟩ := selects_extraLanguages.2 ⟨count, htext⟩
      refine ⟨_, selects_map_append.2 ⟨keys, rest, hsub, hrest, rfl⟩, ?_⟩
      rwa [← List.append_assoc, ← List.map_append]
  ext text
  constructor
  · intro htext
    obtain ⟨front, hfront, back, hback, rfl⟩ := Language.mem_mul.1 htext
    obtain ⟨a, ha, b, hb, rfl⟩ := Language.mem_mul.1 hfront
    obtain ⟨keys, count, hsub, hpairs⟩ := (hmiddle b).1 hb
    exact ⟨keys, count, hsub,
      Language.append_mem_mul (Language.append_mem_mul ha hpairs) hback⟩
  · rintro ⟨keys, count, hsub, htext⟩
    obtain ⟨front, hfront, back, hback, rfl⟩ := Language.mem_mul.1 htext
    obtain ⟨a, ha, b, hb, rfl⟩ := Language.mem_mul.1 hfront
    exact Language.append_mem_mul
      (Language.append_mem_mul ha ((hmiddle b).2 ⟨keys, count, hsub, hb⟩)) hback

end Objects

/-! ## Additional pairs -/

section Additional

variable {s s' : Session} {name value : String} {keys : List String} {entries : List Entry}

/-- The rule for the keys of additional pairs. -/
def additionalKey (name : String) (keys : List String) : CompileM String :=
  if keys.isEmpty then Session.addNamed "string" "string"
  else do
    let body ← Session.onTable (Exclusion.bodyFor (keys.map Json.str))
    Session.addRule (subName name "additional" ++ "-k") body

/-- The entry for additional pairs, once their values have a rule. -/
def additionalPair (name : String) (keys : List String) (value : String) :
    CompileM (List Entry) := do
  let key ← additionalKey name keys
  let pair ← Session.addRule (subName name "additional" ++ "-kv") (key ++ " \":\" space " ++ value)
  return [⟨"*", pair, true⟩]

theorem additionalPair_eq_ok (hrun : additionalPair name keys value s = .ok entries s') :
    ∃ key s₁ pair, additionalKey name keys s = .ok key s₁ ∧
      Session.addRule (subName name "additional" ++ "-kv") (key ++ " \":\" space " ++ value) s₁ =
        .ok pair s' ∧
      entries = [⟨"*", pair, true⟩] := by
  obtain ⟨key, s₁, hkey, hmore⟩ := Work.bind_eq_ok.1 hrun
  obtain ⟨pair, s₂, hpair, hlast⟩ := Work.bind_eq_ok.1 hmore
  obtain ⟨rfl, rfl⟩ := Work.pure_eq_ok.1 hlast
  exact ⟨key, s₁, pair, hkey, hpair, rfl⟩

/-- What is said about additional properties tells where their values get a rule from. -/
theorem additionalEntry_eq (visit : Visit) (name : String) (keys : List String) (allowed : Json) :
    additionalEntry visit name keys allowed = match allowed with
      | .bool true => Session.addNamed "value" "value" >>= additionalPair name keys
      | .obj [] => Session.addNamed "value" "value" >>= additionalPair name keys
      | .obj fields =>
        visit (.obj fields) (subName name "additional" ++ "-value") >>= additionalPair name keys
      | _ => pure [] := by
  have hpair : additionalPair name keys = fun value => (do
      let keyRule ←
        if keys.isEmpty then Session.addNamed "string" "string"
        else
          let body ← Session.onTable (Exclusion.bodyFor (keys.map Json.str))
          Session.addRule (subName name "additional" ++ "-k") body
      let pair ← Session.addRule (subName name "additional" ++ "-kv")
        (keyRule ++ " \":\" space " ++ value)
      return [⟨"*", pair, true⟩]) := by
    funext value
    rw [additionalPair, additionalKey]
    split_ifs
    · rfl
    · rfl
  rw [hpair]
  rfl

end Additional

end Schema

end SchemaGrammar
