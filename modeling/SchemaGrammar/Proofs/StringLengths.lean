import Mathlib.Order.FixedPoints
import Mathlib.Order.CompletePartialOrder
import SchemaGrammar.Proofs.Documents
import SchemaGrammar.Proofs.Exclusions
import SchemaGrammar.Proofs.Json.Strings
import SchemaGrammar.Proofs.Schema.Builders

set_option autoImplicit false

/-! # Lengths of strings

The bounds of a schema for strings count the pieces that spell a string. So an accepted text is a
string whose characters, with one more for each pair of halves, are as many as the bounds say
(`accepts_bounded_strings`); a character that is spelled as two halves counts twice
(`pair_counts_twice`). -/

namespace SchemaGrammar

open Grammar (IsWritable lowCount highCount repeated)
open Json (IsSpelling decoded pairs isHighHalf)

/-! ## Spelled characters -/

/-- What the rule for characters takes is the spelling of a character. -/
theorem Exclusion.character_le : Exclusion.character ≤ Standard.character := by
  refine add_le ?_ ?_
  · rintro text ⟨c, rfl, ⟨hspace, hquote, -⟩, hslash⟩
    exact .raw hspace hquote hslash
  · rw [escapeTail, mul_add]
    refine add_le (Standard.escaped_le_character ?_) (Standard.numbered_le_character ?_)
    · have hletters : ∀ c ∈ escapeLetters, Standard.IsEscapeLetter c := by
        unfold Standard.IsEscapeLetter
        decide
      exact Grammar.charWhere_mono hletters
    · have hdigits : ∀ c ∈ hexLetters, Standard.IsHexDigit c := by
        unfold Standard.IsHexDigit
        decide
      exact Grammar.charWhere_mono hdigits

theorem Exclusion.numbered_mem_character {a b c d : Char}
    (h : ∀ digit ∈ [a, b, c, d], digit ∈ hexLetters) :
    ['\\', 'u', a, b, c, d] ∈ Exclusion.character := by
  have hdigits : [a, b, c, d] ∈ Grammar.charWhere (· ∈ hexLetters) ^ 4 := by
    refine Language.mem_pow.2 ⟨[a, b, c, d].map ([·]), rfl, rfl, fun piece hpiece => ?_⟩
    obtain ⟨digit, hdigit, rfl⟩ := List.mem_map.1 hpiece
    exact ⟨digit, rfl, h digit hdigit⟩
  have htail : ['u', a, b, c, d] ∈ ({['u']} : Language Char) * Grammar.charWhere (· ∈ hexLetters) ^ 4 :=
    Language.append_mem_mul (a := ['u']) rfl hdigits
  exact .inr (Language.append_mem_mul (a := ['\\']) rfl (.inr htail))

namespace Compiler

/-- A schema for strings with bounds on their length. -/
def boundedString (low high : Nat) : Json.Fields :=
  [("type", .str "string"), ("minLength", lowCount low), ("maxLength", highCount (some high))]

section Schema

variable (low high : Nat)

theorem shape_boundedString : Schema.shape (boundedString low high) = .boundedString := rfl

theorem sites_boundedString : Resolver.sites (.obj (boundedString low high)) = [] := rfl

theorem least_boundedString : Schema.orElse (some (lowCount low)) (.num (.whole 0)) = lowCount low := by
  cases low with
  | zero => rfl
  | succ n =>
    have hgiven : (lowCount (n + 1)).isEmptyValue = false := by
      simp [lowCount, Json.isEmptyValue, Number.same, Number.rank]
      omega
    simp [Schema.orElse, hgiven]

theorem counts?_boundedString :
    Schema.counts? (boundedString low high) "minLength" "maxLength" = some (low, some high) := by
  have hmin : Json.Fields.get? (boundedString low high) "minLength" = some (lowCount low) := rfl
  have hmax : Schema.keyword (boundedString low high) "maxLength" = highCount (some high) := rfl
  rw [Schema.counts?, hmin, hmax, least_boundedString]
  rfl

/-- The metaschema has nothing against such a schema, so it has nothing to write about it. -/
theorem check_boundedString (dialects : Metaschema.Dialects) :
    Metaschema.checkIn dialects (.obj (boundedString low high)) = .ok [] := by
  rw [Metaschema.checkIn_eq_check rfl, Metaschema.check_eq_ok_iff]
  refine ⟨rfl, ?_, ?_⟩
  · simp [Metaschema.schemaReports, Metaschema.canReport, Metaschema.canReportAll,
      Metaschema.canReportFields, Metaschema.canReportAny, Metaschema.issues,
      Metaschema.issueUnless, Metaschema.issuesOfAll, Metaschema.holdsAny, Metaschema.isType, Metaschema.isWhole,
      Metaschema.Check.root, Metaschema.Check.keywords, Metaschema.Check.simpleTypes,
      Metaschema.Check.nonNegativeInteger, boundedString, lowCount, highCount, Json.Fields.get?,
      Json.isText, Assoc.lookup_cons, Number.lt, Number.rank, Number.floor?, Number.ceil?]
  · simp [Metaschema.IsSchema, Metaschema.allIssues, Metaschema.schemaIssues, Metaschema.issues,
      Metaschema.issuesOfAll, Metaschema.issuesOfFields, Metaschema.issueUnless, Metaschema.below,
      Metaschema.holdsAny, Metaschema.isType, Metaschema.isWhole, Metaschema.Check.root,
      Metaschema.Check.keywords, Metaschema.Check.simpleTypes,
      Metaschema.Check.nonNegativeInteger, boundedString, lowCount, highCount, Json.Fields.get?,
      Json.isText, Assoc.lookup_cons, Number.lt, Number.rank, Number.floor?, Number.ceil?]

/-- The texts of such a schema: as many characters between quotes as the bounds say. -/
theorem language_boundedString (options : Options) (document : Json) :
    Schema.language options document (.obj (boundedString low high)) =
      Schema.quoted (repeated low (some high) Exclusion.character) := by
  rw [Schema.language_eq, Schema.meaningStep, shape_boundedString]
  dsimp only
  rw [Schema.stringMeaning, counts?_boundedString, Exclusion.builtin_char]
  rfl

end Schema

/-! ## The table -/

/-- The body of the rule for characters. -/
def charBody : String :=
  "[^\"\\\\\\x7F\\x00-\\x1F] | [\\\\] ([\"\\\\bfnrt] | \"u\" [0-9a-fA-F]\x7b4\x7d)"

/-- The rules for blanks and characters. -/
def charTable : RuleTable :=
  ⟨[(Builtin.spaceName, Builtin.space), ("char", charBody)], []⟩

/-- The body of the root, given the expression for the characters. -/
def stringBody (chars : String) : String :=
  "\"\\\"\" " ++ chars ++ " \"\\\"\" space"

section Table

variable {options : Options} {low high : Nat} {chars : String}

/-- The schema as a whole document. -/
def boundedSite (low high : Nat) : Schema.Site :=
  ⟨boundedString low high, "", Schema.ruleNameFor ""⟩

theorem least_boundedSite (low high : Nat) :
    Schema.orElse ((boundedSite low high).keyword? "minLength") (.num (.whole 0)) = lowCount low :=
  least_boundedString low

theorem counted_of_ok {s : Session}
    (h : Grammar.repetition "char" (lowCount low) (highCount (some high)) = .ok chars) :
    Schema.counted (boundedSite low high) "minLength" "maxLength" (Grammar.repetition "char") s =
      .ok chars s := by
  have hhigh : (boundedSite low high).keyword "maxLength" = highCount (some high) := rfl
  simp only [Schema.counted, least_boundedSite, hhigh, h]
  rfl

theorem counted_of_error {fault : CountFault} {s : Session}
    (h : Grammar.repetition "char" (lowCount low) (highCount (some high)) = .error (.count fault)) :
    Schema.counted (boundedSite low high) "minLength" "maxLength" (Grammar.repetition "char") s =
      .error (Failure.unsatisfiableCount (.obj (boundedString low high)) "minLength" "maxLength"
        fault).raised s := by
  have hhigh : (boundedSite low high).keyword "maxLength" = highCount (some high) := rfl
  simp only [Schema.counted, least_boundedSite, hhigh, h]
  rfl

theorem addNamed_char (schema : Json) : Session.addNamed "char" "char" (Session.new [schema]) =
    .ok "char" { Session.new [schema] with table := charTable } := by
  rfl

theorem visitBoundedString_run (schema : Json)
    (h : Grammar.repetition "char" (lowCount low) (highCount (some high)) = .ok chars) :
    Schema.visitBoundedString (boundedSite low high) (Session.new [schema]) =
      .ok "root" { Session.new [schema] with table := (charTable.add "root" (stringBody chars)).2 } := by
  have hroot : Session.addRule "root" (stringBody chars) { Session.new [schema] with table := charTable } =
      .ok "root" { Session.new [schema] with table := (charTable.add "root" (stringBody chars)).2 } := rfl
  exact Work.bind_eq_ok.2 ⟨_, _, addNamed_char schema,
    Work.bind_eq_ok.2 ⟨chars, _, counted_of_ok h, hroot⟩⟩

theorem visitWith_boundedString (low high : Nat) (options : Options) (depth : Nat) :
    Schema.visitWith (Schema.visit options depth) options (.obj (boundedString low high)) "" =
      Schema.visitBoundedString (boundedSite low high) := by
  rw [Schema.visitWith]
  simp only [shape_boundedString]
  rfl

/-- If the greatest length can be written, the grammar accepts the texts of the schema. -/
theorem accepts_boundedString (h : low ≤ high) (hhigh : IsWritable high) (options : Options) :
    ∃ t g, compile options (.obj (boundedString low high)) = .ok t ∧ Grammar.ofText t.text = .ok g ∧
      g.Accepts (Schema.quoted (repeated low (some high) Exclusion.character)) := by
  have hlow : IsWritable low := lt_of_le_of_lt h hhigh
  have hplain : Schema.IsPlain (.obj (boundedString low high)) := by
    rw [Schema.IsPlain, shape_boundedString]
    exact ⟨low, some high, counts?_boundedString low high, hlow, by simpa using hhigh⟩
  obtain ⟨chars, hchars⟩ : ∃ chars,
      Grammar.repetition "char" (lowCount low) (highCount (some high)) = .ok chars := by
    rw [Grammar.repetition_eq, if_pos (by simpa using h)]
    split_ifs with _ _ _ _ hwritable
    on_goal 6 => exact absurd ⟨hlow, by simpa using hhigh⟩ hwritable
    all_goals exact ⟨_, rfl⟩
  have hcompiled := Schema.visitBoundedString_compiled
    (soundSession_new options (.obj (boundedString low high)) True)
    (fun _ => by decide) (shape_boundedString low high) hplain (visitBoundedString_run _ hchars)
  rw [← language_boundedString low high options (.obj (boundedString low high))]
  exact accepts_of_compiled (check_boundedString low high _) (sites_boundedString low high)
    (visitWith_boundedString low high options) (visitBoundedString_run _ hchars) hcompiled
    (Schema.start_of_shape (by simp [shape_boundedString]))

/-- If it cannot be written, there is no grammar. -/
theorem compile_tooLong (h : low ≤ high) (hhigh : ¬ IsWritable high) (options : Options) :
    compile options (.obj (boundedString low high)) = .error .tooManyDigits := by
  have hlong : Json.isWritable (.obj (boundedString low high)) = false := by
    rw [← Bool.not_eq_true, Json.isWritable, Json.fieldsWritable_iff]
    intro hall
    have hwritable : (highCount (some high)).isWritable = true :=
      hall ("maxLength", highCount (some high)) (by simp [boundedString])
    rw [Grammar.isWritable_highCount] at hwritable
    exact hhigh (of_decide_eq_true hwritable high rfl)
  have hraised (fault : CountFault) : (Failure.unsatisfiableCount (.obj (boundedString low high))
      "minLength" "maxLength" fault).raised = .tooManyDigits :=
    if_neg (by simp [Failure.shownValues, hlong])
  have hrepetition : Grammar.repetition "char" (lowCount low) (highCount (some high)) =
      .error (.count .tooManyDigits) := by
    have hlarge : ¬ high ≤ 1 := fun hsmall =>
      hhigh (lt_of_le_of_lt hsmall (Nat.one_lt_pow (by decide) (by decide)))
    rw [Grammar.repetition_eq, if_pos (by simpa using h), if_neg (by simp; omega),
      if_neg (by simp; omega), if_neg (by simp), if_neg (by simp), if_neg (by simp [hhigh])]
  obtain ⟨depth, hdocument⟩ := compileDocument_of_sites options (sites_boundedString low high)
  have hfails : Schema.visitBoundedString (boundedSite low high)
      (Session.new [.obj (boundedString low high)]) = .error .tooManyDigits _ :=
    Work.bind_eq_error.2 (.inr ⟨_, _, addNamed_char _, Work.bind_eq_error.2
      (.inl ((counted_of_error hrepetition).trans (by rw [hraised])))⟩)
  rw [compile_of_check (check_boundedString low high _), hdocument, visitWith_boundedString, hfails]

end Table

/-! ## What is accepted -/

/-- As many spelled characters as the bounds say, with blanks behind them, are the spelling of a
    string. -/
theorem exists_spelling {low high : Nat} {text : String}
    (h : text.toList ∈ Schema.quoted (repeated low (some high) Exclusion.character)) :
    ∃ pieces, IsSpelling text pieces ∧ low ≤ pieces.length ∧ pieces.length ≤ high := by
  obtain ⟨e, ⟨count, hleast, hmost, he⟩, w, hw, htext⟩ := Schema.mem_quoted.1 h
  obtain ⟨pieces, rfl, rfl, hpieces⟩ := Language.mem_pow.1 he
  have hspelling : IsSpelling text pieces :=
    ⟨fun p hp => Exclusion.character_le (hpieces p hp), w, Schema.blanks_le hw, htext⟩
  exact ⟨pieces, hspelling, hleast, hmost high rfl⟩

/-- **Bounded lengths count pieces.** A schema for strings between two lengths has a grammar if the
    greatest length can be written. Every text that this accepts is a string with blanks behind it,
    which is read as its value: this has as many characters as the bounds say, with one more for each
    pair of halves. So the bounds hold for values that are spelled without first halves. -/
theorem accepts_bounded_strings {low high : Nat} (h : low ≤ high) (options : Options) :
    (IsWritable high → ∃ t g,
      compile options (.obj (boundedString low high)) = .ok t ∧ Grammar.ofText t.text = .ok g) ∧
      (¬ IsWritable high →
        compile options (.obj (boundedString low high)) = .error .tooManyDigits) ∧
      ∀ t g, compile options (.obj (boundedString low high)) = .ok t →
        Grammar.ofText t.text = .ok g → ∀ (order : Grammar.Order) (text : String),
        ∃ v, Grammar.checkIn order g text Grammar.startRule = .ok v ∧
          (v.accepted = true → ∃ pieces, IsSpelling text pieces ∧
            Json.ofText text = .ok (.str (String.ofList (decoded pieces))) ∧
            low ≤ (decoded pieces).length + pairs pieces ∧
            (decoded pieces).length + pairs pieces ≤ high ∧
            ((∀ p ∈ pieces, isHighHalf p = false) →
              low ≤ (decoded pieces).length ∧ (decoded pieces).length ≤ high)) := by
  by_cases hhigh : IsWritable high
  · obtain ⟨t, g, hcompile, hread, haccepts⟩ := accepts_boundedString h hhigh options
    refine ⟨fun _ => ⟨t, g, hcompile, hread⟩, absurd hhigh, ?_⟩
    intro t' g' hcompile' hread' order text
    obtain rfl := Except.ok.inj (hcompile.symm.trans hcompile')
    obtain rfl : g = g' := Except.ok.inj (hread.symm.trans hread')
    obtain ⟨v, hv, hiff⟩ := haccepts order text
    refine ⟨v, hv, fun haccepted => ?_⟩
    obtain ⟨pieces, hspelling, hleast, hmost⟩ := exists_spelling (hiff.1 haccepted)
    rw [← Json.length_decoded pieces] at hleast hmost
    refine ⟨pieces, hspelling, hspelling.ofText_eq, hleast, hmost, fun hsingle => ?_⟩
    rw [Json.pairs_eq_zero hsingle] at hleast hmost
    exact ⟨hleast, hmost⟩
  · have hrefused := compile_tooLong h hhigh options
    refine ⟨fun hwritable => absurd hwritable hhigh, fun _ => hrefused, fun t g hcompile => ?_⟩
    cases hrefused.symm.trans hcompile

/-- Strings of one to three characters. -/
theorem accepts_bounded_strings_oneToThree : 1 ≤ 3 ∧ IsWritable 3 ∧ ∃ t g,
    compile .standard (.obj (boundedString 1 3)) = .ok t ∧ Grammar.ofText t.text = .ok g ∧
      ∀ (order : Grammar.Order) (text : String),
        ∃ v, Grammar.checkIn order g text Grammar.startRule = .ok v ∧
          (v.accepted = true → ∃ pieces, IsSpelling text pieces ∧
            Json.ofText text = .ok (.str (String.ofList (decoded pieces))) ∧
            1 ≤ (decoded pieces).length + pairs pieces ∧
            (decoded pieces).length + pairs pieces ≤ 3 ∧
            ((∀ p ∈ pieces, isHighHalf p = false) →
              1 ≤ (decoded pieces).length ∧ (decoded pieces).length ≤ 3)) := by
  have hthree : IsWritable 3 :=
    lt_of_lt_of_le (by decide : 3 < 10 ^ 1) (Nat.pow_le_pow_right (by decide) (by decide))
  obtain ⟨hgrammar, -, haccepts⟩ := accepts_bounded_strings (by decide : 1 ≤ 3) .standard
  obtain ⟨t, g, hcompile, hread⟩ := hgrammar hthree
  exact ⟨by decide, hthree, t, g, hcompile, hread, haccepts t g hcompile hread⟩

/-- The two halves of a character beyond the first plane. -/
def halves : List (List Char) :=
  [['\\', 'u', 'd', '8', '3', 'd'], ['\\', 'u', 'd', 'e', '0', '0']]

/-- A string of one character is accepted where strings have two, as it is spelled as two halves. -/
theorem pair_counts_twice : ∃ t g v,
    compile .standard (.obj (boundedString 2 2)) = .ok t ∧ Grammar.ofText t.text = .ok g ∧
      Grammar.checkIn .ascending g "\"\\ud83d\\ude00\"" Grammar.startRule = .ok v ∧
      v.accepted = true ∧ Json.ofText "\"\\ud83d\\ude00\"" = .ok (.str "😀") ∧
      "😀".toList.length = 1 := by
  have htwo : IsWritable 2 :=
    lt_of_lt_of_le (by decide : 2 < 10 ^ 1) (Nat.pow_le_pow_right (by decide) (by decide))
  obtain ⟨t, g, hcompile, hread, haccepts⟩ := accepts_boundedString (le_refl 2) htwo .standard
  obtain ⟨v, hv, hiff⟩ := haccepts .ascending "\"\\ud83d\\ude00\""
  have hcharacter : ∀ p ∈ halves, p ∈ Exclusion.character :=
    List.forall_mem_cons.2 ⟨Exclusion.numbered_mem_character (by decide),
      List.forall_mem_cons.2 ⟨Exclusion.numbered_mem_character (by decide), by simp⟩⟩
  have hmem : "\"\\ud83d\\ude00\"".toList ∈
      Schema.quoted (repeated 2 (some 2) Exclusion.character) := by
    refine Schema.mem_quoted.2
      ⟨halves.flatten, ⟨2, le_rfl, by simp, ?_⟩, [], Schema.nil_mem_blanks, rfl⟩
    exact Language.mem_pow.2 ⟨halves, rfl, rfl, hcharacter⟩
  refine ⟨t, g, v, hcompile, hread, hv, hiff.2 hmem, ?_, by decide⟩
  have hspelling : IsSpelling "\"\\ud83d\\ude00\"" halves :=
    ⟨fun p hp => Exclusion.character_le (hcharacter p hp), [], Language.nil_mem_kstar _, rfl⟩
  have hdecoded : decoded halves = "😀".toList := by decide
  rw [hspelling.ofText_eq, hdecoded, String.ofList_toList]

end Compiler

end SchemaGrammar
