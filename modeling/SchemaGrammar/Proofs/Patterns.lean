import Mathlib.Order.FixedPoints
import Mathlib.Order.CompletePartialOrder
import SchemaGrammar.Proofs.Pattern.Cutting
import SchemaGrammar.Proofs.Rules.Verdicts
import SchemaGrammar.Proofs.Schema.Standard

set_option autoImplicit false

/-! # Grammars of patterns

The rule for a pattern, as the root of a grammar, accepts what the pattern describes in the dialect
of grammars, between quotes and with blanks behind it (`Regex.accepts_language`); a pattern with a
count that cannot be read is refused (`Regex.isRefused`). From this follows where a pattern keeps
its meaning. What is matched between the quotes are the characters as they are, so the grammar
accepts JSON strings only where the pattern matches no character that has to be escaped. -/

namespace SchemaGrammar

open Computability
open Grammar (charWhere repeated)

namespace Pattern

/-! ## Rules for strings -/

/-- The body of the rule for a pattern. -/
theorem writes_quoted {t : RuleTable} {text : String} {L : Language Char} (ht : t.Complete)
    (h : t.Writes text L) :
    t.Writes ("\"\\\"\" (" ++ text ++ ") \"\\\"\" space") (Schema.quoted L) := by
  have hquote := RuleTable.writesItem_literal t "\""
  rw [Schema.quotes_group_eq]
  exact ((hquote.row.beside h.group.row).beside
    (hquote.row.beside ht.denotes_space.item.row)).writes

/-- To a grammar the leaf stands for characters that JSON strings hold as they are. -/
def Leaf.IsRaw (dotAll : Bool) (l : Leaf) : Prop :=
  ∀ c, l.holds .grammar dotAll c → ' ' ≤ c ∧ c ≠ '"' ∧ c ≠ '\\'

namespace Regex

variable {r : Regex .choice}

/-- The pattern that a regular expression is, with its anchors. -/
def anchored (r : Regex .choice) : String :=
  String.ofList ('^' :: (r.text ++ ['$']))

theorem unanchored?_anchored (r : Regex .choice) :
    unanchored? r.anchored = some (String.ofList r.text) := by
  simp [unanchored?, anchored]

/-- Anchors are left out, and what is between them stands between quotes. -/
theorem toRule_anchored (r : Regex .choice) (name : String) (dotAll : Bool) :
    toRule r.anchored name dotAll = (do
      let body ← Job.expression ⟨String.ofList r.text, name, dotAll⟩
      RuleTable.addRule name ("\"\\\"\" (" ++ body ++ ") \"\\\"\" space")) := by
  unfold toRule
  rw [unanchored?_anchored]

/-- The pattern becomes the root of a grammar that accepts the texts of a language between quotes,
    with blanks behind them. -/
def Accepts (r : Regex .choice) (dotAll : Bool) (L : Language Char) : Prop :=
  ∃ t g, toRule r.anchored "root" dotAll RuleTable.new = .ok "root" t ∧
    Grammar.ofText t.text = .ok g ∧ ∀ (order : Grammar.Order) (text : String),
      ∃ v, Grammar.checkIn order g text Grammar.startRule = .ok v ∧
        (v.accepted = true ↔ ∃ s ∈ L, ∃ w ∈ Schema.blanks, text.toList = '"' :: (s ++ '"' :: w))

/-- The pattern is refused for its syntax. -/
def IsRefused (r : Regex .choice) (dotAll : Bool) : Prop :=
  ∃ fault source index t,
    toRule r.anchored "root" dotAll RuleTable.new = .error (.pattern fault source index) t

/-- What is to be done for the pattern to become the root. -/
def job (r : Regex .choice) (dotAll : Bool) : Job :=
  ⟨String.ofList r.text, "root", dotAll⟩

theorem exists_tokens_job (h : r.IsTranslatable) (dotAll : Bool) :
    ∃ ts, (lexemes (r.job dotAll).source.toList).map Lexeme.token = ts ∧
      Phrase dotAll .choice ts (r.language .grammar dotAll) ∧
        (IsCounted ts ↔ r.HasShortCounts) := by
  rw [job, String.toList_ofList]
  exact exists_tokens h dotAll

/-- The rule for a pattern accepts what the pattern is to a grammar. -/
theorem accepts_language (h : r.IsTranslatable) (hshort : r.HasShortCounts) (dotAll : Bool) :
    r.Accepts dotAll (r.language .grammar dotAll) := by
  obtain ⟨ts, htokens, hphrase, hcounted⟩ := exists_tokens_job h dotAll
  have hdigits : True → RuleTable.HasPlainDigits "root" := fun _ => by decide
  obtain ⟨text, t, hexpression, hdevelops, hwrites⟩ :=
    exists_expression (RuleTable.isLasting_sound True) hdigits (RuleTable.sound_new True) htokens
      hphrase (hcounted.2 hshort)
  obtain ⟨t', g, hadd, hread, haccepts⟩ := hdevelops.kept.accepts_root (hdevelops.root.trans rfl)
    (writes_quoted hdevelops.kept.complete hwrites)
  refine ⟨t', g, ?_, hread, fun order text => ?_⟩
  · rw [toRule_anchored]
    exact Work.bind_eq_ok.2 ⟨text, t, hexpression, RuleTable.addRule_eq_ok.2 hadd⟩
  · obtain ⟨v, hv, hiff⟩ := haccepts order text
    exact ⟨v, hv, hiff.trans Schema.mem_quoted⟩

/-- A pattern with a count that cannot be read is refused. -/
theorem isRefused (h : r.IsTranslatable) (hlong : ¬ r.HasShortCounts) (dotAll : Bool) :
    r.IsRefused dotAll := by
  obtain ⟨ts, htokens, hphrase, hcounted⟩ := exists_tokens_job h dotAll
  obtain ⟨e, t, hfails⟩ := expression_fails (t := .new) htokens (mt hcounted.1 hlong)
  have hrun : toRule r.anchored "root" dotAll RuleTable.new = .error e t := by
    rw [toRule_anchored]
    exact Work.bind_eq_error.2 (.inl hfails)
  have hfault : Fault r.anchored e := by
    have hroot : RuleTable.Requestable False "root" := ⟨by decide, by decide, fun h => h.elim⟩
    have hruns := @runs_toRule False RuleTable.new (Fault r.anchored) False RuleTable.orderly_new
      r.anchored "root" dotAll (fun _ he => he) hroot False.elim
    exact ((Work.leads_iff.1 hruns).2 e t hrun).2
  -- no count in the pattern is above the one behind it, so the fault is one of syntax
  cases hfault with
  | pattern => exact ⟨_, _, _, t, hrun⟩
  | counts hunanchored hx htoken habove =>
    rw [unanchored?_anchored] at hunanchored
    obtain rfl := Option.some.inj hunanchored
    have hmem := List.mem_map_of_mem (f := Lexeme.token) hx
    rw [htoken] at hmem
    change _ ∈ (lexemes (r.job dotAll).source.toList).map Lexeme.token at hmem
    rw [htokens] at hmem
    exact absurd (hphrase.le_of_mem hmem) (not_le.2 habove)

/-! ### Languages of JSON strings -/

theorem language_le_content {level : Level} {r : Regex level} {dotAll : Bool}
    (h : r.All (Leaf.IsRaw dotAll) fun _ _ => True) :
    r.language .grammar dotAll ≤ Standard.content := by
  refine le_trans ?_ Standard.raw_le_content
  induction r with
  | leaf l => exact le_trans (Grammar.charWhere_mono h) le_kstar
  | group r ih => exact ih h
  | once a ih => exact ih h
  | times a q lazily ih =>
    have hcounted := Grammar.repeated_le_kstar q.low q.high (ih h.1)
    cases lazily with
    | false => exact hcounted
    | true => exact Grammar.repeated_le_kstar 0 (some 1) hcounted
  | empty => exact one_le_kstar
  | beside a b iha ihb =>
    rw [language, ← kstar_mul_kstar]
    exact mul_le_mul' (iha h.1) (ihb h.2)
  | single r ih => exact ih h
  | either a b iha ihb => exact add_le (iha h.1) (ihb h.2)

end Regex

/-! ## Patterns without lazy quantifiers and escapes in classes -/

/-- **Plain patterns keep their language.** The grammar for a pattern without lazy quantifiers and
    without backslashes in classes accepts exactly the texts of the regular expression, taken as
    they are, between quotes and with blanks behind them. Only a pattern with a count of more digits
    than can be read is refused. -/
theorem accepts_plain_pattern {r : Regex .choice} (h : r.IsPlain) (dotAll : Bool) :
    (r.HasShortCounts → r.Accepts dotAll (r.language .pattern dotAll)) ∧
      (¬ r.HasShortCounts → r.IsRefused dotAll) := by
  have htranslatable := h.isFaithful.isTranslatable
  refine ⟨fun hshort => ?_, fun hlong => Regex.isRefused htranslatable hlong dotAll⟩
  rw [← Regex.language_of_isFaithful h.isFaithful]
  exact Regex.accepts_language htranslatable hshort dotAll

/-- The letter `a`. -/
def letter : Regex .atom :=
  .leaf (.char (.raw 'a') (by decide : 'a' ∉ metacharacters))

/-- The letter `a`, counted by as many ones and one more. -/
def countedByOnes (count : Nat) : Regex .choice :=
  .single (.times letter
    (.exactly ⟨List.replicate (count + 1) '1', by simp, by simp⟩) false)

theorem isPlain_countedByOnes (count : Nat) : (countedByOnes count).IsPlain :=
  ⟨trivial, rfl⟩

theorem hasShortCounts_countedByOnes (count : Nat) :
    (countedByOnes count).HasShortCounts ↔ count < Text.maxNumeralDigits := by
  have hdigits : (countedByOnes count).HasShortCounts ↔ count + 1 ≤ Text.maxNumeralDigits := by
    simp [countedByOnes, letter, Regex.HasShortCounts, Regex.All, Quantifier.IsShort,
      Quantifier.numerals]
  exact hdigits.trans Nat.succ_le_iff

theorem accepts_plain_pattern_elevenLetters :
    (countedByOnes 1).anchored = "^a\x7b11\x7d$" ∧
      (countedByOnes 1).Accepts false ((countedByOnes 1).language .pattern false) :=
  ⟨rfl, (accepts_plain_pattern (isPlain_countedByOnes 1) false).1
    ((hasShortCounts_countedByOnes 1).2 (by decide))⟩

/-- A plain pattern whose count has one digit too many. -/
theorem refuses_countedByOnes :
    (countedByOnes 4300).IsPlain ∧ (countedByOnes 4300).IsRefused false := by
  have hlong : ¬ (countedByOnes 4300).HasShortCounts := by
    rw [hasShortCounts_countedByOnes]
    exact lt_irrefl 4300
  exact ⟨isPlain_countedByOnes 4300,
    Regex.isRefused (isPlain_countedByOnes 4300).isFaithful.isTranslatable hlong false⟩

/-! ## Lazy quantifiers and escapes in classes -/

/-- **Lazy quantifiers and escapes mean what they do to a grammar.** A pattern is refused for a
    count of too many digits, or its grammar accepts what the pattern describes by the rules of
    grammars. These are the rules of patterns if what is repeated lazily may be missing, and if no
    class has a shorthand. -/
theorem accepts_lazy_pattern {r : Regex .choice} (h : r.IsTranslatable) (dotAll : Bool) :
    (r.HasShortCounts → r.Accepts dotAll (r.language .grammar dotAll) ∧
        (r.IsFaithful → r.Accepts dotAll (r.language .pattern dotAll))) ∧
      (¬ r.HasShortCounts → r.IsRefused dotAll) := by
  refine ⟨fun hshort => ?_, fun hlong => Regex.isRefused h hlong dotAll⟩
  have haccepts := Regex.accepts_language h hshort dotAll
  refine ⟨haccepts, fun hfaithful => ?_⟩
  rwa [← Regex.language_of_isFaithful hfaithful]

/-- A class with nothing but an escaped bracket. -/
def bracketClass : CharClass where
  negated := false
  items := [.single (.escaped ']' rfl)]
  nonempty := by simp
  areItems := ⟨trivial, by simp [ClassItem.EndsBefore, itemsText], trivial⟩
  unmarked _ := by simp [itemsText, ClassItem.text, Symbol.text]

/-- Brackets, as few as there may be. -/
def lazyBrackets : Regex .choice :=
  .single (.times (.leaf (.charClass bracketClass)) .star true)

theorem accepts_lazy_pattern_lazyBrackets : lazyBrackets.anchored = "^[\\]]*?$" ∧
    lazyBrackets.Accepts false (lazyBrackets.language .pattern false) := by
  have hclass : ∀ s, .shorthand s ∉ bracketClass.items := by simp [bracketClass]
  have hfaithful : lazyBrackets.IsFaithful := ⟨hclass, fun _ => ⟨rfl, by simp [Quantifier.high]⟩⟩
  have hshort : lazyBrackets.HasShortCounts := ⟨trivial, by decide⟩
  exact ⟨rfl, ((accepts_lazy_pattern hfaithful.isTranslatable false).1 hshort).2 hfaithful⟩

/-- The letter `a` at least once, as few times as there may be. -/
def lazyPlus : Regex .choice :=
  .single (.times letter .plus true)

theorem nil_notMem_lazyPlus : [] ∉ lazyPlus.language .pattern false := by
  rintro ⟨count, hcount, -, hmem⟩
  obtain ⟨count, rfl⟩ := Nat.exists_eq_add_of_le' hcount
  change [] ∈ _ ^ (count + 1) at hmem
  rw [pow_succ] at hmem
  obtain ⟨front, -, back, ⟨c, rfl, -⟩, hempty⟩ := Language.mem_mul.1 hmem
  simp at hempty

/-- To a grammar the question mark makes optional what the pattern repeats at least once. -/
theorem lazyPlus_accepts_empty : ∃ t g v, toRule "^a+?$" "root" false RuleTable.new = .ok "root" t ∧
    Grammar.ofText t.text = .ok g ∧
      Grammar.checkIn .ascending g "\"\"" Grammar.startRule = .ok v ∧ v.accepted = true ∧
        [] ∉ lazyPlus.language .pattern false := by
  have htranslatable : lazyPlus.IsTranslatable := ⟨trivial, fun _ => by simp [Quantifier.high]⟩
  have hshort : lazyPlus.HasShortCounts := ⟨trivial, by decide⟩
  obtain ⟨t, g, hrun, hread, haccepts⟩ := Regex.accepts_language htranslatable hshort false
  obtain ⟨v, hv, hiff⟩ := haccepts .ascending "\"\""
  have hempty : [] ∈ lazyPlus.language .grammar false := ⟨0, le_rfl, by simp, rfl⟩
  exact ⟨t, g, v, hrun, hread, hv, hiff.2 ⟨[], hempty, [], Schema.nil_mem_blanks, rfl⟩,
    nil_notMem_lazyPlus⟩

/-! ## Patterns for JSON strings -/

/-- **Patterns of raw characters generate JSON strings.** If a pattern has no place for quotes,
    backslashes and control characters, its grammar accepts JSON strings only, with blanks behind
    them. -/
theorem raw_pattern_generates_strings {r : Regex .choice} {dotAll : Bool} (h : r.IsTranslatable)
    (hraw : r.All (Leaf.IsRaw dotAll) fun _ _ => True) :
    (r.HasShortCounts → ∃ t g, toRule r.anchored "root" dotAll RuleTable.new = .ok "root" t ∧
      Grammar.ofText t.text = .ok g ∧ ∀ (order : Grammar.Order) (text : String),
        ∃ v, Grammar.checkIn order g text Grammar.startRule = .ok v ∧
          (v.accepted = true → text.toList ∈ Standard.string * Schema.blanks)) ∧
      (¬ r.HasShortCounts → r.IsRefused dotAll) := by
  refine ⟨fun hshort => ?_, fun hlong => Regex.isRefused h hlong dotAll⟩
  obtain ⟨t, g, hrun, hread, haccepts⟩ := Regex.accepts_language h hshort dotAll
  refine ⟨t, g, hrun, hread, fun order text => ?_⟩
  obtain ⟨v, hv, hiff⟩ := haccepts order text
  refine ⟨v, hv, fun haccepted => ?_⟩
  have hmem := Schema.mem_quoted.2 (hiff.1 haccepted)
  have hle : Schema.quoted (r.language .grammar dotAll) ≤ Schema.quoted Standard.content :=
    mul_le_mul' (mul_le_mul' le_rfl (Regex.language_le_content hraw)) le_rfl
  rw [Standard.string, mul_assoc]
  exact hle hmem

theorem raw_pattern_generates_strings_elevenLetters : ∃ t g,
    toRule "^a\x7b11\x7d$" "root" false RuleTable.new = .ok "root" t ∧
      Grammar.ofText t.text = .ok g ∧ ∀ (order : Grammar.Order) (text : String),
        ∃ v, Grammar.checkIn order g text Grammar.startRule = .ok v ∧
          (v.accepted = true → text.toList ∈ Standard.string * Schema.blanks) := by
  have hraw : (countedByOnes 1).All (Leaf.IsRaw false) fun _ _ => True := by
    refine ⟨fun c hc => ?_, trivial⟩
    obtain rfl : c = 'a' := Char.toNat_inj.1 hc
    decide
  exact (raw_pattern_generates_strings (r := countedByOnes 1)
    (isPlain_countedByOnes 1).isFaithful.isTranslatable hraw).1
      ((hasShortCounts_countedByOnes 1).2 (by decide))

/-- Three quotes are no JSON string. -/
theorem quotes_notMem : ['"', '"', '"'] ∉ Standard.string * Schema.blanks := by
  intro h
  rw [Standard.string, mul_assoc] at h
  obtain ⟨e, he, w, hw, heq⟩ := Schema.mem_quoted.1 h
  have hinner := (List.cons.inj heq).2
  cases e with
  | nil =>
    obtain rfl := (List.cons.inj hinner).2
    exact Schema.quote_notMem_blanks hw List.mem_cons_self
  | cons c rest =>
    obtain rfl := (List.cons.inj hinner).1
    exact Standard.quote_notMem_content rest he

/-- A quote and nothing else. -/
def quoteMark : Regex .choice :=
  .single (.once (.leaf (.char (.raw '"') (by decide : '"' ∉ metacharacters))))

/-- A quote in a pattern is escaped for the grammar, but not for JSON. -/
theorem quoteMark_accepts_quotes : ∃ t g v,
    toRule "^\"$" "root" false RuleTable.new = .ok "root" t ∧ Grammar.ofText t.text = .ok g ∧
      Grammar.checkIn .ascending g "\"\"\"" Grammar.startRule = .ok v ∧ v.accepted = true ∧
        "\"\"\"".toList ∉ Standard.string * Schema.blanks := by
  obtain ⟨t, g, hrun, hread, haccepts⟩ :=
    @Regex.accepts_language quoteMark trivial trivial false
  obtain ⟨v, hv, hiff⟩ := haccepts .ascending "\"\"\""
  have hquote : ['"'] ∈ quoteMark.language .grammar false := ⟨'"', rfl, rfl⟩
  exact ⟨t, g, v, hrun, hread, hv, hiff.2 ⟨['"'], hquote, [], Schema.nil_mem_blanks, rfl⟩,
    quotes_notMem⟩

end Pattern

end SchemaGrammar
