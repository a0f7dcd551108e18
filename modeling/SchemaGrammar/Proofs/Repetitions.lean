import SchemaGrammar.Proofs.Grammar.Rendering
import SchemaGrammar.Proofs.Rules.Repetition

set_option autoImplicit false

/-! # Counted repetition of items of all kinds

The expression for counted items, as the body of a rule, derives as many items as the counts say,
whatever way the item and the separator are written (`counted_items_are_exact`). The builders of rules
write in a narrower way (`Written`), without comments and line breaks; here texts are taken as the
reader takes them, and the lemmas of `Composes` serve for both.

A separator has to be a row of items. Where it is a choice, the item behind it becomes part of its last
branch (`last_branch_takes_item`). -/

namespace SchemaGrammar

namespace Grammar

/-! ## Texts that go on -/

namespace Numerals

section Lexical

variable {N : Numerals} {t : Token} {tokens more : List Token} {piece text rest : List Char}

theorem Spelling.ne_nil (h : N.Spelling t piece) : piece ≠ [] := by
  cases h with
  | name some _ => exact some
  | times counted => cases counted <;> simp
  | _ => simp

/-- Only a comment starts with a number sign. -/
theorem Spelling.eq_blank (h : N.Spelling t piece) (hhash : piece.head? = some '#') : t = .blank := by
  cases h with
  | comment _ => rfl
  | name some chars =>
    obtain ⟨behind, rfl⟩ := List.head?_eq_some_iff.1 hhash
    exact absurd (chars '#' List.mem_cons_self) (by decide)
  | times counted => cases counted <;> simp at hhash
  | space blank =>
    obtain rfl := Option.some.inj hhash
    exact absurd blank (by decide)
  | lineBreak end' =>
    obtain rfl := Option.some.inj hhash
    exact absurd end' (by decide)
  | _ => simp at hhash

theorem delimits_of_head {behind : List Char} (h : Delimits piece rest)
    (hhead : behind.head? = rest.head?) : Delimits piece behind := by
  refine ⟨fun c hc d hd => h.apart c hc d ?_, fun hhash c hc => h.line hhash c ?_⟩
  · rwa [← hhead]
  · rwa [← hhead]

/-- Tokens may go on behind a text, where no name and no comment goes on. -/
theorem Lexical.append (h : N.Lexical tokens text) (h' : N.Lexical more rest)
    (hname : ∀ c ∈ rest.head?, isNameChar c = false)
    (hline : tokens.getLast? = some .blank → ∀ c ∈ rest.head?, isLineBreak c = true) :
    N.Lexical (tokens ++ more) (text ++ rest) := by
  induction h with
  | nil => exact h'
  | @cons t tokens piece behind first delimits others ih =>
    rw [List.cons_append, List.append_assoc]
    -- only the last piece can be a comment that what follows would belong to
    cases others with
    | nil =>
      refine .cons first ⟨apart_of_head hname, fun hhash => hline ?_⟩ h'
      rw [first.eq_blank hhash]
      rfl
    | @cons t' tokens' piece' behind' first' delimits' others' =>
      have hhead : (piece' ++ behind' ++ rest).head? = (piece' ++ behind').head? := by
        rw [List.append_assoc, List.head?_append_of_ne_nil _ first'.ne_nil,
          List.head?_append_of_ne_nil _ first'.ne_nil]
      refine .cons first (delimits_of_head delimits hhead) (ih fun hlast => hline ?_)
      rwa [List.getLast?_cons_cons]

/-- What does not end in a comment can stand in front of anything that no name starts with. -/
theorem Lexical.printsApart (h : N.Lexical tokens text) (hlast : tokens.getLast? ≠ some .blank) :
    N.PrintsApart tokens text :=
  fun _ _ hrest hname => h.append hrest hname fun hblank => absurd hblank hlast

theorem Lexical.ne_nil (h : N.Lexical (t :: tokens) text) : text ≠ [] := by
  cases h with
  | cons first _ _ => exact List.append_ne_nil_of_left_ne_nil first.ne_nil _

/-- What a bracket can be closed behind can stand in front of anything that no name starts with. -/
theorem Lexical.printsApart_of_close (h : N.Lexical (tokens ++ [.groupClose]) (text ++ [')'])) :
    N.PrintsApart tokens text := by
  generalize hfull : text ++ [')'] = full at h
  induction tokens generalizing text full with
  | nil =>
    obtain rfl : text = [] := by
      cases h with
      | cons first _ others =>
        cases first
        cases others
        simpa using hfull
    exact Prints.nil.apart
  | cons t tokens ih =>
    cases h with
    | @cons _ _ piece behind first delimits others =>
      obtain ⟨inner, c, rfl⟩ : ∃ inner c, behind = inner ++ [c] := by
        rcases List.eq_nil_or_concat' behind with rfl | hconcat
        · cases tokens <;> exact absurd rfl others.ne_nil
        · exact hconcat
      rw [← List.append_assoc] at hfull
      obtain ⟨rfl, hc⟩ := List.append_inj' hfull rfl
      obtain rfl : ')' = c := List.head_eq_of_cons_eq hc
      intro more rest hrest hname
      rw [List.cons_append, List.append_assoc]
      refine .cons first ?_ (ih _ rfl others more rest hrest hname)
      cases inner with
      | nil =>
        -- the bracket would be part of a comment
        refine ⟨apart_of_head hname, fun hhash => ?_⟩
        exact absurd (delimits.line hhash ')' rfl) (by decide)
      | cons d inner => exact delimits_of_head delimits rfl

theorem Prints.append_apart {other : List Char} (h : N.Prints tokens text)
    (h' : N.PrintsApart more other) : N.PrintsApart (tokens ++ more) (text ++ other) := by
  intro behind rest hrest hname
  rw [List.append_assoc, List.append_assoc]
  exact h _ _ (h' _ _ hrest hname)

end Lexical

end Numerals

/-! ## Items and rows -/

/-- The text is a way to write an item: a name, a literal, a class or a group, or one of these with
    counts behind it. -/
def IsItem (e : String) (node : Node) : Prop :=
  ∃ tokens, Phrased (.item node) tokens ∧ Numerals.lenient.Lexical tokens e.toList

/-- The text is a way to write items in a row within brackets, so that a bracket behind it closes
    them. -/
def IsRow (e : String) (items : List Node) : Prop :=
  ∃ tokens, Phrased (.row true items) tokens ∧
    Numerals.lenient.Lexical (tokens ++ [.groupClose]) (e.toList ++ [')'])

theorem isItem_name {name : String} (h : IsReadable name) : IsItem name (.rule name) := by
  refine ⟨_, .name name, ?_⟩
  simpa using printsApart_name h [] [] .nil (by simp)

theorem lexical_of_tokens {tokens : List Token} {text : List Char}
    (h : (lexemesFrom text.length ⟨0, text⟩).map Lexeme.token = tokens)
    (hsound : ∀ t ∈ tokens, t.IsSound) : Numerals.lenient.Lexical tokens text := by
  subst h
  refine lexical_of_lexemes _ 0 text le_rfl fun x hx => hsound _ ?_
  exact List.mem_map_of_mem hx

theorem isBlank_of_isNameChar {c : Char} (h : isNameChar c = true) : Text.isBlank c = false := by
  simp only [isNameChar, Bool.or_eq_true, Bool.and_eq_true, decide_eq_true_eq] at h
  rcases h with (((h | h) | h) | rfl) | rfl
  · exact Text.isBlank_of_between h.1 h.2 (by decide)
  · exact Text.isBlank_of_between h.1 h.2 (by decide)
  · exact Text.isBlank_of_between h.1 h.2 (by decide)
  · decide
  · decide

/-- Only gaps end in blanks. -/
theorem Numerals.Spelling.getLast {N : Numerals} {t : Token} {piece : List Char}
    (h : N.Spelling t piece) (ht : ¬ IsGap true t) :
    ∃ c, piece.getLast? = some c ∧ Text.isBlank c = false := by
  have hend (cs : List Char) {c : Char} (hc : Text.isBlank c = false) :
      ∃ d, (cs ++ [c]).getLast? = some d ∧ Text.isBlank d = false :=
    ⟨c, List.getLast?_concat, hc⟩
  cases h with
  | name some chars =>
    refine ⟨piece.getLast some, List.getLast?_eq_some_getLast some, ?_⟩
    exact isBlank_of_isNameChar (chars _ (List.getLast_mem some))
  | define => exact hend [':', ':'] (by decide)
  | @literal text _ _ => exact hend ('"' :: text) (by decide)
  | @charClass text _ _ _ => exact hend ('[' :: text) (by decide)
  | @exceptClass text _ _ => exact hend ('[' :: '^' :: text) (by decide)
  | groupOpen => exact hend [] (by decide)
  | groupClose => exact hend [] (by decide)
  | bar => exact hend [] (by decide)
  | times counted =>
    cases counted with
    | optional => exact hend [] (by decide)
    | star => exact hend [] (by decide)
    | plus => exact hend [] (by decide)
    | @exactly text _ _ _ _ => exact hend ('\x7b' :: text) (by decide)
    | @atLeast text gap _ _ _ _ _ => exact hend ('\x7b' :: (text ++ ',' :: gap)) (by decide)
    | @between text more _ _ _ _ _ _ => exact hend ('\x7b' :: (text ++ ',' :: more)) (by decide)
  | lineBreak _ => exact absurd rfl ht
  | space _ => exact absurd trivial ht
  | comment _ => exact absurd trivial ht

theorem Numerals.Lexical.getLast {N : Numerals} {front : List Token} {t : Token} {text : List Char}
    (h : N.Lexical (front ++ [t]) text) (ht : ¬ IsGap true t) :
    ∃ c, text.getLast? = some c ∧ Text.isBlank c = false := by
  induction front generalizing text with
  | nil =>
    cases h with
    | cons first _ others =>
      cases others
      rw [List.append_nil]
      exact first.getLast ht
  | cons s front ih =>
    cases h with
    | cons first _ others =>
      obtain ⟨c, hc, hblank⟩ := ih others
      exact ⟨c, by rw [List.getLast?_append, hc]; rfl, hblank⟩

/-- An item does not end in a gap. -/
theorem Phrased.exists_last {node : Node} {tokens : List Token} (h : Phrased (.item node) tokens) :
    ∃ front t, tokens = front ++ [t] ∧ ¬ IsGap true t := by
  cases h with
  | name name => exact ⟨[], _, rfl, id⟩
  | literal codes => exact ⟨[], _, rfl, id⟩
  | charClass negated ranges => exact ⟨[], _, rfl, id⟩
  | @group tokens _ _ => exact ⟨.groupOpen :: tokens, _, rfl, id⟩
  | @times tokens _ _ min max => exact ⟨tokens, _, rfl, id⟩

theorem Phrased.row_append {deep : Bool} {items others : List Node} {tokens more : List Token}
    (h : Phrased (.row deep items) tokens) (h' : Phrased (.row deep others) more) :
    Phrased (.row deep (items ++ others)) (tokens ++ more) := by
  generalize hphrase : Phrase.row deep others = phrase at h'
  induction h' generalizing others with
  | void =>
    cases hphrase
    simpa using h
  | gap _ between ih =>
    cases hphrase
    rw [← List.append_assoc]
    exact (ih rfl).gap between
  | item _ next ih _ =>
    cases hphrase
    rw [← List.append_assoc, ← List.append_assoc]
    exact (ih rfl).item next
  | _ => cases hphrase

theorem getLast_of_isItem {e : String} {node : Node} (h : IsItem e node) :
    ∀ c ∈ e.toList.getLast?, Text.isBlank c = false := by
  obtain ⟨tokens, hitem, hlexical⟩ := h
  obtain ⟨front, t, rfl, hgap⟩ := hitem.exists_last
  obtain ⟨c, hc, hblank⟩ := hlexical.getLast hgap
  rw [hc]
  simpa using hblank

/-! ## Putting them together -/

/-- The text is an item over the rules of a grammar. -/
def SpellsItem (g : Grammar) (e : String) (L : Language Char) : Prop :=
  ∃ node tokens, Phrased (.item node) tokens ∧ Numerals.lenient.PrintsApart tokens e.toList ∧
    (∀ name ∈ node.ruleNames, g.has name = true) ∧ g.language node = L

/-- The text is a row of items over the rules of a grammar. -/
def SpellsRow (g : Grammar) (deep : Bool) (e : String) (L : Language Char) : Prop :=
  ∃ items tokens, Phrased (.row deep items) tokens ∧
    Numerals.lenient.PrintsApart tokens e.toList ∧
    (∀ name ∈ (rowNode items).ruleNames, g.has name = true) ∧ g.language (rowNode items) = L

section Spelled

variable {g : Grammar} {e : String} {L : Language Char}

theorem IsItem.spells {node : Node} (h : IsItem e node)
    (hnames : ∀ name ∈ node.ruleNames, g.has name = true) : SpellsItem g e (g.language node) := by
  obtain ⟨tokens, hitem, hlexical⟩ := h
  obtain ⟨front, t, rfl, hgap⟩ := hitem.exists_last
  refine ⟨node, _, hitem, hlexical.printsApart ?_, hnames, rfl⟩
  rw [List.getLast?_concat]
  rintro ⟨⟩
  exact hgap trivial

theorem IsRow.spells {items : List Node} (h : IsRow e items)
    (hnames : ∀ name ∈ (rowNode items).ruleNames, g.has name = true) :
    SpellsRow g true e (g.language (rowNode items)) := by
  obtain ⟨tokens, hrow, hlexical⟩ := h
  exact ⟨items, tokens, hrow, hlexical.printsApart_of_close, hnames, rfl⟩

/-- The marks for counts spell them. -/
theorem Counted.prints {counts : List Char} {low : Nat} {high : Option Nat}
    (h : Counted counts low high) : ∃ c cs, counts = c :: cs ∧ isNameChar c = false ∧
      Numerals.lenient.Prints [.times low (high.map Int.ofNat)] (c :: cs) := by
  cases h with
  | optional => exact ⟨'?', [], rfl, by decide, .mark (.times .optional) (by decide) (by decide)⟩
  | star => exact ⟨'*', [], rfl, by decide, .mark (.times .star) (by decide) (by decide)⟩
  | plus => exact ⟨'+', [], rfl, by decide, .mark (.times .plus) (by decide) (by decide)⟩
  | @braces body low high inside counts =>
    have hcounted := countsOf_eq_some counts inside
    exact ⟨_, _, rfl, by decide, .wrapped (.times hcounted) (by decide) (by decide)⟩

theorem mem_ruleNames_rowNode {items : List Node} {name : String} :
    name ∈ (rowNode items).ruleNames ↔ ∃ node ∈ items, name ∈ node.ruleNames := by
  unfold rowNode
  split
  · simp
  · rw [Node.ruleNames, Node.ruleNamesOf_eq, List.mem_flatMap]

/-- What the reader takes as items and rows can be put together. -/
theorem composes_spells (g : Grammar) : Composes (SpellsItem g) (SpellsRow g) where
  times := by
    rintro e counts L low high ⟨node, tokens, hitem, hprints, hnames, rfl⟩ hcounted
    obtain ⟨c, cs, hcounts, hname, hprints'⟩ := hcounted.prints
    refine ⟨_, _, hitem.times low (high.map Int.ofNat), ?_, hnames, language_rep g node low high⟩
    rw [String.toList_append, hcounts]
    exact (hprints.append hprints' hname).apart
  row := by
    rintro e L deep ⟨node, tokens, hitem, hprints, hnames, hL⟩
    exact ⟨[node], tokens, Phrased.void.item hitem, hprints, hnames, hL⟩
  group := by
    rintro e L ⟨items, tokens, hrow, hprints, hnames, hL⟩
    have htext : ("(" ++ e ++ ")").toList = ['('] ++ (e.toList ++ [')']) := by simp
    refine ⟨_, _, hrow.single.group, ?_, hnames, hL⟩
    rw [htext]
    exact (Numerals.prints_groupOpen.append
      (hprints.append Numerals.prints_groupClose (by decide))).apart
  empty deep := by
    refine ⟨[], [], .void, Numerals.Prints.nil.apart, ?_, ?_⟩
    · simp [mem_ruleNames_rowNode]
    · rw [language_rowNode]
      rfl
  beside := by
    rintro deep a b A B ⟨items, tokens, hrow, hprints, hnames, rfl⟩
      ⟨items', tokens', hrow', hprints', hnames', rfl⟩
    have hgap : IsGap deep .blank := by simp [IsGap]
    have htext : (a ++ " " ++ b).toList = a.toList ++ [' '] ++ b.toList := by simp
    refine ⟨items ++ items', _, (hrow.gap hgap).row_append hrow', ?_, ?_, ?_⟩
    · rw [htext]
      exact (hprints.append Numerals.prints_blank (by decide)).append_apart hprints'
    · simp only [mem_ruleNames_rowNode, List.mem_append] at hnames hnames' ⊢
      rintro name ⟨node, hnode | hnode, hname⟩
      · exact hnames name ⟨node, hnode, hname⟩
      · exact hnames' name ⟨node, hnode, hname⟩
    · simp only [language_rowNode, List.map_append, List.prod_append]

/-! ## Rules behind other rules -/

theorem Document.ruled {tokens : List Token} (h : Document tokens g) :
    Ruled (tokens ++ [.lineBreak]) g := by
  cases h with
  | closed rules => exact rules.gap rfl
  | rule rules head written =>
    simpa only [List.append_assoc] using rules.rule head written

theorem find?_append {name : String} {body : Node} (h : g.find? name = some body) (more : Grammar) :
    Grammar.find? (g ++ more) name = some body := by
  rw [find?] at h
  rw [find?, List.lookup_append, h]
  rfl

theorem has_append {name : String} (h : g.has name = true) (more : Grammar) :
    Grammar.has (g ++ more) name = true := by
  obtain ⟨body, hbody⟩ := Option.isSome_iff_exists.1 h
  rw [has, find?_append hbody]
  rfl

/-- Other rules do not change what a node derives that does not refer to them. -/
theorem language_append (hclosed : IsClosed g) (more : Grammar) {node : Node}
    (hnode : ∀ name ∈ node.ruleNames, g.has name = true) :
    Grammar.language (g ++ more) node = g.language node := by
  have hnames {name : String} {body : Node} (hbody : g.find? name = some body) :
      ∀ other ∈ body.ruleNames, g.has other = true := by
    obtain ⟨before, behind, hg, -⟩ := List.lookup_eq_some_iff.1 hbody
    exact hclosed (name, body) (by simp [hg])
  ext text
  rw [mem_language, mem_language]
  constructor
  · intro h
    refine derives_of_agree (N := fun name => g.has name = true) (fun name body hname hbody => ?_) h
      hnode
    obtain ⟨body', hbody'⟩ := Option.isSome_iff_exists.1 hname
    rw [find?_append hbody'] at hbody
    obtain rfl := Option.some.inj hbody
    exact ⟨hbody', hnames hbody'⟩
  · intro h
    exact derives_of_agree (N := fun name => g.has name = true)
      (fun name body _ hbody => ⟨find?_append hbody more, hnames hbody⟩) h hnode

/-- A line of a grammar text spells a rule with its end, whatever stands behind it. -/
theorem prints_line {name : String} {tokens : List Token} (hname : IsReadable name)
    (h : Numerals.lenient.PrintsApart tokens e.toList) :
    Numerals.lenient.Prints
      (.name name :: ([.blank] ++ [.define]) ++ ([.blank] ++ tokens ++ [.lineBreak]))
      (line name e).toList := by
  have hsign : Numerals.lenient.Prints ([.blank] ++ ([.define] ++ [.blank]))
      ([' '] ++ ([':', ':', '='] ++ [' '])) :=
    Numerals.prints_blank.append (Numerals.prints_define.append Numerals.prints_blank)
  have hbody := h.append Numerals.prints_lineBreak (by decide)
  have hall := (printsApart_name hname).append (hsign.append hbody) (by decide)
  have htext : (line name e).toList =
      name.toList ++ (([' '] ++ ([':', ':', '='] ++ [' '])) ++ (e.toList ++ ['\n'])) := by
    simp [line]
  rw [htext]
  simpa using hall

/-- **A row is read as the body of a rule** in a line behind other rules. -/
theorem SpellsRow.ofText {rules name : String} (h : SpellsRow g false e L)
    (hrules : ofText rules = .ok g) (hname : IsReadable name) (hfresh : g.has name = false) :
    ∃ body, Grammar.ofText (rules ++ "\n" ++ line name e) = .ok (g ++ [(name, body)]) ∧
      Grammar.language (g ++ [(name, body)]) (.rule name) = L := by
  obtain ⟨items, tokens, hrow, hprints, hnames, hL⟩ := h
  obtain ⟨⟨front, hlexical, hdocument⟩, hnodup, hclosed⟩ := ofText_eq_ok_iff.1 hrules
  have hheader : Header name (.name name :: ([.blank] ++ [.define])) := .intro (by simp)
  have hgap : IsGap false .blank := trivial
  have hbody : Phrased (.branches false [rowNode items]) ([.blank] ++ tokens) :=
    ((Phrased.void.gap hgap).row_append hrow).single
  -- a line break ends the last rule, even where a comment stands behind it
  have hbehind := Numerals.prints_lineBreak _ _ (prints_line hname hprints [] [] .nil)
  have hall := hlexical.append hbehind (by simp; decide) fun _ => by simp; decide
  refine ⟨rowNode items,
    ofText_eq_ok_iff.2 ⟨⟨_, ?_, .closed (hdocument.ruled.rule hheader hbody)⟩, ?_, ?_⟩, ?_⟩
  · simpa using hall
  · rw [List.map_append, List.nodup_append]
    refine ⟨hnodup, by simp, ?_⟩
    rintro other hother _ hnew rfl
    obtain rfl : other = name := by simpa using hnew
    exact has_eq_false_iff.1 hfresh hother
  · intro rule hrule other hother
    rcases List.mem_append.1 hrule with hold | hnew
    · exact has_append (hclosed rule hold other hother) _
    · obtain rfl := List.mem_singleton.1 hnew
      exact has_append (hnames other hother) _
  · have hfind : Grammar.find? (g ++ [(name, rowNode items)]) name = some (rowNode items) := by
      have hnone : List.lookup name g = none := by
        simpa [has, find?] using hfresh
      rw [find?, List.lookup_append, hnone]
      simp
    rw [language_rule _ hfind, language_append hclosed _ hnames, hL]

end Spelled

/-! ## Counted items -/

/-- The outcome for counted items, in a place behind other rules. It is refused exactly if the least
    count is above the greatest one. Otherwise it is an expression, and as the body of a rule it derives
    the texts of the language. -/
structure CountsExactly (rules : String) (g : Grammar) (low : Nat) (high : Option Nat)
    (L : Language Char) (result : Except Failure String) : Prop where
  refused : result = .error (.count (.crossed (lowCount low) (highCount high))) ↔
    ∃ most ∈ high, most < low
  expressed : (∀ most ∈ high, low ≤ most) → ∃ e, result = .ok e ∧
    ∀ name, IsReadable name → g.has name = false → ∃ body,
      ofText (rules ++ "\n" ++ line name e) = .ok (g ++ [(name, body)]) ∧
        Grammar.language (g ++ [(name, body)]) (.rule name) = L

section Counts

variable {rules item : String} {g : Grammar} {low : Nat} {high : Option Nat} {L : Language Char}
  {result : Except Failure String}

theorem countsExactly_of_spells (hrules : ofText rules = .ok g)
    (hrefused : (∃ most ∈ high, most < low) →
      result = .error (.count (.crossed (lowCount low) (highCount high))))
    (hok : (∀ most ∈ high, low ≤ most) → ∃ e, result = .ok e)
    (hspells : ∀ e, result = .ok e → SpellsRow g false e L) :
    CountsExactly rules g low high L result where
  refused := by
    refine ⟨fun herror => ?_, hrefused⟩
    by_contra hnone
    push Not at hnone
    obtain ⟨e, he⟩ := hok hnone
    rw [he] at herror
    cases herror
  expressed := by
    intro hle
    obtain ⟨e, he⟩ := hok hle
    exact ⟨e, he, fun name hname hfresh => (hspells e he).ofText hrules hname hfresh⟩

theorem not_forall_le (h : ∃ most ∈ high, most < low) : ¬ ∀ most ∈ high, low ≤ most := by
  obtain ⟨most, hmem, hlt⟩ := h
  exact fun hle => absurd (hle most hmem) (Nat.not_le.2 hlt)

theorem ofCounts_of_isWritable (hlow : IsWritable low) (hhigh : ∀ most ∈ high, IsWritable most) :
    CountFault.ofCounts (lowCount low) (highCount high) =
      .crossed (lowCount low) (highCount high) := by
  rw [CountFault.ofCounts, isWritable_lowCount, isWritable_highCount, decide_eq_true hlow,
    decide_eq_true hhigh]
  rfl

theorem exists_repetition (item : String) (hlow : IsWritable low)
    (hhigh : ∀ most ∈ high, IsWritable most) (hle : ∀ most ∈ high, low ≤ most) :
    ∃ e, repetition item (lowCount low) (highCount high) = .ok e := by
  rw [repetition_eq, if_pos hle, if_pos (And.intro hlow hhigh)]
  split_ifs <;> exact ⟨_, rfl⟩

theorem exists_separatedRepetition (item sep : String) (hlow : IsWritable low)
    (hhigh : ∀ most ∈ high, IsWritable most) (hle : ∀ most ∈ high, low ≤ most) :
    ∃ e, separatedRepetition item sep (lowCount low) (highCount high) = .ok e := by
  have hfewer : ∀ most ∈ high.map (· - 1), IsWritable most ∧ low - 1 ≤ most := by
    intro most hm
    obtain ⟨n, hn, rfl⟩ := Option.mem_map.1 hm
    exact ⟨(Nat.sub_le n 1).trans_lt (hhigh n hn), Nat.sub_le_sub_right (hle n hn) 1⟩
  obtain ⟨rest, hrest⟩ := exists_repetition ("(" ++ sep ++ " " ++ item ++ ")")
    ((Nat.sub_le low 1).trans_lt hlow) (fun most hm => (hfewer most hm).1)
    fun most hm => (hfewer most hm).2
  rw [separatedRepetition_eq, if_pos hle, hrest]
  split_ifs <;> exact ⟨_, rfl⟩

/-- **Counted repetition is exact**, for every item, every row of items as separator and all counts
    that a numeral can hold. -/
theorem counted_items_are_exact {x : Node} (hrules : ofText rules = .ok g) (hitem : IsItem item x)
    (hx : ∀ name ∈ x.ruleNames, g.has name = true) (hlow : IsWritable low)
    (hhigh : ∀ most ∈ high, IsWritable most) :
    CountsExactly rules g low high (repeated low high (g.language x))
        (repetition item (lowCount low) (highCount high)) ∧
      ∀ (sep : String) (ys : List Node), IsRow sep ys →
        (∀ name ∈ (rowNode ys).ruleNames, g.has name = true) →
        CountsExactly rules g low high (listed (g.language (rowNode ys)) low high (g.language x))
          (separatedRepetition item sep (lowCount low) (highCount high)) := by
  have hspells := hitem.spells hx
  constructor
  · refine countsExactly_of_spells hrules (fun h => ?_) (exists_repetition item hlow hhigh) fun e he => ?_
    · rw [repetition_eq, if_neg (not_forall_le h), ofCounts_of_isWritable hlow hhigh]
    · exact (composes_spells g).row_repetition false hspells he
  · intro sep ys hsep hy
    refine countsExactly_of_spells hrules (fun h => ?_) (exists_separatedRepetition item sep hlow hhigh)
      fun e he => ?_
    · rw [separatedRepetition_eq, if_neg (not_forall_le h), ofCounts_of_isWritable hlow hhigh]
    · exact (composes_spells g).row_separatedRepetition false hspells (getLast_of_isItem hitem)
        (hsep.spells hy) he

end Counts

/-- An item and a blank that may be left out. -/
def itemAndSpace : Grammar :=
  [("item", .literal [120]), ("space", .alt [.seq [], .literal [32]])]

/-- One to three items, with commas between them. -/
theorem counted_items_are_exact_oneToThree :
    CountsExactly "item ::= \"x\"\nspace ::= | \" \"" itemAndSpace 1 (some 3)
      (listed (itemAndSpace.language (rowNode [.literal [44], .rule "space"])) 1 (some 3)
        (itemAndSpace.language (.rule "item")))
      (separatedRepetition "item" "\",\" space" (lowCount 1) (highCount (some 3))) := by
  have hsmall (n : Nat) (hn : n < 10) : IsWritable n :=
    hn.trans_le (Nat.le_self_pow (by decide) 10)
  have hgap : IsGap true .blank := trivial
  have hsep : IsRow "\",\" space" [.literal [44], .rule "space"] :=
    ⟨_, ((Phrased.void.item (.literal [44])).gap hgap).item (.name "space"),
      lexical_of_tokens rfl (by simp [Token.IsSound])⟩
  exact (counted_items_are_exact rfl (isItem_name (by decide)) (by decide) (hsmall 1 (by decide))
    (by simpa using hsmall 3 (by decide))).2 _ _ hsep (by decide)

example : separatedRepetition "item" "\",\" space" (lowCount 1) (highCount (some 3)) =
    .ok "item (\",\" space item)\x7b0,2\x7d" :=
  rfl

/-! ## Choices as separators -/

/-- The expression for two letters with a comma or a semicolon between them. -/
def twoLetters : String :=
  "\"x\" (\",\" | \";\" \"x\")\x7b1,1\x7d"

/-- What is read of it: the second letter belongs to the semicolon. -/
def twoLettersNode : Node :=
  .seq [.literal [120], .rep (.alt [.literal [44], .seq [.literal [59], .literal [120]]]) 1 (some 1)]

/-- **The last branch of a separator takes the item behind it.** A letter and a comma are derived for
    two letters with a comma or a semicolon between them. -/
theorem last_branch_takes_item :
    ofText "item ::= \"x\"\nseparator ::= \",\" | \";\"" =
        .ok [("item", .literal [120]), ("separator", .alt [.literal [44], .literal [59]])] ∧
      separatedRepetition "\"x\"" "\",\" | \";\"" (lowCount 2) (highCount (some 2)) = .ok twoLetters ∧
      ofText ("root ::= " ++ twoLetters) = .ok [("root", twoLettersNode)] ∧
      Derives [("root", twoLettersNode)] (.rule "root") ['x', ','] ∧
      ∀ g : Grammar, ['x', ','] ∉ listed (g.language (.alt [.literal [44], .literal [59]])) 2 (some 2)
        (g.language (.literal [120])) := by
  refine ⟨rfl, rfl, rfl, ?_, fun g h => ?_⟩
  · have hcomma : Derives [("root", twoLettersNode)]
        (.alt [.literal [44], .seq [.literal [59], .literal [120]]]) [','] :=
      .alt (by simp) (.literal [','])
    have hrest : Derives [("root", twoLettersNode)]
        (.rep (.alt [.literal [44], .seq [.literal [59], .literal [120]]]) 1 (some 1)) [','] :=
      .rep 1 (by simp) (by simp) (.cons hcomma .nil)
    exact .rule rfl (.cons (.literal ['x']) (.cons hrest .nil))
  · obtain ⟨count, hleast, hmost, hmem⟩ := h
    obtain rfl : count = 2 := le_antisymm (hmost 2 rfl) hleast
    have hone {code : Nat} {text : List Char} (h : text ∈ g.language (.literal [code])) :
        text.length = 1 := by
      simpa using congrArg List.length (derives_literal_iff.1 h)
    have hmark {text : List Char}
        (h : text ∈ g.language (.alt [.literal [44], .literal [59]])) : text.length = 1 := by
      obtain ⟨node, hnode, hderives⟩ := derives_alt_iff.1 h
      obtain rfl | rfl : node = .literal [44] ∨ node = .literal [59] := by simpa using hnode
      · exact hone hderives
      · exact hone hderives
    -- three pieces, each with one character
    obtain ⟨front, hfront, back, hback, heq⟩ := Language.mem_mul.1 hmem
    obtain ⟨first, hfirst, mark, hmid, rfl⟩ := Language.mem_mul.1 hfront
    have hlength := congrArg List.length heq
    simp [hone hfirst, hmark hmid, hone hback] at hlength

end Grammar

end SchemaGrammar
