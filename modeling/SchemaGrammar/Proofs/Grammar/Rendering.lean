import SchemaGrammar.Proofs.Grammar.Acceptance

set_option autoImplicit false

/-! # Grammars are written and read

Whatever way a grammar is written in the dialect, it is read back (`every_rendering_is_read`), if its
counts do not have too many digits. Every grammar of proper trees can be written (`exists_renders`):
codes by their numbers, rows and branches in brackets of their own. -/

namespace SchemaGrammar

namespace Grammar

/-! ## Plain digits are read -/

theorem isBlank_of_isSpace {c : Char} (h : isSpace c = true) : Text.isBlank c = true := by
  simp only [isSpace, Bool.or_eq_true, decide_eq_true_eq] at h
  rcases h with rfl | rfl <;> decide

namespace Numerals

/-- Plain digits are read as the number that they name, if there are not too many of them. -/
theorem plain_below {allowed : Nat → Prop} (h : ∀ n, allowed n → n ≤ Text.maxNumeralDigits) :
    (plain allowed).Below lenient where
  escape := by
    rintro digits code ⟨hne, hdigits, rfl⟩
    exact Text.readInt?_hex hne hdigits
  count := by
    rintro text n ⟨before, digits, behind, rfl, hbefore, hbehind, hne, hdigits, hallowed, rfl⟩
    have htrim := Text.trim_padded (fun c hc => isBlank_of_isSpace (hbefore c hc))
      (fun c hc => isBlank_of_isSpace (hbehind c hc)) hne hdigits
    change Text.readInt? 10 (Text.trim (before ++ digits ++ behind)) = _
    rw [htrim, Text.readInt?_digits hne hdigits (h _ hallowed)]
  gap := by
    intro text htext
    have hall : text.dropWhile Text.isBlank = [] :=
      List.dropWhile_eq_nil_iff.2 fun c hc => isBlank_of_isSpace (htext c hc)
    change Text.trimRight (Text.trimLeft text) = []
    rw [Text.trimLeft, hall]
    rfl

end Numerals

/-! ## Proper trees -/

/-- A tree as grammar text can hold it: its codes are code points, no row and no choice has a single
    member, a choice is not empty, and its counts are naturals of which `counts` holds. -/
inductive IsTree (counts : Nat → Prop) : Node → Prop where
  | literal {codes : List Nat} (points : ∀ code ∈ codes, code ≤ maxCodePoint) :
      IsTree counts (.literal codes)
  | charClass {negated : Bool} {ranges : List (Nat × Nat)}
      (points : ∀ range ∈ ranges, range.1 ≤ maxCodePoint ∧ range.2 ≤ maxCodePoint) :
      IsTree counts (.charClass negated ranges)
  | rule (name : String) : IsTree counts (.rule name)
  | seq {items : List Node} (several : items.length ≠ 1) (trees : ∀ node ∈ items, IsTree counts node) :
      IsTree counts (.seq items)
  | alt {branches : List Node} (several : 2 ≤ branches.length)
      (trees : ∀ node ∈ branches, IsTree counts node) : IsTree counts (.alt branches)
  | rep {node : Node} (tree : IsTree counts node) {low : Nat} {high : Option Nat} (least : counts low)
      (most : ∀ n ∈ high, counts n) : IsTree counts (.rep node low (high.map Int.ofNat))

/-- A grammar as text can hold it: its names are words, all different, its bodies are proper trees, and
    the rules that they refer to are defined. -/
structure IsProper (counts : Nat → Prop) (g : Grammar) : Prop extends IsWellFormed g where
  names : ∀ rule ∈ g, IsReadable rule.1
  trees : ∀ rule ∈ g, IsTree counts rule.2

/-! ## Writing -/

namespace Numerals

/-- A text spells some tokens, whatever stands behind it. -/
def Prints (N : Numerals) (tokens : List Token) (text : List Char) : Prop :=
  ∀ more rest, N.Lexical more rest → N.Lexical (tokens ++ more) (text ++ rest)

/-- A text spells some tokens, unless a name goes on behind it. -/
def PrintsApart (N : Numerals) (tokens : List Token) (text : List Char) : Prop :=
  ∀ more rest, N.Lexical more rest → (∀ c ∈ rest.head?, isNameChar c = false) →
    N.Lexical (tokens ++ more) (text ++ rest)

section Prints

variable {N : Numerals} {tokens more : List Token} {text other : List Char} {t : Token}

theorem Prints.nil : N.Prints [] [] :=
  fun _ _ h => h

theorem Prints.append (h : N.Prints tokens text) (h' : N.Prints more other) :
    N.Prints (tokens ++ more) (text ++ other) := by
  intro behind rest hrest
  rw [List.append_assoc, List.append_assoc]
  exact h _ _ (h' _ _ hrest)

theorem Prints.apart (h : N.Prints tokens text) : N.PrintsApart tokens text :=
  fun more rest hrest _ => h more rest hrest

theorem PrintsApart.append {c : Char} {cs : List Char} (h : N.PrintsApart tokens text)
    (h' : N.Prints more (c :: cs)) (hname : isNameChar c = false) :
    N.Prints (tokens ++ more) (text ++ c :: cs) := by
  intro behind rest hrest
  rw [List.append_assoc, List.append_assoc]
  exact h _ _ (h' _ _ hrest) (by simpa using hname)

theorem Prints.mark {c : Char} (h : N.Spelling t [c]) (hname : isNameChar c = false)
    (hhash : c ≠ '#') : N.Prints [t] [c] :=
  fun _ rest hrest => .cons h (delimits_mark rest hname hhash) hrest

theorem Prints.wrapped {c d : Char} (h : N.Spelling t (c :: (text ++ [d])))
    (hname : isNameChar d = false) (hhash : c ≠ '#') : N.Prints [t] (c :: (text ++ [d])) :=
  fun _ rest hrest => .cons h (delimits_wrapped text rest hname hhash) hrest

theorem prints_blank : N.Prints [.blank] [' '] :=
  .mark (.space (by decide)) (by decide) (by decide)

theorem prints_lineBreak : N.Prints [.lineBreak] ['\n'] :=
  .mark (.lineBreak (by decide)) (by decide) (by decide)

theorem prints_groupOpen : N.Prints [.groupOpen] ['('] :=
  .mark .groupOpen (by decide) (by decide)

theorem prints_groupClose : N.Prints [.groupClose] [')'] :=
  .mark .groupClose (by decide) (by decide)

theorem prints_define : N.Prints [.define] [':', ':', '='] :=
  fun _ _ hrest => .cons .define ⟨apart_of_getLast (by simp; decide), by simp⟩ hrest

end Prints

section Plain

variable {allowed : Nat → Prop}

/-- A code point by its number. -/
def codeText (code : Nat) : List Char :=
  '\\' :: 'U' :: Text.hexDigits true 8 code

theorem spells_codeText {code : Nat} (h : code ≤ maxCodePoint) :
    (plain allowed).Spells (codeText code) code := by
  have hne : Text.hexDigits true 8 code ≠ [] :=
    List.ne_nil_of_length_pos (by rw [Text.length_hexDigits]; decide)
  have hfits : code < 16 ^ 8 := Nat.lt_of_le_of_lt h (by decide)
  exact .numbered rfl (Text.length_hexDigits _ _ _)
    ⟨hne, fun _ hd => Text.isHexDigit_of_mem_hexDigits hd, (Text.ofHexDigits_hexDigits true hfits).symm⟩ h

theorem exists_quoted {codes : List Nat} (h : ∀ code ∈ codes, code ≤ maxCodePoint) :
    ∃ text, (plain allowed).Quoted text codes := by
  induction codes with
  | nil => exact ⟨[], .nil⟩
  | cons code rest ih =>
    obtain ⟨hcode, hrest⟩ := List.forall_mem_cons.1 h
    obtain ⟨text, htext⟩ := ih hrest
    exact ⟨_, .cons (spells_codeText hcode) (by simp [codeText]) htext⟩

theorem exists_bracketed {ranges : List (Nat × Nat)}
    (h : ∀ range ∈ ranges, range.1 ≤ maxCodePoint ∧ range.2 ≤ maxCodePoint) :
    ∃ text, (plain allowed).Bracketed text ranges ∧ text.head? ≠ some '^' := by
  induction ranges with
  | nil => exact ⟨[], .nil, by simp⟩
  | cons range rest ih =>
    obtain ⟨⟨hlo, hhi⟩, hrest⟩ := List.forall_mem_cons.1 h
    obtain ⟨text, htext, -⟩ := ih hrest
    exact ⟨_, .range (spells_codeText hlo) (by simp [codeText]) (spells_codeText hhi)
      (by simp [codeText]) htext, by simp [codeText]⟩

theorem count_toDigits {n : Nat} (h : allowed (Nat.toDigits 10 n).length) :
    (plain allowed).count (Nat.toDigits 10 n) n :=
  ⟨[], Nat.toDigits 10 n, [], by simp, by simp [IsSpaces], by simp [IsSpaces], Nat.toDigits_ne_nil,
    fun _ hd => Text.isDigit_of_mem_toDigits hd, h, by rw [Nat.ofDigitChars_ten_toDigits]⟩

theorem exists_counted {low : Nat} {high : Option Nat} (hlow : allowed (Nat.toDigits 10 low).length)
    (hhigh : ∀ n ∈ high, allowed (Nat.toDigits 10 n).length) :
    ∃ text, (plain allowed).Counted ('\x7b' :: (text ++ ['\x7d'])) low (high.map Int.ofNat) := by
  have hplain (n : Nat) : '\x7d' ∉ Nat.toDigits 10 n ∧ ',' ∉ Nat.toDigits 10 n :=
    ⟨Text.notMem_toDigits (by decide), Text.notMem_toDigits (by decide)⟩
  cases high with
  | none =>
    have hgap : (plain allowed).gap [] := fun _ hc => absurd hc List.not_mem_nil
    refine ⟨_, .atLeast (count_toDigits hlow) hgap ?_ ?_⟩
    · simpa using (hplain low).1
    · simpa using (hplain low).2
  | some n =>
    refine ⟨_, .between (count_toDigits hlow) (count_toDigits (hhigh n rfl)) ?_ ?_⟩
    · simpa using ⟨(hplain low).1, (hplain n).1⟩
    · simpa using ⟨(hplain low).2, (hplain n).2⟩

end Plain

end Numerals

section Printing

open Numerals

variable {allowed : Nat → Prop} {N : Numerals} {deep : Bool}

/-- An item can be written, with a blank behind it as well. -/
def CanWrite (N : Numerals) (node : Node) : Prop :=
  ∃ tokens text, Phrased (.item node) tokens ∧ N.PrintsApart tokens text

theorem printsApart_name {name : String} (h : IsReadable name) :
    N.PrintsApart [.name name] name.toList := by
  obtain ⟨hne, hchars⟩ := h
  intro more rest hrest hname
  have hspells : N.Spelling (.name (String.ofList name.toList)) name.toList := .name hne hchars
  rw [String.ofList_toList] at hspells
  refine .cons hspells ⟨apart_of_head hname, fun hhead => ?_⟩ hrest
  obtain ⟨behind, hbehind⟩ := List.head?_eq_some_iff.1 hhead
  exact absurd (hchars '#' (by simp [hbehind])) (by decide)

theorem exists_row {items : List Node} (h : ∀ node ∈ items, CanWrite N node) :
    ∃ tokens text, Phrased (.row deep items) tokens ∧ N.Prints tokens text := by
  induction items using List.reverseRecOn with
  | nil => exact ⟨[], [], .void, .nil⟩
  | append_singleton items node ih =>
    obtain ⟨tokens, text, hrow, hprints⟩ := ih fun other hother => h other (by simp [hother])
    obtain ⟨tokens', text', hitem, hprints'⟩ := h node (by simp)
    have hgap : IsGap deep .blank := by simp [IsGap]
    refine ⟨_, text ++ (text' ++ [' ']), (hrow.item hitem).gap hgap, ?_⟩
    rw [List.append_assoc]
    exact hprints.append (hprints'.append prints_blank (by decide))

/-- Each branch is written as a row of its own, with a single item. -/
theorem exists_branches {branches : List Node} (hne : branches ≠ [])
    (h : ∀ node ∈ branches, CanWrite N node) :
    ∃ tokens text, Phrased (.branches deep branches) tokens ∧ N.Prints tokens text := by
  have hone (node : Node) (hnode : CanWrite N node) :
      ∃ tokens text, Phrased (.row deep [node]) tokens ∧ N.Prints tokens text :=
    exists_row (by simpa using hnode)
  induction branches using List.reverseRecOn with
  | nil => exact absurd rfl hne
  | append_singleton branches node ih =>
    obtain ⟨tokens, text, hrow, hprints⟩ := hone node (h node (by simp))
    by_cases hnil : branches = []
    · subst hnil
      exact ⟨tokens, text, hrow.single, hprints⟩
    · obtain ⟨tokens', text', hbefore, hprints'⟩ := ih hnil fun other hother => h other (by simp [hother])
      have hbar : N.Prints [.bar] ['|'] := .mark .bar (by decide) (by decide)
      exact ⟨_, _, hbefore.bar hrow, hprints'.append (hbar.append hprints)⟩

/-- What can be written as branches can be written in brackets. -/
theorem canWrite_group {branches : List Node} {tokens : List Token} {text : List Char}
    (h : Phrased (.branches true branches) tokens) (hprints : N.Prints tokens text) :
    CanWrite N (branchNode branches) :=
  ⟨_, _, h.group, (prints_groupOpen.append (hprints.append prints_groupClose)).apart⟩

theorem mem_ruleNamesOf {nodes : List Node} {node : Node} {name : String} (hnode : node ∈ nodes)
    (hname : name ∈ node.ruleNames) : name ∈ Node.ruleNamesOf nodes := by
  rw [Node.ruleNamesOf_eq]
  exact List.mem_flatMap.2 ⟨node, hnode, hname⟩

theorem rowNode_of_length_ne_one {items : List Node} (h : items.length ≠ 1) :
    rowNode items = .seq items := by
  match items with
  | [] => rfl
  | [_] => exact absurd rfl h
  | _ :: _ :: _ => rfl

theorem branchNode_of_two_le_length {branches : List Node} (h : 2 ≤ branches.length) :
    branchNode branches = .alt branches := by
  match branches with
  | [] => simp at h
  | [_] => simp at h
  | _ :: _ :: _ => rfl

/-- **Every proper tree can be written.** -/
theorem IsTree.canWrite {counts : Nat → Prop} {node : Node} (h : IsTree counts node)
    (hcounts : ∀ n, counts n → allowed (Nat.toDigits 10 n).length)
    (hnames : ∀ name ∈ node.ruleNames, IsReadable name) : CanWrite (plain allowed) node := by
  induction h with
  | @literal codes points =>
    obtain ⟨text, htext⟩ : ∃ text, (plain allowed).Quoted text codes := exists_quoted points
    exact ⟨_, _, .literal codes, (Prints.wrapped (.literal htext) (by decide) (by decide)).apart⟩
  | @charClass negated ranges points =>
    obtain ⟨text, htext, hhead⟩ :
        ∃ text, (plain allowed).Bracketed text ranges ∧ text.head? ≠ some '^' :=
      exists_bracketed points
    cases negated with
    | false =>
      exact ⟨_, _, .charClass false ranges,
        (Prints.wrapped (.charClass htext hhead) (by decide) (by decide)).apart⟩
    | true =>
      have hspells : (plain allowed).Spelling (.charClass true ranges) ('[' :: (('^' :: text) ++ [']'])) :=
        .exceptClass htext
      exact ⟨_, _, .charClass true ranges, (Prints.wrapped hspells (by decide) (by decide)).apart⟩
  | rule name =>
    exact ⟨_, name.toList, .name name, printsApart_name (hnames name (by simp [Node.ruleNames]))⟩
  | @seq items several trees ih =>
    have hall : ∀ node ∈ items, CanWrite (plain allowed) node := fun node hnode =>
      ih node hnode fun name hname => hnames name (mem_ruleNamesOf hnode hname)
    obtain ⟨tokens, text, hrow, hprints⟩ := exists_row hall
    have hwritten := canWrite_group hrow.single hprints
    rwa [rowNode_of_length_ne_one several] at hwritten
  | @alt branches several trees ih =>
    have hall : ∀ node ∈ branches, CanWrite (plain allowed) node := fun node hnode =>
      ih node hnode fun name hname => hnames name (mem_ruleNamesOf hnode hname)
    have hne : branches ≠ [] := by
      rintro rfl
      simp at several
    obtain ⟨tokens, text, hbranches, hprints⟩ := exists_branches hne hall
    have hwritten := canWrite_group hbranches hprints
    rwa [branchNode_of_two_le_length several] at hwritten
  | @rep node tree low high least most ih =>
    obtain ⟨tokens, text, hitem, hprints⟩ := ih hnames
    obtain ⟨counts, hcounted⟩ := exists_counted (hcounts low least) fun n hn => hcounts n (most n hn)
    have hbraces : (plain allowed).Prints [.times low (high.map Int.ofNat)] ('\x7b' :: (counts ++ ['\x7d'])) :=
      .wrapped (.times hcounted) (by decide) (by decide)
    exact ⟨_, _, hitem.times _ _, (hprints.append hbraces (by decide)).apart⟩

/-- Each rule is written in a line of its own. -/
theorem exists_ruled {counts : Nat → Prop} (hcounts : ∀ n, counts n → allowed (Nat.toDigits 10 n).length)
    {g : Grammar} (hnames : ∀ rule ∈ g, IsReadable rule.1)
    (htrees : ∀ rule ∈ g, IsTree counts rule.2)
    (hreferences : ∀ rule ∈ g, ∀ name ∈ rule.2.ruleNames, IsReadable name) :
    ∃ tokens text, Ruled tokens g ∧ (plain allowed).Prints tokens text := by
  induction g using List.reverseRecOn with
  | nil => exact ⟨[], [], .nil, .nil⟩
  | append_singleton g rule ih =>
    obtain ⟨name, node⟩ := rule
    have hlast : (name, node) ∈ g ++ [(name, node)] := by simp
    obtain ⟨tokens, text, hruled, hprints⟩ := ih
      (fun rule hrule => hnames rule (List.mem_append_left _ hrule))
      (fun rule hrule => htrees rule (List.mem_append_left _ hrule))
      (fun rule hrule => hreferences rule (List.mem_append_left _ hrule))
    have hwritten := (htrees _ hlast).canWrite hcounts (hreferences _ hlast)
    obtain ⟨body, bodyText, hbody, hbodyPrints⟩ :
        ∃ body text, Phrased (.branches false [node]) body ∧ (plain allowed).Prints body text :=
      exists_branches (by simp) (by simpa using hwritten)
    have hname : (plain allowed).PrintsApart [.name name] name.toList := printsApart_name (hnames _ hlast)
    have hheader : Header name (.name name :: ([] ++ [.define])) := .intro (by simp)
    exact ⟨_, _, hruled.rule hheader hbody,
      hprints.append
        ((hname.append prints_define (by decide)).append (hbodyPrints.append prints_lineBreak))⟩

theorem IsProper.isReadable_of_mem {counts : Nat → Prop} {g : Grammar} (h : IsProper counts g)
    {rule : String × Node} (hrule : rule ∈ g) {name : String} (hname : name ∈ rule.2.ruleNames) :
    IsReadable name := by
  obtain ⟨body, hbody⟩ := Option.isSome_iff_exists.1 (h.closed rule hrule name hname)
  obtain ⟨before, behind, hg, -⟩ := List.lookup_eq_some_iff.1 hbody
  exact h.names (name, body) (by simp [hg])

/-- **Every proper grammar can be written.** -/
theorem IsProper.exists_renders {counts : Nat → Prop} {g : Grammar} (h : IsProper counts g)
    (hcounts : ∀ n, counts n → allowed (Nat.toDigits 10 n).length) :
    ∃ text : String, (plain allowed).Renders text.toList g := by
  obtain ⟨tokens, text, hruled, hprints⟩ :=
    exists_ruled hcounts h.names h.trees fun rule hrule name hname => h.isReadable_of_mem hrule hname
  have hlexical := hprints [] [] .nil
  rw [List.append_nil, List.append_nil] at hlexical
  refine ⟨String.ofList text, tokens, ?_, .closed hruled⟩
  rwa [String.toList_ofList]

end Printing

/-! ## Reading back -/

/-- **Whatever way a grammar is written, it is read back.** A proper grammar can be written in the
    dialect, and every way to write it is read as that grammar, as long as no count has more digits
    than a numeral may have. -/
theorem every_rendering_is_read {g : Grammar} (h : IsProper (· < 10 ^ Text.maxNumeralDigits) g) :
    (∃ text : String, (Numerals.plain (· ≤ Text.maxNumeralDigits)).Renders text.toList g) ∧
      ∀ text : String, (Numerals.plain (· ≤ Text.maxNumeralDigits)).Renders text.toList g →
        ofText text = .ok g := by
  refine ⟨h.exists_renders fun n hn => ?_, fun text htext => ?_⟩
  · exact (Nat.length_toDigits_le_iff (by decide) (by decide)).2 hn
  · exact ofText_eq_ok_iff.2 ⟨htext.mono (Numerals.plain_below fun _ h => h), h.toIsWellFormed⟩

/-- The letter `a` once or twice, or nothing. -/
def onceOrTwice : Grammar :=
  [("root", .alt [.seq [], .rep (.rule "a") 1 (some 2)]), ("a", .literal [97])]

theorem onceOrTwice_is_read : ∃ text : String,
    (Numerals.plain (· ≤ Text.maxNumeralDigits)).Renders text.toList onceOrTwice ∧
      ofText text = .ok onceOrTwice := by
  have hsmall (n : Nat) (hn : n < 10) : n < 10 ^ Text.maxNumeralDigits :=
    hn.trans_le (Nat.le_self_pow (by decide) 10)
  have hrep : IsTree (· < 10 ^ Text.maxNumeralDigits) (.rep (.rule "a") (1 : Nat) ((some 2).map Int.ofNat)) :=
    .rep (.rule "a") (hsmall 1 (by decide)) (by simpa using hsmall 2 (by decide))
  have hproper : IsProper (· < 10 ^ Text.maxNumeralDigits) onceOrTwice := by
    refine ⟨⟨by decide, by rw [IsClosed]; decide⟩, by decide, ?_⟩
    simp only [onceOrTwice, List.forall_mem_cons, List.not_mem_nil, false_implies, implies_true, and_true]
    exact ⟨.alt (by decide) (by simpa using ⟨.seq (by decide) (by simp), hrep⟩),
      .literal (by decide)⟩
  obtain ⟨⟨text, htext⟩, hread⟩ := every_rendering_is_read hproper
  exact ⟨text, htext, hread text htext⟩

/-- Escapes, brackets that are not needed, blanks, comments and line breaks change nothing. -/
example : ofText "# a\nroot ::= (| \t(a)\x7b 1,02 \x7d # twice\r\n)\n\na ::=\"\\x61\"" = .ok onceOrTwice :=
  rfl

/-- Letters, at most as many as the digits say. -/
def countText (digits : List Char) : List Char :=
  ['r', 'o', 'o', 't', ' ', ':', ':', '=', ' ', '"', 'a', '"', '\x7b', '0', ','] ++ digits ++
    ['\x7d', '\n']

/-- The grammar of such a text. -/
def countGrammar (digits : List Char) : Grammar :=
  [("root", .rep (.literal [97]) 0 (some (Nat.ofDigitChars 10 digits 0 : Nat)))]

section Counts

variable {digits : List Char} (hne : digits ≠ []) (hdigits : ∀ c ∈ digits, c.isDigit = true)

theorem isProper_countGrammar (digits : List Char) :
    IsProper (fun _ => True) (countGrammar digits) := by
  refine ⟨⟨by simp [countGrammar], ?_⟩, ?_, ?_⟩
  · simp [countGrammar, IsClosed, Node.ruleNames]
  · simpa [countGrammar] using (by decide : IsReadable "root")
  · have htree : IsTree (fun _ => True)
        (.rep (.literal [97]) (0 : Nat) ((some (Nat.ofDigitChars 10 digits 0)).map Int.ofNat)) :=
      .rep (.literal (by decide)) trivial (by simp)
    simpa [countGrammar] using htree

include hdigits

theorem notMem_digits {c : Char} (hc : c.isDigit = false) : c ∉ digits := by
  intro hmem
  rw [hdigits c hmem] at hc
  cases hc

include hne

theorem lexical_countText : Numerals.documented.Lexical
    (.name "root" :: .blank :: .define :: .blank :: .literal [97] :: .times 0
      (some (Nat.ofDigitChars 10 digits 0 : Nat)) :: .lineBreak :: [])
    (countText digits) := by
  open Numerals in
  have hname : documented.PrintsApart [.name "root"] ['r', 'o', 'o', 't'] :=
    printsApart_name (by decide)
  have hquoted : documented.Quoted (['a'] ++ []) [97] :=
    .cons (.raw (by decide)) (by decide) .nil
  have hliteral : documented.Prints [.literal [97]] ('"' :: ((['a'] ++ []) ++ ['"'])) :=
    .wrapped (.literal hquoted) (by decide) (by decide)
  have hzero : documented.count ['0'] 0 :=
    ⟨[], ['0'], [], rfl, by simp [IsSpaces], by simp [IsSpaces], by simp, by decide, trivial, rfl⟩
  have hmost : documented.count digits (Nat.ofDigitChars 10 digits 0 : Nat) :=
    ⟨[], digits, [], by simp, by simp [IsSpaces], by simp [IsSpaces], hne, hdigits, trivial, rfl⟩
  have hinside : '\x7d' ∉ ['0'] ++ digits := by simpa using notMem_digits hdigits (by decide)
  have hcomma : ',' ∉ ['0'] ++ digits := by simpa using notMem_digits hdigits (by decide)
  have htimes : documented.Prints [.times 0 (some (Nat.ofDigitChars 10 digits 0 : Nat))]
      ('\x7b' :: (['0'] ++ ',' :: digits ++ ['\x7d'])) :=
    .wrapped (.times (.between hzero hmost hinside hcomma)) (by decide) (by decide)
  have hall := (hname.append (prints_blank.append prints_define) (by decide)).append
    ((prints_blank.append (hliteral.append htimes)).append prints_lineBreak) [] [] .nil
  simpa [countText] using hall

theorem renders_countText : Numerals.documented.Renders (countText digits) (countGrammar digits) := by
  have hheader : Header "root" (.name "root" :: ([.blank] ++ [.define])) := .intro (by simp)
  have hgap : IsGap false .blank := trivial
  have hitem := (Phrased.literal [97]).times 0 (some (Nat.ofDigitChars 10 digits 0 : Nat))
  have hbody := ((Phrased.void.gap hgap).item hitem).single
  exact ⟨_, lexical_countText hne hdigits, .closed (Ruled.nil.rule hheader hbody)⟩

omit hne in
theorem lexemes_countText (hlong : Text.maxNumeralDigits < digits.length) :
    lexemes (String.ofList (countText digits)) =
      [⟨0, 'r', .name "root"⟩, ⟨4, ' ', .blank⟩, ⟨5, ':', .define⟩, ⟨8, ' ', .blank⟩,
        ⟨9, '"', .literal [97]⟩, ⟨12, '\x7b',
          .broken (.grammar (.repetition (String.ofList ('0' :: ',' :: digits))) (some 12))⟩] := by
  obtain ⟨n, hn⟩ : ∃ n, (countText digits).length = n + 6 :=
    ⟨(countText digits).length - 6, by simp [countText]⟩
  have hbraces : token '\x7b' ⟨12, '\x7b' :: '0' :: ',' :: (digits ++ ['\x7d', '\n'])⟩ =
      (.broken (.grammar (.repetition (String.ofList ('0' :: ',' :: digits))) (some 12)),
        ⟨12, '\x7b' :: '0' :: ',' :: (digits ++ ['\x7d', '\n'])⟩) :=
    token_tooLong 12 ['\n'] (by decide : ',' ∉ ['0']) (by decide) hdigits hlong
  have hbefore : lexemesFrom (n + 6) ⟨0, countText digits⟩ =
      [⟨0, 'r', .name "root"⟩, ⟨4, ' ', .blank⟩, ⟨5, ':', .define⟩, ⟨8, ' ', .blank⟩,
        ⟨9, '"', .literal [97]⟩] ++
      lexemesFrom (n + 1) ⟨12, '\x7b' :: '0' :: ',' :: (digits ++ ['\x7d', '\n'])⟩ := by
    rfl
  have hlast : lexemesFrom (n + 1) ⟨12, '\x7b' :: '0' :: ',' :: (digits ++ ['\x7d', '\n'])⟩ =
      [⟨12, '\x7b',
        .broken (.grammar (.repetition (String.ofList ('0' :: ',' :: digits))) (some 12))⟩] := by
    simp only [lexemesFrom, hbraces]
  rw [lexemes, String.toList_ofList, hn, Text.Cursor.start, hbefore, hlast]
  rfl

omit hne in
theorem refused_countText (hlong : Text.maxNumeralDigits < digits.length) :
    ofText (String.ofList (countText digits)) =
      .error (.grammar (.repetition (String.ofList ('0' :: ',' :: digits))) (some 12)) := by
  rw [ofText, lexemes_countText hdigits hlong]
  rfl

end Counts

/-- A count with one digit more than a numeral may have. -/
def longDigits : List Char :=
  List.replicate (Text.maxNumeralDigits + 1) '1'

/-- Such a count is written in the dialect, and it is not read. Neither is a quantifier with a blank in
    front of it. -/
theorem longDigits_are_refused : IsProper (fun _ => True) (countGrammar longDigits) ∧
    Numerals.documented.Renders (countText longDigits) (countGrammar longDigits) ∧
      ofText (String.ofList (countText longDigits)) =
        .error (.grammar (.repetition (String.ofList ('0' :: ',' :: longDigits))) (some 12)) ∧
      ofText "root ::= \"a\" ?" = .error (.grammar (.unexpected '?') (some 13)) := by
  have hdigits : ∀ c ∈ longDigits, c.isDigit = true := by
    intro c hc
    rw [List.eq_of_mem_replicate hc]
    decide
  have hlong : Text.maxNumeralDigits < longDigits.length := by
    rw [longDigits, List.length_replicate]
    exact Nat.lt_succ_self _
  have hne : longDigits ≠ [] := List.ne_nil_of_length_pos (Nat.zero_lt_of_lt hlong)
  exact ⟨isProper_countGrammar _, renders_countText hne hdigits,
    refused_countText hdigits hlong, rfl⟩

end Grammar

end SchemaGrammar
