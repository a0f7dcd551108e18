import SchemaGrammar.Grammar.Repetition
import SchemaGrammar.IntRange
import SchemaGrammar.Proofs.Json.Lines
import SchemaGrammar.Proofs.Rules.Catalog
import SchemaGrammar.Proofs.Rules.Exclusion
import SchemaGrammar.Proofs.Rules.IntRange
import SchemaGrammar.Proofs.Work

set_option autoImplicit false

/-! # Rules on one line

A table is listable if each body in it is on one line. Names are on one line by themselves
(`IsSlot.isOneLine`), and so are the built-in rules, literals, counted items, ranges of integers and
what excludes some keys, provided that what they are made from is. -/

namespace SchemaGrammar

open Text (IsOneLine isOneLine_ofList isOneLine_intercalate isOneLine_natText endsLine)
open Work (Keeps)

/-! ## Tables -/

namespace RuleTable

/-- Each body is on one line. -/
def IsListable (t : RuleTable) : Prop :=
  ∀ rule ∈ t.rules, IsOneLine rule.2

variable {t : RuleTable} {name slot body : String}

theorem isListable_new : new.IsListable := by
  intro rule hrule
  obtain rfl := List.mem_singleton.1 hrule
  exact (by decide : IsOneLine Builtin.space)

theorem endsLine_of_keepsInName {c : Char} (h : keepsInName c = true) : endsLine c = false :=
  Text.endsLine_of_isBlank (isBlank_of_keepsInName h)

theorem isOneLine_escapeName (name : String) : IsOneLine (escapeName name) :=
  isOneLine_ofList.2 fun c hc => endsLine_of_keepsInName (keepsInName_dashRuns _ (fun _ h => h) _ _ c hc)

theorem IsSlot.isOneLine (h : IsSlot name slot) : IsOneLine slot := by
  rcases h with rfl | ⟨i, rfl⟩
  · exact isOneLine_escapeName name
  · exact (isOneLine_escapeName name).append (isOneLine_natText i)

theorem IsListable.put (h : t.IsListable) (hbody : IsOneLine body) (slot : String) :
    (t.put slot body).IsListable := by
  intro rule hrule
  rcases Assoc.mem_of_mem_set hrule with hold | hnew
  · exact h rule hold
  · obtain rfl := hnew
    exact hbody

/-- A body on one line keeps the table listable. -/
theorem keeps_addRule (name : String) (hbody : IsOneLine body) :
    Keeps IsListable IsOneLine (addRule name body) := by
  intro t slot t' ht hrun
  have hadd : (t.add name body) = (slot, t') := addRule_eq_ok.1 hrun
  unfold add at hadd
  dsimp only at hadd
  split_ifs at hadd with hreserved
  · obtain ⟨rfl, rfl⟩ := Prod.mk.inj hadd
    exact ⟨ht.put hbody _, isOneLine_escapeName name⟩
  · split at hadd
    · obtain ⟨rfl, rfl⟩ := Prod.mk.inj hadd
      exact ⟨ht.put hbody _, isOneLine_escapeName name⟩
    · split_ifs at hadd with hsame
      · obtain ⟨rfl, rfl⟩ := Prod.mk.inj hadd
        exact ⟨ht, isOneLine_escapeName name⟩
      · obtain ⟨rfl, rfl⟩ := Prod.mk.inj hadd
        exact ⟨ht.put hbody _, @IsSlot.isOneLine name _ (.inr ⟨_, rfl⟩)⟩

/-- The bodies of the catalog are on one line. -/
theorem isOneLine_of_get {rule : Builtin} (h : Builtin.get name = .ok rule) : IsOneLine rule.body := by
  have hall : ∀ cs ∈ Builtin.catalog.map fun x => x.2.body.toList, ∀ c ∈ cs, endsLine c = false := by
    -- the literals are given as characters, which the kernel need not decode then
    simp only [Builtin.catalog, Builtin.values, Builtin.formats, Builtin.times, Builtin.hex,
      List.cons_append, List.nil_append, List.map_cons, List.map_nil, String.toList_append]
    repeat rw [String.toList_ofList]
    decide +kernel
  have hmem : (name, rule) ∈ Builtin.catalog := Assoc.mem_of_lookup (Builtin.find?_of_get h)
  exact hall rule.body.toList (List.mem_map.2 ⟨(name, rule), hmem, rfl⟩)

theorem keeps_addBuiltinFrom (depth : Nat) (name : String) {rule : Builtin}
    (hrule : IsOneLine rule.body) : Keeps IsListable IsOneLine (addBuiltinFrom depth name rule) := by
  induction depth generalizing name rule with
  | zero => exact .throw _
  | succ depth ih =>
    refine (keeps_addRule name hrule).bind fun stored hstored => ?_
    refine Keeps.bind (Keeps.forM fun need _ => ?_) fun _ _ => .pure hstored
    refine (Keeps.ofExcept (Q := fun needed => IsOneLine needed.body)
      fun needed hget => isOneLine_of_get hget).bind fun needed hneeded => ?_
    refine Keeps.get.bind fun t _ => ?_
    split
    · exact (ih need hneeded).bind fun _ _ => .pure trivial
    · split_ifs
      · exact .throw _
      · exact .pure trivial

theorem keeps_addNamed (name builtin : String) :
    Keeps IsListable IsOneLine (addNamed name builtin) :=
  (Keeps.ofExcept (Q := fun rule => IsOneLine rule.body) fun _ hget => isOneLine_of_get hget).bind
    fun _ hrule => keeps_addBuiltinFrom _ name hrule

end RuleTable

/-! ## Literals and counted items -/

namespace Grammar

theorem isOneLine_literalText {s : String} (h : IsOneLine s) : IsOneLine (literalText s) := by
  refine Text.isOneLine_enclosed (by decide) fun d hd => ?_
  obtain ⟨c, hc, hd⟩ := List.mem_flatMap.1 hd
  unfold literalChar at hd
  split_ifs at hd
  iterate 4 exact Text.endsLine_of_mem_escape (by decide) (by simp) hd
  exact List.mem_singleton.1 hd ▸ h c hc

variable {item separator e : String} {low high : Json}

theorem isOneLine_repetition (hitem : IsOneLine item) (hlow : IsOneLine low.shown)
    (hhigh : IsOneLine high.shown) (h : repetition item low high = .ok e) : IsOneLine e := by
  have hmarked {mark : String} (hmark : IsOneLine mark) : IsOneLine (item ++ mark) :=
    hitem.append hmark
  unfold repetition at h
  obtain ⟨_, -, h⟩ := Work.except_bind_eq_ok.1 h
  dsimp only at h
  split_ifs at h <;> obtain rfl := Except.ok.inj h
  · exact (by decide : IsOneLine "")
  · exact hmarked (by decide)
  · exact hmarked (by decide)
  · exact hmarked (by decide)
  · exact .between (.between (hmarked (by decide)) hlow (by decide)) (by decide) (by decide)
  · exact .between (.between (hmarked (by decide)) hlow (by decide)) hhigh (by decide)

theorem isOneLine_countPred {v : Json} (h : IsOneLine v.shown) : IsOneLine (countPred v).shown := by
  unfold countPred
  split
  · exact Json.isOneLine_shownQuoted _
  · exact h

theorem isOneLine_separatedRepetition (hitem : IsOneLine item) (hseparator : IsOneLine separator)
    (hlow : IsOneLine low.shown) (hhigh : IsOneLine high.shown)
    (h : separatedRepetition item separator low high = .ok e) : IsOneLine e := by
  unfold separatedRepetition at h
  obtain ⟨_, -, h⟩ := Work.except_bind_eq_ok.1 h
  split at h
  · obtain rfl := Except.ok.inj h
    exact (by decide : IsOneLine "")
  split at h
  · obtain rfl := Except.ok.inj h
    exact hitem.append (by decide)
  obtain ⟨above, -, h⟩ := Work.except_bind_eq_ok.1 h
  obtain ⟨rest, hrest, h⟩ := Work.except_bind_eq_ok.1 h
  have hpair : IsOneLine ("(" ++ separator ++ " " ++ item ++ ")") :=
    .between (.append (.append (by decide) hseparator) (by decide)) hitem (by decide)
  have hfewer : IsOneLine (if above then countPred low else .num (.whole 0)).shown := by
    split_ifs
    · exact isOneLine_countPred hlow
    · exact (by decide : IsOneLine (Json.num (.whole 0)).shown)
  have hall : IsOneLine (Text.dropTrailingBlanks (item ++ " " ++ rest)) :=
    (IsOneLine.between hitem (by decide)
      (isOneLine_repetition hpair hfewer (isOneLine_countPred hhigh) hrest)).dropTrailingBlanks
  obtain rfl := Except.ok.inj h
  split_ifs
  · exact .between (by decide) hall (by decide)
  · exact hall

end Grammar

/-! ## Ranges of integers -/

namespace IntRange

theorem isOneLine_digitRange {a b : Char} (ha : endsLine a = false) (hb : endsLine b = false) :
    IsOneLine (digitRange a b) := by
  have hchar {c : Char} (hc : endsLine c = false) : IsOneLine c.toString := by
    intro d hd
    obtain rfl : d = c := by simpa [Char.toString] using hd
    exact hc
  unfold digitRange
  split_ifs
  · exact .between (by decide) (hchar ha) (by decide)
  · exact .between (.between (by decide) (hchar ha) (by decide)) (hchar hb) (by decide)

theorem isOneLine_anyDigits (count : Nat) : IsOneLine (anyDigits count) := by
  unfold anyDigits
  split_ifs
  · exact (by decide : IsOneLine "[0-9]")
  · exact .between (by decide) (isOneLine_natText count) (by decide)

theorem isOneLine_moreDigits {least : Nat} {most : Number} {e : String}
    (h : moreDigits least most = .ok e) : IsOneLine e := by
  obtain ⟨-, rfl⟩ | ⟨-, rfl⟩ := moreDigits_eq_ok h
  · exact isOneLine_anyDigits least
  · exact .append (.between (.append (by decide) (isOneLine_natText least)) (by decide)
      most.isOneLine_text) (by decide)

variable {ds as bs : List Char}

theorem isOneLine_quotedDigits (h : AreDigits ds) : IsOneLine (quotedDigits ds) :=
  .between (by decide) (isOneLine_ofList.2 fun d hd => Text.endsLine_of_isDigit (h d hd)) (by decide)

theorem isOneLine_behind {e : String} (h : AreDigits ds) (he : IsOneLine e) :
    IsOneLine (behind ds e) := by
  unfold behind
  split_ifs
  · exact he
  · exact .between (isOneLine_quotedDigits h) (by decide) he

theorem isOneLine_uniformFrom (lead as bs : List Char) (hlead : AreDigits lead) (has : AreDigits as)
    (hbs : AreDigits bs) : IsOneLine (uniformFrom lead as bs) := by
  have hall : ∀ c ∈ Text.asciiDigits, endsLine c = false ∧ endsLine (nextDigit c) = false ∧
      endsLine (previousDigit c) = false := by
    decide
  induction lead, as, bs using uniformFrom.induct with
  | case1 lead as b bs ih =>
    obtain ⟨hb, hbs⟩ := areDigits_cons.1 hbs
    rw [uniformFrom, if_pos rfl]
    refine ih (fun d hd => ?_) (areDigits_cons.1 has).2 hbs
    rcases List.mem_append.1 hd with hd | hd
    · exact hlead d hd
    · rwa [List.mem_singleton.1 hd]
  | case2 lead a as b bs hab hempty =>
    obtain ⟨ha, -⟩ := hall a (Text.mem_asciiDigits (areDigits_cons.1 has).1)
    obtain ⟨hb, -⟩ := hall b (Text.mem_asciiDigits (areDigits_cons.1 hbs).1)
    rw [uniformFrom, if_neg hab, if_pos hempty]
    exact isOneLine_behind hlead (isOneLine_digitRange ha hb)
  | case3 lead a as b bs hab hempty rest ihzeros ihnines =>
    obtain ⟨ha, has⟩ := areDigits_cons.1 has
    obtain ⟨hb, hbs⟩ := areDigits_cons.1 hbs
    obtain ⟨ha, hnext, -⟩ := hall a (Text.mem_asciiDigits ha)
    obtain ⟨hb, -, hprevious⟩ := hall b (Text.mem_asciiDigits hb)
    have hnone : AreDigits [] := by simp [AreDigits]
    have hbelow := ihzeros hnone (areDigits_zeros _) hbs
    have habove := ihnines hnone has (areDigits_nines _)
    have hbetween {c d : Char} (hc : endsLine c = false) (hd : endsLine d = false) (count : Nat) :
        IsOneLine (digitRange c d ++ " " ++ anyDigits count) :=
      .between (isOneLine_digitRange hc hd) (by decide) (isOneLine_anyDigits _)
    have hhighest : IsOneLine (" | " ++ digitRange b b ++ " " ++ uniformFrom [] (zeros rest) bs) :=
      .between (.append (by decide) (isOneLine_digitRange hb hb)) (by decide) hbelow
    have hlowest : IsOneLine (digitRange a a ++ " (" ++ uniformFrom [] as (nines rest) ++ ")") :=
      .between (.append (isOneLine_digitRange ha ha) (by decide)) habove (by decide)
    rw [uniformFrom, if_neg hab, if_neg hempty]
    refine isOneLine_behind hlead (.between (by decide) ?_ (by decide))
    dsimp only
    split_ifs
    · exact (hbetween ha hprevious _).append hhighest
    · exact .between (.between hlowest (by decide) (isOneLine_digitRange hnext hb)) (by decide)
        (isOneLine_anyDigits _)
    · exact (IsOneLine.between (.between hlowest (by decide) (isOneLine_digitRange hnext hprevious))
        (by decide) (isOneLine_anyDigits _)).append hhighest
    · exact hlowest.append hhighest
  | case4 lead as bs hother =>
    rw [uniformFrom]
    · exact isOneLine_quotedDigits hlead
    · exact hother

theorem isOneLine_uniform (has : AreDigits as) (hbs : AreDigits bs) : IsOneLine (uniform as bs) :=
  isOneLine_uniformFrom [] as bs (by simp [AreDigits]) has hbs

theorem isOneLine_naturals (low high : Nat) : IsOneLine (naturals low high) := by
  refine isOneLine_intercalate (by decide) ?_
  have hlow := areDigits_digitsOf low
  generalize (digitsOf high).length - (digitsOf low).length = longer
  generalize digitsOf low = ds at hlow
  induction longer generalizing ds with
  | zero =>
    simp only [bandsFrom, List.mem_singleton, forall_eq]
    exact isOneLine_uniform hlow (areDigits_digitsOf high)
  | succ longer ih =>
    simp only [bandsFrom, List.forall_mem_cons]
    exact ⟨isOneLine_uniform hlow (areDigits_nines _),
      ih _ (areDigits_cons.2 ⟨rfl, areDigits_zeros _⟩)⟩

theorem isOneLine_negated {e : String} (h : IsOneLine e) : IsOneLine (negated e) :=
  .between (by decide) h (by decide)

theorem isOneLine_naturalsFrom {ceiling : Number} {low : Nat} {e : String}
    (h : naturalsFrom ceiling low = .ok e) : IsOneLine e := by
  have hown := isOneLine_uniform (areDigits_digitsOf low) (areDigits_nines (digitsOf low).length)
  obtain ⟨-, more, hmore, rfl⟩ | ⟨-, rfl⟩ := naturalsFrom_eq_ok h
  · exact .between hown (by decide) (isOneLine_moreDigits hmore)
  · exact hown

/-- The expression for a range of integers is on one line. -/
theorem isOneLine_expression {low high : Option Int} {maxDigits : Number} {e : String}
    (h : expression low high maxDigits = .ok e) : IsOneLine e := by
  have hbelow {n : Nat} {s : String} (hs : IsOneLine s) :
      IsOneLine (negated (naturals 1 n) ++ " | " ++ s) :=
    .between (isOneLine_negated (isOneLine_naturals 1 n)) (by decide) hs
  obtain ⟨-, -, hwritten⟩ := expression_eq_ok h
  cases hwritten with
  | from_ hside =>
    obtain ⟨-, rest, hrest, rfl⟩ | ⟨-, hrest⟩ := atLeast_eq_ok hside
    · exact hbelow (isOneLine_naturalsFrom hrest)
    · exact isOneLine_naturalsFrom hrest
  | upTo hside =>
    obtain ⟨-, rest, hrest, rfl⟩ | ⟨-, more, hmore, rfl⟩ := atMost_eq_ok hside
    · exact isOneLine_negated (isOneLine_naturalsFrom hrest)
    · exact .between (.append (by decide) (isOneLine_moreDigits hmore)) (by decide)
        (isOneLine_naturals _ _)
  | between _ he =>
    subst he
    unfold between
    split_ifs
    · exact isOneLine_negated (isOneLine_naturals _ _)
    · exact hbelow (isOneLine_naturals _ _)
    · exact isOneLine_naturals _ _

end IntRange

/-! ## Excluded keys -/

namespace Exclusion

/-- No edge of a trie ends a line. -/
inductive IsListable : Trie → Prop where
  | node {ends : Bool} {kids : List (Char × Trie)} (edges : ∀ x ∈ kids, endsLine x.1 = false)
      (below : ∀ x ∈ kids, IsListable x.2) : IsListable (.node ends kids)

theorem isListable_empty : IsListable Trie.empty :=
  .node (by simp) (by simp)

theorem IsListable.insert {trie : Trie} {cs : List Char} (h : IsListable trie)
    (hcs : ∀ c ∈ cs, endsLine c = false) : IsListable (trie.insert cs) := by
  induction cs generalizing trie with
  | nil =>
    cases h with
    | node edges below => exact .node edges below
  | cons c cs ih =>
    obtain ⟨hc, hcs⟩ := List.forall_mem_cons.1 hcs
    cases h with
    | node edges below =>
      refine .node (fun x hx => ?_) fun x hx => ?_
      · rcases mem_changeEdge hx with hmem | ⟨kid, -, rfl⟩
        · exact edges x hmem
        · exact hc
      · rcases mem_changeEdge hx with hmem | ⟨kid, rfl | hkid, rfl⟩
        · exact below x hmem
        · exact ih isListable_empty hcs
        · exact ih (below _ hkid) hcs

theorem isListable_ofTexts {texts : List (List Char)}
    (h : ∀ cs ∈ texts, ∀ c ∈ cs, endsLine c = false) : IsListable (Trie.ofTexts texts) := by
  have hfold : ∀ {trie : Trie}, IsListable trie →
      IsListable (texts.foldl (fun t cs => Trie.insert cs t) trie) := by
    induction texts with
    | nil => exact fun htrie => htrie
    | cons cs rest ih =>
      exact fun htrie => ih (fun other hother => h other (List.mem_cons_of_mem _ hother))
        (htrie.insert (h cs List.mem_cons_self))
  exact hfold isListable_empty

variable {char : String} {cs : List Char}

theorem isOneLine_classText (h : ∀ c ∈ cs, endsLine c = false) : IsOneLine (classText cs) := by
  refine isOneLine_ofList.2 fun d hd => ?_
  obtain ⟨c, hc, hd⟩ := List.mem_flatMap.1 hd
  unfold Grammar.classChar at hd
  split_ifs at hd
  · exact Text.endsLine_of_mem_escape (by decide) (fun _ => Text.endsLine_of_mem_hexDigits) hd
  · exact List.mem_singleton.1 hd ▸ h c hc

theorem isOneLine_hexTimes (count : Nat) : IsOneLine (hexTimes count) :=
  .between (.append (by decide) (by decide)) (isOneLine_natText count) (by decide)

/-- What leads off the trie is on one line. -/
theorem isOneLine_of_mem_leaving (hchar : IsOneLine char) (place : Place) {edges : List Char}
    (hedges : ∀ c ∈ edges, endsLine c = false) : ∀ e ∈ leaving place edges char, IsOneLine e := by
  have hmany {s : String} (hs : IsOneLine s) : IsOneLine (s ++ " " ++ char ++ "*") :=
    .between (.append hs (by decide)) hchar (by decide)
  have hother {cs : List Char} (hcs : ∀ c ∈ cs, endsLine c = false) (p : Char → Bool) :
      ∀ c ∈ cs.filter p, endsLine c = false :=
    fun c hc => hcs c (List.mem_of_mem_filter hc)
  cases place with
  | boundary =>
    have hraw : IsOneLine ("[^" ++ neverRaw ++ classText edges ++ "] " ++ char ++ "*") :=
      .between (.between (by decide) (isOneLine_classText hedges) (by decide)) hchar (by decide)
    have hescape : IsOneLine ("[\\\\] ([\"\\\\bfnrt] | \"u\" " ++ hexTimes 4 ++ ") " ++ char ++ "*") :=
      .between (.between (by decide) (isOneLine_hexTimes 4) (by decide)) hchar (by decide)
    unfold leaving
    dsimp only
    split_ifs
    · simpa using hraw
    · simpa using ⟨hraw, hescape⟩
  | escape =>
    have hletters := isOneLine_classText (hother (by decide : ∀ c ∈ escapeLetters, endsLine c = false)
      fun c => !edges.contains c)
    have hclass : IsOneLine ("[" ++ classText (escapeLetters.filter fun c => !edges.contains c) ++ "] " ++
        char ++ "*") :=
      .between (.between (by decide) hletters (by decide)) hchar (by decide)
    have hnumber : IsOneLine ("\"u\" " ++ hexTimes 4 ++ " " ++ char ++ "*") :=
      hmany (.append (by decide) (isOneLine_hexTimes 4))
    intro e he
    unfold leaving at he
    rcases List.mem_append.1 he with he | he
    · split_ifs at he
      · cases he
      · exact List.mem_singleton.1 he ▸ hclass
    · split_ifs at he
      · cases he
      · exact List.mem_singleton.1 he ▸ hnumber
  | digits missing =>
    have hdigits := isOneLine_ofList.2 (hother (by decide : ∀ c ∈ hexLetters, endsLine c = false)
      fun c => !edges.contains c)
    unfold leaving
    dsimp only
    split_ifs
    · simp
    · simp only [List.mem_singleton, forall_eq]
      exact hmany (.append (.between (by decide) hdigits (by decide))
        (.append (by decide) (isOneLine_hexTimes _)))
    · simp only [List.mem_singleton, forall_eq]
      exact hmany (.append (.between (by decide) hdigits (by decide)) (by decide))

theorem isOneLine_branches (hchar : IsOneLine char) (place : Place) {trie : Trie}
    (h : IsListable trie) : IsOneLine (branches char place trie) := by
  induction h generalizing place with
  | @node ends kids edges below ih =>
    have hmem (b : Char × String) (hb : b ∈ sortBranches (edgeBranches char place kids)) :
        ∃ x ∈ kids, b = (x.1, edgeBranch char place x.1 x.2) := by
      have hb := (List.mergeSort_perm _ _).mem_iff.1 hb
      rw [edgeBranches_eq_map] at hb
      obtain ⟨x, hx, rfl⟩ := List.mem_map.1 hb
      exact ⟨x, hx, rfl⟩
    have hbranch (x : Char × Trie) (hx : x ∈ kids) : IsOneLine (edgeBranch char place x.1 x.2) := by
      have htaken : IsOneLine ("[" ++ classText [x.1] ++ "]") :=
        .between (by decide) (isOneLine_classText (by simpa using edges x hx)) (by decide)
      unfold edgeBranch
      dsimp only
      split_ifs
      · exact .between (.append htaken (by decide)) hchar (by decide)
      · exact htaken
      · exact (IsOneLine.between (.append htaken (by decide)) (ih x hx _) (by decide)).append (by decide)
      · exact (IsOneLine.between (.append htaken (by decide)) (ih x hx _) (by decide)).append (by decide)
    rw [branches]
    refine isOneLine_intercalate (by decide) fun e he => ?_
    rcases List.mem_append.1 he with he | he
    · obtain ⟨b, hb, rfl⟩ := List.mem_map.1 he
      obtain ⟨x, hx, rfl⟩ := hmem b hb
      exact hbranch x hx
    · refine isOneLine_of_mem_leaving hchar place (fun c hc => ?_) e he
      obtain ⟨b, hb, rfl⟩ := List.mem_map.1 hc
      obtain ⟨x, hx, rfl⟩ := hmem b hb
      exact edges x hx

theorem isOneLine_body (hchar : IsOneLine char) {trie : Trie} (h : IsListable trie) :
    IsOneLine (body char trie) := by
  have hinside := isOneLine_branches hchar .boundary h
  unfold body
  split_ifs
  · exact .between (.append (by decide) hchar) (by decide) (by decide)
  · exact .between (.append (by decide) hchar) (by decide) (by decide)
  · exact .between (.between (by decide) hinside (by decide)) (by decide) (by decide)
  · exact .between (.between (by decide) hinside (by decide)) (by decide) (by decide)

/-- The body that excludes some values is on one line if the values keep to a line. -/
theorem keeps_bodyFor {values : List Json} (h : ∀ v ∈ values, v.keepsLine = true) :
    Keeps RuleTable.IsListable IsOneLine (bodyFor values) := by
  have htrie : IsListable (Trie.ofTexts (values.map content)) := by
    refine isListable_ofTexts fun cs hcs c hc => ?_
    obtain ⟨v, hv, rfl⟩ := List.mem_map.1 hcs
    exact Json.isOneLine_compact v (h v hv) c (List.mem_of_mem_drop (List.mem_of_mem_dropLast hc))
  exact (RuleTable.keeps_addNamed "char" "char").bind fun char hchar =>
    .pure (isOneLine_body hchar htrie)

end Exclusion

end SchemaGrammar
