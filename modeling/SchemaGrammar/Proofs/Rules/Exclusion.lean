import SchemaGrammar.Proofs.Exclusion.Trie

set_option autoImplicit false

/-! # Exclusions are strings

The expression for any string but some can be read, as the characters in it are spelled so that none
of them means anything else inside a class. Whichever way it leaves the trie, what it matches is
a string (`rowWithin_body`): behind each edge comes what completes the place there. -/

namespace SchemaGrammar

open Computability

open Grammar (Spells Bracketed IsWritable isWritable_of_lt classChar charWhere classLanguage)
open Standard (IsHexDigit IsEscapeLetter ws string)

namespace Grammar

/-! ## Characters of classes -/

/-- What stands in a class and goes on with anything but a dash. -/
def Starts (text : List Char) : Prop :=
  ∀ c ∈ text.head?, c ≠ '-'

theorem rangeFollows_of_starts {text : List Char} (h : Starts text) :
    rangeFollows (text ++ [']']) = false := by
  cases text with
  | nil => rfl
  | cons c rest =>
    have hc : c ≠ '-' := h c (by simp)
    rw [List.cons_append]
    unfold rangeFollows
    split
    · rename_i heq
      exact absurd (List.cons.inj heq).1 hc
    · rfl

/-- How a character of a class is spelled: by number if it means something there. -/
theorem spells_classChar (c : Char) :
    Spells (classChar c) c.toNat ∧
      ∀ d ∈ (classChar c).head?, d ≠ ']' ∧ d ≠ '-' ∧ d ≠ '^' := by
  rw [classChar]
  split_ifs with hspecial
  · have hsmall : c.toNat < 0x80 := by
      simp only [Bool.or_eq_true, decide_eq_true_eq, List.contains_iff_mem] at hspecial
      rcases hspecial with (hmem | hlt) | heq
      · have hall : ∀ d ∈ classSpecials, d.toNat < 0x80 := by decide
        exact hall c hmem
      · omega
      · omega
    refine ⟨?_, by simp⟩
    exact .numbered rfl (Text.length_hexDigits _ _ _) 
      (Text.readInt?_hexDigits (by decide) (hsmall.trans (by decide)))
      (by rw [maxCodePoint]; omega)
  · have hout : c ∉ classSpecials := by
      intro hmem
      simp [hmem] at hspecial
    have hne (d : Char) (hd : d ∈ classSpecials) : c ≠ d := by
      rintro rfl
      exact hout hd
    refine ⟨.raw (hne _ (by decide)), ?_⟩
    simpa using ⟨hne ']' (by decide), hne '-' (by decide), hne '^' (by decide)⟩

theorem starts_classChars (cs : List Char) : Starts (cs.flatMap classChar) := by
  cases cs with
  | nil => simp [Starts]
  | cons c rest =>
    obtain ⟨hspells, hhead⟩ := spells_classChar c
    obtain ⟨d, ds, hd⟩ := List.exists_cons_of_ne_nil hspells.ne_nil
    rw [hd] at hhead
    intro e he
    simp only [List.flatMap_cons, hd, List.cons_append, List.head?_cons, Option.mem_def,
      Option.some.injEq] at he
    exact (hhead e (by simp [he])).2.1

theorem bracketed_classChars (cs : List Char) :
    Bracketed (cs.flatMap classChar) (cs.map fun c => (c.toNat, c.toNat)) := by
  induction cs with
  | nil => exact .nil
  | cons c rest ih =>
    obtain ⟨hspells, hhead⟩ := spells_classChar c
    refine .single hspells (fun h => (hhead _ h).1 rfl) ?_ ih
    exact rangeFollows_of_starts (starts_classChars rest)

theorem head_classChars (cs : List Char) : (cs.flatMap classChar).head? ≠ some '^' := by
  cases cs with
  | nil => simp
  | cons c rest =>
    obtain ⟨hspells, hhead⟩ := spells_classChar c
    obtain ⟨d, ds, hd⟩ := List.exists_cons_of_ne_nil hspells.ne_nil
    rw [hd] at hhead
    simpa [hd] using (hhead d (by simp)).2.2

/-- A class of single characters holds these and no others. -/
theorem classHolds_chars (negated : Bool) (cs : List Char) (code : Nat) :
    Node.classHolds negated (cs.map fun c => (c.toNat, c.toNat)) code =
      ((cs.map Char.toNat).contains code != negated) := by
  have hone (c : Char) :
      (decide (c.toNat ≤ code) && decide (code ≤ c.toNat)) = (code == c.toNat) := by
    rw [Bool.eq_iff_iff]
    simp only [Bool.and_eq_true, decide_eq_true_eq, beq_iff_eq]
    omega
  rw [Node.classHolds, List.any_map, List.contains_eq_any_beq, List.any_map]
  simp only [Function.comp_def, hone]

theorem classLanguage_chars (cs : List Char) :
    classLanguage false (cs.map fun c => (c.toNat, c.toNat)) = charWhere (· ∈ cs) := by
  ext text
  refine exists_congr fun c => and_congr_right fun _ => ?_
  rw [classHolds_chars, Bool.bne_false, List.contains_iff_mem]
  exact List.mem_map_of_injective fun _ _ => Char.toNat_inj.1

theorem charWhere_single (c : Char) : charWhere (· ∈ [c]) = {[c]} := by
  ext text
  constructor
  · rintro ⟨d, rfl, hd⟩
    rw [List.mem_singleton.1 hd]
    exact rfl
  · rintro rfl
    exact ⟨c, rfl, List.mem_singleton_self c⟩

end Grammar

namespace Exclusion

/-! ## Pieces -/

section Pieces

variable (t : RuleTable)

theorem writesItem_classText (cs : List Char) :
    t.WritesItem ("[" ++ classText cs ++ "]") (charWhere (· ∈ cs)) := by
  rw [← Grammar.classLanguage_chars]
  exact RuleTable.writesItem_charClass t (Grammar.bracketed_classChars cs) (Grammar.head_classChars cs)

/-- The ranges of the characters that no string holds as they are, and of some others. -/
theorem bracketed_neverRaw (cs : List Char) :
    Bracketed (neverRaw.toList ++ cs.flatMap classChar)
      ([(34, 34), (92, 92), (127, 127), (0, 31)] ++ cs.map fun c => (c.toNat, c.toNat)) := by
  have hzero : Spells ['\\', 'x', '0', '0'] 0 := .numbered rfl rfl rfl (by decide)
  have hlast : Spells ['\\', 'x', '1', 'F'] 31 := .numbered rfl rfl rfl (by decide)
  have hdelete : Spells ['\\', 'x', '7', 'F'] 127 := .numbered rfl rfl rfl (by decide)
  have hslash : Spells ['\\', '\\'] 92 := .escaped rfl
  have hquote : Spells ['"'] 34 := .raw (by decide)
  have hcontrol := Bracketed.range hzero (by simp) hlast (by simp) (Grammar.bracketed_classChars cs)
  have hall := Bracketed.single hquote (by simp) rfl
    (.single hslash (by simp) rfl (.single hdelete (by simp) rfl hcontrol))
  simpa [neverRaw] using hall

theorem writesItem_raw (cs : List Char) : t.WritesItem ("[^" ++ neverRaw ++ classText cs ++ "]")
    (classLanguage true
      ([(34, 34), (92, 92), (127, 127), (0, 31)] ++ cs.map fun c => (c.toNat, c.toNat))) := by
  have htext : "[^" ++ neverRaw ++ classText cs ++ "]" =
      "[^" ++ String.ofList (neverRaw.toList ++ cs.flatMap classChar) ++ "]" := by
    rw [← String.toList_inj]
    simp [classText]
  rw [htext]
  exact RuleTable.writesItem_exceptClass t (bracketed_neverRaw cs)

theorem raw_le (cs : List Char) : classLanguage true
    ([(34, 34), (92, 92), (127, 127), (0, 31)] ++ cs.map fun c => (c.toNat, c.toNat)) ≤
      Standard.content :=
  Standard.exceptClass_le (by simp) (by simp) (by simp)

theorem writesItem_hexTimes {count : Nat} (h : IsWritable count) :
    t.WritesItem (hexTimes count) (charWhere IsHexDigit ^ count) := by
  have hhex : Bracketed ['0', '-', '9', 'a', '-', 'f', 'A', '-', 'F']
      [('0'.toNat, '9'.toNat), ('a'.toNat, 'f'.toNat), ('A'.toNat, 'F'.toNat)] :=
    .range (.raw (by decide)) (by simp) (.raw (by decide)) (by simp)
      (.range (.raw (by decide)) (by simp) (.raw (by decide)) (by simp)
        (.range (.raw (by decide)) (by simp) (.raw (by decide)) (by simp) .nil))
  have hclass := RuleTable.writesItem_charClass t hhex (by simp)
  have htext : hexTimes count = "[" ++ String.ofList ['0', '-', '9', 'a', '-', 'f', 'A', '-', 'F'] ++
      "]" ++ ("\x7b" ++ natText count ++ "\x7d") := by
    rw [← String.toList_inj]
    simp [hexTimes, Builtin.times, Builtin.hex]
  rw [htext, ← Standard.hexClass_eq, ← Grammar.repeated_exactly]
  exact hclass.times (Grammar.counted_exactly h)

/-- The digits of an escape by number and what is left of it. -/
theorem writesItem_hexLetters {cs : List Char} (h : ∀ c ∈ cs, c ∈ hexLetters) :
    t.WritesItem ("[" ++ String.ofList cs ++ "]") (charWhere (· ∈ cs)) := by
  have hsame : cs.flatMap classChar = cs := by
    induction cs with
    | nil => rfl
    | cons c rest ih =>
      have hall : ∀ c ∈ hexLetters, classChar c = [c] := by decide
      rw [List.flatMap_cons, hall c (h c (by simp)), ih fun d hd => h d (List.mem_cons_of_mem _ hd)]
      rfl
  have hclass := writesItem_classText t cs
  rwa [classText, hsame] at hclass

theorem writesItem_letterU : t.WritesItem (Grammar.literalText "u") {['u']} :=
  RuleTable.writesItem_literal t "u"

/-- An escape by number behind its backslash. -/
theorem writesRow_byNumber :
    t.WritesRow ("\"u\" " ++ hexTimes 4) ({['u']} * charWhere IsHexDigit ^ 4) := by
  have htext : "\"u\" " ++ hexTimes 4 = Grammar.literalText "u" ++ " " ++ hexTimes 4 := rfl
  rw [htext]
  exact (writesItem_letterU t).row.beside (writesItem_hexTimes t (isWritable_of_lt (by decide))).row

theorem writesItem_backslash : t.WritesItem "[\\\\]" {['\\']} := by
  have hclass : Bracketed ['\\', '\\'] [(92, 92)] := .single (.escaped rfl) (by simp) rfl .nil
  have hslash : classLanguage false [(92, 92)] = {['\\']} :=
    (Grammar.classLanguage_chars ['\\']).trans (Grammar.charWhere_single '\\')
  rw [← hslash]
  exact RuleTable.writesItem_charClass t hclass (by simp)

theorem writesItem_escapeLetters :
    t.WritesItem "[\"\\\\bfnrt]" (charWhere (· ∈ escapeLetters)) := by
  have hraw {c : Char} {cs : List Char} {ranges : List (Nat × Nat)} (hc : c ≠ '\\' ∧ c ≠ ']')
      (hcs : Grammar.Starts cs) (h : Bracketed cs ranges) :
      Bracketed (c :: cs) ((c.toNat, c.toNat) :: ranges) :=
    .single (.raw hc.1) (by simpa using hc.2) (Grammar.rangeFollows_of_starts hcs) h
  have hletters := hraw (c := 'b') (by decide) (by simp [Grammar.Starts]) (hraw (c := 'f') (by decide)
    (by simp [Grammar.Starts]) (hraw (c := 'n') (by decide) (by simp [Grammar.Starts])
      (hraw (c := 'r') (by decide) (by simp [Grammar.Starts]) (hraw (c := 't') (by decide)
        (by simp [Grammar.Starts]) .nil))))
  have hslash : Spells ['\\', '\\'] 92 := .escaped rfl
  have hclass := hraw (c := '"') (by decide) (by simp [Grammar.Starts])
    (.single hslash (by simp) (Grammar.rangeFollows_of_starts (by simp [Grammar.Starts])) hletters)
  rw [← Grammar.classLanguage_chars]
  exact RuleTable.writesItem_charClass t hclass (by simp)

end Pieces

/-! ## Leaving the trie -/

theorem mem_escapeLetters {c : Char} (h : c ∈ escapeLetters) : IsEscapeLetter c ∧ c ≠ 'u' := by
  have hall : ∀ c ∈ escapeLetters,
      c ∈ ['"', '\\', '/', 'b', 'f', 'n', 'r', 't'] ∧ c ≠ 'u' := by decide
  exact hall c h

section Trie

variable {t : RuleTable} {char : String} (hchar : t.ItemWithin char Standard.content)

include hchar

theorem rowWithin_many : t.RowWithin (char ++ "*") Standard.content := by
  obtain ⟨L, hL, h⟩ := hchar
  exact ⟨_, Grammar.repeated_le_kstar 0 none hL, h.star.row⟩

theorem rowWithin_some : t.RowWithin (char ++ "+") Standard.content := by
  obtain ⟨L, hL, h⟩ := hchar
  exact ⟨_, Grammar.repeated_le_kstar 1 none hL, h.plus.row⟩

/-- What goes on from a place and stays off the trie completes the place. -/
theorem rowWithin_leaving {place : Place} (hplace : place.IsProper) (edges : List Char) :
    ∀ e ∈ leaving place edges char, t.RowWithin e place.rest := by
  have hmany := rowWithin_many hchar
  cases place with
  | boundary =>
    have hmono : Standard.content * Standard.content ≤ Place.boundary.rest :=
      le_of_eq Standard.content_mul_content
    have hraw := (((writesItem_raw t edges).within (raw_le edges)).row.beside hmany).mono hmono
    have hletter : charWhere (· ∈ escapeLetters) ≤ charWhere IsEscapeLetter :=
      Grammar.charWhere_mono fun c hc => (mem_escapeLetters hc).1
    have hletters := ((writesItem_escapeLetters t).within hletter).row.within
    have hnumber := ((writesRow_byNumber t).within le_rfl).within
    have hslash := (writesItem_backslash t).within le_rfl
    have hescape := (((hslash.row.beside (hletters.or hnumber).group.row).mono
      escape_le_content).beside hmany).mono hmono
    have htext : "[^" ++ neverRaw ++ classText edges ++ "] " ++ char ++ "*" =
        "[^" ++ neverRaw ++ classText edges ++ "]" ++ " " ++ (char ++ "*") := by
      rw [← String.toList_inj]
      simp
    have htext' : "[\\\\] ([\"\\\\bfnrt] | \"u\" " ++ hexTimes 4 ++ ") " ++ char ++ "*" =
        "[\\\\]" ++ " " ++ ("(" ++ ("[\"\\\\bfnrt]" ++ " | " ++ ("\"u\" " ++ hexTimes 4)) ++ ")") ++ " "
          ++ (char ++ "*") := by
      rw [← String.toList_inj]
      simp
    rw [leaving, htext, htext']
    split_ifs
    · simpa using hraw
    · simpa using ⟨hraw, hescape⟩
  | escape =>
    have hplain {cs : List Char} (hcs : ∀ c ∈ cs, c ∈ escapeLetters) :
        t.RowWithin ("[" ++ classText cs ++ "]" ++ " " ++ (char ++ "*")) Place.escape.rest := by
      have hclass : charWhere (· ∈ cs) ≤ charWhere IsEscapeLetter :=
        Grammar.charWhere_mono fun c hc => (mem_escapeLetters (hcs c hc)).1
      refine (((writesItem_classText t cs).within hclass).row.beside hmany).mono ?_
      exact mul_le_mul' le_sup_left le_rfl
    have hnumber : t.RowWithin ("\"u\" " ++ hexTimes 4 ++ " " ++ (char ++ "*")) Place.escape.rest := by
      have hrow := (writesRow_byNumber t).within le_rfl
      exact (hrow.beside hmany).mono (mul_le_mul' le_sup_right le_rfl)
    have htext (cs : List Char) : "[" ++ classText cs ++ "] " ++ char ++ "*" =
        "[" ++ classText cs ++ "]" ++ " " ++ (char ++ "*") := by
      rw [← String.toList_inj]
      simp
    have htext' : "\"u\" " ++ hexTimes 4 ++ " " ++ char ++ "*" =
        "\"u\" " ++ hexTimes 4 ++ " " ++ (char ++ "*") := by
      simp [String.append_assoc]
    rw [leaving, htext, htext']
    intro e he
    rcases List.mem_append.1 he with he | he
    · split_ifs at he
      · simp at he
      · rw [List.mem_singleton.1 he]
        exact hplain fun c hc => List.mem_of_mem_filter hc
    · split_ifs at he
      · simp at he
      · rw [List.mem_singleton.1 he]
        exact hnumber
  | digits missing =>
    obtain ⟨hleast, hmost⟩ := hplace
    have hothers : ∀ c ∈ hexLetters.filter (fun c => !edges.contains c), c ∈ hexLetters :=
      fun c hc => List.mem_of_mem_filter hc
    have hhex : charWhere (· ∈ hexLetters.filter fun c => !edges.contains c) ≤ charWhere IsHexDigit :=
      Grammar.charWhere_mono hothers
    have hplain := (writesItem_hexLetters t hothers).within hhex
    rw [leaving]
    intro e he
    split_ifs at he with hnone hmissing
    · simp at he
    · obtain ⟨others, rfl⟩ : ∃ others, missing = others + 1 := ⟨missing - 1, by omega⟩
      rw [List.mem_singleton.1 he, Nat.add_sub_cancel]
      have hrest := (writesItem_hexTimes t (isWritable_of_lt (by omega : others < 100))).within le_rfl
      have h := (hplain.row.beside hrest.row).beside hmany
      rw [Place.rest, pow_succ']
      simpa only [String.append_assoc] using h
    · obtain rfl : missing = 1 := by omega
      rw [List.mem_singleton.1 he, Place.rest, pow_one]
      have h := hplain.row.beside hmany
      simpa only [String.append_assoc, String.append_empty, String.empty_append] using h

end Trie

/-! ## Along the trie -/

/-- The branch of one edge. -/
def edgeBranch (char : String) (place : Place) (c : Char) (kid : Trie) : String :=
  let taken := "[" ++ classText [c] ++ "]"
  if kid.edges.isEmpty then if kid.ends then taken ++ " " ++ char ++ "+" else taken
  else
    taken ++ " (" ++ branches char (place.next c) kid ++ ")"
      ++ (if place.next c = .boundary && !kid.ends then "?" else "")

theorem edgeBranches_eq_map (char : String) (place : Place) (kids : List (Char × Trie)) :
    edgeBranches char place kids = kids.map fun x => (x.1, edgeBranch char place x.1 x.2) := by
  induction kids with
  | nil => rfl
  | cons x rest ih =>
    rw [edgeBranches, ih]
    rfl

section Trie

variable {t : RuleTable} {char : String} (hchar : t.ItemWithin char Standard.content)

include hchar

/-- Along one edge, if what the edge leads to completes the place behind it. -/
theorem rowWithin_edgeBranch {place : Place} (hplace : place.IsProper) {c : Char} {kid : Trie}
    (hc : place.Allows c) (hfits : Fits (place.next c) kid)
    (hkid : kid.edges ≠ [] → t.Within (branches char (place.next c) kid) (place.next c).rest) :
    t.RowWithin (edgeBranch char place c kid) place.rest := by
  have hclass : charWhere (· ∈ [c]) ≤ {[c]} := by
    rintro text ⟨d, rfl, hd⟩
    rw [List.mem_singleton.1 hd]
    exact rfl
  have htaken := ((writesItem_classText t [c]).within hclass).row
  have hgroup {mark : String}
      (h : t.ItemWithin ("(" ++ branches char (place.next c) kid ++ ")" ++ mark) (place.next c).rest) :
      t.RowWithin ("[" ++ classText [c] ++ "]" ++ " (" ++ branches char (place.next c) kid ++ ")"
        ++ mark) place.rest := by
    have htext (e : String) : "[" ++ classText [c] ++ "]" ++ " (" ++ e ++ ")" ++ mark =
        "[" ++ classText [c] ++ "]" ++ " " ++ ("(" ++ e ++ ")" ++ mark) := by
      rw [← String.toList_inj]
      simp
    rw [htext]
    exact (htaken.beside h.row).mono (Place.step_le hplace hc)
  rw [edgeBranch]
  split_ifs with hleaf hends hopen
  · -- a text ends here, and some more characters have to come
    have hboundary : place.next c = .boundary := hfits.grows.stops hends
    have h := (htaken.beside (rowWithin_some hchar)).mono (hboundary ▸ Place.step_le hplace hc)
    simpa only [String.append_assoc] using h
  · cases hfits with
    | node _ goesOn => exact absurd (goesOn (List.isEmpty_iff.1 hleaf)) hends
  · have hboundary : place.next c = .boundary := by
      rw [Bool.and_eq_true, decide_eq_true_eq] at hopen
      exact hopen.1
    refine hgroup ((hkid (by simpa using hleaf)).group.optional ?_)
    rw [hboundary]
    exact one_le_kstar
  · exact hgroup (by simpa using (hkid (by simpa using hleaf)).group)

/-- The branches of a node complete the place of the node: by induction on its edges. -/
theorem within_branches {place : Place} {trie : Trie} (hfits : Fits place trie)
    (hplace : place.IsProper) (hedges : trie.edges ≠ []) :
    t.Within (branches char place trie) place.rest := by
  induction hfits with
  | @node place ends kids stops goesOn allowed fits ih =>
    have hperm := List.mergeSort_perm (edgeBranches char place kids) fun a b => decide (a.1 ≤ b.1)
    rw [branches]
    refine RuleTable.within_choices ?_ fun e he => ?_
    · intro hnone
      have hlength := hperm.length_eq
      rw [edgeBranches_eq_map, List.length_map] at hlength
      have hsorted := List.map_eq_nil_iff.1 (List.append_eq_nil_iff.1 hnone).1
      rw [sortBranches, edgeBranches_eq_map] at hsorted
      rw [hsorted] at hlength
      exact hedges (List.length_eq_zero_iff.1 hlength.symm)
    · rcases List.mem_append.1 he with he | he
      · obtain ⟨y, hy, rfl⟩ := List.mem_map.1 he
        have hy := hperm.mem_iff.1 hy
        rw [edgeBranches_eq_map] at hy
        obtain ⟨x, hx, rfl⟩ := List.mem_map.1 hy
        exact (rowWithin_edgeBranch hchar hplace (allowed x hx) (fits x hx)
          (ih x hx (hplace.next x.1))).within
      · exact (rowWithin_leaving hchar hplace _ e he).within

/-- **The expression for any string but those of a trie has strings only.** -/
theorem rowWithin_body (hspace : t.ItemWithin "space" ws) {trie : Trie} (h : Grows .boundary trie) :
    t.RowWithin (body char trie) (string * ws) := by
  have hclass : Bracketed ['"'] [(34, 34)] := .single (.raw (by decide)) (by simp) rfl .nil
  have hmark : classLanguage false [(34, 34)] ≤ {['"']} := by
    refine Grammar.class_le fun c hc => ?_
    have hall : ∀ c ∈ Grammar.charsOf [(34, 34)], c = '"' := by decide
    rw [hall c hc]
    exact rfl
  have hquote : t.ItemWithin "[\"]" {['"']} :=
    (RuleTable.writesItem_charClass t hclass (by simp)).within hmark
  have hinner (hedges : trie.edges ≠ []) : t.ItemWithin
      ("(" ++ (" " ++ branches char .boundary trie ++ " ") ++ ")") Standard.content :=
    (within_branches hchar (h.toFits hedges) trivial hedges).padded.group
  have hbody {e : String} (he : t.RowWithin e Standard.content) :
      t.RowWithin ("[\"]" ++ " " ++ e ++ " " ++ ("[\"]" ++ " " ++ "space")) (string * ws) := by
    refine ((hquote.row.beside he).beside (hquote.row.beside hspace.row)).mono (le_of_eq ?_)
    rw [string, ← mul_assoc]
  have htext (mark : String) : "[\"] " ++ char ++ mark ++ " [\"] space" =
      "[\"]" ++ " " ++ (char ++ mark) ++ " " ++ ("[\"]" ++ " " ++ "space") := by
    rw [← String.toList_inj]
    simp
  have htext' (e mark : String) : "[\"] ( " ++ e ++ " )" ++ mark ++ " [\"] space" =
      "[\"]" ++ " " ++ ("(" ++ (" " ++ e ++ " ") ++ ")" ++ mark) ++ " "
        ++ ("[\"]" ++ " " ++ "space") := by
    rw [← String.toList_inj]
    simp
  rw [body, htext, htext']
  split_ifs with hedges
  · exact hbody (rowWithin_some hchar)
  · exact hbody (rowWithin_many hchar)
  · exact hbody (by simpa using (hinner (by simpa using hedges)).row)
  · exact hbody ((hinner (by simpa using hedges)).optional one_le_kstar).row

end Trie

end Exclusion

end SchemaGrammar
