import SchemaGrammar.Proofs.Json.Size
import SchemaGrammar.Proofs.Schema.Sites
import SchemaGrammar.Proofs.Text.Percent

set_option autoImplicit false

/-! # A pointer leads to every part of a document

A place in a document is written as a pointer segment by segment: in a key each tilde becomes `~0`
and each slash `~1`, an index is written in decimal digits, and then the segment is percent-encoded
in any way (`IsPointer`). Such a pointer has the names of the steps as its segments again
(`IsPointer.segments_eq`), so following it takes just these steps (`follow_names`), and what is
recorded for it is the part at that place (`pointers_reach`). -/

namespace SchemaGrammar

open Json (Path Step)

/-! ## Marks in keys -/

namespace Pointer

/-- A character of a name as it stands in a segment. -/
def escapeMark : Char → List Char
  | '~' => ['~', '0']
  | '/' => ['~', '1']
  | c => [c]

/-- A name as it stands in a segment, before percent-encoding. -/
def escapeMarks (name : List Char) : List Char :=
  name.flatMap escapeMark

/-- What is left of the marks in a name when the slashes have been restored. -/
def escapeTildes (name : List Char) : List Char :=
  name.flatMap fun c => if c = '~' then ['~', '0'] else [c]

theorem escapeMark_of_ne {c : Char} (htilde : c ≠ '~') (hslash : c ≠ '/') : escapeMark c = [c] := by
  unfold escapeMark
  split
  · exact absurd rfl htilde
  · exact absurd rfl hslash
  · rfl

theorem slash_notMem_escapeMarks (name : List Char) : '/' ∉ escapeMarks name := by
  rw [escapeMarks, List.mem_flatMap]
  rintro ⟨c, -, hc⟩
  unfold escapeMark at hc
  split at hc
  · exact absurd hc (by decide)
  · exact absurd hc (by decide)
  · rename_i hslash
    exact hslash (List.mem_singleton.1 hc).symm

theorem restoreSlashes_cons {c : Char} (h : c ≠ '~') (rest : List Char) :
    restoreSlashes (c :: rest) = c :: restoreSlashes rest := by
  rw [restoreSlashes.eq_3]
  exact fun _ heq _ => h heq

theorem restoreTildes_cons {c : Char} (h : c ≠ '~') (rest : List Char) :
    restoreTildes (c :: rest) = c :: restoreTildes rest := by
  rw [restoreTildes.eq_3]
  exact fun _ heq _ => h heq

theorem restoreSlashes_escapeMarks (name : List Char) :
    restoreSlashes (escapeMarks name) = escapeTildes name := by
  induction name with
  | nil => rfl
  | cons c rest ih =>
    unfold escapeMarks escapeTildes at *
    rw [List.flatMap_cons, List.flatMap_cons]
    by_cases htilde : c = '~'
    · subst htilde
      simp [escapeMark, restoreSlashes, ih]
    · rw [if_neg htilde]
      by_cases hslash : c = '/'
      · subst hslash
        simp [escapeMark, restoreSlashes, ih]
      · rw [escapeMark_of_ne htilde hslash, List.singleton_append, restoreSlashes_cons htilde, ih]
        rfl

theorem restoreTildes_escapeTildes (name : List Char) :
    restoreTildes (escapeTildes name) = name := by
  induction name with
  | nil => rfl
  | cons c rest ih =>
    unfold escapeTildes at *
    rw [List.flatMap_cons]
    by_cases htilde : c = '~'
    · subst htilde
      simp [restoreTildes, ih]
    · rw [if_neg htilde, List.singleton_append, restoreTildes_cons htilde, ih]

/-- Decoding a segment undoes its encoding: percent signs first, then slashes, then tildes. -/
theorem decodeSegment_eq {name segment : List Char}
    (h : Text.PercentSpells (escapeMarks name) segment) : decodeSegment segment = name := by
  rw [decodeSegment, h.percentDecode_eq, restoreSlashes_escapeMarks, restoreTildes_escapeTildes]

/-! ## Places as pointers -/

/-- The key or the decimal index of a step. -/
def stepName : Step → List Char
  | .key name => name.toList
  | .index i => (natText i).toList

/-- A place and the segments that lead to it, each with a slash in front. -/
inductive SpellsPath : Path → List Char → Prop
  | nil : SpellsPath [] []
  | cons {step : Step} {path : Path} {segment spelled : List Char}
      (encodes : Text.PercentSpells (escapeMarks (stepName step)) segment)
      (rest : SpellsPath path spelled) : SpellsPath (step :: path) ('/' :: (segment ++ spelled))

/-- Is a reference a pointer to a place in its own document? -/
def IsPointer (path : Path) (ref : String) : Prop :=
  ∃ spelled, SpellsPath path spelled ∧ ref.toList = '#' :: spelled

theorem SpellsPath.splitAt_eq {path : Path} {spelled : List Char} (h : SpellsPath path spelled)
    {front : List Char} (hfront : '/' ∉ front) :
    ∃ parts, Text.splitAt '/' (front ++ spelled) = front :: parts ∧
      parts.map decodeSegment = path.map stepName := by
  induction h generalizing front with
  | nil => exact ⟨[], by rw [List.append_nil, Text.splitAt_of_notMem hfront], rfl⟩
  | @cons step path segment spelled encodes _ ih =>
    have hsegment : '/' ∉ segment :=
      encodes.notMem (by decide) (by decide) (slash_notMem_escapeMarks _)
    obtain ⟨parts, hsplit, hparts⟩ := ih hsegment
    refine ⟨segment :: parts, ?_, ?_⟩
    · rw [Text.splitAt_append hfront, hsplit]
    · rw [List.map_cons, List.map_cons, decodeSegment_eq encodes, hparts]

/-- The segments of a pointer are the names of its steps. -/
theorem IsPointer.segments_eq {path : Path} {ref : String} (h : IsPointer path ref) :
    segments ref = path.map stepName := by
  obtain ⟨spelled, hspells, href⟩ := h
  have hhash : '/' ∉ ['#'] := by decide
  obtain ⟨parts, hsplit, hparts⟩ := hspells.splitAt_eq hhash
  rw [segments, href, ← List.singleton_append, hsplit]
  exact hparts

theorem IsPointer.isLocal {path : Path} {ref : String} (h : IsPointer path ref) :
    isLocal ref = true := by
  obtain ⟨spelled, hspells, href⟩ := h
  rw [Pointer.isLocal, Bool.or_eq_true, beq_iff_eq, String.startsWith_string_iff]
  cases hspells with
  | nil => exact .inl (String.toList_inj.1 href)
  | cons _ _ =>
    rw [href]
    exact .inr ⟨_, rfl⟩

theorem isRemote_of_hash {ref : String} {rest : List Char} (h : ref.toList = '#' :: rest) :
    Failure.isRemote ref = false := by
  have hmarks : ∀ mark ∈ Failure.remoteMarks, ∃ more, mark.toList = 'h' :: more := by
    simp [Failure.remoteMarks]
  rw [Failure.isRemote, List.any_eq_false]
  intro mark hmark hstarts
  rw [String.startsWith_string_iff, h] at hstarts
  obtain ⟨more, hmore⟩ := hmarks mark hmark
  rw [hmore] at hstarts
  exact absurd (List.cons_prefix_cons.1 hstarts).1 (by decide)

/-- A pointer starts with a hash, and no address of another document does. -/
theorem exists_of_isLocal {ref : String} (h : isLocal ref = true) :
    ∃ rest, ref.toList = '#' :: rest := by
  rw [isLocal, Bool.or_eq_true, beq_iff_eq, String.startsWith_string_iff] at h
  rcases h with rfl | ⟨rest, hrest⟩
  · exact ⟨[], rfl⟩
  · exact ⟨'/' :: rest, hrest.symm⟩

theorem isRemote_of_isLocal {ref : String} (h : isLocal ref = true) :
    Failure.isRemote ref = false := by
  obtain ⟨rest, hrest⟩ := exists_of_isLocal h
  exact isRemote_of_hash hrest

/-! ## Following names -/

theorem index?_natText {i : Nat} (h : i < 10 ^ Text.maxNumeralDigits) :
    index? (natText i).toList = .ok (some i) := by
  have hall : ∀ c ∈ Text.asciiDigits, Text.isDigit c = true := by decide
  have hdigits : (Nat.toDigits 10 i).all Text.isDigit = true :=
    List.all_eq_true.2 fun d hd => hall d (Text.mem_asciiDigits (Text.isDigit_of_mem_toDigits hd))
  have hne : (Nat.toDigits 10 i).isEmpty = false := by simp
  rw [natText, String.toList_ofList, index?, hne, hdigits, Text.readInt?_toDigits h]
  rfl

theorem step?_stepName {v w : Json} {step : Step} (h : v.child? step = some w)
    (hindex : ∀ i, step = .index i → i < 10 ^ Text.maxNumeralDigits) :
    step? v (stepName step) = .ok (some step) := by
  cases v with
  | obj fields =>
    cases step with
    | key name =>
      have hhas : Json.Fields.has fields name = true := by
        rw [Json.Fields.has, show Json.Fields.get? fields name = some w from h]
        rfl
      simp only [step?, stepName, String.ofList_toList, hhas, if_true]
    | index i => cases h
  | arr items =>
    cases step with
    | key name => cases h
    | index i =>
      have hlt : i < items.length := (List.getElem?_eq_some_iff.1 h).1
      simp only [step?, stepName, index?_natText (hindex i rfl)]
      exact congrArg _ (if_pos hlt)
  | _ => cases step <;> cases h

/-- Following the names of the steps to a place leads there. -/
theorem follow_names (ref : String) {path : Path} {v w : Json} (h : v.at? path = some w)
    (hindices : ∀ i, .index i ∈ path → i < 10 ^ Text.maxNumeralDigits) :
    follow ref (path.map stepName) v = .ok (path, w) := by
  induction path generalizing v with
  | nil =>
    obtain rfl : v = w := Option.some.inj h
    rfl
  | cons step rest ih =>
    rw [Json.at?] at h
    cases hchild : v.child? step with
    | none => simp [hchild] at h
    | some u =>
      rw [hchild] at h
      have hstep : step? v (stepName step) = .ok (some step) :=
        step?_stepName hchild fun i hi => hindices i (by simp [hi])
      have hrest := ih h fun i hi => hindices i (List.mem_cons_of_mem _ hi)
      simp only [List.map_cons, follow, hstep, hchild, hrest, bind, Except.bind, pure, Except.pure]

end Pointer

namespace Json

/-- An index on the way to a part of a document is below the number of values in it. -/
theorem index_lt_size {path : Path} {v w : Json} (h : v.at? path = some w) {i : Nat}
    (hi : .index i ∈ path) : i < v.size := by
  induction path generalizing v with
  | nil => cases hi
  | cons step rest ih =>
    rw [at?] at h
    cases hchild : v.child? step with
    | none => simp [hchild] at h
    | some u =>
      rw [hchild] at h
      rcases List.mem_cons.1 hi with rfl | hrest
      · cases v with
        | arr items =>
          have hlt : i < items.length := (List.getElem?_eq_some_iff.1 hchild).1
          have hsize := length_le_sizeOfItems items
          rw [size]
          omega
        | _ => cases hchild
      · exact (ih h hrest).trans_le (size_le_of_child? hchild)

end Json

/-! ## Resolving pointers -/

namespace Pointer

variable {document w : Json} {path : Path} {ref : String}

/-- A document with no more values than the longest numeral that is read can count. Every document
    that fits into a memory is far smaller. -/
def HasReadableIndices (document : Json) : Prop :=
  document.size ≤ 10 ^ Text.maxNumeralDigits

/-- A pointer to a part of a document leads there. -/
theorem IsPointer.follow_eq (h : IsPointer path ref) (hat : document.at? path = some w)
    (hsize : HasReadableIndices document) :
    follow ref (segments ref) document = .ok (path, w) := by
  rw [h.segments_eq]
  exact follow_names ref hat fun _ hi => (Json.index_lt_size hat hi).trans_le hsize

theorem IsPointer.targetOf_eq (h : IsPointer path ref) (hat : document.at? path = some w)
    (hsize : HasReadableIndices document) : Schema.targetOf document ref = some w := by
  rw [Schema.targetOf, h.follow_eq hat hsize]

theorem IsPointer.isResolvable (h : IsPointer path ref) (hat : document.at? path = some w)
    (hsize : HasReadableIndices document) : Resolver.IsResolvable document ref :=
  ⟨isRemote_of_isLocal h.isLocal, h.isLocal, by rw [h.targetOf_eq hat hsize]; rfl⟩

/-- What is recorded for a pointer under any address is found there. -/
theorem IsPointer.record (h : IsPointer path ref) (hat : document.at? path = some w)
    (hsize : HasReadableIndices document) (url : String) :
    ∃ r, Resolver.record 0 [] url ref (Resolver.new [document]) = .ok (url ++ ref) r ∧
      r.find? (url ++ ref) = some w := by
  have hread : (Resolver.new [document]).read 0 [] = document := rfl
  rw [Resolver.record_run, if_neg (by simp [isRemote_of_isLocal h.isLocal]),
    if_neg (by simp [h.isLocal]), if_neg (by simp [Resolver.new, Resolver.knows, Assoc.has]), hread,
    h.follow_eq hat hsize]
  refine ⟨_, rfl, ?_⟩
  rw [Resolver.find?, Assoc.lookup_set, if_pos rfl, Option.map_some]
  have hplace : Resolver.read ⟨[document], Assoc.set [] (url ++ ref) (Resolver.targetOf 0 path w)⟩ 0
      path = w := by
    change (document.at? path).getD .null = w
    rw [hat, Option.getD_some]
  cases w with
  | arr items => exact congrArg some hplace
  | obj fields => exact congrArg some hplace
  | _ => rfl

/-- **Pointers reach every part of a document.** Decoding a segment undoes each of its encodings,
    of whatever characters the key consists. A pointer to a place in a document, recorded by itself
    under any address, has the part at that place as its target. Resolving all references of a
    document succeeds if they are pointers to parts of it, and whenever it succeeds, the target of
    each that is a pointer is the part at its place. -/
theorem pointers_reach (document : Json) (hsize : HasReadableIndices document) :
    (∀ name segment, Text.PercentSpells (escapeMarks name) segment → decodeSegment segment = name) ∧
      (∀ path w ref url, document.at? path = some w → IsPointer path ref →
        ∃ r, Resolver.record 0 [] url ref (Resolver.new [document]) = .ok (url ++ ref) r ∧
          r.find? (url ++ ref) = some w) ∧
      ((∀ site ref, Resolver.referenceAt? document site = some ref →
          Step.key Resolver.refKey ∉ site →
          ∃ path w, IsPointer path ref ∧ document.at? path = some w) →
        ∃ r, Resolver.resolve 0 [] "" (Resolver.new [document]) = .ok () r) ∧
      ∀ r, Resolver.resolve 0 [] "" (Resolver.new [document]) = .ok () r →
        ∀ site ref, Resolver.referenceAt? document site = some ref →
          Step.key Resolver.refKey ∉ site →
          ∀ path w, IsPointer path ref → document.at? path = some w → r.find? ref = some w := by
  refine ⟨fun _ _ => decodeSegment_eq, fun path w ref url hat href => href.record hat hsize url,
    fun hpointers => ?_, fun r hresolve site ref href hout path w hpointer hat => ?_⟩
  · obtain ⟨_, r, hresolve⟩ := Resolver.resolve_succeeds_iff.2 fun site ref href hout =>
      let ⟨_, _, hpointer, hat⟩ := hpointers site ref href hout
      hpointer.isResolvable hat hsize
    exact ⟨r, hresolve⟩
  · obtain ⟨hsound, hknows⟩ := Resolver.sound_resolve hresolve
    rw [hsound.find? (hknows site ref href hout), hpointer.targetOf_eq hat hsize]

/-- A document whose keys look like escapes, or are empty. -/
def oddKeys : Json :=
  .obj [("", .obj [("a/b", .arr [.null, .obj [("~1%", .str "found")]])]),
    ("\u00e9", .bool true),
    ("anyOf", .arr [.obj [("$ref", .str "#//a~1b/1/~01%25")], .obj [("$ref", .str "#/%c3%A9")]])]

/-- The place of a text behind an empty key, a key with a slash, an index and a key that looks like
    an escaped slash. -/
def oddPlace : Path :=
  [.key "", .key "a/b", .index 1, .key "~1%"]

theorem percentSpells_oddKey :
    Text.PercentSpells (escapeMarks "~1%".toList) "~01%25".toList := by
  have hpercent : Text.Escapes (Text.utf8Bytes '%') "%25".toList :=
    .cons (by decide) (by decide) .nil
  exact .raw (by decide) (.raw (by decide) (.raw (by decide) (.escaped hpercent .nil)))

theorem isPointer_oddPlace : IsPointer oddPlace "#//a~1b/1/~01%25" := by
  have hslash : Text.PercentSpells (escapeMarks "a/b".toList) "a~1b".toList :=
    .of_notMem (by decide)
  have hindex : Text.PercentSpells (escapeMarks (stepName (.index 1))) "1".toList :=
    .of_notMem (by decide)
  exact ⟨_, .cons .nil (.cons hslash (.cons hindex (.cons percentSpells_oddKey .nil))), by decide⟩

theorem isPointer_accented : IsPointer [.key "\u00e9"] "#/%c3%A9" := by
  have hbytes : Text.Escapes (Text.utf8Bytes '\u00e9') "%c3%A9".toList :=
    .cons (by decide) (by decide) (.cons (by decide) (by decide) .nil)
  have hname : Text.PercentSpells (escapeMarks "\u00e9".toList) ("%c3%A9".toList ++ []) :=
    .escaped hbytes .nil
  exact ⟨_, .cons hname .nil, by decide⟩

theorem pointers_reach_oddKeys :
    HasReadableIndices oddKeys ∧ decodeSegment "~01%25".toList = "~1%".toList ∧
      (∃ r, Resolver.record 0 [] "s.json" "#//a~1b/1/~01%25" (Resolver.new [oddKeys]) =
          .ok "s.json#//a~1b/1/~01%25" r ∧
        r.find? "s.json#//a~1b/1/~01%25" = some (.str "found")) ∧
      ∃ r, Resolver.resolve 0 [] "" (Resolver.new [oddKeys]) = .ok () r ∧
        r.find? "#//a~1b/1/~01%25" = some (.str "found") ∧
        r.find? "#/%c3%A9" = some (.bool true) := by
  have hsize : HasReadableIndices oddKeys := by
    have hsmall : oddKeys.size ≤ 10 ^ 2 := by decide
    exact hsmall.trans (Nat.pow_le_pow_right (by decide) (by decide))
  have hsites : Resolver.sites oddKeys =
      [[.key "anyOf", .index 0], [.key "anyOf", .index 1]] := by decide
  have hfound : oddKeys.at? oddPlace = some (.str "found") := rfl
  have haccented : oddKeys.at? [.key "\u00e9"] = some (.bool true) := rfl
  obtain ⟨hsegments, hrecord, hsucceeds, hresolved⟩ := pointers_reach oddKeys hsize
  obtain ⟨r, hresolve⟩ := hsucceeds fun site ref href hout => by
    have hmem := Resolver.mem_sites href hout
    rw [hsites] at hmem
    rcases List.mem_pair.1 hmem with rfl | rfl
    · obtain rfl : "#//a~1b/1/~01%25" = ref := Option.some.inj href
      exact ⟨_, _, isPointer_oddPlace, hfound⟩
    · obtain rfl : "#/%c3%A9" = ref := Option.some.inj href
      exact ⟨_, _, isPointer_accented, haccented⟩
  exact ⟨hsize, hsegments _ _ percentSpells_oddKey,
    hrecord _ _ _ "s.json" hfound isPointer_oddPlace, r, hresolve,
    hresolved r hresolve [.key "anyOf", .index 0] _ rfl (by decide) _ _ isPointer_oddPlace hfound,
    hresolved r hresolve [.key "anyOf", .index 1] _ rfl (by decide) _ _ isPointer_accented haccented⟩

end Pointer

end SchemaGrammar
