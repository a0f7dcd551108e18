import SchemaGrammar.Proofs.Exclusion.Exact
import SchemaGrammar.Proofs.Rules.Request
import SchemaGrammar.Proofs.Rules.Supply
import SchemaGrammar.Proofs.Rules.Verdicts
import SchemaGrammar.Proofs.Schema.Standard

set_option autoImplicit false

/-! # Grammars of all strings but some

The grammar for any string but some given ones accepts what the rule for characters spells, unless it
is spelled as one of the given strings is in JSON. As no two strings are spelled alike
(`Json.escape_injective`), the JSON text of a string is accepted if and only if the string is not one
of these (`accepts_all_but`). -/

namespace SchemaGrammar

open Computability

/-! ## JSON strings are spelled -/

namespace Json

/-- The characters that are escaped. -/
def escaped : List Char :=
  '"' :: '\\' :: (List.range 32).map Char.ofNat

theorem mem_escaped_of_lt {c : Char} (h : c.toNat < 32) : c ∈ escaped := by
  refine List.mem_cons_of_mem _ (List.mem_cons_of_mem _ ?_)
  exact List.mem_map.2 ⟨c.toNat, List.mem_range.2 h, Char.ofNat_toNat c⟩

theorem escapeChar_of_notMem {c : Char} (h : c ∉ escaped) : escapeChar c = [c] ∧ c ≠ '\\' := by
  have hne (d : Char) (hd : d ∈ escaped) : c ≠ d := by
    rintro rfl
    exact h hd
  have hraw : ¬ c.toNat < 32 := fun hlt => h (mem_escaped_of_lt hlt)
  refine ⟨?_, hne _ (by decide)⟩
  rw [escapeChar, if_neg (hne _ (by decide)), if_neg (hne _ (by decide)), if_neg (hne _ (by decide)),
    if_neg (hne _ (by decide)), if_neg (hne _ (by decide)), if_neg (hne _ (by decide)),
    if_neg (hne _ (by decide)), if_neg hraw]

theorem escapeChar_ne_nil (c : Char) : escapeChar c ≠ [] := by
  unfold escapeChar
  split_ifs <;> simp

/-- No spelling of a character is the beginning of another one's. -/
theorem eq_of_escapeChar_begins {c d : Char} (h : escapeChar c <+: escapeChar d) : c = d := by
  have hslash : ∀ c ∈ escaped, (escapeChar c).head? = some '\\' := by decide +kernel
  have hhead : (escapeChar c).head? = (escapeChar d).head? := by
    obtain ⟨more, hmore⟩ := h
    rw [← hmore, List.head?_append_of_ne_nil _ (escapeChar_ne_nil c)]
  by_cases hc : c ∈ escaped
  · have hd : d ∈ escaped := by
      by_contra hd
      obtain ⟨hraw, hne⟩ := escapeChar_of_notMem hd
      rw [hslash c hc, hraw] at hhead
      exact hne (Option.some.inj hhead).symm
    have hall : ∀ c ∈ escaped, ∀ d ∈ escaped, escapeChar c <+: escapeChar d → c = d := by
      decide +kernel
    exact hall c hc d hd h
  · obtain ⟨hraw, hne⟩ := escapeChar_of_notMem hc
    rw [hraw] at hhead
    by_cases hd : d ∈ escaped
    · rw [hslash d hd] at hhead
      exact absurd (Option.some.inj hhead) hne
    · rw [(escapeChar_of_notMem hd).1] at hhead
      exact Option.some.inj hhead

theorem escape_injective : Function.Injective escape := by
  intro xs
  induction xs with
  | nil =>
    intro ys h
    cases ys with
    | nil => rfl
    | cons y ys => exact absurd h.symm (by simp [escape, escapeChar_ne_nil])
  | cons x xs ih =>
    intro ys h
    cases ys with
    | nil => exact absurd h (by simp [escape, escapeChar_ne_nil])
    | cons y ys =>
      have happend : escapeChar x ++ escape xs = escapeChar y ++ escape ys := h
      have hxy : x = y := by
        have hx : escapeChar x <+: escapeChar x ++ escape xs := List.prefix_append _ _
        have hy : escapeChar y <+: escapeChar x ++ escape xs := by
          rw [happend]
          exact List.prefix_append _ _
        rcases List.prefix_or_prefix_of_prefix hx hy with hprefix | hprefix
        · exact eq_of_escapeChar_begins hprefix
        · exact (eq_of_escapeChar_begins hprefix).symm
      subst hxy
      rw [ih (List.append_cancel_left happend)]

end Json

namespace Exclusion

theorem isSpelled_escaped {c : Char} (h : c ∈ escapeLetters) : IsSpelled .boundary ['\\', c] :=
  isSpelled_boundary_cons.2 (.inr ⟨rfl, isSpelled_escape_cons.2 (.inl ⟨h, rfl⟩)⟩)

theorem isSpelled_escapeChar {c : Char} (h : c ≠ '\x7f') : IsSpelled .boundary (Json.escapeChar c) := by
  unfold Json.escapeChar
  split_ifs with hquote hslash _ _ _ _ _ hcontrol
  · exact isSpelled_escaped (by decide)
  · exact isSpelled_escaped (by decide)
  · exact isSpelled_escaped (by decide)
  · exact isSpelled_escaped (by decide)
  · exact isSpelled_escaped (by decide)
  · exact isSpelled_escaped (by decide)
  · exact isSpelled_escaped (by decide)
  · -- an escape by number: the backslash, the letter and each digit
    have hdigit := Json.isHexDigit_hexDigit
    refine isSpelled_boundary_cons.2 (.inr ⟨rfl, isSpelled_escape_cons.2 (.inr ⟨rfl, ?_⟩)⟩)
    exact ⟨hdigit _, hdigit _, hdigit _, hdigit _, rfl⟩
  · refine isSpelled_boundary_cons.2 (.inl ⟨⟨⟨?_, hquote, h⟩, hslash⟩, rfl⟩)
    exact Nat.le_of_not_lt hcontrol

theorem isSpelled_escape {cs : List Char} (h : '\x7f' ∉ cs) :
    IsSpelled .boundary (Json.escape cs) := by
  induction cs with
  | nil => exact rfl
  | cons c rest ih =>
    rw [List.mem_cons, not_or] at h
    obtain ⟨hc, hrest⟩ := h
    exact isSpelled_append (isSpelled_escapeChar (Ne.symm hc)) (ih hrest)

/-! ## The excluded strings -/

/-- The trie of some strings as they are spelled. -/
def keyTrie (keys : List String) : Trie :=
  Trie.ofTexts ((keys.map Json.str).map content)

theorem holds_keyTrie {keys : List String} {e : List Char} :
    (keyTrie keys).Holds e ↔ ∃ key ∈ keys, e = content (.str key) := by
  rw [keyTrie, Trie.holds_ofTexts]
  simp [eq_comm]

/-- Any characters, but not as one of the strings is spelled. -/
def unlisted (keys : List String) : Language Char :=
  {e | e ∈ character∗ ∧ ∀ key ∈ keys, e ≠ content (.str key)}

theorem outside_keyTrie {keys : List String} (h : ∀ key ∈ keys, '\x7f' ∉ key.toList) :
    outside .boundary (keyTrie keys) = unlisted keys := by
  have hspelled (e : List Char) (he : (keyTrie keys).Holds e) : IsSpelled .boundary e := by
    obtain ⟨key, hkey, rfl⟩ := holds_keyTrie.1 he
    rw [content_str]
    exact isSpelled_escape (h key hkey)
  ext e
  rw [unlisted, kstar_character]
  refine and_congr (follows_iff (grows_keys keys) hspelled e) ?_
  rw [holds_keyTrie]
  push Not
  exact Iff.rfl

end Exclusion

/-! ## The rule for characters -/

/-- An expression that refers to no rule has its language among the built-in rules, too. -/
theorem Builtin.languageOf_eq_of_writes {e : String} {L : Language Char}
    (h : RuleTable.blank.Writes e L) : languageOf e = L := by
  obtain ⟨rows, hw, hL⟩ := h
  have hstands : RuleTable.Stands (· ∈ names) e (Grammar.ofRows rows) :=
    .inr ⟨rows, hw.mono fun name hname => absurd hname (RuleTable.not_knows_blank name), rfl⟩
  rw [languageOf_eq hstands, Grammar.language_ofRows _ hw.fits.1, hL _ (RuleTable.holds_blank _)]

namespace Exclusion

theorem builtin_char : Schema.builtin "char" = character := by
  have hbody : Schema.builtin "char" = Builtin.languageOf
      ("[^" ++ neverRaw ++ classText [] ++ "]" ++ " | " ++ ("[\\\\]" ++ " " ++
        ("(" ++ ("[\"\\\\bfnrt]" ++ " | " ++ ("\"u\" " ++ hexTimes 4)) ++ ")"))) := by
    rw [Schema.builtin]
    rfl
  rw [hbody]
  exact Builtin.languageOf_eq_of_writes reads_character

/-! ## Grammars -/

/-- A string with its quotes and blanks behind it that is spelled as none of the given ones. -/
def stringsBut (keys : List String) : Language Char :=
  {text | ∃ e w, text = '"' :: (e ++ '"' :: w) ∧ e ∈ (Schema.builtin "char")∗ ∧ w ∈ Schema.blanks ∧
    ∀ key ∈ keys, e ≠ content (.str key)}

theorem stringsBut_eq {keys : List String} (h : ∀ key ∈ keys, '\x7f' ∉ key.toList) :
    {['"']} * outside .boundary (keyTrie keys) * ({['"']} * Schema.blanks) = stringsBut keys := by
  rw [outside_keyTrie h, stringsBut, builtin_char]
  ext text
  refine Schema.mem_quoted.trans ⟨?_, ?_⟩
  · rintro ⟨e, ⟨he, hkeys⟩, w, hw, rfl⟩
    exact ⟨e, w, rfl, he, hw, hkeys⟩
  · rintro ⟨e, w, rfl, he, hw, hkeys⟩
    exact ⟨e, ⟨he, hkeys⟩, w, hw, rfl⟩

theorem compact_str (x : String) :
    (Json.str x).compact.toList = '"' :: (content (.str x) ++ ['"']) := by
  rw [content_str, Json.compact, Json.stringText, String.toList_ofList]

/-- What stands in front of the last mark is told by the whole text. -/
theorem eq_of_append_mark {e e' w w' : List Char} {c : Char} (hw : c ∉ w) (hw' : c ∉ w')
    (h : e ++ c :: w = e' ++ c :: w') : e = e' := by
  rcases List.append_eq_append_iff.1 h with ⟨between, rfl, heq⟩ | ⟨between, rfl, heq⟩
  · cases between with
    | nil => exact (List.append_nil e).symm
    | cons d ds => exact absurd (by simp [(List.cons.inj heq).2]) hw
  · cases between with
    | nil => exact List.append_nil e'
    | cons d ds => exact absurd (by simp [(List.cons.inj heq).2]) hw'

/-- The JSON text of a string. -/
theorem compact_mem_stringsBut {keys : List String} {x : String} (hx : '\x7f' ∉ x.toList) :
    (Json.str x).compact.toList ∈ stringsBut keys ↔ x ∉ keys := by
  have hcontent {key : String} : content (.str x) = content (.str key) ↔ x = key := by
    rw [content_str, content_str, Json.escape_injective.eq_iff, String.toList_inj]
  rw [compact_str]
  constructor
  · rintro ⟨e, w, heq, -, hw, hkeys⟩ hmem
    have he : content (.str x) = e :=
      eq_of_append_mark (by simp) (Schema.quote_notMem_blanks hw) (List.cons.inj heq).2
    exact hkeys x hmem he.symm
  · intro hnone
    refine ⟨content (.str x), [], rfl, ?_, Schema.nil_mem_blanks, fun key hkey heq => ?_⟩
    · rw [builtin_char, kstar_character, content_str]
      exact isSpelled_escape hx
    · exact hnone (hcontent.1 heq ▸ hkey)

/-- The body for any string but some, and the table it is written for. -/
theorem exists_bodyFor (keys : List String) (h : ∀ key ∈ keys, '\x7f' ∉ key.toList) :
    ∃ body t, bodyFor (keys.map Json.str) RuleTable.new = .ok body t ∧ t.Sound True ∧
      t.find? "root" = none ∧ t.Writes body (stringsBut keys) := by
  have hnew := RuleTable.sound_new True
  obtain ⟨rule, hrule⟩ : ∃ rule, Builtin.find? "char" = some rule := ⟨_, rfl⟩
  obtain ⟨char, t, hrun, hadds⟩ := hnew.complete.addNamed hrule (by decide) (.inl rfl)
  obtain ⟨found, hfound, hbuiltin⟩ := RuleTable.addNamed_eq_ok hrun
  obtain rfl : found = rule := Option.some.inj (hfound.symm.trans hrule)
  obtain ⟨-, hsound, hdenotes⟩ := hnew.addBuiltin hrule (.inl rfl) hbuiltin
  have hroot := (hadds.grows hsound (by decide)).root
  have hchar : t.WritesItem char character := by
    rw [← builtin_char, Schema.builtin, hrule]
    exact hdenotes.item
  refine ⟨_, t, Work.bind_eq_ok.2 ⟨char, t, hrun, rfl⟩, hsound, hroot, ?_⟩
  rw [← stringsBut_eq h]
  exact (readsRow_body hchar hsound.complete.denotes_space.item (grows_keys keys)
    (Trie.tidy_ofTexts _)).reads

/-- **Exclusions are exact.** With the body for any string but some as its root, a new table is read
    as a grammar. It accepts what is spelled with the rule for characters between two quotes, with
    blanks behind them, unless it is spelled as JSON spells one of the strings. So the JSON text of a
    string is accepted if and only if the string is not one of them. -/
theorem accepts_all_but (keys : List String) (hkeys : ∀ key ∈ keys, '\x7f' ∉ key.toList) :
    ∃ body t t' g, bodyFor (keys.map Json.str) RuleTable.new = .ok body t ∧
      t.add "root" body = ("root", t') ∧ Grammar.ofText t'.text = .ok g ∧
      (∀ (order : Grammar.Order) (text : String),
        ∃ v, Grammar.checkIn order g text Grammar.startRule = .ok v ∧
          (v.accepted = true ↔ ∃ e w, text.toList = '"' :: (e ++ '"' :: w) ∧
            e ∈ (Schema.builtin "char")∗ ∧ w ∈ Schema.blanks ∧
              ∀ key ∈ keys, e ≠ content (.str key))) ∧
      ∀ (order : Grammar.Order) (x : String), '\x7f' ∉ x.toList →
        ∃ v, Grammar.checkIn order g (Json.str x).compact Grammar.startRule = .ok v ∧
          (v.accepted = true ↔ x ∉ keys) := by
  obtain ⟨body, t, hrun, hsound, hroot, hwrites⟩ := exists_bodyFor keys hkeys
  obtain ⟨slot, t', hadd⟩ : ∃ slot t', t.add "root" body = (slot, t') := ⟨_, _, rfl⟩
  have hname : RuleTable.Requestable True "root" := ⟨by decide, by decide, fun _ => by decide⟩
  obtain ⟨-, hsound', hdenotes⟩ := hsound.add hname hwrites hadd
  obtain rfl : slot = "root" := by
    have hslot := RuleTable.add_of_find?_eq_none t "root" body hroot
    rw [hadd] at hslot
    exact hslot
  obtain ⟨g, hread, haccepts⟩ := hsound'.complete.accepts (hsound'.readable trivial) hdenotes
  refine ⟨body, t, t', g, hrun, hadd, hread, haccepts, fun order x hx => ?_⟩
  obtain ⟨v, hv, hiff⟩ := haccepts order (Json.str x).compact
  exact ⟨v, hv, hiff.trans (compact_mem_stringsBut hx)⟩

/-- Two strings whose spellings part inside an escape: one of them is refused, a third one that is
    spelled like it up to the last digit is not. -/
theorem accepts_all_but_controls : ∃ body t t' g,
    bodyFor (["a\t", "a\x01"].map Json.str) RuleTable.new = .ok body t ∧
      t.add "root" body = ("root", t') ∧ Grammar.ofText t'.text = .ok g ∧
      ∀ order : Grammar.Order,
        (∃ v, Grammar.checkIn order g (Json.str "a\x01").compact Grammar.startRule = .ok v ∧
          v.accepted = false) ∧
        ∃ v, Grammar.checkIn order g (Json.str "a\x02").compact Grammar.startRule = .ok v ∧
          v.accepted = true := by
  obtain ⟨body, t, t', g, hrun, hadd, hread, -, hjson⟩ :=
    accepts_all_but ["a\t", "a\x01"] (by decide)
  refine ⟨body, t, t', g, hrun, hadd, hread, fun order => ⟨?_, ?_⟩⟩
  · obtain ⟨v, hv, hiff⟩ := hjson order "a\x01" (by decide)
    exact ⟨v, hv, Bool.eq_false_iff.2 fun h => hiff.1 h (by decide)⟩
  · obtain ⟨v, hv, hiff⟩ := hjson order "a\x02" (by decide)
    exact ⟨v, hv, hiff.2 (by decide)⟩

end Exclusion

end SchemaGrammar
