import SchemaGrammar.Proofs.Pattern.Fragments
import SchemaGrammar.Proofs.Pattern.Regex
import SchemaGrammar.Proofs.Rules.IntRange
import SchemaGrammar.Proofs.Rules.Patterns

set_option autoImplicit false

/-! # Tokens in a row

Which rows of tokens make a pattern, and what they mean to a grammar (`Phrase`). Taking the tokens
of such a row one by one adds fragments of the same meaning to the row that is being read
(`yields_of_phrase`), so the expression for a whole pattern has the language of its tokens
(`exists_expression`). The one thing that can go wrong is a count that cannot be read
(`expression_fails`). What is known of the table besides is left open, as long as it stays when
rules are added (`RuleTable.IsLasting`). -/

namespace SchemaGrammar

open Grammar (Bracketed Counted IsWritable Quoted charWhere classLanguage repeated spelling)
open RuleTable (Develops IsLasting Requestable HasPlainDigits escapeName)

/-! ## Rules that are there already -/

/-- A rule has the language of its body. -/
theorem RuleTable.denotes_of_find? {t : RuleTable} {name body : String} {L : Language Char}
    (hfind : t.find? name = some body) (hw : t.Writes body L) : t.Denotes name L := by
  refine ⟨RuleTable.has_of_find? hfind, fun g hg => ?_⟩
  obtain ⟨rows, hwritten, hL⟩ := hw
  obtain ⟨node, hnode, hbody⟩ := hg.bodies name body hfind
  rw [Grammar.language_rule g hbody, hnode.unique (hwritten.isBody hg.readable),
    Grammar.language_ofRows g hwritten.fits.1]
  exact hL g hg

namespace Pattern

/-! ## Phrases -/

/-- The characters that a dot stands for. -/
def dotLanguage (dotAll : Bool) : Language Char :=
  charWhere fun c => dotAll = true ∨ c ≠ '\n' ∧ c ≠ '\r'

/-- The characters of a class are those in its ranges, or all others. -/
theorem classLanguage_eq (negated : Bool) (ranges : List (Nat × Nat)) :
    classLanguage negated ranges =
      charWhere fun c => (∃ x ∈ ranges, x.1 ≤ c.toNat ∧ c.toNat ≤ x.2) ↔ negated = false := by
  have hholds (c : Char) : Node.classHolds negated ranges c.toNat = true ↔
      ((∃ x ∈ ranges, x.1 ≤ c.toNat ∧ c.toNat ≤ x.2) ↔ negated = false) := by
    rw [Node.classHolds]
    cases negated <;> simp
  ext text
  exact exists_congr fun c => and_congr_right fun _ => hholds c

/-- A class between its brackets. -/
def bracketed (negated : Bool) (text : List Char) : List Char :=
  '[' :: ((if negated then ['^'] else []) ++ text ++ [']'])

/-- Tokens that belong together, by what they mean to a grammar. -/
inductive Phrase (dotAll : Bool) : Level → List Token → Language Char → Prop where
  | literal {text : List Char} {codes : List Nat} (inside : Quoted text codes) :
      Phrase dotAll .atom [.literal (String.ofList text)] (spelling codes)
  | dot : Phrase dotAll .atom [.dot] (dotLanguage dotAll)
  | charClass {negated : Bool} {text : List Char} {ranges : List (Nat × Nat)}
      (inside : Bracketed text ranges) (unmarked : negated = false → text.head? ≠ some '^') :
      Phrase dotAll .atom [.charClass (String.ofList (bracketed negated text))]
        (classLanguage negated ranges)
  | group {ts : List Token} {L : Language Char} (inner : Phrase dotAll .choice ts L) :
      Phrase dotAll .atom (.groupOpen :: (ts ++ [.groupClose])) L
  | marked {ts : List Token} {L : Language Char} {mark : Char} {low : Nat} {high : Option Nat}
      (once : Phrase dotAll .atom ts L) (counted : Counted [mark] low high) :
      Phrase dotAll .atom (ts ++ [.quantifier mark]) (repeated low high L)
  | counted {ts : List Token} {L : Language Char} {low : Nat} {high : Option Nat}
      (once : Phrase dotAll .atom ts L) (le : ∀ most ∈ high, low ≤ most)
      (lowWritable : IsWritable low) (highWritable : ∀ most ∈ high, IsWritable most)
      (occurs : high ≠ some 0) :
      Phrase dotAll .atom (ts ++ [.counts low (high.map Int.ofNat)]) (repeated low high L)
  /-- A count that cannot be read is refused. -/
  | refused {ts : List Token} {L M : Language Char} {body : String}
      (once : Phrase dotAll .atom ts L) : Phrase dotAll .atom (ts ++ [.badCounts body]) M
  /-- What is repeated not at all is no item. -/
  | omitted {ts : List Token} {L : Language Char} (once : Phrase dotAll .atom ts L) :
      Phrase dotAll .row (ts ++ [.counts 0 (some 0)]) 1
  | item {ts : List Token} {L : Language Char} (one : Phrase dotAll .atom ts L) :
      Phrase dotAll .row ts L
  | empty : Phrase dotAll .row [] 1
  | append {ts us : List Token} {L M : Language Char} (first : Phrase dotAll .row ts L)
      (second : Phrase dotAll .row us M) : Phrase dotAll .row (ts ++ us) (L * M)
  | branch {ts : List Token} {L : Language Char} (row : Phrase dotAll .row ts L) :
      Phrase dotAll .choice ts L
  | or {ts us : List Token} {L M : Language Char} (first : Phrase dotAll .choice ts L)
      (second : Phrase dotAll .choice us M) : Phrase dotAll .choice (ts ++ .bar :: us) (L + M)

/-- All counts can be read. -/
def IsCounted (ts : List Token) : Prop :=
  ∀ body, .badCounts body ∉ ts

theorem isCounted_append {ts us : List Token} :
    IsCounted (ts ++ us) ↔ IsCounted ts ∧ IsCounted us := by
  simp only [IsCounted, List.mem_append, not_or, forall_and]

theorem isCounted_cons {t : Token} {ts : List Token} :
    IsCounted (t :: ts) ↔ (∀ body, t ≠ .badCounts body) ∧ IsCounted ts := by
  simp only [IsCounted, List.mem_cons, not_or, forall_and, ne_comm, ne_eq]

theorem not_isCounted (body : String) (ts : List Token) : ¬ IsCounted (ts ++ [.badCounts body]) :=
  fun h => h body (by simp)

/-- What can be read of the counts in a phrase is in order. -/
theorem Phrase.le_of_mem {dotAll : Bool} {level : Level} {ts : List Token} {L : Language Char}
    (h : Phrase dotAll level ts L) {low most : Int} (hmem : .counts low (some most) ∈ ts) :
    low ≤ most := by
  induction h with
  | literal | dot | charClass | empty => simp at hmem
  | group _ ih | marked _ _ ih | refused _ ih => exact ih (by simpa using hmem)
  | @counted ts L least high _ le _ _ _ ih =>
    rcases List.mem_append.1 hmem with hinside | hlast
    · exact ih hinside
    · obtain ⟨rfl, hhigh⟩ : low = least ∧ some most = high.map Int.ofNat := by simpa using hlast
      obtain ⟨n, hn, rfl⟩ := Option.map_eq_some_iff.1 hhigh.symm
      exact Int.ofNat_le.2 (le n hn)
  | omitted _ ih =>
    rcases List.mem_append.1 hmem with hinside | hlast
    · exact ih hinside
    · obtain ⟨rfl, rfl⟩ : low = 0 ∧ most = 0 := by simpa using hlast
      exact le_rfl
  | item _ ih | branch _ ih => exact ih hmem
  | append _ _ ih ih' => exact (List.mem_append.1 hmem).elim ih ih'
  | or _ _ ih ih' =>
    rcases List.mem_append.1 hmem with hfirst | hsecond
    · exact ih hfirst
    · exact ih' (by simpa using hsecond)

/-! ## The run over a phrase -/

/-- The rules for expressions that are repeated by count are in the table. -/
structure Ready (inv : RuleTable → Prop) (s : State) (t : RuleTable) : Prop where
  kept : inv t
  parts : ∀ text name, s.parts.lookup text = some name → t.find? name = some text

/-- Taking tokens puts fragments into the row, the latest one first. -/
def Yields (job : Job) (inv : RuleTable → Prop) (ts : List Token)
    (Q : RuleTable → List Fragment → Prop) : Prop :=
  ∀ (xs : List Lexeme), xs.map Lexeme.token = ts → ∀ (s : State) (t : RuleTable), Ready inv s t →
    ∃ fs parts t', xs.foldlM job.step s t =
        .ok ⟨⟨s.row.start, fs.reverse ++ s.row.fragments⟩, s.outer, parts⟩ t' ∧
      Develops inv t t' ∧ Ready inv ⟨s.row, s.outer, parts⟩ t' ∧ Q t' fs

section Run

variable {job : Job} {plain : Prop} {inv : RuleTable → Prop} {ts us : List Token} {t t' : RuleTable} {s : State}
  {Q Q' : RuleTable → List Fragment → Prop} {L : Language Char}

theorem Yields.mono (h : Yields job inv ts Q) (hQ : ∀ t fs, inv t → Q t fs → Q' t fs) :
    Yields job inv ts Q' := by
  intro xs hxs s t hs
  obtain ⟨fs, parts, t', hrun, hdevelops, hready, hfs⟩ := h xs hxs s t hs
  exact ⟨fs, parts, t', hrun, hdevelops, hready, hQ t' fs hready.kept hfs⟩

theorem Yields.append (h : Yields job inv ts Q) (h' : Yields job inv us Q')
    (hextend : ∀ t t' fs, t.Extends t' → Q t fs → Q t' fs) :
    Yields job inv (ts ++ us) fun t fs =>
      ∃ front back, fs = front ++ back ∧ Q t front ∧ Q' t back := by
  intro xs hxs s t hs
  obtain ⟨ys, zs, rfl, hys, hzs⟩ := List.map_eq_append_iff.1 hxs
  obtain ⟨front, parts, t₁, hrun, hdevelops, hready, hfront⟩ := h ys hys s t hs
  obtain ⟨back, parts', t₂, hrun', hdevelops', hready', hback⟩ :=
    h' zs hzs ⟨⟨s.row.start, front.reverse ++ s.row.fragments⟩, s.outer, parts⟩ t₁
      ⟨hready.kept, hready.parts⟩
  refine ⟨front ++ back, parts', t₂, ?_, hdevelops.trans hdevelops', ⟨hready'.kept, hready'.parts⟩,
    front, back, rfl, hextend t₁ t₂ front hdevelops'.extends_ hfront, hback⟩
  rw [List.foldlM_append]
  refine Work.bind_eq_ok.2 ⟨_, t₁, hrun, hrun'.trans ?_⟩
  simp

/-- One token behind others, which sees what they have put into the row. -/
theorem Yields.step {last : Token} (h : Yields job inv ts Q)
    (hstep : ∀ x : Lexeme, x.token = last →
      ∀ (older fs : List Fragment) (s : State) (t : RuleTable), Ready inv s t →
        s.row.fragments = fs.reverse ++ older → Q t fs → ∃ gs parts t',
          job.step s x t = .ok ⟨⟨s.row.start, gs.reverse ++ older⟩, s.outer, parts⟩ t' ∧
            Develops inv t t' ∧ Ready inv ⟨s.row, s.outer, parts⟩ t' ∧ Q' t' gs) :
    Yields job inv (ts ++ [last]) Q' := by
  intro xs hxs s t hs
  obtain ⟨ys, zs, rfl, hys, hzs⟩ := List.map_eq_append_iff.1 hxs
  obtain ⟨x, rfl, hx⟩ := List.map_eq_singleton_iff.1 hzs
  obtain ⟨fs, parts, t₁, hrun, hdevelops, hready, hfs⟩ := h ys hys s t hs
  obtain ⟨gs, parts', t₂, hrun', hdevelops', hready', hgs⟩ :=
    hstep x hx s.row.fragments fs ⟨⟨s.row.start, fs.reverse ++ s.row.fragments⟩, s.outer, parts⟩ t₁
      ⟨hready.kept, hready.parts⟩ rfl hfs
  refine ⟨gs, parts', t₂, ?_, hdevelops.trans hdevelops', ⟨hready'.kept, hready'.parts⟩, hgs⟩
  rw [List.foldlM_append]
  exact Work.bind_eq_ok.2 ⟨_, t₁, hrun, Work.bind_eq_ok.2 ⟨_, t₂, hrun', rfl⟩⟩

theorem yields_nil (job : Job) (inv : RuleTable → Prop) : Yields job inv [] fun _ fs => fs = [] := by
  intro xs hxs s t hs
  obtain rfl := List.map_eq_nil_iff.1 hxs
  exact ⟨[], s.parts, t, rfl, .refl hs.kept, ⟨hs.kept, hs.parts⟩, rfl⟩

/-- A token that is a fragment by itself. -/
theorem yields_one {token : Token} {f : Fragment} (hQ : ∀ t, inv t → Q t [f])
    (hstep : ∀ (x : Lexeme), x.token = token → ∀ (s : State),
      job.step s x = pure { s with row := s.row.push f }) :
    Yields job inv [token] Q := by
  refine (yields_nil job inv).step fun x hx older fs s t hs hrow hfs => ?_
  subst hfs
  refine ⟨[f], s.parts, t, ?_, .refl hs.kept, ⟨hs.kept, hs.parts⟩, hQ t hs.kept⟩
  rw [hstep x hx]
  exact Work.pure_eq_ok.2 ⟨by rw [Row.push, hrow]; rfl, rfl⟩

/-! ### Items -/

/-- One fragment that a quantifier can follow. -/
def MeansItem (t : RuleTable) (fs : List Fragment) (L : Language Char) : Prop :=
  ∃ f, fs = [f] ∧ f.Means t L ∧ t.WritesItem f.rule L

theorem meansItem_text {text : String} (h : t.WritesItem text L) :
    MeansItem t [⟨text, false⟩] L :=
  ⟨_, rfl, means_row h.row, h⟩

theorem MeansItem.meanRow {fs : List Fragment} (h : MeansItem t fs L) : MeanRow t fs L := by
  obtain ⟨f, rfl, hf, -⟩ := h
  exact hf.meanRow

/-- An item is something to repeat. -/
theorem repeated_eq_ok {f : Fragment} {older : List Fragment} (hinv : IsLasting plain inv) (ht : inv t)
    (hrow : s.row.fragments = f :: older) (hitem : t.WritesItem f.rule L) (index : Nat) :
    job.repeated s index t = .ok (f, older) t := by
  have hne : f ≠ .bar := by
    rintro rfl
    exact hitem.ne_bar (hinv.storable t ht) rfl
  unfold Job.repeated
  rw [hrow]
  dsimp only
  rw [if_neg hne]
  rfl

theorem Ready.grow {parts : List (String × String)} (hs : Ready inv s t) (h : Develops inv t t')
    (hparts : ∀ text name, parts.lookup text = some name →
      s.parts.lookup text = some name ∨ t'.find? name = some text) :
    Ready inv ⟨s.row, s.outer, parts⟩ t' := by
  refine ⟨h.kept, fun text name hlookup => ?_⟩
  rcases hparts text name hlookup with hold | hnew
  · exact h.extends_.find? (hs.parts text name hold)
  · exact hnew

theorem writesItem_dot (job : Job) (t : RuleTable) :
    t.WritesItem job.dot (dotLanguage job.dotAll) := by
  have hcode {digits : List Char} {mark : Char} {width code : Nat}
      (hmark : Grammar.escapeWidth? mark = some width) (hlength : digits.length = width)
      (hvalue : Text.readInt? 16 digits = some (code : Int)) (hmost : code ≤ Grammar.maxCodePoint) :
      Grammar.Spells ('\\' :: mark :: digits) code := .numbered hmark hlength hvalue hmost
  unfold Job.dot
  by_cases hall : job.dotAll = true
  · rw [if_pos hall, dotLanguage]
    have hbody : Bracketed ("\\U00000000".toList ++ '-' :: ("\\U0010FFFF".toList ++ []))
        [(0, Grammar.maxCodePoint)] :=
      .range (hcode rfl rfl (by decide) (by decide)) (by decide)
        (hcode rfl rfl (by decide) (by decide)) (by decide) .nil
    have hlanguage : classLanguage false [(0, Grammar.maxCodePoint)] =
        charWhere fun c => job.dotAll = true ∨ c ≠ '\n' ∧ c ≠ '\r' := by
      have hmost (c : Char) : c.toNat ≤ Grammar.maxCodePoint := by
        have hvalid := c.valid
        simp only [UInt32.isValidChar, Nat.isValidChar] at hvalid
        rw [Grammar.maxCodePoint, Char.toNat]
        omega
      simp [classLanguage_eq, hall, hmost]
    rw [← hlanguage]
    exact RuleTable.writesItem_charClass t hbody (by decide)
  · rw [if_neg hall, dotLanguage]
    have hbody : Bracketed ("\\x0A".toList ++ ("\\x0D".toList ++ [])) [(10, 10), (13, 13)] :=
      .single (hcode rfl rfl (by decide) (by decide)) (by decide) (by decide)
        (.single (hcode rfl rfl (by decide) (by decide)) (by decide) (by decide) .nil)
    have hlanguage : classLanguage true [(10, 10), (13, 13)] =
        charWhere fun c => job.dotAll = true ∨ c ≠ '\n' ∧ c ≠ '\r' := by
      have hcode (c d : Char) : (d.toNat ≤ c.toNat ∧ c.toNat ≤ d.toNat) ↔ c = d := by
        rw [← Nat.le_antisymm_iff, Char.toNat_inj, eq_comm]
      have hline (c : Char) : (10 ≤ c.toNat ∧ c.toNat ≤ 10) ↔ c = '\n' := hcode c '\n'
      have hreturn (c : Char) : (13 ≤ c.toNat ∧ c.toNat ≤ 13) ↔ c = '\r' := hcode c '\r'
      simp [classLanguage_eq, hall, hline, hreturn]
    rw [← hlanguage]
    exact RuleTable.writesItem_exceptClass t hbody

theorem yields_dot (hinv : IsLasting plain inv) :
    Yields job inv [.dot] fun t fs => MeansItem t fs (dotLanguage job.dotAll) := by
  have hname : Requestable plain "dot" := ⟨by decide, by decide, fun _ => by decide⟩
  refine (yields_nil job inv).step fun x hx older fs s t hs hrow hfs => ?_
  subst hfs
  obtain ⟨slot, t', hadd⟩ : ∃ slot t', t.add "dot" job.dot = (slot, t') := ⟨_, _, rfl⟩
  obtain ⟨hdevelops, -, hdenotes⟩ :=
    hinv.develops hs.kept hname (by decide) (writesItem_dot job t).writes hadd
  refine ⟨[⟨slot, false⟩], s.parts, t', ?_, hdevelops, hs.grow hdevelops fun _ _ => .inl,
    meansItem_text hdenotes.item⟩
  unfold Job.step
  rw [hx]
  refine Work.bind_eq_ok.2 ⟨slot, t', RuleTable.addRule_eq_ok.2 hadd, Work.pure_eq_ok.2 ⟨?_, rfl⟩⟩
  simp [Row.push, hrow]

theorem yields_charClass {negated : Bool} {text : List Char} {ranges : List (Nat × Nat)}
    (inside : Bracketed text ranges) (unmarked : negated = false → text.head? ≠ some '^') :
    Yields job inv [.charClass (String.ofList (bracketed negated text))] fun t fs =>
      MeansItem t fs (classLanguage negated ranges) := by
  refine yields_one (fun t _ => meansItem_text ?_) fun x hx s => by unfold Job.step; rw [hx]
  refine ⟨.charClass negated ranges, ?_, fun g _ => Grammar.language_charClass g _ _⟩
  rw [String.toList_ofList]
  cases negated with
  | false => exact .charClass inside (unmarked rfl)
  | true => exact .exceptClass inside

theorem yields_literal {text : List Char} {codes : List Nat} (inside : Quoted text codes) :
    Yields job inv [.literal (String.ofList text)] fun t fs =>
      MeansItem t fs (spelling codes) := by
  have hquoted : Quoted (String.ofList text).toList codes := by rwa [String.toList_ofList]
  refine yields_one (fun t _ => ⟨_, rfl, means_literal t hquoted, ?_⟩)
    fun x hx s => by unfold Job.step; rw [hx]
  exact RuleTable.writesItem_quoted t hquoted

/-- One of the three marks behind an item. -/
theorem yields_marked {mark : Char} {low : Nat} {high : Option Nat} (hinv : IsLasting plain inv)
    (h : Yields job inv ts fun t fs => MeansItem t fs L) (counted : Counted [mark] low high) :
    Yields job inv (ts ++ [.quantifier mark]) fun t fs =>
      MeansItem t fs (repeated low high L) := by
  refine h.step fun x hx older fs s t hs hrow hfs => ?_
  obtain ⟨f, rfl, -, hitem⟩ := hfs
  have hmark : f.rule.push mark = f.rule ++ String.ofList [mark] := by
    rw [← String.toList_inj]
    simp
  refine ⟨[⟨f.rule.push mark, false⟩], s.parts, t, ?_, .refl hs.kept, ⟨hs.kept, hs.parts⟩,
    meansItem_text ?_⟩
  · have hlast : job.repeated s x.start t = .ok (f, older) t :=
      repeated_eq_ok hinv hs.kept hrow hitem x.start
    unfold Job.step
    rw [hx]
    exact Work.bind_eq_ok.2 ⟨(f, older), t, hlast, rfl⟩
  · rw [hmark]
    exact hitem.times (by simpa using counted)

/-! ### Counts -/

section Counts

variable (hinv : IsLasting plain inv) (hdigits : plain → HasPlainDigits job.name)

include hdigits

theorem requestable_part_plain (n : Nat) : Requestable plain (job.name ++ "-" ++ natText n) := by
  obtain ⟨⟨hnonempty, hfree, -⟩, -⟩ := requestable_part job.name n
  refine ⟨hnonempty, hfree, fun hplain => ((hdigits hplain).append ?_).append fun c hc _ => ?_⟩
  · decide
  · rw [natText, String.toList_ofList] at hc
    exact Text.isDigit_of_mem_toDigits hc

include hinv

/-- What is repeated by count is a literal or has a rule. -/
theorem exists_part {text : String} (hs : Ready inv s t) (hw : t.Writes text L) :
    ∃ name parts t', job.part s text t = .ok (name, ⟨s.row, s.outer, parts⟩) t' ∧
      Develops inv t t' ∧ Ready inv ⟨s.row, s.outer, parts⟩ t' ∧ t'.WritesItem name L := by
  unfold Job.part
  cases hlookup : s.parts.lookup text with
  | some name =>
    have hdenotes := RuleTable.denotes_of_find? (hs.parts text name hlookup) hw
    exact ⟨name, s.parts, t, rfl, .refl hs.kept, ⟨hs.kept, hs.parts⟩, hdenotes.item⟩
  | none =>
    have hname := requestable_part_plain hdigits (s.parts.length + 1)
    obtain ⟨slot, t', hadd⟩ : ∃ slot t',
      t.add (job.name ++ "-" ++ natText (s.parts.length + 1)) text = (slot, t') := ⟨_, _, rfl⟩
    obtain ⟨hdevelops, hfind, hdenotes⟩ := hinv.develops hs.kept hname
      (requestable_part job.name (s.parts.length + 1)).2 hw hadd
    refine ⟨slot, s.parts ++ [(text, slot)], t', ?_, hdevelops,
      hs.grow hdevelops fun other name hfound => ?_, hdenotes.item⟩
    · exact Work.bind_eq_ok.2 ⟨slot, t', RuleTable.addRule_eq_ok.2 hadd, rfl⟩
    · rw [Assoc.lookup_append] at hfound
      cases hold : s.parts.lookup other with
      | some kept =>
        rw [hold] at hfound
        exact .inl hfound
      | none =>
        rw [hold] at hfound
        obtain ⟨rfl, rfl⟩ := Prod.mk.inj (List.mem_singleton.1 (Assoc.mem_of_lookup hfound))
        exact .inr hfind

/-- What a counted item becomes: a row, and an item if it may occur. -/
theorem exists_repeatCounted {f : Fragment} {older : List Fragment} {low : Nat} {high : Option Nat}
    (hs : Ready inv s t) (hrow : s.row.fragments = f :: older) (hitem : t.WritesItem f.rule L)
    (hle : ∀ most ∈ high, low ≤ most) (hlow : IsWritable low)
    (hhigh : ∀ most ∈ high, IsWritable most) (index : Nat) : ∃ text parts t',
      job.repeatCounted s index low (high.map Int.ofNat) t =
          .ok ⟨⟨s.row.start, ⟨text, false⟩ :: older⟩, s.outer, parts⟩ t' ∧
        Develops inv t t' ∧ Ready inv ⟨s.row, s.outer, parts⟩ t' ∧
        t'.WritesRow text (repeated low high L) ∧
        (high ≠ some 0 → t'.WritesItem text (repeated low high L)) := by
  obtain ⟨item, parts, t', hpart, hdevelops, hready, hwrites⟩ : ∃ item parts t',
      (if f.isLiteral then pure (f.rule, s) else job.part s f.text) t =
          .ok (item, ⟨s.row, s.outer, parts⟩) t' ∧
        Develops inv t t' ∧ Ready inv ⟨s.row, s.outer, parts⟩ t' ∧ t'.WritesItem item L := by
    by_cases hliteral : f.isLiteral = true
    · rw [if_pos hliteral]
      exact ⟨f.rule, s.parts, t, rfl, .refl hs.kept, ⟨hs.kept, hs.parts⟩, hitem⟩
    · rw [if_neg hliteral]
      rw [Fragment.rule, if_neg hliteral] at hitem
      exact exists_part hinv hdigits hs hitem.writes
  obtain ⟨text, htext⟩ : ∃ text,
      Grammar.repetition item (Grammar.lowCount low) (Grammar.highCount high) = .ok text := by
    rw [Grammar.repetition_eq, if_pos hle, if_pos (And.intro hlow hhigh)]
    split_ifs <;> exact ⟨_, rfl⟩
  refine ⟨text, parts, t', ?_, hdevelops, hready, Grammar.writesRow_repetition hwrites htext,
    fun hne => Grammar.writesItem_repetition hwrites hne htext⟩
  unfold Job.repeatCounted
  refine Work.bind_eq_ok.2 ⟨(f, older), t, repeated_eq_ok hinv hs.kept hrow hitem index, ?_⟩
  have hlast : (MonadExcept.ofExcept (Grammar.repetition item (Grammar.lowCount low)
      (Grammar.highCount high)) : TableM String) t' = .ok text t' :=
    Work.ofExcept_eq_ok.2 ⟨htext, rfl⟩
  dsimp only
  split_ifs at hpart ⊢ <;> cases high <;>
    exact Work.bind_eq_ok.2 ⟨_, t', hpart, Work.bind_eq_ok.2 ⟨text, t', hlast, rfl⟩⟩

theorem yields_counted {low : Nat} {high : Option Nat}
    (h : Yields job inv ts fun t fs => MeansItem t fs L) (hle : ∀ most ∈ high, low ≤ most)
    (hlow : IsWritable low) (hhigh : ∀ most ∈ high, IsWritable most) (hne : high ≠ some 0) :
    Yields job inv (ts ++ [.counts low (high.map Int.ofNat)]) fun t fs =>
      MeansItem t fs (repeated low high L) := by
  refine h.step fun x hx older fs s t hs hrow hfs => ?_
  obtain ⟨f, rfl, -, hitem⟩ := hfs
  obtain ⟨text, parts, t', hrun, hdevelops, hready, -, hwrites⟩ :=
    exists_repeatCounted hinv hdigits hs hrow hitem hle hlow hhigh x.start
  refine ⟨[⟨text, false⟩], parts, t', ?_, hdevelops, hready, meansItem_text (hwrites hne)⟩
  unfold Job.step
  rw [hx]
  exact hrun

theorem yields_omitted (h : Yields job inv ts fun t fs => MeansItem t fs L) :
    Yields job inv (ts ++ [.counts 0 (some 0)]) fun t fs => MeanRow t fs 1 := by
  refine h.step fun x hx older fs s t hs hrow hfs => ?_
  obtain ⟨f, rfl, -, hitem⟩ := hfs
  have hzero : IsWritable 0 := Nat.pow_pos (by decide)
  have hle : ∀ most ∈ (some 0 : Option Nat), 0 ≤ most := by simp
  have hhigh : ∀ most ∈ (some 0 : Option Nat), IsWritable most := by simpa using hzero
  obtain ⟨text, parts, t', hrun, hdevelops, hready, hwrites, -⟩ :=
    exists_repeatCounted hinv hdigits hs hrow hitem hle hzero hhigh x.start
  rw [Grammar.repeated_exactly, pow_zero] at hwrites
  refine ⟨[⟨text, false⟩], parts, t', ?_, hdevelops, hready, (means_row hwrites).meanRow⟩
  unfold Job.step
  rw [hx]
  exact hrun

end Counts

/-! ### Groups and branches -/

theorem yields_group (h : Yields job inv ts fun t fs => Branches t fs L) :
    Yields job inv (.groupOpen :: (ts ++ [.groupClose])) fun t fs => MeansItem t fs L := by
  intro xs hxs s t hs
  obtain ⟨x, ys, rfl, hx, hys⟩ := List.map_eq_cons_iff.1 hxs
  obtain ⟨zs, ws, rfl, hzs, hws⟩ := List.map_eq_append_iff.1 hys
  obtain ⟨z, rfl, hz⟩ := List.map_eq_singleton_iff.1 hws
  -- the row around the group waits while the one inside is read
  have hopen : job.step s x t = .ok ⟨⟨x.stop, []⟩, s.row :: s.outer, s.parts⟩ t := by
    unfold Job.step
    rw [hx]
    rfl
  obtain ⟨fs, parts, t', hrun, hdevelops, hready, hbranches⟩ :=
    h zs hzs ⟨⟨x.stop, []⟩, s.row :: s.outer, s.parts⟩ t ⟨hs.kept, hs.parts⟩
  have hclose : job.step ⟨⟨x.stop, fs.reverse ++ []⟩, s.row :: s.outer, parts⟩ z t' =
      .ok ⟨s.row.push ⟨"(" ++ (joinFragments fs).rule ++ ")", false⟩, s.outer, parts⟩ t' := by
    unfold Job.step
    rw [hz]
    dsimp only
    rw [Row.join, List.append_nil, List.reverse_reverse]
    rfl
  refine ⟨[⟨"(" ++ (joinFragments fs).rule ++ ")", false⟩], parts, t', ?_, hdevelops,
    ⟨hready.kept, hready.parts⟩, meansItem_text hbranches.writes_join.group⟩
  rw [List.foldlM_cons]
  refine Work.bind_eq_ok.2 ⟨_, t, hopen, ?_⟩
  rw [List.foldlM_append]
  exact Work.bind_eq_ok.2 ⟨_, t', hrun, Work.bind_eq_ok.2 ⟨_, t', hclose, rfl⟩⟩

theorem yields_bar : Yields job inv [.bar] fun _ fs => fs = [.bar] :=
  yields_one (fun _ _ => rfl) fun x hx s => by unfold Job.step; rw [hx]

theorem yields_or {M : Language Char} (h : Yields job inv ts fun t fs => Branches t fs L)
    (h' : Yields job inv us fun t fs => Branches t fs M) :
    Yields job inv (ts ++ .bar :: us) fun t fs => Branches t fs (L + M) := by
  have hbehind := yields_bar.append h' fun _ _ _ _ hbar => hbar
  refine (h.append hbehind fun _ _ _ ht hfs => hfs.extend ht).mono fun t fs _ hfs => ?_
  obtain ⟨front, _, rfl, hfront, _, back, rfl, rfl, hback⟩ := hfs
  exact hfront.append hback

/-- What the fragments of a phrase mean. -/
def MeansPhrase (level : Level) (t : RuleTable) (fs : List Fragment) (L : Language Char) : Prop :=
  match level with
  | .atom => MeansItem t fs L
  | .row => MeanRow t fs L
  | .choice => Branches t fs L

/-- **Taking a phrase** never fails if its counts can be read, and its fragments mean what it
    does. -/
theorem yields_of_phrase {level : Level} (hinv : IsLasting plain inv)
    (hdigits : plain → HasPlainDigits job.name) (h : Phrase job.dotAll level ts L) (hcounted : IsCounted ts) :
    Yields job inv ts fun t fs => MeansPhrase level t fs L := by
  -- on how the tokens belong together; where a count cannot be read there is nothing to show
  induction h with
  | literal inside => exact yields_literal inside
  | dot => exact yields_dot hinv
  | charClass inside unmarked => exact yields_charClass inside unmarked
  | group _ ih =>
    rw [isCounted_cons, isCounted_append] at hcounted
    exact yields_group (ih hcounted.2.1)
  | marked _ counted ih => exact yields_marked hinv (ih (isCounted_append.1 hcounted).1) counted
  | counted _ le low high occurs ih =>
    exact yields_counted hinv hdigits (ih (isCounted_append.1 hcounted).1) le low high occurs
  | refused _ _ => exact absurd hcounted (not_isCounted _ _)
  | omitted _ ih => exact yields_omitted hinv hdigits (ih (isCounted_append.1 hcounted).1)
  | item _ ih => exact (ih hcounted).mono fun _ _ _ hfs => hfs.meanRow
  | empty =>
    refine (yields_nil job inv).mono fun t fs _ hfs => ?_
    subst hfs
    exact meanRow_nil t
  | append _ _ ih ih' =>
    obtain ⟨hfront, hback⟩ := isCounted_append.1 hcounted
    refine ((ih hfront).append (ih' hback) fun _ _ _ ht hfs => hfs.extend ht).mono
      fun t fs _ hfs => ?_
    obtain ⟨front, back, rfl, hfront, hback⟩ := hfs
    exact hfront.append hback
  | branch _ ih => exact (ih hcounted).mono fun _ _ _ hfs => .row hfs
  | or _ _ ih ih' =>
    rw [isCounted_append, isCounted_cons] at hcounted
    exact yields_or (ih hcounted.1) (ih' hcounted.2.2)

/-! ## The expression for a pattern -/

/-- The expression for a pattern has the language of its tokens. -/
theorem exists_expression (hinv : IsLasting plain inv) (hdigits : plain → HasPlainDigits job.name)
    (ht : inv t)
    (htokens : (lexemes job.source.toList).map Lexeme.token = ts)
    (h : Phrase job.dotAll .choice ts L) (hcounted : IsCounted ts) :
    ∃ text t', job.expression t = .ok text t' ∧ Develops inv t t' ∧ t'.Writes text L := by
  obtain ⟨fs, parts, t', hrun, hdevelops, -, hbranches⟩ := yields_of_phrase hinv hdigits h hcounted
    (lexemes job.source.toList) htokens ⟨⟨0, []⟩, [], []⟩ t ⟨ht, by simp⟩
  refine ⟨_, t', Work.bind_eq_ok.2 ⟨_, t', hrun, rfl⟩, hdevelops, ?_⟩
  simp only [Row.join, List.append_nil, List.reverse_reverse]
  exact Branches.writes_join hbranches

/-- A count that cannot be read is a fault, whatever there is to repeat. -/
theorem step_badCounts {x : Lexeme} {body : String} (hx : x.token = .badCounts body) (s : State)
    (t : RuleTable) : ∃ e, job.step s x t = .error e t := by
  unfold Job.step
  rw [hx]
  unfold Job.repeated
  dsimp only
  split
  · split_ifs <;> exact ⟨_, rfl⟩
  · exact ⟨_, rfl⟩

/-- There is no expression for a pattern with a count that cannot be read. -/
theorem expression_fails (htokens : (lexemes job.source.toList).map Lexeme.token = ts)
    (h : ¬ IsCounted ts) : ∃ e t', job.expression t = .error e t' := by
  simp only [IsCounted, not_forall, not_not] at h
  obtain ⟨body, hmem⟩ := h
  rw [← htokens] at hmem
  obtain ⟨x, hx, htoken⟩ := List.mem_map.1 hmem
  obtain ⟨e, t', hfailed⟩ := Work.foldlM_fails hx
    (fun s t => (step_badCounts htoken s t).imp fun _ h => ⟨t, h⟩) ⟨⟨0, []⟩, [], []⟩ t
  exact ⟨e, t', Work.bind_eq_error.2 (.inl hfailed)⟩

end Run

end Pattern

end SchemaGrammar
