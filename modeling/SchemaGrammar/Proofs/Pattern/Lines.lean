import SchemaGrammar.Pattern.Rule
import SchemaGrammar.Proofs.Rules.Lines

set_option autoImplicit false

/-! # Patterns on one line

Classes and literals are copied from a pattern. If the pattern is on one line, so are its tokens,
the fragments made from them, the rules for what is repeated and the rule for the whole pattern
(`keeps_toRule`). -/

namespace SchemaGrammar

open RuleTable (IsListable keeps_addRule)
open Text (IsOneLine isOneLine_ofList isOneLine_intercalate endsLine Cursor)
open Work (Keeps)

namespace Pattern

/-! ## Tokens -/

/-- What a token copies is on one line. -/
def Token.IsListable : Token → Prop
  | .charClass text => IsOneLine text
  | .literal text => IsOneLine text
  | .quantifier mark => endsLine mark = false
  | _ => True

variable {c d : Char} {rest text : List Char} {k k' : Cursor}

theorem endsLine_of_mem_plainText (hc : endsLine c = false) (hd : d ∈ plainText c) :
    endsLine d = false := by
  unfold plainText at hd
  split_ifs at hd
  iterate 3 exact Text.endsLine_of_mem_escape (by decide) (by simp) hd
  exact List.mem_singleton.1 hd ▸ hc

theorem endsLine_of_mem_escapeText {length : Nat} (h : ∀ d ∈ c :: rest, endsLine d = false)
    (htext : escapeText c rest = .ok (text, length)) : ∀ d ∈ text, endsLine d = false := by
  obtain ⟨hc, hrest⟩ := List.forall_mem_cons.1 h
  unfold escapeText at htext
  split at htext
  · obtain ⟨rfl, -⟩ := Prod.mk.inj (Except.ok.inj htext)
    simpa using hc
  split at htext
  · dsimp only at htext
    split_ifs at htext
    obtain ⟨rfl, -⟩ := Prod.mk.inj (Except.ok.inj htext)
    exact fun d => Text.endsLine_of_mem_escape hc fun d hd => hrest d (List.mem_of_mem_take hd)
  · split_ifs at htext
    · obtain ⟨rfl, -⟩ := Prod.mk.inj (Except.ok.inj htext)
      exact fun d => Text.endsLine_of_mem_escape hc (by simp)
    · obtain ⟨rfl, -⟩ := Prod.mk.inj (Except.ok.inj htext)
      simpa using hc

/-- What has been read is on one line, and so is what follows. -/
def Reads (x : Token × Cursor) : Prop :=
  x.1.IsListable ∧ ∀ c ∈ x.2.rest, endsLine c = false

theorem endsLine_of_mem_advance {count : Nat} (h : ∀ c ∈ k.rest, endsLine c = false) :
    ∀ c ∈ (k.advance count).rest, endsLine c = false :=
  fun c hc => h c (List.mem_of_mem_drop hc)

theorem endsLine_of_mem_literalFrom {steps : Nat} {done : List Char}
    (hdone : ∀ c ∈ done, endsLine c = false) (hk : ∀ c ∈ k.rest, endsLine c = false)
    (h : literalFrom steps done k = .ok (text, k')) :
    (∀ c ∈ text, endsLine c = false) ∧ ∀ c ∈ k'.rest, endsLine c = false := by
  have hstop {done : List Char} {k : Cursor} (hdone : ∀ c ∈ done, endsLine c = false)
      (hk : ∀ c ∈ k.rest, endsLine c = false)
      (h : (Except.ok (done.reverse, k) : Except (PatternFault × Nat) _) = .ok (text, k')) :
      (∀ c ∈ text, endsLine c = false) ∧ ∀ c ∈ k'.rest, endsLine c = false := by
    obtain ⟨rfl, rfl⟩ := Prod.mk.inj (Except.ok.inj h)
    exact ⟨by simpa using hdone, hk⟩
  induction steps generalizing done k with
  | zero => exact hstop hdone hk h
  | succ steps ih =>
    have hmore {more : List Char} (hmore : ∀ c ∈ more, endsLine c = false) :
        ∀ c ∈ more.reverse ++ done, endsLine c = false := by
      intro c hc
      rcases List.mem_append.1 hc with hc | hc
      · exact hmore c (List.mem_reverse.1 hc)
      · exact hdone c hc
    unfold literalFrom at h
    split at h
    · exact hstop hdone hk h
    · exact absurd h (by simp)
    · rename_i c rest hrest
      split_ifs at h
      · exact hstop hdone hk h
      · split at h
        · exact absurd h (by simp)
        · rename_i found length hescape
          dsimp only at h
          split_ifs at h
          · exact hstop hdone hk h
          · have hbehind : ∀ d ∈ c :: rest, endsLine d = false :=
              fun d hd => hk d (by rw [hrest]; exact List.mem_cons_of_mem _ hd)
            exact ih (hmore (endsLine_of_mem_escapeText hbehind hescape)) (endsLine_of_mem_advance hk) h
    · rename_i c rest _ _ hrest
      have hc : endsLine c = false := hk c (by simp [hrest])
      split_ifs at h
      · exact ih (hmore fun d hd => endsLine_of_mem_plainText hc hd) (endsLine_of_mem_advance hk) h
      · exact ih (by simpa using hc) (endsLine_of_mem_advance hk) h
      · exact hstop hdone hk h

theorem reads_literal (hk : ∀ c ∈ k.rest, endsLine c = false) : Reads (literal k) := by
  unfold literal
  split
  · rename_i text next hread
    obtain ⟨htext, hnext⟩ := endsLine_of_mem_literalFrom (by simp) hk hread
    exact ⟨isOneLine_ofList.2 htext, hnext⟩
  · exact ⟨trivial, by simp⟩

theorem isOneLine_shorthand {text : String} (h : shorthand? c = some text) : IsOneLine text := by
  unfold shorthand? at h
  split at h
  iterate 6
    obtain rfl := Option.some.inj h
    decide
  cases h

/-- A token of a text on one line, with what follows it. -/
theorem reads_token (hk : ∀ c ∈ k.rest, endsLine c = false) : Reads (token k) := by
  have hon {t : Token} {count : Nat} (ht : t.IsListable) : Reads (t, k.advance count) :=
    ⟨ht, endsLine_of_mem_advance hk⟩
  unfold token
  split
  iterate 4 exact hon trivial
  · unfold charClass
    dsimp only
    split_ifs
    · exact hon (isOneLine_ofList.2 fun c hc => hk c (List.mem_of_mem_take hc))
    · exact hon trivial
  · exact hon trivial
  · exact hon (show endsLine '*' = false by decide)
  · exact hon (show endsLine '+' = false by decide)
  · exact hon (show endsLine '?' = false by decide)
  · unfold braces
    dsimp only
    split_ifs
    · exact ⟨trivial, endsLine_of_mem_advance (endsLine_of_mem_advance hk)⟩
    · split
      iterate 2
        exact ⟨trivial, endsLine_of_mem_advance (endsLine_of_mem_advance (endsLine_of_mem_advance hk))⟩
  · split
    · rename_i hshorthand
      exact hon (isOneLine_shorthand hshorthand)
    · exact reads_literal hk
  · exact reads_literal hk

theorem isListable_lexemes {cs : List Char} (h : ∀ c ∈ cs, endsLine c = false) :
    ∀ x ∈ lexemes cs, x.token.IsListable := by
  have hfrom (steps : Nat) : ∀ k : Cursor, (∀ c ∈ k.rest, endsLine c = false) →
      ∀ x ∈ lexemesFrom steps k, x.token.IsListable := by
    induction steps with
    | zero => simp [lexemesFrom]
    | succ steps ih =>
      intro k hk
      obtain ⟨htoken, hrest⟩ := reads_token hk
      rw [lexemesFrom]
      split_ifs
      · simp
      · exact List.forall_mem_cons.2 ⟨htoken, ih _ hrest⟩
  exact hfrom _ _ h

/-! ## Fragments -/

theorem isOneLine_rule {f : Fragment} (h : IsOneLine f.text) : IsOneLine f.rule := by
  unfold Fragment.rule
  split_ifs
  · exact .between (by decide) h (by decide)
  · exact h

theorem isOneLine_joinLiterals {fs : List Fragment} (h : ∀ f ∈ fs, IsOneLine f.text) :
    ∀ f ∈ joinLiterals fs, IsOneLine f.text := by
  induction fs with
  | nil => simp [joinLiterals]
  | cons f rest ih =>
    obtain ⟨hf, hrest⟩ := List.forall_mem_cons.1 h
    replace ih := ih hrest
    rw [joinLiterals]
    split
    · rename_i g more hjoined
      rw [hjoined] at ih
      obtain ⟨hg, hmore⟩ := List.forall_mem_cons.1 ih
      split_ifs
      · exact List.forall_mem_cons.2 ⟨hf.append hg, hmore⟩
      · exact List.forall_mem_cons.2 ⟨hf, ih⟩
    · simpa using hf

theorem isOneLine_joinFragments {fs : List Fragment} (h : ∀ f ∈ fs, IsOneLine f.text) :
    IsOneLine (joinFragments fs).text := by
  have hjoined := isOneLine_joinLiterals h
  unfold joinFragments
  split
  · rename_i f hone
    exact hjoined f (by simp [hone])
  · refine isOneLine_intercalate (by decide) fun e he => ?_
    obtain ⟨f, hf, rfl⟩ := List.mem_map.1 he
    exact isOneLine_rule (hjoined f hf)

/-! ## The run over a pattern -/

/-- All that has been read is on one line, and so are the names of parts. -/
structure State.IsListable (s : State) : Prop where
  row : ∀ f ∈ s.row.fragments, IsOneLine f.text
  outer : ∀ row ∈ s.outer, ∀ f ∈ row.fragments, IsOneLine f.text
  parts : ∀ part ∈ s.parts, IsOneLine part.2

variable {s : State} {job : Job}

theorem State.IsListable.push (h : s.IsListable) {f : Fragment} (hf : IsOneLine f.text) :
    State.IsListable { s with row := s.row.push f } :=
  ⟨List.forall_mem_cons.2 ⟨hf, h.row⟩, h.outer, h.parts⟩

theorem keeps_repeated (hs : s.IsListable) (index : Nat) :
    Keeps RuleTable.IsListable (fun found => IsOneLine found.1.text ∧
      ∀ f ∈ found.2, IsOneLine f.text) (job.repeated s index) := by
  have hrow := hs.row
  unfold Job.repeated
  split
  · rename_i f rest heq
    rw [heq] at hrow
    split_ifs
    · exact .throw _
    · exact .pure (List.forall_mem_cons.1 hrow)
  · exact .throw _

theorem keeps_part (hs : s.IsListable) {text : String} (htext : IsOneLine text) :
    Keeps RuleTable.IsListable (fun found => IsOneLine found.1 ∧ found.2.IsListable)
      (job.part s text) := by
  unfold Job.part
  split
  · rename_i name hlookup
    exact .pure ⟨hs.parts _ (Assoc.mem_of_lookup hlookup), hs⟩
  · refine (keeps_addRule _ htext).bind fun name hname => .pure ⟨hname, hs.row, hs.outer, ?_⟩
    intro part hpart
    rcases List.mem_append.1 hpart with hpart | hpart
    · exact hs.parts part hpart
    · rw [List.mem_singleton.1 hpart]
      exact hname

theorem keeps_repeatCounted (hs : s.IsListable) (index : Nat) (low : Int) (high : Option Int) :
    Keeps RuleTable.IsListable State.IsListable (job.repeatCounted s index low high) := by
  have hshown (n : Int) : IsOneLine (Job.countValue n).shown := Json.isOneLine_shownQuoted _
  have hnull : IsOneLine Json.null.shown := by decide
  unfold Job.repeatCounted
  refine (keeps_repeated hs index).bind fun found hfound => ?_
  obtain ⟨f, rest⟩ := found
  obtain ⟨hf, hrest⟩ := hfound
  -- the item with its counts takes the place of the latest fragment
  have hlast (most : Json) (hmost : IsOneLine most.shown) (item : String) (s' : State)
      (hitem : IsOneLine item) (hs' : s'.IsListable) :
      Keeps RuleTable.IsListable State.IsListable (do
        let text ← MonadExcept.ofExcept (Grammar.repetition item (Job.countValue low) most)
        return { s' with row := { s'.row with fragments := ⟨text, false⟩ :: rest } } : TableM State) := by
    refine (Keeps.ofExcept (Q := IsOneLine) fun text htext =>
      Grammar.isOneLine_repetition hitem (hshown low) hmost htext).bind fun text htext => ?_
    exact .pure ⟨List.forall_mem_cons.2 ⟨htext, hrest⟩, hs'.outer, hs'.parts⟩
  dsimp only
  split_ifs
  · refine hlast _ ?_ f.rule s (isOneLine_rule hf) hs
    cases high with
    | none => exact hnull
    | some n => exact hshown n
  · refine (keeps_part hs hf).bind fun part hpart => hlast _ ?_ part.1 part.2 hpart.1 hpart.2
    cases high with
    | none => exact hnull
    | some n => exact hshown n

/-- **What one token adds is on one line.** -/
theorem keeps_step (hs : s.IsListable) {x : Lexeme} (hx : x.token.IsListable) :
    Keeps RuleTable.IsListable State.IsListable (job.step s x) := by
  unfold Job.step
  dsimp only
  generalize x.token = kind at hx
  cases kind with
  | dot =>
    have hdot : IsOneLine job.dot := by
      unfold Job.dot
      split_ifs <;> decide
    exact (keeps_addRule "dot" hdot).bind fun name hname => .pure (hs.push hname)
  | groupOpen => exact .pure ⟨by simp, List.forall_mem_cons.2 ⟨hs.row, hs.outer⟩, hs.parts⟩
  | extension => exact .throw _
  | groupClose =>
    dsimp only
    split
    · rename_i row outer houter
      have hall := hs.outer
      rw [houter] at hall
      obtain ⟨hrow, hrest⟩ := List.forall_mem_cons.1 hall
      have hinner : IsOneLine s.row.join.rule := isOneLine_rule
        (isOneLine_joinFragments fun f hf => hs.row f (List.mem_reverse.1 hf))
      exact .pure ⟨List.forall_mem_cons.2 ⟨.between (by decide) hinner (by decide), hrow⟩, hrest,
        hs.parts⟩
    · exact .throw _
  | charClass text => exact .pure (hs.push hx)
  | openClass => exact .throw _
  | bar => exact .pure (hs.push (by decide))
  | quantifier mark =>
    refine (keeps_repeated hs x.start).bind fun found hfound => ?_
    obtain ⟨hf, hrest⟩ := hfound
    exact .pure ⟨List.forall_mem_cons.2 ⟨(isOneLine_rule hf).push hx, hrest⟩, hs.outer, hs.parts⟩
  | counts low high => exact keeps_repeatCounted hs x.start low high
  | openBraces => exact (keeps_repeated hs x.start).bind fun _ _ => .throw _
  | badCounts body => exact (keeps_repeated hs x.start).bind fun _ _ => .throw _
  | literal text => exact .pure (hs.push hx)
  | broken fault => exact .throw _

/-- The rule of a pattern on one line, and all that it needs, is on one line. -/
theorem keeps_toRule {pattern : String} (h : IsOneLine pattern) (name : String) (dotAll : Bool) :
    Keeps RuleTable.IsListable IsOneLine (toRule pattern name dotAll) := by
  unfold toRule
  split
  · exact .throw _
  · rename_i source hsource
    have hcs : ∀ c ∈ source.toList, endsLine c = false := by
      unfold unanchored? at hsource
      split at hsource
      · rename_i rest hrest
        split_ifs at hsource
        obtain rfl := Option.some.inj hsource
        refine isOneLine_ofList.2 fun c hc => h c ?_
        rw [hrest]
        exact List.mem_cons_of_mem _ (List.mem_of_mem_dropLast hc)
      · cases hsource
    have hstart : State.IsListable ⟨⟨0, []⟩, [], []⟩ := ⟨by simp, by simp, by simp⟩
    have hexpression : Keeps RuleTable.IsListable IsOneLine (Job.expression ⟨source, name, dotAll⟩) := by
      refine (Keeps.foldlM (fun s hs x hx => keeps_step hs (isListable_lexemes hcs x hx)) hstart).bind
        fun s hs => ?_
      split_ifs
      · exact .pure (isOneLine_rule
          (isOneLine_joinFragments fun f hf => hs.row f (List.mem_reverse.1 hf)))
      · exact .throw _
    exact hexpression.bind fun body hbody =>
      keeps_addRule name (.between (by decide) hbody (by decide))

end Pattern

end SchemaGrammar
