import SchemaGrammar.Diagnosis
import SchemaGrammar.Proofs.Rules.Patterns

set_option autoImplicit false

/-! # Where a pattern is at fault

A fault of a pattern comes with the index at which reading the pattern stopped, and a report puts a
caret there. Reading a token stops at a place in the pattern (`stopsIn_token`), with one exception:
a class that the pattern ends in right behind a backslash is read one character too far. So every
index is one of a character or of the end of the pattern, but for these classes, where it is the one
behind (`fault_points_into_pattern`). Columns are those of the line that shows the pattern; what a
pattern with a line break in it looks like on paper is not looked at. -/

namespace SchemaGrammar

/-- A fault of one escape. -/
def PatternFault.IsOfEscape : PatternFault → Prop
  | .danglingEscape | .escape _ | .unsupported _ => True
  | _ => False

namespace Pattern

open Text (Cursor)
open Work (FailsWith)

/-! ## Places -/

/-- A place in a text: so many of its characters have been read, and the others follow. -/
structure IsPlace (cs : List Char) (k : Cursor) : Prop where
  offset_le : k.offset ≤ cs.length
  rest : k.rest = cs.drop k.offset

section Places

variable {cs : List Char} {k : Cursor} {count : Nat}

theorem isPlace_start (cs : List Char) : IsPlace cs (.start cs) :=
  ⟨Nat.zero_le _, rfl⟩

theorem IsPlace.offset_add (h : IsPlace cs k) : k.offset + k.rest.length = cs.length := by
  have := h.offset_le
  rw [h.rest, List.length_drop]
  omega

theorem IsPlace.advance (h : IsPlace cs k) (hcount : count ≤ k.rest.length) :
    IsPlace cs (k.advance count) := by
  refine ⟨?_, ?_⟩
  · rw [← h.offset_add]
    exact Nat.add_le_add_left hcount _
  · change k.rest.drop count = cs.drop (k.offset + count)
    rw [h.rest, List.drop_drop]

theorem IsPlace.next {c : Char} {rest : List Char} (h : IsPlace cs k) (hrest : k.rest = c :: rest) :
    IsPlace cs (k.advance 1) :=
  h.advance (by simp [hrest])

end Places

/-! ## Backslashes at the end -/

/-- Does a text end with a backslash that has nothing behind it to escape? -/
def endsInEscape : List Char → Bool
  | [] => false
  | '\\' :: [] => true
  | '\\' :: _ :: rest => endsInEscape rest
  | _ :: rest => endsInEscape rest

theorem endsInEscape_cons {c : Char} (h : c ≠ '\\') (rest : List Char) :
    endsInEscape (c :: rest) = endsInEscape rest := by
  rw [endsInEscape.eq_def]
  split <;> simp_all

/-- Only what stands behind a bracket counts, whether the bracket is escaped or not. -/
theorem endsInEscape_append (front rest : List Char) :
    endsInEscape (front ++ '[' :: rest) = endsInEscape rest := by
  fun_induction endsInEscape front with
  | case1 => rfl
  | case2 => rfl
  | case3 c front ih => exact ih
  | case4 c front hlone hpair ih =>
    have hc : c ≠ '\\' := by
      rintro rfl
      cases front with
      | nil => exact hlone rfl rfl
      | cons d front => exact hpair d front rfl rfl
    rw [List.cons_append, endsInEscape_cons hc, ih]

/-- What a class takes up if it is not closed: all that is left, and one character more if a
    backslash comes last. -/
theorem classLength_open {cs : List Char} {n : Nat} (h : classLength cs = (n, false)) :
    n = cs.length + (endsInEscape cs).toNat := by
  -- both pass a backslash together with the character behind it
  fun_induction classLength cs generalizing n with
  | case1 => exact (Prod.mk.inj h).1.symm
  | case2 => cases h
  | case3 c rest m closed hrest ih =>
    obtain ⟨rfl, rfl⟩ := Prod.mk.inj h
    rw [ih hrest, endsInEscape, List.length_cons, List.length_cons]
    omega
  | case4 => exact (Prod.mk.inj h).1.symm
  | case5 c rest hclose hpair hslash m closed hrest ih =>
    obtain ⟨rfl, rfl⟩ := Prod.mk.inj h
    have hc : c ≠ '\\' := by
      rintro rfl
      cases rest with
      | nil => exact hslash rfl rfl
      | cons d ds => exact hpair d ds rfl rfl
    rw [ih hrest, endsInEscape_cons hc, List.length_cons]
    omega

/-! ## Tokens -/

/-- Where reading a token stops: at a place in the text, or behind it where nothing is left to
    read. Only a class that is not closed may be read too far. -/
inductive StopsIn (cs : List Char) : Token × Cursor → Prop
  | place {t : Token} {next : Cursor} (place : IsPlace cs next) (closed : t ≠ .openClass)
      (sound : ∀ fault, t ≠ .broken fault) : StopsIn cs (t, next)
  | broken {fault : PatternFault} {offset : Nat} (inside : offset ≤ cs.length)
      (single : fault.IsOfEscape) : StopsIn cs (.broken fault, ⟨offset, []⟩)
  | openClass {next : Cursor} (offset : next.offset = cs.length + (endsInEscape cs).toNat)
      (rest : next.rest = []) : StopsIn cs (.openClass, next)

section Tokens

variable {cs : List Char} {k : Cursor}

theorem stopsIn_charClass {rest : List Char} (h : IsPlace cs k) (hrest : k.rest = '[' :: rest) :
    StopsIn cs (charClass k) := by
  have hlast := h.offset_add
  rw [hrest, List.length_cons] at hlast
  unfold charClass
  simp only [hrest, List.drop_one, List.tail_cons]
  generalize hlength : classLength rest = found
  obtain ⟨n, closed⟩ := found
  cases closed with
  | true =>
    have hclose := congrArg List.length (classLength_spec hlength).2
    rw [List.length_take, List.length_append, List.length_take, List.length_singleton] at hclose
    exact .place (h.advance (by rw [hrest, List.length_cons]; omega)) (by simp) (by simp)
  | false =>
    have hend : endsInEscape cs = endsInEscape rest := by
      rw [← List.take_append_drop k.offset cs, ← h.rest, hrest, endsInEscape_append]
    have hn := classLength_open hlength
    refine .openClass ?_ ?_
    · change k.offset + (n + 1) = _
      rw [hend]
      omega
    · change k.rest.drop (n + 1) = []
      rw [List.drop_eq_nil_iff, hrest, List.length_cons]
      omega

theorem stopsIn_braces {rest : List Char} (h : IsPlace cs k) (hrest : k.rest = '\x7b' :: rest) :
    StopsIn cs (braces k) := by
  have hinside : IsPlace cs (k.advance 1) := h.next hrest
  have hbehind : IsPlace cs ((k.advance 1).advance
      ((k.advance 1).rest.takeWhile (· ≠ '\x7d')).length) :=
    hinside.advance (List.takeWhile_prefix _).length_le
  unfold braces
  dsimp only
  split_ifs with hopen
  · exact .place hbehind (by simp) (by simp)
  · obtain ⟨d, more, hmore⟩ := List.exists_cons_of_ne_nil (mt List.isEmpty_iff.2 hopen)
    split
    · exact .place (hbehind.next hmore) (by simp) (by simp)
    · exact .place (hbehind.next hmore) (by simp) (by simp)

/-- An escape takes up only characters that are there. -/
theorem escapeText_length {c : Char} {rest text : List Char} {length : Nat}
    (h : escapeText c rest = .ok (text, length)) : length ≤ rest.length + 2 := by
  unfold escapeText at h
  split at h
  · exact (Prod.mk.inj (Except.ok.inj h)).2.symm.trans_le (Nat.le_add_left _ _)
  split at h
  · rename_i width hwidth
    dsimp only at h
    split_ifs at h with hdigits
    obtain ⟨-, rfl⟩ := Prod.mk.inj (Except.ok.inj h)
    simp only [Bool.and_eq_true, decide_eq_true_eq, List.length_take] at hdigits
    omega
  · split_ifs at h
    iterate 2
      exact (Prod.mk.inj (Except.ok.inj h)).2.symm.trans_le (Nat.le_add_left _ _)

theorem isOfEscape_of_escapeText {c : Char} {rest : List Char} {fault : PatternFault}
    (h : escapeText c rest = .error fault) : fault.IsOfEscape := by
  unfold escapeText at h
  split at h
  · cases h
  split at h
  · dsimp only at h
    split_ifs at h
    obtain rfl := Except.error.inj h
    trivial
  · split_ifs at h
    obtain rfl := Except.error.inj h
    trivial

/-- A literal stops at a place in the text, or one of its escapes is at fault there. -/
def IsReadIn (cs : List Char) : Except (PatternFault × Nat) (List Char × Cursor) → Prop
  | .ok (_, next) => IsPlace cs next
  | .error (fault, offset) => offset ≤ cs.length ∧ fault.IsOfEscape

theorem isReadIn_literalFrom (steps : Nat) : ∀ (done : List Char) (k : Cursor), IsPlace cs k →
    IsReadIn cs (literalFrom steps done k) := by
  induction steps with
  | zero => exact fun done k h => h
  | succ steps ih =>
    intro done k h
    -- by what is left: nothing, a lone backslash, an escape, any other character
    unfold literalFrom
    split
    · exact h
    · exact ⟨h.offset_le, trivial⟩
    · rename_i c rest hrest
      split_ifs
      · exact h
      · split
        · rename_i fault hescape
          exact ⟨h.offset_le, isOfEscape_of_escapeText hescape⟩
        · rename_i text length hescape
          have hlength := escapeText_length hescape
          dsimp only
          split_ifs
          · exact h
          · exact ih _ _ (h.advance (by rw [hrest]; exact hlength))
    · rename_i c rest _ _ hrest
      split_ifs
      · exact ih _ _ (h.next hrest)
      · exact ih _ _ (h.next hrest)
      · exact h

theorem stopsIn_literal (h : IsPlace cs k) : StopsIn cs (literal k) := by
  have hread := isReadIn_literalFrom k.rest.length [] k h
  unfold literal
  generalize literalFrom k.rest.length [] k = read at hread
  match read with
  | .ok (text, next) => exact .place hread (by simp) (by simp)
  | .error (fault, offset) => exact .broken hread.1 hread.2

/-- **A token stops in the text**, unless it is a class that the text ends in behind a backslash. -/
theorem stopsIn_token (h : IsPlace cs k) (hne : k.rest ≠ []) : StopsIn cs (token k) := by
  have hone {t : Token} (ht : t ≠ .openClass) (ht' : ∀ fault, t ≠ .broken fault) :
      StopsIn cs (t, k.advance 1) :=
    .place (h.advance (List.length_pos_iff.2 hne)) ht ht'
  unfold token
  split
  iterate 4 exact hone (by simp) (by simp)
  · exact stopsIn_charClass h (by assumption)
  iterate 4 exact hone (by simp) (by simp)
  · exact stopsIn_braces h (by assumption)
  · rename_i c rest hrest
    split
    · exact .place (h.advance (by simp [hrest])) (by simp) (by simp)
    · exact stopsIn_literal h
  · exact stopsIn_literal h

/-- What a token tells about where it stands. -/
structure Lexeme.LiesIn (cs : List Char) (x : Lexeme) : Prop where
  start_le : x.start ≤ cs.length
  stop_le : x.token ≠ .openClass → x.stop ≤ cs.length
  stop_openClass : x.token = .openClass → x.stop = cs.length + (endsInEscape cs).toNat
  broken : ∀ fault, x.token = .broken fault → fault.IsOfEscape

theorem liesIn_lexemesFrom (steps : Nat) : ∀ k : Cursor, (IsPlace cs k ∨ k.rest = []) →
    ∀ x ∈ lexemesFrom steps k, x.LiesIn cs := by
  induction steps with
  | zero => simp [lexemesFrom]
  | succ steps ih =>
    intro k hk
    rw [lexemesFrom]
    split_ifs with hempty
    · simp
    have hne : k.rest ≠ [] := mt List.isEmpty_iff.2 hempty
    have hplace := hk.resolve_right hne
    have hstops := stopsIn_token hplace hne
    generalize token k = read at hstops
    cases hstops with
    | @place t next place closed sound =>
      have hhead : Lexeme.LiesIn cs ⟨k.offset, next.offset, t⟩ :=
        ⟨hplace.offset_le, fun _ => place.offset_le, fun h => absurd h closed,
          fun fault h => absurd h (sound fault)⟩
      exact List.forall_mem_cons.2 ⟨hhead, ih next (.inl place)⟩
    | @broken fault offset inside single =>
      have hhead : Lexeme.LiesIn cs ⟨k.offset, offset, .broken fault⟩ :=
        ⟨hplace.offset_le, fun _ => inside, by simp, fun other h => Token.broken.inj h ▸ single⟩
      exact List.forall_mem_cons.2 ⟨hhead, ih _ (.inr rfl)⟩
    | @openClass next offset rest =>
      have hhead : Lexeme.LiesIn cs ⟨k.offset, next.offset, .openClass⟩ :=
        ⟨hplace.offset_le, fun h => absurd rfl h, fun _ => offset, by simp⟩
      exact List.forall_mem_cons.2 ⟨hhead, ih next (.inr rest)⟩

theorem liesIn_lexemes (cs : List Char) : ∀ x ∈ lexemes cs, x.LiesIn cs :=
  liesIn_lexemesFrom _ _ (.inl (isPlace_start cs))

end Tokens

/-! ## Faults -/

/-- A class is not closed, and the pattern ends right behind a backslash in it. -/
def IsCutOff (fault : PatternFault) (source : String) : Prop :=
  (∃ start, fault = .unbalanced "square brackets" start) ∧ endsInEscape source.toList = true

/-- A fault with an index is one of the pattern, and the index is not behind its end but for a class
    that is cut off. -/
def Job.ShowsIn (job : Job) (e : Failure) : Prop :=
  ∀ fault source index, e = .pattern fault source (some index) → source = job.source ∧
    (index ≤ source.toList.length ↔ ¬ IsCutOff fault source) ∧
      (IsCutOff fault source → index = source.toList.length + 1)

section Faults

variable {job : Job} {s : State} {x : Lexeme}

theorem Job.showsIn_of_le {fault : PatternFault} {index : Nat}
    (hindex : index ≤ job.source.toList.length)
    (hfault : ∀ start, fault ≠ .unbalanced "square brackets" start) :
    job.ShowsIn (job.fault fault index) := by
  rintro fault' source index' ⟨⟩
  have hwhole : ¬ IsCutOff fault job.source := fun ⟨⟨start, hstart⟩, _⟩ => hfault start hstart
  exact ⟨rfl, iff_of_true hindex hwhole, fun hcut => absurd hcut hwhole⟩

theorem Job.showsIn_openClass {start index : Nat}
    (hindex : index = job.source.toList.length + (endsInEscape job.source.toList).toNat) :
    job.ShowsIn (job.fault (.unbalanced "square brackets" start) index) := by
  rintro fault source index' ⟨⟩
  refine ⟨rfl, ?_, fun hcut => ?_⟩
  · cases hend : endsInEscape job.source.toList <;> simp [hindex, IsCutOff, hend]
  · rw [hindex, hcut.2, Bool.toNat_true]

theorem fails_repeated (hx : x.LiesIn job.source.toList) :
    FailsWith job.ShowsIn (job.repeated s x.start) := by
  have hnothing : job.ShowsIn (job.fault .nothingToRepeat x.start) :=
    Job.showsIn_of_le hx.start_le nofun
  unfold Job.repeated
  split
  · split_ifs
    · exact .throw hnothing
    · exact .pure _
  · exact .throw hnothing

theorem fails_part (s : State) (text : String) : FailsWith job.ShowsIn (job.part s text) := by
  unfold Job.part
  split
  · exact .pure _
  · exact (FailsWith.modifyGet _).bind fun _ => .pure _

/-- What is wrong with counts is no fault of the pattern. -/
theorem showsIn_of_repetition {item : String} {low high : Json} {e : Failure}
    (h : Grammar.repetition item low high = .error e) : job.ShowsIn e := by
  intro fault source index he
  obtain hcheck | ⟨rfl, -⟩ := Grammar.repetition_eq_error h
  · obtain rfl | ⟨cause, rfl⟩ := Grammar.checkCounts_eq_error hcheck
    · cases he
    · cases he
  · cases he

theorem fails_repeatCounted (hx : x.LiesIn job.source.toList) (low : Int) (high : Option Int) :
    FailsWith job.ShowsIn (job.repeatCounted s x.start low high) := by
  unfold Job.repeatCounted
  refine (fails_repeated hx).bind fun found => ?_
  have hrest (item : String) (s' : State) (most : Json) : FailsWith job.ShowsIn (do
      let text ← MonadExcept.ofExcept (Grammar.repetition item (Job.countValue low) most)
      return { s' with row := { s'.row with fragments := ⟨text, false⟩ :: found.2 } } :
        TableM State) :=
    (FailsWith.ofExcept fun _ he => showsIn_of_repetition he).bind fun _ => .pure _
  dsimp only
  split_ifs
  · exact hrest _ _ _
  · exact (fails_part s _).bind fun part => hrest _ _ _

/-- **A token fails in the pattern**, at its start or where reading it stopped. -/
theorem fails_step (hx : x.LiesIn job.source.toList) : FailsWith job.ShowsIn (job.step s x) := by
  have hstop {fault : PatternFault} (hother : x.token ≠ .openClass)
      (hfault : ∀ start, fault ≠ .unbalanced "square brackets" start) :
      FailsWith job.ShowsIn (throw (job.fault fault x.stop) : TableM State) :=
    .throw (Job.showsIn_of_le (hx.stop_le hother) hfault)
  unfold Job.step
  dsimp only
  cases htoken : x.token with
  | dot => exact (FailsWith.modifyGet _).bind fun _ => .pure _
  | extension => exact hstop (by simp [htoken]) (by simp)
  | groupClose =>
    dsimp only
    split
    · exact .pure _
    · exact hstop (by simp [htoken]) (by simp)
  | openClass => exact .throw (Job.showsIn_openClass (hx.stop_openClass htoken))
  | quantifier => exact (fails_repeated hx).bind fun _ => .pure _
  | counts low high => exact fails_repeatCounted hx low high
  | openBraces => exact (fails_repeated hx).bind fun _ => hstop (by simp [htoken]) (by simp)
  | badCounts => exact (fails_repeated hx).bind fun _ => hstop (by simp [htoken]) (by simp)
  | broken fault =>
    -- an escape that cannot be read is at fault, but it leaves nothing open
    refine hstop (by simp [htoken]) ?_
    rintro start rfl
    exact hx.broken _ htoken
  | groupOpen | charClass | bar | literal => exact .pure _

/-- The expression of a pattern fails in the pattern. -/
theorem fails_expression (job : Job) : FailsWith job.ShowsIn job.expression := by
  unfold Job.expression
  refine (FailsWith.foldlM (fun x hx s => fails_step (liesIn_lexemes _ x hx)) _).bind fun s => ?_
  split_ifs
  · exact .pure _
  · exact .throw (Job.showsIn_of_le le_rfl (by simp))

end Faults

/-! ## Reports -/

/-- The caret of a report stands under a character of the pattern, or under the slash behind it. -/
theorem caret_stands_under (fault : PatternFault) (source : String) (index : Nat) :
    ∃ shown caret, (Failure.pattern fault source (some index)).contextLines = [shown, caret] ∧
      shown.toList[caret.toList.idxOf '^']? = (source.toList ++ ['/'])[index]? := by
  refine ⟨_, _, rfl, ?_⟩
  -- nothing but blanks stands in front of the caret
  have hcaret (n : Nat) : (String.ofList (List.replicate n ' ') ++ "^").toList.idxOf '^' = n := by
    rw [String.toList_append, String.toList_ofList,
      List.idxOf_append_of_notMem (by simp [List.mem_replicate]), List.length_replicate]
    rfl
  rw [hcaret, String.toList_append, String.toList_append, List.append_assoc, String.length,
    List.getElem?_append_right (Nat.le_add_right _ _), Nat.add_sub_cancel_left]
  rfl

/-- **Faults point into the pattern.** If a pattern has a fault with an index, the index is one of
    the characters between the anchors or that of the end, and the caret of the report stands there;
    but if a class is not closed and the pattern ends right behind a backslash in it, the index is
    the one behind, and the caret stands under nothing. -/
theorem fault_points_into_pattern {pattern name source : String} {dotAll : Bool}
    {t t' : RuleTable} {fault : PatternFault} {index : Nat}
    (h : toRule pattern name dotAll t = .error (.pattern fault source (some index)) t') :
    unanchored? pattern = some source ∧
      (index ≤ source.toList.length ↔ ¬ IsCutOff fault source) ∧
      (IsCutOff fault source → index = source.toList.length + 1) ∧
      ∃ shown caret, (Failure.pattern fault source (some index)).contextLines = [shown, caret] ∧
        shown.toList[caret.toList.idxOf '^']? = (source.toList ++ ['/'])[index]? := by
  unfold toRule at h
  cases hfound : unanchored? pattern with
  | none =>
    rw [hfound] at h
    cases h
  | some found =>
    rw [hfound] at h
    have hfails : FailsWith (Job.ShowsIn ⟨found, name, dotAll⟩) (do
        let body ← Job.expression ⟨found, name, dotAll⟩
        RuleTable.addRule name ("\"\\\"\" (" ++ body ++ ") \"\\\"\" space")) :=
      (fails_expression _).bind fun _ => .modifyGet _
    obtain ⟨rfl, hle, hcut⟩ := hfails t _ t' h fault source index rfl
    exact ⟨rfl, hle, hcut, caret_stands_under fault _ index⟩

/-- In a class that is open to the end, the index is that of the end. -/
theorem fault_points_behind_openClass :
    toRule "^x([^\\]$" "root" false RuleTable.new =
        .error (.pattern (.unbalanced "square brackets" 2) "x([^\\]" (some 6)) RuleTable.new ∧
      ¬ IsCutOff (.unbalanced "square brackets" 2) "x([^\\]" := by
  have hrun : toRule "^x([^\\]$" "root" false RuleTable.new =
      .error (.pattern (.unbalanced "square brackets" 2) "x([^\\]" (some 6)) RuleTable.new := rfl
  exact ⟨hrun, (fault_points_into_pattern hrun).2.1.1 (by decide)⟩

/-- Behind a backslash that comes last, a class is read one character too far. -/
theorem fault_points_past_end :
    toRule "^[\\$" "root" false RuleTable.new =
        .error (.pattern (.unbalanced "square brackets" 0) "[\\" (some 3)) RuleTable.new ∧
      ¬ 3 ≤ "[\\".toList.length := by
  exact ⟨rfl, by decide⟩

end Pattern

end SchemaGrammar
