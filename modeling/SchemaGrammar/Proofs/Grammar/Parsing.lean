import SchemaGrammar.Proofs.Grammar.Dialect
import SchemaGrammar.Proofs.Work

set_option autoImplicit false

/-! # Rows of tokens are read as the rules that they are

Reading is compared with the tokens of a grammar in both directions. Where tokens are a way to write
something, reading them adds it to the state (`Moves`, `Document.reads`). And what the state holds is
always what the tokens read so far are a way to write (`Reached`, `document_of_reads`): a finished
rule is one that has been read to its line break, and each open group keeps the part before it. -/

namespace SchemaGrammar

namespace Grammar

/-! ## Reading what is written -/

/-- Tokens lead from one state to another, wherever they stand. -/
def Moves (tokens : List Token) (s s' : State) : Prop :=
  ∀ xs : List Lexeme, xs.map Lexeme.token = tokens → xs.foldlM step s = .ok s'

namespace Moves

variable {tokens more : List Token} {t : Token} {s s' s'' : State}

theorem nil (s : State) : Moves [] s s := by
  intro xs hxs
  rw [List.map_eq_nil_iff.1 hxs]
  rfl

theorem append (h : Moves tokens s s') (h' : Moves more s' s'') : Moves (tokens ++ more) s s'' := by
  intro xs hxs
  obtain ⟨front, back, rfl, hfront, hback⟩ := List.map_eq_append_iff.1 hxs
  rw [List.foldlM_append, h front hfront]
  exact h' back hback

/-- A token and those behind it. The state between may depend on where the token stands. -/
theorem cons (mid : Lexeme → State) (hstep : ∀ x : Lexeme, x.token = t → step s x = .ok (mid x))
    (h : ∀ x : Lexeme, Moves tokens (mid x) s') : Moves (t :: tokens) s s' := by
  intro xs hxs
  obtain ⟨x, rest, rfl, hx, hrest⟩ := List.map_eq_cons_iff.1 hxs
  rw [List.foldlM_cons, hstep x hx]
  exact h x rest hrest

theorem single (hstep : ∀ x : Lexeme, x.token = t → step s x = .ok s') : Moves [t] s s' :=
  cons (fun _ => s') hstep fun _ => nil s'

end Moves

section Complete

/-- What reading makes of a part of a body. -/
def Phrase.IsReadFrom (tokens : List Token) : Phrase → Prop
  | .item node => ∀ (done : Grammar) (b : Body),
      Moves tokens ⟨done, .inside b⟩ ⟨done, .inside (b.item node)⟩
  | .row deep items => ∀ (done : Grammar) (b : Body), b.groups.isEmpty = !deep → ∃ flag,
      Moves tokens ⟨done, .inside b⟩ ⟨done, .inside { b with
        current := { b.current with items := items.reverse ++ b.current.items }
        repeatable := flag }⟩
  | .branches deep nodes => ∀ (done : Grammar) (b : Body), b.groups.isEmpty = !deep →
      b.current.items = [] → ∃ draft flag,
        draft.sequence :: draft.branches = nodes.reverse ++ b.current.branches ∧
        Moves tokens ⟨done, .inside b⟩
          ⟨done, .inside { b with current := draft, repeatable := flag }⟩

/-- Branches that were started with nothing before them. -/
theorem node_of_branches {draft : Draft} {branches : List Node}
    (h : draft.sequence :: draft.branches = branches.reverse) :
    draft.node = branchNode branches := by
  rw [Draft.node, h, List.reverse_reverse]
  rfl

theorem sequence_reverse (branches items : List Node) :
    Draft.sequence ⟨branches, items.reverse⟩ = rowNode items := by
  rw [Draft.sequence, List.reverse_reverse]
  rfl

theorem step_gap {done : Grammar} {b : Body} {deep : Bool} {x : Lexeme}
    (hdeep : b.groups.isEmpty = !deep) (hgap : IsGap deep x.token) :
    step ⟨done, .inside b⟩ x = .ok ⟨done, .inside { b with repeatable := false }⟩ := by
  simp only [step, bodyStep]
  cases htoken : x.token with
  | blank => rfl
  | lineBreak =>
    rw [htoken] at hgap
    have hopen : b.groups.isEmpty = false := by rw [hdeep, show deep = true from hgap]; rfl
    simp [hopen]
  | _ => simp [htoken, IsGap] at hgap

/-- **Reading what is written.** Tokens that are a way to write a part of a body add it to the body
    that is being read. -/
theorem Phrased.isReadFrom {phrase : Phrase} {tokens : List Token} (h : Phrased phrase tokens) :
    phrase.IsReadFrom tokens := by
  induction h with
  | name | literal | charClass =>
    exact fun _ _ => .single fun x hx => by simp [step, bodyStep, hx]
  | @group tokens branches _ ih =>
    intro done b
    -- an open group remembers where it starts, so the body inside depends on the token
    let inner (x : Lexeme) : Body :=
      { b with current := .empty, groups := ⟨x.offset, b.current⟩ :: b.groups, repeatable := false }
    refine .cons (fun x => ⟨done, .inside (inner x)⟩)
      (fun x hx => by simp [step, bodyStep, hx, inner]) fun x => ?_
    obtain ⟨draft, flag, hbranches, hinside⟩ := ih done (inner x) rfl rfl
    have hnode : draft.node = branchNode branches :=
      node_of_branches (hbranches.trans (List.append_nil _))
    refine hinside.append (.single fun y hy => ?_)
    simp [step, bodyStep, hy, inner, hnode, Body.item]
  | times _ min max ih =>
    exact fun done b => (ih done b).append (.single fun x hx => by
      simp [step, bodyStep, hx, Body.item, Body.again, Draft.push])
  | void => exact fun done b _ => ⟨b.repeatable, .nil _⟩
  | gap _ between ih =>
    intro done b hdeep
    obtain ⟨flag, hrow⟩ := ih done b hdeep
    exact ⟨false, hrow.append (.single fun x hx => step_gap hdeep (hx ▸ between))⟩
  | item _ _ ih ihitem =>
    intro done b hdeep
    obtain ⟨flag, hrow⟩ := ih done b hdeep
    refine ⟨true, ?_⟩
    simpa [Body.item, Draft.push] using hrow.append (ihitem done _)
  | @single deep tokens items _ ih =>
    intro done b hdeep hnone
    obtain ⟨flag, hrow⟩ := ih done b hdeep
    refine ⟨_, flag, ?_, hrow⟩
    rw [hnone, List.append_nil, sequence_reverse]
    rfl
  | @bar deep tokens more branches items _ _ ih ihrow =>
    intro done b hdeep hnone
    obtain ⟨draft, flag, hbranches, hbefore⟩ := ih done b hdeep hnone
    obtain ⟨flag', hrow⟩ := ihrow done { b with current := draft.nextBranch, repeatable := false } hdeep
    refine ⟨_, flag', ?_, hbefore.append (.cons (fun _ => _) (fun x hx => ?_) fun _ => hrow)⟩
    · simp [Draft.nextBranch, sequence_reverse, hbranches]
    · simp [step, bodyStep, hx]

theorem moves_blanks {blanks : List Token} (hblank : ∀ t ∈ blanks, t = .blank) {done : Grammar}
    (name : String) (start : Nat) :
    Moves blanks ⟨done, .named name start⟩ ⟨done, .named name start⟩ := by
  induction blanks with
  | nil => exact .nil _
  | cons t rest ih =>
    obtain ⟨rfl, hrest⟩ := List.forall_mem_cons.1 hblank
    exact .cons (fun _ => _) (fun x hx => by simp [step, hx]) fun _ => ih hrest

theorem Header.moves {name : String} {header : List Token} (h : Header name header) {done : Grammar}
    (hfresh : has done name = false) :
    Moves header ⟨done, .between⟩ ⟨done, .inside (.start name)⟩ := by
  obtain ⟨hblank⟩ := h
  refine .cons (fun x => ⟨done, .named name x.offset⟩) (fun x hx => by simp [step, hx])
    fun x => (moves_blanks hblank name x.offset).append (.single fun y hy => ?_)
  simp [step, hy, hfresh]

/-- The body of a rule is read as the node that it writes. -/
theorem Phrased.body_moves {branches : List Node} {tokens : List Token}
    (h : Phrased (.branches false branches) tokens) (done : Grammar) (name : String) :
    ∃ b : Body, b.name = name ∧ b.groups = [] ∧ b.current.node = branchNode branches ∧
      Moves tokens ⟨done, .inside (.start name)⟩ ⟨done, .inside b⟩ := by
  obtain ⟨draft, flag, hbranches, hmoves⟩ := h.isReadFrom done (.start name) rfl rfl
  exact ⟨_, rfl, rfl, node_of_branches (hbranches.trans (List.append_nil _)), hmoves⟩

theorem has_eq_false_iff {g : Grammar} {name : String} :
    has g name = false ↔ name ∉ g.map Prod.fst := by
  rw [has, find?, ← Bool.not_eq_true, not_iff_not, List.lookup_isSome_iff]
  simp [List.mem_map]

theorem has_reverse_eq_false {g : Grammar} {name : String} {node : Node}
    (h : ((g ++ [(name, node)]).map Prod.fst).Nodup) : has g.reverse name = false := by
  rw [has_eq_false_iff]
  simp only [List.map_append, List.map_cons, List.map_nil, List.nodup_append] at h
  intro hmem
  rw [List.map_reverse, List.mem_reverse] at hmem
  exact h.2.2 name hmem name (by simp) rfl

theorem Ruled.moves {tokens : List Token} {g : Grammar} (h : Ruled tokens g)
    (hnodup : (g.map Prod.fst).Nodup) :
    Moves tokens ⟨[], .between⟩ ⟨g.reverse, .between⟩ := by
  induction h with
  | nil => exact .nil _
  | gap _ between ih =>
    refine (ih hnodup).append (.single fun x hx => ?_)
    simp only [step]
    cases htoken : x.token with
    | blank | lineBreak => rfl
    | _ => simp [← hx, htoken, IsGap] at between
  | @rule tokens header body g name branches _ head written ih =>
    have hfresh := has_reverse_eq_false hnodup
    have hrest : (g.map Prod.fst).Nodup := by
      rw [List.map_append] at hnodup
      exact (List.nodup_append.1 hnodup).1
    obtain ⟨b, rfl, hgroups, hnode, hbody⟩ := written.body_moves g.reverse name
    refine (ih hrest).append ((head.moves hfresh).append (hbody.append (.single fun x hx => ?_)))
    simp [step, bodyStep, hx, hgroups, hnode]

/-- **The tokens of a grammar are read.** -/
theorem Document.reads {tokens : List Token} {g : Grammar} (h : Document tokens g)
    (hnodup : (g.map Prod.fst).Nodup) (offset : Nat) :
    ∃ s, Moves tokens ⟨[], .between⟩ s ∧ finish s offset = .ok g := by
  cases h with
  | closed rules => exact ⟨_, rules.moves hnodup, by simp [finish]⟩
  | @rule tokens header body g name branches rules head written =>
    have hfresh := has_reverse_eq_false hnodup
    have hrest : (g.map Prod.fst).Nodup := by
      rw [List.map_append] at hnodup
      exact (List.nodup_append.1 hnodup).1
    obtain ⟨b, rfl, hgroups, hnode, hbody⟩ := written.body_moves g.reverse name
    refine ⟨_, (rules.moves hrest).append ((head.moves hfresh).append hbody), ?_⟩
    simp [finish, hgroups, hnode]

end Complete

/-! ## What has been read is written -/

section Sound

/-- Tokens are a way to write what a draft holds. -/
inductive Drafted (deep : Bool) : Draft → List Token → Prop where
  | first {items : List Node} {tokens : List Token}
      (row : Phrased (.row deep items.reverse) tokens) : Drafted deep ⟨[], items⟩ tokens
  | next {branches items : List Node} {tokens more : List Token}
      (before : Phrased (.branches deep branches.reverse) tokens)
      (row : Phrased (.row deep items.reverse) more) :
      Drafted deep ⟨branches, items⟩ (tokens ++ .bar :: more)

namespace Drafted

variable {deep : Bool} {draft : Draft} {tokens more : List Token} {node : Node} {t : Token}

theorem empty : Drafted deep .empty [] :=
  have hrow : Phrased (.row deep ([] : List Node).reverse) [] := .void
  .first hrow

theorem push (h : Drafted deep draft tokens) (item : Phrased (.item node) more) :
    Drafted deep (draft.push node) (tokens ++ more) := by
  cases h with
  | @first items _ row =>
    refine .first ?_
    rw [List.reverse_cons]
    exact row.item item
  | @next branches items tokens _ before row =>
    rw [List.append_assoc, List.cons_append]
    refine .next before ?_
    rw [List.reverse_cons]
    exact row.item item

theorem gap (h : Drafted deep draft tokens) (between : IsGap deep t) :
    Drafted deep draft (tokens ++ [t]) := by
  cases h with
  | first row => exact .first (row.gap between)
  | next before row =>
    rw [List.append_assoc, List.cons_append]
    exact .next before (row.gap between)

theorem sequence_eq (branches items : List Node) :
    Draft.sequence ⟨branches, items⟩ = rowNode items.reverse := by
  rw [← sequence_reverse branches, List.reverse_reverse]

/-- All branches of a draft, the current one among them. -/
theorem branches (h : Drafted deep draft tokens) :
    Phrased (.branches deep (draft.sequence :: draft.branches).reverse) tokens := by
  cases h with
  | first row =>
    rw [sequence_eq]
    exact row.single
  | next before row =>
    rw [sequence_eq, List.reverse_cons]
    exact before.bar row

theorem node_eq (draft : Draft) :
    draft.node = branchNode (draft.sequence :: draft.branches).reverse :=
  rfl

theorem nextBranch (h : Drafted deep draft tokens) :
    Drafted deep draft.nextBranch (tokens ++ [.bar]) :=
  have hrow : Phrased (.row deep ([] : List Node).reverse) [] := .void
  .next h.branches hrow

end Drafted

/-- Tokens are a way to write what a draft holds, with open groups around it. -/
inductive Stacked : Draft → List Group → List Token → Prop where
  | outside {draft : Draft} {tokens : List Token} (drafted : Drafted false draft tokens) :
      Stacked draft [] tokens
  | inside {draft : Draft} {group : Group} {groups : List Group} {tokens more : List Token}
      (before : Stacked group.before groups tokens) (drafted : Drafted true draft more) :
      Stacked draft (group :: groups) (tokens ++ .groupOpen :: more)

namespace Stacked

variable {draft : Draft} {group : Group} {groups : List Group} {tokens more : List Token}
  {node : Node} {t : Token}

theorem push (h : Stacked draft groups tokens) (item : Phrased (.item node) more) :
    Stacked (draft.push node) groups (tokens ++ more) := by
  cases h with
  | outside drafted => exact .outside (drafted.push item)
  | inside before drafted =>
    rw [List.append_assoc, List.cons_append]
    exact .inside before (drafted.push item)

theorem gap (h : Stacked draft groups tokens) (between : IsGap (!groups.isEmpty) t) :
    Stacked draft groups (tokens ++ [t]) := by
  cases h with
  | outside drafted => exact .outside (drafted.gap between)
  | inside before drafted =>
    rw [List.append_assoc, List.cons_append]
    exact .inside before (drafted.gap between)

theorem nextBranch (h : Stacked draft groups tokens) :
    Stacked draft.nextBranch groups (tokens ++ [.bar]) := by
  cases h with
  | outside drafted => exact .outside drafted.nextBranch
  | inside before drafted =>
    rw [List.append_assoc, List.cons_append]
    exact .inside before drafted.nextBranch

theorem opened (h : Stacked draft groups tokens) (start : Nat) :
    Stacked .empty (⟨start, draft⟩ :: groups) (tokens ++ [.groupOpen]) :=
  .inside h .empty

/-- A group that is closed is an item behind what was before it. -/
theorem close (h : Stacked draft (group :: groups) tokens) :
    ∃ front item, tokens ++ [.groupClose] = front ++ item ∧ Stacked group.before groups front ∧
      Phrased (.item draft.node) item := by
  cases h with
  | @inside _ _ _ tokens more before drafted =>
    refine ⟨tokens, .groupOpen :: (more ++ [.groupClose]), by simp, before, ?_⟩
    rw [Drafted.node_eq]
    exact drafted.branches.group

end Stacked

/-- Tokens are a way to write what has been read of a body. -/
inductive Bodied (b : Body) : List Token → Prop where
  | row {tokens : List Token} (stacked : Stacked b.current b.groups tokens)
      (closed : b.repeatable = false) : Bodied b tokens
  | item {draft : Draft} {node : Node} {tokens more : List Token}
      (stacked : Stacked draft b.groups tokens) (last : Phrased (.item node) more)
      (current : b.current = draft.push node) : Bodied b (tokens ++ more)

theorem Bodied.stacked {b : Body} {tokens : List Token} (h : Bodied b tokens) :
    Stacked b.current b.groups tokens := by
  cases h with
  | row stacked _ => exact stacked
  | item stacked last current =>
    rw [current]
    exact stacked.push last

/-- Tokens are a way to write what has been read so far. -/
inductive Reached : State → List Token → Prop where
  | between {done : Grammar} {tokens : List Token} (rules : Ruled tokens done.reverse)
      (nodup : (done.map Prod.fst).Nodup) : Reached ⟨done, .between⟩ tokens
  | named {done : Grammar} {name : String} {start : Nat} {tokens blanks : List Token}
      (rules : Ruled tokens done.reverse) (nodup : (done.map Prod.fst).Nodup)
      (blank : ∀ t ∈ blanks, t = .blank) :
      Reached ⟨done, .named name start⟩ (tokens ++ .name name :: blanks)
  | inside {done : Grammar} {b : Body} {tokens header body : List Token}
      (rules : Ruled tokens done.reverse) (nodup : ((b.name :: done.map Prod.fst)).Nodup)
      (head : Header b.name header) (written : Bodied b body) :
      Reached ⟨done, .inside b⟩ (tokens ++ (header ++ body))

theorem Ruled.done {done : Grammar} {b : Body} {tokens header body : List Token}
    (rules : Ruled tokens done.reverse) (head : Header b.name header) (written : Bodied b body)
    (hgroups : b.groups = []) :
    Ruled (tokens ++ (header ++ (body ++ [.lineBreak])))
      ((b.name, b.current.node) :: done).reverse := by
  have hstacked := written.stacked
  rw [hgroups] at hstacked
  cases hstacked with
  | outside drafted =>
    rw [List.reverse_cons, Drafted.node_eq]
    exact rules.rule head drafted.branches

theorem bodied_step {done : Grammar} {b : Body} {tokens header body : List Token} {x : Lexeme}
    {s : State} (rules : Ruled tokens done.reverse) (nodup : (b.name :: done.map Prod.fst).Nodup)
    (head : Header b.name header) (written : Bodied b body)
    (h : bodyStep done b x = .ok s) : Reached s (tokens ++ (header ++ (body ++ [x.token]))) := by
  have hstacked := written.stacked
  have hitem {node : Node} (hnode : Phrased (.item node) [x.token]) :
      Reached ⟨done, .inside (b.item node)⟩ (tokens ++ (header ++ (body ++ [x.token]))) :=
    .inside rules nodup head (.item hstacked hnode rfl)
  unfold bodyStep at h
  dsimp only at h
  cases htoken : x.token with
  | name text =>
    rw [htoken] at h hitem
    obtain rfl := Except.ok.inj h
    exact hitem (.name text)
  | literal codes =>
    rw [htoken] at h hitem
    obtain rfl := Except.ok.inj h
    exact hitem (.literal codes)
  | charClass negated ranges =>
    rw [htoken] at h hitem
    obtain rfl := Except.ok.inj h
    exact hitem (.charClass negated ranges)
  | blank =>
    rw [htoken] at h
    obtain rfl := Except.ok.inj h
    exact .inside rules nodup head (.row (hstacked.gap trivial) rfl)
  | lineBreak =>
    rw [htoken] at h
    dsimp only at h
    split_ifs at h with hempty
    · obtain rfl := Except.ok.inj h
      exact .between (rules.done head written (List.isEmpty_iff.1 hempty)) nodup
    · obtain rfl := Except.ok.inj h
      refine .inside rules nodup head (.row (hstacked.gap ?_) rfl)
      simpa [IsGap] using hempty
  | groupOpen =>
    rw [htoken] at h
    obtain rfl := Except.ok.inj h
    exact .inside rules nodup head (.row (hstacked.opened x.offset) rfl)
  | groupClose =>
    rw [htoken] at h
    dsimp only at h
    cases hgroups : b.groups with
    | nil =>
      rw [hgroups] at h
      cases h
    | cons group groups =>
      rw [hgroups] at h hstacked
      obtain rfl := Except.ok.inj h
      obtain ⟨front, item, heq, hfront, hnode⟩ := hstacked.close
      rw [heq]
      exact .inside rules nodup head (.item hfront hnode rfl)
  | bar =>
    rw [htoken] at h
    obtain rfl := Except.ok.inj h
    exact .inside rules nodup head (.row hstacked.nextBranch rfl)
  | times min max =>
    rw [htoken] at h
    dsimp only at h
    split_ifs at h with hrepeatable
    obtain rfl := Except.ok.inj h
    cases written with
    | row _ closed => simp [closed] at hrepeatable
    | @item draft node front item stacked last current =>
      have hagain : b.again min max = { b with current := draft.push (.rep node min max) } := by
        simp [Body.again, current, Draft.push]
      rw [hagain, List.append_assoc]
      exact .inside rules nodup head (.item stacked (last.times min max) rfl)
  | define | stray =>
    rw [htoken] at h
    cases h
  | broken failure =>
    rw [htoken] at h
    dsimp only at h
    split_ifs at h

/-- One more token leaves what has been read written. -/
theorem Reached.step {s s' : State} {tokens : List Token} {x : Lexeme} (h : Reached s tokens)
    (hstep : step s x = .ok s') : Reached s' (tokens ++ [x.token]) := by
  cases h with
  | @between done tokens rules nodup =>
    simp only [Grammar.step] at hstep
    cases htoken : x.token with
    | blank | lineBreak =>
      rw [htoken] at hstep
      obtain rfl := Except.ok.inj hstep
      exact .between (rules.gap (by simp [IsGap])) nodup
    | name text =>
      rw [htoken] at hstep
      obtain rfl := Except.ok.inj hstep
      have hblank : ∀ t ∈ ([] : List Token), t = .blank := by simp
      exact .named rules nodup hblank
    | _ => simp [htoken] at hstep
  | @named done name start tokens blanks rules nodup blank =>
    simp only [Grammar.step] at hstep
    rw [List.append_assoc, List.cons_append]
    cases htoken : x.token with
    | blank =>
      rw [htoken] at hstep
      obtain rfl := Except.ok.inj hstep
      refine .named rules nodup fun t ht => ?_
      simpa using (List.mem_append.1 ht).elim (blank t) (by simp)
    | define =>
      rw [htoken] at hstep
      dsimp only at hstep
      split_ifs at hstep with hfresh
      obtain rfl := Except.ok.inj hstep
      rw [← List.append_nil (Token.name name :: (blanks ++ [Token.define]))]
      refine .inside rules (List.nodup_cons.2 ⟨?_, nodup⟩) ⟨blank⟩ (.row (.outside .empty) rfl)
      exact has_eq_false_iff.1 (Bool.eq_false_iff.2 hfresh)
    | _ => simp [htoken] at hstep
  | @inside done b tokens header body rules nodup head written =>
    rw [List.append_assoc, List.append_assoc]
    exact bodied_step rules nodup head written hstep

theorem Reached.run {xs : List Lexeme} {s s' : State} {tokens : List Token} (h : Reached s tokens)
    (hrun : xs.foldlM Grammar.step s = .ok s') : Reached s' (tokens ++ xs.map Lexeme.token) := by
  induction xs generalizing s tokens with
  | nil =>
    obtain rfl := Except.ok.inj hrun
    simpa using h
  | cons x rest ih =>
    rw [List.foldlM_cons] at hrun
    obtain ⟨mid, hmid, hrest⟩ := Work.except_bind_eq_ok.1 hrun
    simpa using ih (h.step hmid) hrest

/-- **What has been read is written.** If reading tokens ends with a grammar, the tokens are a way to
    write it, and its rules have different names. -/
theorem document_of_reads {xs : List Lexeme} {s : State} {g : Grammar} {offset : Nat}
    (hrun : xs.foldlM step ⟨[], .between⟩ = .ok s) (hfinish : finish s offset = .ok g) :
    Document (xs.map Lexeme.token) g ∧ (g.map Prod.fst).Nodup := by
  have hreached := (Reached.between .nil (by simp)).run hrun
  rw [List.nil_append] at hreached
  generalize xs.map Lexeme.token = tokens at hreached
  cases hreached with
  | between rules nodup =>
    obtain rfl := Except.ok.inj hfinish
    exact ⟨.closed rules, by simpa [List.map_reverse] using nodup⟩
  | named => cases hfinish
  | @inside done b tokens header body rules nodup head written =>
    simp only [finish] at hfinish
    cases hgroups : b.groups with
    | cons group groups =>
      rw [hgroups] at hfinish
      cases hfinish
    | nil =>
      rw [hgroups] at hfinish
      obtain rfl := Except.ok.inj hfinish
      have hstacked := written.stacked
      rw [hgroups] at hstacked
      cases hstacked with
      | outside drafted =>
        refine ⟨?_, ?_⟩
        · rw [List.reverse_cons, Drafted.node_eq]
          exact .rule rules head drafted.branches
        · rw [List.map_reverse, List.nodup_reverse]
          exact nodup

end Sound

end Grammar

end SchemaGrammar
