import Mathlib.Data.List.TakeWhile
import SchemaGrammar.Proofs.Grammar.Tokens
import SchemaGrammar.Proofs.Rules.Reading

set_option autoImplicit false

/-! # Reading rows of tokens

Reading a row of tokens either comes to a fault of syntax or gets through to the end of the row,
and then the body that is being read refers to allowed names only (`Lexed.settles`). A name with
characters that no name can have ends at the first of them, which is a fault. For a table whose
bodies are rows of tokens over its own names, this leaves faults of syntax as the only ones, and
without a fault all names can be read (`ofText_lines_settles`). -/

namespace SchemaGrammar

namespace Grammar

open Text (Cursor)

/-! ## Names in a body -/

/-- All names in what was read are allowed. -/
def Draft.Mentions (P : String → Prop) (p : Draft) : Prop :=
  ∀ node ∈ p.items ++ p.branches, ∀ name ∈ node.ruleNames, P name

/-- All names in a body and in the groups around it are allowed. -/
structure Body.Mentions (P : String → Prop) (b : Body) : Prop where
  current : b.current.Mentions P
  groups : ∀ group ∈ b.groups, group.before.Mentions P

section Mentions

variable {P : String → Prop} {p : Draft} {b : Body}

theorem Draft.mentions_empty : Draft.empty.Mentions P := by
  intro node hnode
  simp [Draft.empty] at hnode

theorem Draft.Mentions.push (h : p.Mentions P) {node : Node}
    (hnode : ∀ name ∈ node.ruleNames, P name) : (p.push node).Mentions P := by
  intro other hother
  rcases List.mem_cons.1 (show other ∈ node :: (p.items ++ p.branches) from hother) with rfl | hold
  · exact hnode
  · exact h other hold

/-- The names of some nodes in a row, or of the only one. -/
theorem mentions_row {nodes : List Node} (make : List Node → Node)
    (hmake : ∀ nodes, (make nodes).ruleNames = Node.ruleNamesOf nodes)
    (h : ∀ node ∈ nodes, ∀ name ∈ node.ruleNames, P name) :
    ∀ name ∈ (match nodes.reverse with
      | [node] => node
      | nodes => make nodes).ruleNames, P name := by
  intro name hname
  split at hname
  · rename_i node heq
    have hmem : node ∈ nodes.reverse := by simp [heq]
    exact h node (List.mem_reverse.1 hmem) name hname
  · rw [hmake, Node.ruleNamesOf_eq] at hname
    obtain ⟨node, hnode, hin⟩ := List.mem_flatMap.1 hname
    exact h node (List.mem_reverse.1 hnode) name hin

theorem Draft.Mentions.sequence (h : p.Mentions P) : ∀ name ∈ p.sequence.ruleNames, P name :=
  mentions_row .seq (fun _ => rfl) fun node hnode =>
    h node (List.mem_append_left _ hnode)

theorem Draft.Mentions.node (h : p.Mentions P) : ∀ name ∈ p.node.ruleNames, P name := by
  refine mentions_row .alt (fun _ => rfl) fun node hnode => ?_
  rcases List.mem_cons.1 hnode with rfl | hnode
  · exact h.sequence
  · exact h node (List.mem_append_right _ hnode)

theorem Draft.Mentions.nextBranch (h : p.Mentions P) : p.nextBranch.Mentions P := by
  intro node hnode
  rcases List.mem_cons.1 (show node ∈ p.sequence :: p.branches from hnode) with rfl | hnode
  · exact h.sequence
  · exact h node (List.mem_append_right _ hnode)

theorem Body.Mentions.item (h : b.Mentions P) {node : Node}
    (hnode : ∀ name ∈ node.ruleNames, P name) : (b.item node).Mentions P :=
  ⟨h.current.push hnode, h.groups⟩

theorem Body.Mentions.again (h : b.Mentions P) (min : Int) (max : Option Int) :
    (b.again min max).Mentions P := by
  unfold Body.again
  split
  · rename_i last rest heq
    have hlast : ∀ node ∈ last :: rest ++ b.current.branches, ∀ name ∈ node.ruleNames, P name := by
      rw [← heq]
      exact h.current
    refine ⟨fun node hnode => ?_, h.groups⟩
    rcases List.mem_cons.1 (show node ∈ .rep last min max :: (rest ++ b.current.branches) from hnode)
      with rfl | hnode
    · exact hlast last (by simp)
    · exact hlast node (by simpa using .inr (List.mem_append.1 hnode))
  · exact h

end Mentions

/-! ## Getting through a text -/

/-- Reading goes from states of one kind to states of another kind, wherever the text stands, or
    comes to a fault of syntax. -/
def Settles (text : List Char) (S T : State → Prop) : Prop :=
  ∀ s, S s → ∀ (offset steps : Nat) (rest : List Char), Apart text rest →
    text.length + rest.length ≤ steps →
    (∃ e, e.IsSyntactic ∧ (lexemesFrom steps ⟨offset, text ++ rest⟩).foldlM step s = .error e) ∨
      ∃ s' left, T s' ∧ rest.length ≤ left ∧
        (lexemesFrom steps ⟨offset, text ++ rest⟩).foldlM step s =
          (lexemesFrom left ⟨offset + text.length, rest⟩).foldlM step s'

section Settles

variable {S T U : State → Prop} {a b text : List Char}

theorem Settles.refl (S : State → Prop) : Settles [] S S :=
  fun s hs _ steps _ _ hsteps => .inr ⟨s, steps, hs, by simpa using hsteps, rfl⟩

theorem Settles.append (ha : Settles a S T) (hb : Settles b T U) (hab : Apart a b) :
    Settles (a ++ b) S U := by
  intro s hs offset steps rest hrest hsteps
  rw [List.length_append] at hsteps
  rw [List.append_assoc]
  rcases ha s hs offset steps (b ++ rest) (hrest.left hab) (by rw [List.length_append]; omega) with
    hfault | ⟨s', left, hs', hleft, hread⟩
  · exact .inl hfault
  · rw [List.length_append] at hleft
    rw [hread]
    rcases hb s' hs' (offset + a.length) left rest hrest.right hleft with
      hfault | ⟨s'', left', hs'', hleft', hread'⟩
    · exact .inl hfault
    · refine .inr ⟨s'', left', hs'', hleft', ?_⟩
      rw [hread', List.length_append, Nat.add_assoc]

theorem Settles.weaken (h : Settles text S T) (hT : ∀ s, T s → U s) : Settles text S U := by
  intro s hs offset steps rest hrest hsteps
  refine (h s hs offset steps rest hrest hsteps).imp_right ?_
  rintro ⟨s', left, hs', hmore⟩
  exact ⟨s', left, hT s' hs', hmore⟩

/-- What is known of the state anyway may be used to get through. -/
theorem Settles.assuming {p : Prop} (h : p → Settles text S T) : Settles text (fun s => p ∧ S s) T :=
  fun s hs => h hs.1 s hs.2

theorem settles_of_passes {s' : State} (h : ∀ s, S s → Passes text s s') :
    Settles text S (· = s') := by
  intro s hs offset steps rest hrest hsteps
  obtain ⟨left, hleft, hread⟩ := h s hs offset steps rest hrest hsteps
  exact .inr ⟨s', left, rfl, hleft, hread⟩

/-- A single token that every state takes somehow. -/
theorem settles_of_token {c : Char} {cs : List Char} {P : String → Prop}
    (htakes : ∀ offset rest, Apart (c :: cs) rest →
      Takes P offset (c :: cs) rest (token c ⟨offset, c :: cs ++ rest⟩))
    (hstep : ∀ s, S s → ∀ offset t, t.IsAllowed P → (∃ e, e.IsSyntactic ∧
      step s ⟨offset, c, t⟩ = .error e) ∨ ∃ s', T s' ∧ step s ⟨offset, c, t⟩ = .ok s')
    (hbroken : ∀ s, S s → ∀ offset e, e.IsSyntactic →
      ∃ e', e'.IsSyntactic ∧ step s ⟨offset, c, .broken e⟩ = .error e') :
    Settles (c :: cs) S T := by
  intro s hs offset steps rest hrest hsteps
  rw [List.length_cons] at hsteps
  obtain ⟨steps, rfl⟩ : ∃ n, steps = n + 1 := ⟨steps - 1, by omega⟩
  have htakes' := htakes offset rest hrest
  rw [List.cons_append] at htakes' ⊢
  generalize htoken : token c ⟨offset, c :: (cs ++ rest)⟩ = taken at htakes'
  obtain ⟨t, next⟩ := taken
  rcases htakes' with ⟨e, he, hfault⟩ | ⟨hallowed, hnext⟩
  · obtain rfl : t = .broken e := hfault
    obtain ⟨e', he', hstep'⟩ := hbroken s hs offset e he
    refine .inl ⟨e', he', ?_⟩
    rw [lexemesFrom]
    simp only [htoken, List.foldlM_cons, hstep']
    rfl
  · obtain rfl : next = ⟨offset + (c :: cs).length, rest⟩ := hnext
    have hsound : ∀ failure, t ≠ .broken failure := by
      rintro failure rfl
      exact hallowed
    rw [foldlM_lexemes_cons htoken hsound]
    rcases hstep s hs offset t hallowed with ⟨e, he, herror⟩ | ⟨s', hs', hok⟩
    · exact .inl ⟨e, he, by rw [herror]; rfl⟩
    · exact .inr ⟨s', steps, hs', by omega, by rw [hok]; rfl⟩

end Settles

/-! ## Names -/

/-- A name that may be read back: its characters are those of names, or foreign ones. -/
def IsNameLike (name : String) : Prop :=
  name.toList ≠ [] ∧ ∀ c ∈ name.toList, isNameChar c = true ∨ 0x80 ≤ c.toNat

theorem ne_of_foreign {c d : Char} (h : 0x80 ≤ c.toNat) (hd : d.toNat < 0x80) : c ≠ d := by
  rintro rfl
  omega

theorem isNameChar_of_foreign {c : Char} (h : 0x80 ≤ c.toNat) : isNameChar c = false := by
  have hle : ∀ d : Char, d.toNat < 0x80 → ¬ c ≤ d := by
    intro d hd hle
    have hnat : c.toNat ≤ d.toNat := UInt32.le_iff_toNat_le.1 hle
    omega
  simp [isNameChar, hle 'z' (by decide), hle 'Z' (by decide), hle '9' (by decide),
    ne_of_foreign h (d := '_') (by decide), ne_of_foreign h (d := '-') (by decide)]

theorem token_foreign {c : Char} (h : 0x80 ≤ c.toNat) (offset : Nat) (rest : List Char) :
    (token c ⟨offset, c :: rest⟩).1 = .stray := by
  have hne (d : Char) (hd : d.toNat < 0x80) : c ≠ d := ne_of_foreign h hd
  have hname := isNameChar_of_foreign h
  simp [token, isSpace, isLineBreak, hname, hne ' ' (by decide), hne '\t' (by decide),
    hne '\n' (by decide), hne '\r' (by decide), hne '#' (by decide), hne '"' (by decide),
    hne '[' (by decide), hne '(' (by decide), hne ')' (by decide), hne '|' (by decide),
    hne '?' (by decide), hne '*' (by decide), hne '+' (by decide), hne '\x7b' (by decide),
    (hne ':' (by decide)).symm, List.isPrefixOf]

/-- A character that starts no token is a fault anywhere. -/
theorem foldlM_foreign {c : Char} (h : 0x80 ≤ c.toNat) (s : State) (offset steps : Nat)
    (rest : List Char) : ∃ e, e.IsSyntactic ∧
      (lexemesFrom (steps + 1) ⟨offset, c :: rest⟩).foldlM step s = .error e := by
  generalize htoken : token c ⟨offset, c :: rest⟩ = taken
  obtain ⟨t, next⟩ := taken
  obtain rfl : t = .stray := by
    have hstray := token_foreign h offset rest
    rwa [htoken] at hstray
  rw [foldlM_lexemes_cons htoken (by simp)]
  cases hstage : s.stage with
  | between =>
    refine ⟨.grammar .expectedName (some offset), by simp [Failure.IsSyntactic], ?_⟩
    simp [step, hstage, bind, Except.bind]
  | named name start =>
    refine ⟨.grammar .expectedDefine (some offset), by simp [Failure.IsSyntactic], ?_⟩
    simp [step, hstage, bind, Except.bind]
  | inside b =>
    refine ⟨.grammar (.unexpected c) (some offset), by simp [Failure.IsSyntactic], ?_⟩
    simp [step, hstage, bodyStep, bind, Except.bind]

/-- A name is read as one token if it can be read, and otherwise it is a fault. -/
theorem settles_name {name : String} (hname : IsNameLike name) {S T : State → Prop}
    (hstep : ∀ s, S s → ∀ offset c text, (∃ e, e.IsSyntactic ∧
        step s ⟨offset, c, .name text⟩ = .error e) ∨
      ∃ s', step s ⟨offset, c, .name text⟩ = .ok s' ∧ (text = name → T s')) :
    Settles name.toList S fun s => IsReadable name ∧ T s := by
  intro s hs offset steps rest hrest hsteps
  obtain ⟨hne, hchars⟩ := hname
  by_cases hreadable : ∀ c ∈ name.toList, isNameChar c = true
  · have hwhole : IsReadable name := ⟨hne, hreadable⟩
    obtain ⟨c, cs, hcs⟩ := List.exists_cons_of_ne_nil hne
    rw [hcs] at hreadable hrest hsteps ⊢
    rw [List.length_cons] at hsteps
    obtain ⟨steps, rfl⟩ : ∃ n, steps = n + 1 := ⟨steps - 1, by omega⟩
    have htoken := token_name offset hreadable (hrest.head hreadable)
    rw [List.cons_append] at htoken ⊢
    rw [foldlM_lexemes_cons htoken (by simp)]
    rcases hstep s hs offset c (String.ofList (c :: cs)) with ⟨e, he, herror⟩ | ⟨s', hok, hT⟩
    · exact .inl ⟨e, he, by rw [herror]; rfl⟩
    · refine .inr ⟨s', steps, ⟨hwhole, hT (by rw [← hcs, String.ofList_toList])⟩, by omega, ?_⟩
      rw [hok]
      rfl
  · -- the name breaks off at the first foreign character
    left
    generalize hfront : name.toList.takeWhile isNameChar = front
    obtain ⟨d, post, hsplit, hd⟩ : ∃ d post, name.toList = front ++ d :: post ∧
        isNameChar d = false := by
      have happend := List.takeWhile_append_dropWhile (p := isNameChar) (l := name.toList)
      cases hback : name.toList.dropWhile isNameChar with
      | nil =>
        rw [hback, List.append_nil] at happend
        refine absurd (fun c hc => ?_) hreadable
        rw [← happend] at hc
        exact List.mem_takeWhile_imp hc
      | cons d post =>
        refine ⟨d, post, by rw [← hfront, ← hback, happend], ?_⟩
        have hhead := List.head?_dropWhile_not (p := isNameChar) (l := name.toList)
        simpa [hback] using hhead
    have hforeign : 0x80 ≤ d.toNat :=
      (hchars d (by rw [hsplit]; simp)).resolve_left (by simp [hd])
    rw [hsplit, List.length_append] at hsteps
    rw [hsplit, List.append_assoc]
    cases front with
    | nil =>
      rw [List.length_cons] at hsteps
      obtain ⟨steps, rfl⟩ : ∃ n, steps = n + 1 := ⟨steps - 1, by simp at hsteps; omega⟩
      exact foldlM_foreign hforeign s offset steps _
    | cons c cs =>
      rw [List.length_cons, List.length_cons] at hsteps
      obtain ⟨steps, rfl⟩ : ∃ n, steps = n + 2 := ⟨steps - 2, by omega⟩
      have hreads : ∀ e ∈ c :: cs, isNameChar e = true := by
        intro e he
        rw [← hfront] at he
        exact List.mem_takeWhile_imp he
      have hstop : ∀ e ∈ (d :: post ++ rest).head?, isNameChar e = false := by simp [hd]
      have htoken := token_name offset hreads hstop
      rw [List.cons_append] at htoken ⊢
      rw [foldlM_lexemes_cons htoken (by simp)]
      rcases hstep s hs offset c (String.ofList (c :: cs)) with ⟨e, he, herror⟩ | ⟨s', hok, -⟩
      · exact ⟨e, he, by rw [herror]; rfl⟩
      · rw [hok]
        exact foldlM_foreign hforeign s' _ steps _

/-! ## Bodies -/

/-- The reader is in the body of a rule and has met allowed names only. -/
def InBody (P : String → Prop) (done : Grammar) (name : String) (s : State) : Prop :=
  ∃ b : Body, s = ⟨done, .inside b⟩ ∧ b.name = name ∧ b.Mentions P

section Bodies

variable {P : String → Prop} {done : Grammar} {name : String}

theorem bodyStep_allowed {b : Body} (hb : b.Mentions P) (offset : Nat) (c : Char) {t : Token}
    (ht : t.IsAllowed P) :
    (∃ e, e.IsSyntactic ∧ bodyStep done b ⟨offset, c, t⟩ = .error e) ∨
      ∃ b', bodyStep done b ⟨offset, c, t⟩ = .ok ⟨done, .inside b'⟩ ∧ b'.name = b.name ∧
        b'.Mentions P := by
  have hrefuse : Failure.IsSyntactic (.grammar (.unexpected c) (some offset)) := by
    simp [Failure.IsSyntactic]
  cases t with
  | name text =>
    have hP : P text := ht
    exact .inr ⟨_, rfl, rfl, hb.item (by simpa [Node.ruleNames] using hP)⟩
  | define => exact absurd ht id
  | literal text => exact .inr ⟨_, rfl, rfl, hb.item (by simp [Node.ruleNames])⟩
  | charClass negated ranges => exact .inr ⟨_, rfl, rfl, hb.item (by simp [Node.ruleNames])⟩
  | groupOpen =>
    refine .inr ⟨_, rfl, rfl, Draft.mentions_empty, fun group hgroup => ?_⟩
    rcases List.mem_cons.1 hgroup with rfl | hgroup
    · exact hb.current
    · exact hb.groups group hgroup
  | groupClose =>
    cases hgroups : b.groups with
    | nil => exact .inl ⟨_, hrefuse, by simp [bodyStep, hgroups]⟩
    | cons group groups =>
      have hall := hb.groups
      rw [hgroups] at hall
      refine .inr ⟨Body.item { b with current := group.before, groups := groups } b.current.node,
        by simp [bodyStep, hgroups], rfl, Body.Mentions.item ⟨?_, ?_⟩ hb.current.node⟩
      · exact hall group List.mem_cons_self
      · exact fun other hother => hall other (List.mem_cons_of_mem _ hother)
  | bar => exact .inr ⟨_, rfl, rfl, hb.current.nextBranch, hb.groups⟩
  | times min max =>
    by_cases hrepeat : b.repeatable = true
    · refine .inr ⟨b.again min max, by simp [bodyStep, hrepeat], ?_, hb.again min max⟩
      unfold Body.again
      split <;> rfl
    · exact .inl ⟨_, hrefuse, by simp [bodyStep, hrepeat]⟩
  | lineBreak => exact absurd ht id
  | blank => exact .inr ⟨_, rfl, rfl, hb.current, hb.groups⟩
  | stray => exact .inl ⟨_, hrefuse, rfl⟩
  | broken e => exact absurd ht id

theorem settles_piece {c : Char} {cs : List Char}
    (htakes : ∀ offset rest, Takes P offset (c :: cs) rest (token c ⟨offset, c :: cs ++ rest⟩)) :
    Settles (c :: cs) (InBody P done name) (InBody P done name) := by
  refine settles_of_token (fun offset rest _ => htakes offset rest) ?_ ?_
  · rintro s ⟨b, rfl, rfl, hb⟩ offset t ht
    refine (bodyStep_allowed hb offset c ht).imp_right ?_
    rintro ⟨b', hstep, hname, hmentions⟩
    exact ⟨_, ⟨b', rfl, hname, hmentions⟩, hstep⟩
  · rintro s ⟨b, rfl, rfl, hb⟩ offset e he
    have hstep : step ⟨done, .inside b⟩ ⟨offset, c, .broken e⟩ =
        if c = '\x7b' && !b.repeatable then .error (.grammar (.unexpected c) (some offset))
        else .error e := rfl
    rw [hstep]
    split_ifs
    · exact ⟨_, by simp [Failure.IsSyntactic], rfl⟩
    · exact ⟨e, he, rfl⟩

/-- **Reading a row of tokens** comes to a fault of syntax or through to its end. -/
theorem Lexed.settles (hP : ∀ name, P name → IsNameLike name) {text : List Char}
    (h : Lexed P text) : Settles text (InBody P done name) (InBody P done name) := by
  induction h with
  | nil => exact .refl _
  | mark known => exact settles_piece fun offset rest => takes_mark offset rest known
  | literal inside => exact settles_piece fun offset rest => takes_literal offset rest inside
  | charClass inside => exact settles_piece fun offset rest => takes_charClass offset rest inside
  | braces inside => exact settles_piece fun offset rest => takes_braces offset rest inside
  | name allowed =>
    refine (settles_name (T := InBody P done name) (hP _ allowed) ?_).weaken fun _ hs => hs.2
    rintro s ⟨b, rfl, rfl, hb⟩ offset c text
    refine .inr ⟨_, rfl, ?_⟩
    rintro rfl
    exact ⟨_, rfl, rfl, hb.item (by simpa [Node.ruleNames] using allowed)⟩
  | append _ _ apart ih ih' => exact ih.append ih' apart

end Bodies

/-! ## Lines -/

/-- The reader is in a group that a line has left open. -/
def InOpenGroup (s : State) : Prop :=
  ∃ done b, s = ⟨done, .inside b⟩ ∧ b.groups ≠ []

/-- The reader is between two rules, and has met allowed names only. It could read the names of the
    rules. -/
def IsBetween (P : String → Prop) (names : List String) (s : State) : Prop :=
  (∀ name ∈ names, IsReadable name) ∧ ∃ done : Grammar, s = ⟨done, .between⟩ ∧
    done.map Prod.fst = names ∧ ∀ pair ∈ done, ∀ name ∈ pair.2.ruleNames, P name

/-- The reader has got through a body. -/
def IsThrough (P : String → Prop) (done : Grammar) (name : String) (s : State) : Prop :=
  (∃ node : Node, s = ⟨(name, node) :: done, .between⟩ ∧ ∀ n ∈ node.ruleNames, P n) ∨ InOpenGroup s

/-- Reading the body of a rule comes to a fault of syntax or gets through, and then the names in it
    are allowed. -/
def IsBodyLike (P : String → Prop) (body : String) : Prop :=
  ∀ (name : String) (done : Grammar), Settles (body.toList ++ ['\n'])
    (· = ⟨done, .inside (.start name)⟩) (IsThrough P done name)

section Lines

variable {P : String → Prop} {name body : String} {names front : List String}

theorem toList_line (name body : String) : (line name body).toList =
    name.toList ++ (" ::= ".toList ++ (body.toList ++ ['\n'])) := by
  simp [line]

theorem settles_lineBreak (done : Grammar) (name : String) :
    Settles ['\n'] (InBody P done name) (IsThrough P done name) := by
  rintro s ⟨b, rfl, rfl, hb⟩ offset steps rest - hsteps
  rw [List.length_singleton] at hsteps
  obtain ⟨steps, rfl⟩ : ∃ n, steps = n + 1 := ⟨steps - 1, by omega⟩
  have htoken : token '\n' ⟨offset, '\n' :: rest⟩ = (.lineBreak, ⟨offset + 1, rest⟩) := rfl
  rw [List.singleton_append, foldlM_lexemes_cons htoken (by simp)]
  cases hgroups : b.groups with
  | nil =>
    refine .inr ⟨_, steps, .inl ⟨b.current.node, rfl, hb.current.node⟩, by omega, ?_⟩
    simp [step, bodyStep, hgroups, bind, Except.bind]
  | cons group groups =>
    refine .inr ⟨_, steps, .inr ⟨done, { b with repeatable := false }, rfl, ?_⟩, by omega, ?_⟩
    · simp [hgroups]
    · simp [step, bodyStep, hgroups, bind, Except.bind]

theorem Lexed.isBodyLike (hP : ∀ n, P n → IsNameLike n) (h : Lexed P body.toList) :
    IsBodyLike P body := by
  intro name done
  have hend := (h.settles hP).append (settles_lineBreak done name) (apart_of_head (by simp; decide))
  rintro s rfl
  exact hend _ ⟨_, rfl, rfl, Draft.mentions_empty, by simp [Body.start]⟩

theorem IsBody.isBodyLike {node : Node} (h : IsBody body node) (hP : ∀ n ∈ node.ruleNames, P n) :
    IsBodyLike P body := by
  intro name done
  have hpasses : ∀ s, s = ⟨done, .inside (.start name)⟩ →
      Passes (body.toList ++ ['\n']) s ⟨(name, node) :: done, .between⟩ := by
    rintro s rfl
    exact h name done
  refine (settles_of_passes hpasses).weaken ?_
  rintro s rfl
  exact .inl ⟨node, rfl, hP⟩

/-- A line is read as a rule of its name, is at fault or leaves a group open. -/
theorem settles_line (hname : IsNameLike name) (hbody : IsBodyLike P body) (hnew : name ∉ front) :
    Settles (line name body).toList (IsBetween P front) fun s =>
      IsBetween P (name :: front) s ∨ InOpenGroup s := by
  rintro s ⟨hread, done, rfl, rfl, hdone⟩
  have hfree : done.has name = false := by
    rw [has, find?, Assoc.lookup_eq_none_iff.2 hnew]
    rfl
  have hhead : Settles name.toList (· = ⟨done, .between⟩)
      fun s => IsReadable name ∧ ∃ start, s = ⟨done, .named name start⟩ := by
    refine settles_name hname ?_
    rintro s rfl offset c text
    refine .inr ⟨_, rfl, ?_⟩
    rintro rfl
    exact ⟨offset, rfl⟩
  have hsign : Settles " ::= ".toList (fun s => ∃ start, s = ⟨done, .named name start⟩)
      (· = ⟨done, .inside (.start name)⟩) := by
    refine settles_of_passes ?_
    rintro s ⟨start, rfl⟩
    exact passes_sign done name start hfree
  have hrest (hwhole : IsReadable name) : Settles (" ::= ".toList ++ (body.toList ++ ['\n']))
      (fun s => ∃ start, s = ⟨done, .named name start⟩)
      fun s => IsBetween P (name :: done.map Prod.fst) s ∨ InOpenGroup s := by
    refine (hsign.append (hbody name done) (apart_of_getLast (by simp; decide))).weaken ?_
    rintro s (⟨node, rfl, hnode⟩ | hopen)
    · refine .inl ⟨List.forall_mem_cons.2 ⟨hwhole, hread⟩, _, rfl, rfl, ?_⟩
      exact List.forall_mem_cons.2 ⟨hnode, hdone⟩
    · exact .inr hopen
  have hline := hhead.append (Settles.assuming hrest) (apart_of_head (by simp; decide))
  rw [← toList_line] at hline
  exact hline _ rfl

/-- A line behind an open group is at fault, as a definition cannot stand in a group. -/
theorem settles_line_open (hname : IsNameLike name) :
    Settles (line name body).toList InOpenGroup fun _ => False := by
  have hhead : Settles name.toList InOpenGroup InOpenGroup := by
    refine (settles_name (T := InOpenGroup) hname ?_).weaken fun _ hs => hs.2
    rintro s ⟨done, b, rfl, hgroups⟩ offset c text
    exact .inr ⟨_, rfl, fun _ => ⟨done, b.item (.rule text), rfl, hgroups⟩⟩
  have hsign : Settles (" ::= ".toList ++ (body.toList ++ ['\n'])) InOpenGroup fun _ => False := by
    rintro s ⟨done, b, rfl, -⟩ offset steps rest - hsteps
    simp only [List.length_append] at hsteps
    have hlength : " ::= ".toList.length = 5 := rfl
    obtain ⟨steps, rfl⟩ : ∃ n, steps = n + 2 := ⟨steps - 2, by omega⟩
    generalize hmore : ' ' :: (body.toList ++ ['\n'] ++ rest) = more
    have htext : " ::= ".toList ++ (body.toList ++ ['\n']) ++ rest = ' ' :: ':' :: ':' :: '=' :: more := by
      rw [← hmore]
      rfl
    have hblank : token ' ' ⟨offset, ' ' :: ':' :: ':' :: '=' :: more⟩ =
        (.blank, ⟨offset + 1, ':' :: ':' :: '=' :: more⟩) := rfl
    have hdefine : token ':' ⟨offset + 1, ':' :: ':' :: '=' :: more⟩ =
        (.define, ⟨offset + 4, more⟩) := rfl
    refine .inl ⟨.grammar (.unexpected ':') (some (offset + 1)), by simp [Failure.IsSyntactic], ?_⟩
    rw [htext, foldlM_lexemes_cons hblank (by simp)]
    change List.foldlM step ⟨done, .inside { b with repeatable := false }⟩ _ = _
    rw [foldlM_lexemes_cons hdefine (by simp)]
    rfl
  rw [toList_line]
  exact hhead.append hsign (apart_of_head (by simp; decide))

/-- Reading lines from between two rules or behind an open group. -/
theorem settles_lines {body : String → String} (hnodup : (names.reverse ++ front).Nodup)
    (h : ∀ name ∈ names, IsNameLike name ∧ IsBodyLike P (body name)) :
    Settles (names.flatMap fun name => (line name (body name)).toList)
      (fun s => IsBetween P front s ∨ InOpenGroup s)
      fun s => IsBetween P (names.reverse ++ front) s ∨ InOpenGroup s := by
  induction names generalizing front with
  | nil => exact .refl _
  | cons name rest ih =>
    rw [List.reverse_cons, List.append_assoc, List.singleton_append] at hnodup ⊢
    obtain ⟨hname, hbody⟩ := h name (by simp)
    have hnew : name ∉ front :=
      (List.nodup_cons.1 (List.nodup_append.1 hnodup).2.1).1
    have hfirst : Settles (line name (body name)).toList
        (fun s => IsBetween P front s ∨ InOpenGroup s)
        fun s => IsBetween P (name :: front) s ∨ InOpenGroup s := by
      rintro s (hbetween | hopen)
      · exact settles_line hname hbody hnew s hbetween
      · exact (settles_line_open hname).weaken (fun _ => False.elim) s hopen
    have hmore := ih hnodup fun other hother => h other (List.mem_cons_of_mem _ hother)
    rw [List.flatMap_cons]
    exact hfirst.append hmore (apart_line name (body name) _)

/-- Lines whose bodies refer to the names of the lines have no other faults than those of syntax.
    Without a fault all names can be read, and they are those of the rules, in order. -/
theorem ofText_lines_settles {body : String → String} (hnodup : names.Nodup)
    (h : ∀ name ∈ names, IsNameLike name ∧ IsBodyLike (· ∈ names) (body name)) :
    (∃ g, ofText (String.join (names.map fun name => line name (body name))) = .ok g ∧
        g.map Prod.fst = names ∧ ∀ name ∈ names, IsReadable name) ∨
      ∃ e, e.IsSyntactic ∧
        ofText (String.join (names.map fun name => line name (body name))) = .error e := by
  generalize htext : String.join (names.map fun name => line name (body name)) = text
  have hlist : text.toList = names.flatMap fun name => (line name (body name)).toList := by
    rw [← htext]
    simp [String.toList_join, List.flatMap_def, Function.comp_def]
  have hnodup' : (names.reverse ++ []).Nodup := by simpa using hnodup
  have hstart : IsBetween (· ∈ names) [] ⟨[], .between⟩ := ⟨by simp, [], rfl, rfl, by simp⟩
  have hsettles := settles_lines hnodup' h _ (.inl hstart) 0
    text.toList.length [] (apart_of_head (by simp)) (by simp [hlist])
  rw [List.append_nil, ← hlist] at hsettles
  have hread : ofText text = (((lexemesFrom text.toList.length ⟨0, text.toList⟩).foldlM step
      ⟨[], .between⟩) >>= fun s => finish s text.toList.length >>= fun g =>
        checkReferences g >>= fun _ => pure g) := rfl
  rcases hsettles with ⟨e, he, hfault⟩ | ⟨s, left, hs, -, hend⟩
  · refine .inr ⟨e, he, ?_⟩
    rw [hread, hfault]
    rfl
  · rw [lexemesFrom_nil] at hend
    rw [hread, hend]
    rcases hs with ⟨hwhole, done, rfl, hnames, hmentions⟩ | ⟨done, b, rfl, hgroups⟩
    · have hrules : done.reverse.map Prod.fst = names := by
        rw [List.map_reverse, hnames]
        simp
      refine .inl ⟨done.reverse, ?_, hrules, by simpa using hwhole⟩
      have hnone : (done.reverse.flatMap fun x => x.2.ruleNames).find?
          (fun name => !Grammar.has done.reverse name) = none := by
        rw [List.find?_eq_none]
        intro other hother
        obtain ⟨pair, hpair, hmem⟩ := List.mem_flatMap.1 hother
        have hthere : other ∈ done.reverse.map Prod.fst := by
          rw [hrules]
          exact hmentions pair (List.mem_reverse.1 hpair) other hmem
        simp [has, find?, Assoc.lookup_isSome_iff.2 hthere]
      simp [finish, checkReferences, hnone, bind, Except.bind, pure, Except.pure]
    · obtain ⟨group, groups, hcons⟩ := List.exists_cons_of_ne_nil hgroups
      refine .inr ⟨.grammar .expectedClose (some group.start), by simp [Failure.IsSyntactic], ?_⟩
      simp [finish, hcons, bind, Except.bind, pure, Except.pure]

end Lines

end Grammar

end SchemaGrammar
