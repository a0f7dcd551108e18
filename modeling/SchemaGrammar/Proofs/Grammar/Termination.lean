import SchemaGrammar.Proofs.Grammar.Acceptance
import SchemaGrammar.Proofs.Grammar.Recognition

set_option autoImplicit false

/-! # Checks end

The matcher bounds the nesting of calls and the rounds of a repetition. `Runs` says how a text is
matched without such bounds: one rule for each way to go on, so that a derivation is a run that has
come to its end, with a report of all that happened in it. Where every name is defined, the matcher
has a run for each rule and offset (`matchRule_follows`): a call that goes deeper takes an offset of a
rule that was unseen, and a round that goes on finds a new offset, so neither bound is ever reached. What
holds of all runs is shown by induction on them: ends lie within the text (`Runs.bounds`), and a rule
is gone into once at an offset (`Runs.entries`). -/

namespace SchemaGrammar

namespace Grammar

/-! ## Runs -/

/-- What there is to find while a text is matched. -/
inductive Task where
  /-- The ends of a rule. -/
  | call (name : String) (offset : Nat)
  /-- The ends of a node, which are reported. -/
  | visit (node : Node) (offset : Nat)
  /-- The ends of a node according to its kind. -/
  | node (node : Node) (offset : Nat)
  /-- The ends of a node from a set of offsets. -/
  | starts (node : Node) (starts : Offsets)
  /-- The ends of a node from offsets in a row, added to those found so far. -/
  | each (node : Node) (starts : Offsets) (found : Offsets)
  /-- The ends of items in a row. -/
  | items (items : List Node) (starts : Offsets)
  /-- The ends of branches, added to those found so far. -/
  | branches (branches : List Node) (offset : Nat) (found : Offsets)
  /-- The ends of a repetition after so many rounds. -/
  | rounds (node : Node) (min : Int) (max : Option Int) (count : Nat) (current found : Offsets)

/-- Something that happens while a text is matched. -/
inductive Report where
  /-- A node that starts at the offset has these ends. -/
  | ends (node : Node) (offset : Nat) (ends : Offsets)
  /-- The body of a rule is gone into. -/
  | entry (name : String) (offset : Nat)

namespace Report

/-- The rule and the offset of a body that is gone into. -/
def key? : Report → Option (String × Nat)
  | .ends _ _ _ => none
  | .entry name offset => some (name, offset)

/-- The bodies that are gone into, in their order. -/
def entries (log : List Report) : List (String × Nat) :=
  log.filterMap key?

@[simp] theorem entries_nil : entries [] = [] := rfl

@[simp] theorem entries_append (log log' : List Report) :
    entries (log ++ log') = entries log ++ entries log' :=
  List.filterMap_append

@[simp] theorem entries_ends (node : Node) (offset : Nat) (ends : Offsets) :
    entries [.ends node offset ends] = [] := rfl

@[simp] theorem entries_entry (name : String) (offset : Nat) (log : List Report) :
    entries (.entry name offset :: log) = (name, offset) :: entries log := rfl

end Report

namespace Memory

/-- Remember the ends of a rule. -/
def remember (m : Memory) (name : String) (offset : Nat) (ends : Offsets) : Memory :=
  { m with ends := m.ends.insert (name, offset) ends }

/-- A literal or a class has ended at an offset. -/
def reached (m : Memory) (stop : Nat) : Memory :=
  { m with furthest := max m.furthest stop }

/-- One more set of offsets is gone through. -/
def turned (m : Memory) : Memory :=
  { m with turn := m.turn + 1 }

@[simp] theorem reached_ends (m : Memory) (stop : Nat) : (m.reached stop).ends = m.ends := rfl

@[simp] theorem turned_ends (m : Memory) : m.turned.ends = m.ends := rfl

/-- Nothing is known before a text is matched. -/
def empty : Memory :=
  ⟨∅, 0, 0⟩

end Memory

/-- `Runs order text g task m ends m' log` says that the task ends: it is done with the memory `m`,
    finds the ends, leaves the memory `m'`, and what has happened is in the log. -/
inductive Runs (order : Order) (text : Array Char) (g : Grammar) :
    Task → Memory → Offsets → Memory → List Report → Prop
  | remembered {name offset m ends} (h : m.ends[(name, offset)]? = some ends) :
      Runs order text g (.call name offset) m ends m []
  | entry {name offset m body ends m' log} (hnone : m.ends[(name, offset)]? = none)
      (hbody : g.find? name = some body)
      (h : Runs order text g (.visit body offset) (m.remember name offset []) ends m' log) :
      Runs order text g (.call name offset) m ends (m'.remember name offset ends)
        (.entry name offset :: log)
  | visit {node offset m ends m' log} (h : Runs order text g (.node node offset) m ends m' log) :
      Runs order text g (.visit node offset) m ends m' (log ++ [.ends node offset ends])
  | literal {codes offset m} (h : startsAt text offset codes = true) :
      Runs order text g (.node (.literal codes) offset) m [offset + codes.length]
        (m.reached (offset + codes.length)) []
  | otherLiteral {codes offset m} (h : startsAt text offset codes = false) :
      Runs order text g (.node (.literal codes) offset) m [] m []
  | charClass {negated ranges offset m c} (hc : text[offset]? = some c)
      (h : Node.classHolds negated ranges c.toNat = true) :
      Runs order text g (.node (.charClass negated ranges) offset) m [offset + 1]
        (m.reached (offset + 1)) []
  | otherClass {negated ranges offset m}
      (h : ∀ c, text[offset]? = some c → Node.classHolds negated ranges c.toNat = false) :
      Runs order text g (.node (.charClass negated ranges) offset) m [] m []
  | rule {name offset m ends m' log} (h : Runs order text g (.call name offset) m ends m' log) :
      Runs order text g (.node (.rule name) offset) m ends m' log
  | seq {items offset m ends m' log} (h : Runs order text g (.items items [offset]) m ends m' log) :
      Runs order text g (.node (.seq items) offset) m ends m' log
  | alt {branches offset m ends m' log}
      (h : Runs order text g (.branches branches offset []) m ends m' log) :
      Runs order text g (.node (.alt branches) offset) m ends m' log
  | rep {node min max offset m ends m' log}
      (h : Runs order text g
        (.rounds node min max 0 [offset] (if min = 0 then [offset] else [])) m ends m' log) :
      Runs order text g (.node (.rep node min max) offset) m ends m' log
  | starts {node starts m ends m' log}
      (h : Runs order text g (.each node (order.arrange m.turn starts) []) m.turned ends m' log) :
      Runs order text g (.starts node starts) m ends m' log
  | noStart {node found m} : Runs order text g (.each node [] found) m found m []
  | eachStart {node start rest found m ends m₁ log₁ all m' log₂}
      (h : Runs order text g (.visit node start) m ends m₁ log₁)
      (hrest : Runs order text g (.each node rest (found.union ends)) m₁ all m' log₂) :
      Runs order text g (.each node (start :: rest) found) m all m' (log₁ ++ log₂)
  | noItem {starts m} : Runs order text g (.items [] starts) m starts m []
  | lastItem {node rest starts m m' log} (h : Runs order text g (.starts node starts) m [] m' log) :
      Runs order text g (.items (node :: rest) starts) m [] m' log
  | item {node rest starts m ends m₁ log₁ all m' log₂}
      (h : Runs order text g (.starts node starts) m ends m₁ log₁) (hne : ends ≠ [])
      (hrest : Runs order text g (.items rest ends) m₁ all m' log₂) :
      Runs order text g (.items (node :: rest) starts) m all m' (log₁ ++ log₂)
  | noBranch {offset found m} : Runs order text g (.branches [] offset found) m found m []
  | branch {node rest offset found m ends m₁ log₁ all m' log₂}
      (h : Runs order text g (.visit node offset) m ends m₁ log₁)
      (hrest : Runs order text g (.branches rest offset (found.union ends)) m₁ all m' log₂) :
      Runs order text g (.branches (node :: rest) offset found) m all m' (log₁ ++ log₂)
  | noRound {node min max count current found m}
      (h : (current.isEmpty || !mayGoOn max count) = true) :
      Runs order text g (.rounds node min max count current found) m found m []
  | round {node} {min : Int} {max count current found m ends m₁ log₁ all m' log₂}
      (hmore : (current.isEmpty || !mayGoOn max count) = false)
      (h : Runs order text g (.starts node current) m ends m₁ log₁) (hmin : min ≤ (count : Int) + 1)
      (hrest : Runs order text g (.rounds node min max (count + 1) (ends.without found)
        ((ends.without found).union found)) m₁ all m' log₂) :
      Runs order text g (.rounds node min max count current found) m all m' (log₁ ++ log₂)
  | earlyRound {node} {min : Int} {max count current found m ends m₁ log₁ all m' log₂}
      (hmore : (current.isEmpty || !mayGoOn max count) = false)
      (h : Runs order text g (.starts node current) m ends m₁ log₁) (hmin : ¬ min ≤ (count : Int) + 1)
      (hrest : Runs order text g (.rounds node min max (count + 1) ends found) m₁ all m' log₂) :
      Runs order text g (.rounds node min max count current found) m all m' (log₁ ++ log₂)

section Runs

variable {order : Order} {text : Array Char} {g : Grammar} {task : Task} {m m' : Memory}
  {ends : Offsets} {log : List Report}

/-- A task has one run. -/
theorem Runs.unique (h : Runs order text g task m ends m' log) :
    ∀ {ends₂ : Offsets} {m₂ : Memory} {log₂ : List Report},
      Runs order text g task m ends₂ m₂ log₂ → ends₂ = ends ∧ m₂ = m' ∧ log₂ = log := by
  induction h with
  | remembered h =>
    intro ends₂ m₂ log₂ h₂
    cases h₂ with
    | remembered h' => exact ⟨Option.some.inj (h'.symm.trans h), rfl, rfl⟩
    | entry hnone _ _ => simp [h] at hnone
  | entry hnone hbody _ ih =>
    intro ends₂ m₂ log₂ h₂
    cases h₂ with
    | remembered h' => simp [hnone] at h'
    | entry _ hbody' h' =>
      obtain rfl := Option.some.inj (hbody'.symm.trans hbody)
      obtain ⟨rfl, rfl, rfl⟩ := ih h'
      exact ⟨rfl, rfl, rfl⟩
  | visit _ ih =>
    rintro ends₂ m₂ log₂ ⟨⟩
    rename_i h'
    obtain ⟨rfl, rfl, rfl⟩ := ih h'
    exact ⟨rfl, rfl, rfl⟩
  | literal h =>
    intro ends₂ m₂ log₂ h₂
    cases h₂ with
    | literal _ => exact ⟨rfl, rfl, rfl⟩
    | otherLiteral h' => simp [h] at h'
  | otherLiteral h =>
    intro ends₂ m₂ log₂ h₂
    cases h₂ with
    | literal h' => simp [h] at h'
    | otherLiteral _ => exact ⟨rfl, rfl, rfl⟩
  | charClass hc h =>
    intro ends₂ m₂ log₂ h₂
    cases h₂ with
    | charClass _ _ => exact ⟨rfl, rfl, rfl⟩
    | otherClass h' => simp [h' _ hc] at h
  | otherClass h =>
    intro ends₂ m₂ log₂ h₂
    cases h₂ with
    | charClass hc h' => simp [h _ hc] at h'
    | otherClass _ => exact ⟨rfl, rfl, rfl⟩
  | rule _ ih | seq _ ih | alt _ ih | rep _ ih | starts _ ih =>
    rintro ends₂ m₂ log₂ ⟨⟩
    rename_i h'
    exact ih h'
  | noStart | noItem | noBranch =>
    rintro ends₂ m₂ log₂ ⟨⟩
    exact ⟨rfl, rfl, rfl⟩
  | eachStart _ _ ih ihrest | branch _ _ ih ihrest =>
    rintro ends₂ m₂ log₂ ⟨⟩
    rename_i h' hrest'
    obtain ⟨rfl, rfl, rfl⟩ := ih h'
    obtain ⟨rfl, rfl, rfl⟩ := ihrest hrest'
    exact ⟨rfl, rfl, rfl⟩
  | lastItem _ ih =>
    intro ends₂ m₂ log₂ h₂
    cases h₂ with
    | lastItem h' => exact ih h'
    | item h' hne _ => exact absurd (ih h').1 hne
  | item _ hne _ ih ihrest =>
    intro ends₂ m₂ log₂ h₂
    cases h₂ with
    | lastItem h' => exact absurd (ih h').1.symm hne
    | item h' _ hrest' =>
      obtain ⟨rfl, rfl, rfl⟩ := ih h'
      obtain ⟨rfl, rfl, rfl⟩ := ihrest hrest'
      exact ⟨rfl, rfl, rfl⟩
  | noRound h =>
    intro ends₂ m₂ log₂ h₂
    cases h₂ with
    | noRound _ => exact ⟨rfl, rfl, rfl⟩
    | round hmore _ _ _ | earlyRound hmore _ _ _ => simp [h] at hmore
  | round hmore _ hmin _ ih ihrest =>
    intro ends₂ m₂ log₂ h₂
    cases h₂ with
    | noRound h' => simp [hmore] at h'
    | earlyRound _ _ hmin' _ => exact absurd hmin hmin'
    | round _ h' _ hrest' =>
      obtain ⟨rfl, rfl, rfl⟩ := ih h'
      obtain ⟨rfl, rfl, rfl⟩ := ihrest hrest'
      exact ⟨rfl, rfl, rfl⟩
  | earlyRound hmore _ hmin _ ih ihrest =>
    intro ends₂ m₂ log₂ h₂
    cases h₂ with
    | noRound h' => simp [hmore] at h'
    | round _ _ hmin' _ => exact absurd hmin' hmin
    | earlyRound _ h' _ hrest' =>
      obtain ⟨rfl, rfl, rfl⟩ := ih h'
      obtain ⟨rfl, rfl, rfl⟩ := ihrest hrest'
      exact ⟨rfl, rfl, rfl⟩

/-! ## Ends within the text -/

/-- All offsets of a set lie between two offsets. -/
def Offsets.Between (low high : Nat) (xs : Offsets) : Prop :=
  ∀ x ∈ xs, low ≤ x ∧ x ≤ high

namespace Offsets.Between

variable {low high x : Nat} {xs ys : Offsets}

theorem nil : Between low high [] := by
  simp [Between]

theorem singleton_iff : Between low high [x] ↔ low ≤ x ∧ x ≤ high := by
  simp [Between]

theorem cons_iff : Between low high (x :: xs) ↔ (low ≤ x ∧ x ≤ high) ∧ Between low high xs := by
  simp [Between]

theorem union (hxs : Between low high xs) (hys : Between low high ys) :
    Between low high (xs.union ys) :=
  fun _ hx => (mem_union.1 hx).elim (hxs _) (hys _)

theorem without (hxs : Between low high xs) : Between low high (xs.without ys) :=
  fun _ hx => hxs _ (mem_without.1 hx).1

theorem arrange (hxs : Between low high xs) (turn : Nat) :
    Between low high (order.arrange turn xs) :=
  fun _ hx => hxs _ ((order.perm turn xs).mem_iff.1 hx)

theorem mono {lower : Nat} (hle : lower ≤ low) (hxs : Between low high xs) :
    Between lower high xs :=
  fun _ hx => (hxs _ hx).imp_left hle.trans

end Offsets.Between

/-- All offsets of a task lie between two offsets. -/
def Task.Between (low high : Nat) : Task → Prop
  | .call _ offset | .visit _ offset | .node _ offset => low ≤ offset ∧ offset ≤ high
  | .starts _ offsets | .items _ offsets => Offsets.Between low high offsets
  | .each _ offsets found => Offsets.Between low high offsets ∧ Offsets.Between low high found
  | .branches _ offset found => (low ≤ offset ∧ offset ≤ high) ∧ Offsets.Between low high found
  | .rounds _ _ _ _ current found =>
    Offsets.Between low high current ∧ Offsets.Between low high found

/-- The ends that are remembered of a rule lie between its offset and the end of the text. -/
def Memory.Bounded (size : Nat) (m : Memory) : Prop :=
  ∀ (name : String) offset ends, m.ends[(name, offset)]? = some ends → Offsets.Between offset size ends

theorem Memory.Bounded.remember {size offset : Nat} {name : String} (h : m.Bounded size)
    (hends : Offsets.Between offset size ends) : (m.remember name offset ends).Bounded size := by
  intro other k found hfound
  rw [Memory.remember, Std.HashMap.getElem?_insert] at hfound
  split_ifs at hfound with heq
  · obtain ⟨rfl, rfl⟩ := Prod.mk.inj (beq_iff_eq.1 heq)
    exact Option.some.inj hfound ▸ hends
  · exact h other k found hfound

/-- Every reported node starts in the text, and its ends lie between its start and the end of the
    text. -/
def Report.Bounded (size : Nat) (log : List Report) : Prop :=
  ∀ node offset ends, .ends node offset ends ∈ log →
    offset ≤ size ∧ Offsets.Between offset size ends

theorem Report.Bounded.append {size : Nat} {log' : List Report} (h : Report.Bounded size log)
    (h' : Report.Bounded size log') : Report.Bounded size (log ++ log') :=
  fun node offset ends hmem => (List.mem_append.1 hmem).elim (h node offset ends) (h' node offset ends)

theorem startsAt_length_le {codes : List Nat} {offset : Nat}
    (h : startsAt text offset codes = true) (hoffset : offset ≤ text.size) :
    offset + codes.length ≤ text.size := by
  obtain ⟨part, hpart, rfl⟩ := startsAt_iff.1 h
  have hle := hpart.length_le
  rw [List.length_drop] at hle
  rw [List.length_map]
  simp only [Array.length_toList] at hle
  omega

/-- **Ends lie within the text.** A run that starts between two offsets, the later of them the end of
    the text, stays between them. -/
theorem Runs.bounds (h : Runs order text g task m ends m' log) :
    ∀ low, task.Between low text.size → m.Bounded text.size →
      Offsets.Between low text.size ends ∧ m'.Bounded text.size ∧ Report.Bounded text.size log := by
  have hnil : Report.Bounded text.size [] := by simp [Report.Bounded]
  induction h with
  | remembered h =>
    intro low htask hm
    exact ⟨(hm _ _ _ h).mono htask.1, hm, hnil⟩
  | entry _ _ _ ih =>
    intro low htask hm
    obtain ⟨hends, hm', hlog⟩ := ih _ ⟨le_rfl, htask.2⟩ (hm.remember .nil)
    refine ⟨hends.mono htask.1, hm'.remember hends, fun node offset ends hmem => ?_⟩
    exact hlog node offset ends (by simpa using hmem)
  | visit _ ih =>
    intro low htask hm
    obtain ⟨hends, hm', hlog⟩ := ih _ ⟨le_rfl, htask.2⟩ hm
    refine ⟨hends.mono htask.1, hm', hlog.append fun node offset ends hmem => ?_⟩
    obtain ⟨rfl, rfl, rfl⟩ : node = _ ∧ offset = _ ∧ ends = _ := by simpa using hmem
    exact ⟨htask.2, hends⟩
  | literal h =>
    intro low htask hm
    have hstop := startsAt_length_le h htask.2
    exact ⟨Offsets.Between.singleton_iff.2 ⟨htask.1.trans (Nat.le_add_right _ _), hstop⟩, hm, hnil⟩
  | charClass hc _ =>
    intro low htask hm
    obtain ⟨hlt, -⟩ := Array.getElem?_eq_some_iff.1 hc
    exact ⟨Offsets.Between.singleton_iff.2 ⟨htask.1.trans (Nat.le_succ _), hlt⟩, hm, hnil⟩
  | otherLiteral _ | otherClass _ =>
    intro low _ hm
    exact ⟨Offsets.Between.nil, hm, hnil⟩
  | rule _ ih => exact ih
  | seq _ ih =>
    intro low htask hm
    exact ih low (Offsets.Between.singleton_iff.2 htask) hm
  | alt _ ih =>
    intro low htask hm
    exact ih low ⟨htask, Offsets.Between.nil⟩ hm
  | rep _ ih =>
    intro low htask hm
    have hstart := Offsets.Between.singleton_iff.2 htask
    refine ih low ⟨hstart, ?_⟩ hm
    split_ifs
    · exact hstart
    · exact Offsets.Between.nil
  | starts _ ih =>
    intro low htask hm
    exact ih low ⟨Offsets.Between.arrange htask _, Offsets.Between.nil⟩ hm
  | noStart =>
    intro low htask hm
    exact ⟨htask.2, hm, hnil⟩
  | eachStart _ _ ih ihrest =>
    intro low ⟨hstarts, hfound⟩ hm
    obtain ⟨hstart, hstarts⟩ := Offsets.Between.cons_iff.1 hstarts
    obtain ⟨hends, hm₁, hlog₁⟩ := ih low hstart hm
    obtain ⟨hall, hm', hlog₂⟩ := ihrest low ⟨hstarts, hfound.union hends⟩ hm₁
    exact ⟨hall, hm', hlog₁.append hlog₂⟩
  | noItem =>
    intro low htask hm
    exact ⟨htask, hm, hnil⟩
  | lastItem _ ih => exact ih
  | item _ _ _ ih ihrest =>
    intro low htask hm
    obtain ⟨hends, hm₁, hlog₁⟩ := ih low htask hm
    obtain ⟨hall, hm', hlog₂⟩ := ihrest low hends hm₁
    exact ⟨hall, hm', hlog₁.append hlog₂⟩
  | noBranch =>
    intro low htask hm
    exact ⟨htask.2, hm, hnil⟩
  | branch _ _ ih ihrest =>
    intro low ⟨hoffset, hfound⟩ hm
    obtain ⟨hends, hm₁, hlog₁⟩ := ih low hoffset hm
    obtain ⟨hall, hm', hlog₂⟩ := ihrest low ⟨hoffset, hfound.union hends⟩ hm₁
    exact ⟨hall, hm', hlog₁.append hlog₂⟩
  | noRound _ =>
    intro low htask hm
    exact ⟨htask.2, hm, hnil⟩
  | round _ _ _ _ ih ihrest =>
    intro low ⟨hcurrent, hfound⟩ hm
    obtain ⟨hends, hm₁, hlog₁⟩ := ih low hcurrent hm
    obtain ⟨hall, hm', hlog₂⟩ :=
      ihrest low ⟨hends.without, hends.without.union hfound⟩ hm₁
    exact ⟨hall, hm', hlog₁.append hlog₂⟩
  | earlyRound _ _ _ _ ih ihrest =>
    intro low ⟨hcurrent, hfound⟩ hm
    obtain ⟨hends, hm₁, hlog₁⟩ := ih low hcurrent hm
    obtain ⟨hall, hm', hlog₂⟩ := ihrest low ⟨hends, hfound⟩ hm₁
    exact ⟨hall, hm', hlog₁.append hlog₂⟩

/-! ## Bodies are gone into once -/

/-- What is known of the memory and the log of a run: what was remembered still is, and the bodies
    that were gone into are different, were unseen before and are remembered. -/
structure Runs.Entered (m m' : Memory) (log : List Report) : Prop where
  grows : ∀ key : String × Nat, m'.ends[key]? = none → m.ends[key]? = none
  unseen : ∀ key ∈ Report.entries log, m.ends[key]? = none
  remembered : ∀ key ∈ Report.entries log, m'.ends[key]? ≠ none
  nodup : (Report.entries log).Nodup

namespace Runs.Entered

/-- Nothing has been gone into, and no ends have been remembered. -/
theorem of_ends (h : m'.ends = m.ends) (hlog : Report.entries log = []) : Entered m m' log :=
  ⟨fun key hkey => h ▸ hkey, by simp [hlog], by simp [hlog], by simp [hlog]⟩

theorem append {m₁ : Memory} {log' : List Report} (h : Entered m m₁ log)
    (h' : Entered m₁ m' log') : Entered m m' (log ++ log') := by
  refine ⟨fun key hkey => h.grows key (h'.grows key hkey), fun key hkey => ?_, fun key hkey => ?_, ?_⟩
  · rw [Report.entries_append, List.mem_append] at hkey
    exact hkey.elim (h.unseen key) fun hkey => h.grows key (h'.unseen key hkey)
  · rw [Report.entries_append, List.mem_append] at hkey
    exact hkey.elim (fun hkey hnone => h.remembered key hkey (h'.grows key hnone)) (h'.remembered key)
  · rw [Report.entries_append]
    refine h.nodup.append h'.nodup fun key hkey hkey' => ?_
    exact h.remembered key hkey (h'.unseen key hkey')

/-- The rule that is gone into was unseen, so nothing that its body leads to goes into it again. -/
theorem entry {name : String} {offset : Nat} (hnone : m.ends[(name, offset)]? = none)
    (h : Entered (m.remember name offset []) m' log) :
    Entered m (m'.remember name offset ends) (.entry name offset :: log) := by
  have hunseen : ∀ key, (m.remember name offset []).ends[key]? = none →
      (name, offset) ≠ key ∧ m.ends[key]? = none := by
    intro key hkey
    rw [Memory.remember, Std.HashMap.getElem?_insert] at hkey
    split_ifs at hkey with heq
    exact ⟨fun h => heq (beq_iff_eq.2 h), hkey⟩
  have hremembered : ∀ key, (m'.remember name offset ends).ends[key]? = none →
      (name, offset) ≠ key ∧ m'.ends[key]? = none := by
    intro key hkey
    rw [Memory.remember, Std.HashMap.getElem?_insert] at hkey
    split_ifs at hkey with heq
    exact ⟨fun h => heq (beq_iff_eq.2 h), hkey⟩
  refine ⟨fun key hkey => ?_, fun key hkey => ?_, fun key hkey hnone => ?_, ?_⟩
  · exact (hunseen key (h.grows key (hremembered key hkey).2)).2
  · rw [Report.entries_entry, List.mem_cons] at hkey
    obtain rfl | hkey := hkey
    · exact hnone
    · exact (hunseen key (h.unseen key hkey)).2
  · rw [Report.entries_entry, List.mem_cons] at hkey
    obtain ⟨hne, hnone⟩ := hremembered key hnone
    exact hkey.elim (fun heq => hne heq.symm) fun hkey => h.remembered key hkey hnone
  · rw [Report.entries_entry, List.nodup_cons]
    exact ⟨fun hmem => (hunseen _ (h.unseen _ hmem)).1 rfl, h.nodup⟩

end Runs.Entered

/-- **Bodies are gone into once.** A run goes into the body of a rule at an offset only if that is
    unseen, and remembers it at once. -/
theorem Runs.entries (h : Runs order text g task m ends m' log) : Runs.Entered m m' log := by
  induction h with
  | remembered _ | literal _ | otherLiteral _ | charClass _ _ | otherClass _ | noStart | noItem
  | noBranch | noRound _ => exact .of_ends rfl rfl
  | entry hnone _ _ ih => exact ih.entry hnone
  | visit _ ih => exact ih.append (.of_ends rfl rfl)
  | rule _ ih | seq _ ih | alt _ ih | rep _ ih | lastItem _ ih => exact ih
  | @starts _ _ m _ _ _ _ ih =>
    have hturned : Runs.Entered m m.turned [] := .of_ends rfl rfl
    exact hturned.append ih
  | eachStart _ _ ih ihrest | item _ _ _ ih ihrest | branch _ _ ih ihrest
  | round _ _ _ _ ih ihrest | earlyRound _ _ _ _ ih ihrest => exact ih.append ihrest

end Runs

/-! ## The matcher comes to its end -/

section Follows

variable {order : Order} {text : Array Char} {g : Grammar} {depth : Nat} {node : Node} {i : Nat}

/-- All rules that a node refers to are defined. -/
def Knows (g : Grammar) (node : Node) : Prop :=
  ∀ name ∈ node.ruleNames, g.has name = true

theorem IsClosed.knows {name : String} {body : Node} (h : IsClosed g)
    (hbody : g.find? name = some body) : Knows g body := by
  obtain ⟨before, behind, hg, -⟩ := List.lookup_eq_some_iff.1 hbody
  exact h (name, body) (by simp [hg])

/-- The memory is bounded, and there is room for calls that nest deeper: fewer bodies are unseen than
    calls may nest. -/
structure Ready (g : Grammar) (text : Array Char) (depth : Nat) (m : Memory) : Prop where
  bounded : m.Bounded text.size
  room : (unseen g text m).card < depth

theorem Ready.after {task : Task} {m m' : Memory} {ends : Offsets} {log : List Report}
    (h : Ready g text depth m) (hrun : Runs order text g task m ends m' log)
    (htask : task.Between 0 text.size) : Ready g text depth m' := by
  refine ⟨(hrun.bounds 0 htask h.bounded).2.1, (Finset.card_le_card fun key hkey => ?_).trans_lt h.room⟩
  rw [unseen, Finset.mem_filter] at hkey ⊢
  exact hkey.imp_right (hrun.entries.grows key)

/-- The work is a run of the task, from every memory with room. -/
def Follows (order : Order) (text : Array Char) (g : Grammar) (depth : Nat) (task : Task)
    (x : MatchM Offsets) : Prop :=
  ∀ m, Ready g text depth m → ∃ log, Runs order text g task m (x m).1 (x m).2 log

theorem Follows.visit {x : MatchM Offsets} (h : Follows order text g depth (.node node i) x) :
    Follows order text g depth (.visit node i) x := by
  intro m hm
  obtain ⟨log, hrun⟩ := h m hm
  exact ⟨_, hrun.visit⟩

section Starts

variable {visit : Nat → MatchM Offsets}
  (hvisit : ∀ k ≤ text.size, Follows order text g depth (.visit node k) (visit k))

include hvisit

theorem Follows.each {starts : Offsets} (hstarts : Offsets.Between 0 text.size starts)
    (found : Offsets) :
    Follows order text g depth (.each node starts found)
      (starts.foldlM (fun acc start => return acc.union (← visit start)) found) := by
  induction starts generalizing found with
  | nil => exact fun m _ => ⟨[], .noStart⟩
  | cons k rest ih =>
    intro m hm
    obtain ⟨hk, hrest⟩ := Offsets.Between.cons_iff.1 hstarts
    obtain ⟨log, hrun⟩ := hvisit k hk.2 m hm
    obtain ⟨log', hrun'⟩ := ih hrest (found.union (visit k m).1) (visit k m).2 (hm.after hrun hk)
    exact ⟨log ++ log', hrun.eachStart hrun'⟩

theorem Follows.starts {starts : Offsets} (hstarts : Offsets.Between 0 text.size starts) :
    Follows order text g depth (.starts node starts) (fromEach order visit starts) := by
  intro m hm
  obtain ⟨log, hrun⟩ :=
    Follows.each hvisit (hstarts.arrange m.turn) [] m.turned ⟨hm.bounded, hm.room⟩
  exact ⟨log, hrun.starts⟩

/-! ### Repetition -/

/-- The rounds that are left are enough: before the least count is reached it takes one for each
    count, and from then on each round but the last finds a new offset, of which there are only so
    many. -/
def Enough (size : Nat) (min : Int) (rounds count : Nat) (current found : Offsets) : Prop :=
  current = [] ∨ size + 2 + (min - count).toNat ≤ rounds + found.toFinset.card

omit hvisit in
/-- Without rounds left there is nothing to go on from. -/
theorem Enough.eq_nil {size count : Nat} {min : Int} {current found : Offsets}
    (h : Enough size min 0 count current found) (hfound : Offsets.Between 0 size found) :
    current = [] := by
  refine h.resolve_right fun hcard => ?_
  have hle := Offsets.card_le_of_forall_le fun x hx => (hfound x hx).2
  omega

omit hvisit in
theorem Enough.early {size rounds count : Nat} {min : Int} {current found ends : Offsets}
    (h : Enough size min (rounds + 1) count current found) (hne : current ≠ [])
    (hmin : ¬ min ≤ count + 1) : Enough size min rounds (count + 1) ends found := by
  have hcard := h.resolve_left hne
  exact .inr (by omega)

omit hvisit in
theorem Enough.next {size rounds count : Nat} {min : Int} {current found ends : Offsets}
    (h : Enough size min (rounds + 1) count current found) (hne : current ≠ [])
    (hmin : min ≤ count + 1) :
    Enough size min rounds (count + 1) (ends.without found) ((ends.without found).union found) := by
  have hcard := h.resolve_left hne
  by_cases hnew : ends.without found = []
  · exact .inl hnew
  · have hgrow := Offsets.card_lt_card_union_without hnew
    exact .inr (by omega)

omit hvisit in
/-- One round, with the memory spelled out. -/
theorem repeatFrom_succ {min : Int} {max : Option Int} (rounds count : Nat)
    (current found : Offsets) (m : Memory) :
    repeatFrom order visit min max (rounds + 1) count current found m =
      if (current.isEmpty || !mayGoOn max count) = true then (found, m)
      else
        let r := fromEach order visit current m
        if min ≤ count + 1 then
          repeatFrom order visit min max rounds (count + 1) (r.1.without found)
            ((r.1.without found).union found) r.2
        else repeatFrom order visit min max rounds (count + 1) r.1 found r.2 := by
  rw [repeatFrom]
  by_cases hstop : (current.isEmpty || !mayGoOn max count) = true
  · rw [if_pos hstop, if_pos hstop]
    rfl
  · rw [if_neg hstop, if_neg hstop]
    by_cases hmin : min ≤ count + 1
    · simp only [if_pos hmin]
      rfl
    · simp only [if_neg hmin]
      rfl

theorem Follows.rounds {min : Int} {max : Option Int} (rounds : Nat) :
    ∀ (count : Nat) (current found : Offsets), Offsets.Between 0 text.size current →
      Offsets.Between 0 text.size found → Enough text.size min rounds count current found →
      Follows order text g depth (.rounds node min max count current found)
        (repeatFrom order visit min max rounds count current found) := by
  induction rounds with
  | zero =>
    intro count current found _ hfound henough m _
    obtain rfl := henough.eq_nil hfound
    exact ⟨[], .noRound rfl⟩
  | succ rounds ih =>
    intro count current found hcurrent hfound henough m hm
    rw [repeatFrom_succ]
    by_cases hstop : (current.isEmpty || !mayGoOn max count) = true
    · rw [if_pos hstop]
      exact ⟨[], .noRound hstop⟩
    · rw [if_neg hstop]
      have hmore := Bool.eq_false_iff.2 hstop
      have hne : current ≠ [] := by
        rintro rfl
        exact hstop rfl
      obtain ⟨log, hrun⟩ := Follows.starts hvisit hcurrent m hm
      obtain ⟨hends, -⟩ := hrun.bounds 0 hcurrent hm.bounded
      have hm' := hm.after hrun hcurrent
      by_cases hmin : min ≤ count + 1
      · simp only [if_pos hmin]
        obtain ⟨log', hrun'⟩ := ih (count + 1) _ _ hends.without (hends.without.union hfound)
          (henough.next hne hmin) _ hm'
        exact ⟨_, hrun.round hmore hmin hrun'⟩
      · simp only [if_neg hmin]
        obtain ⟨log', hrun'⟩ := ih (count + 1) _ _ hends hfound (henough.early hne hmin) _ hm'
        exact ⟨_, hrun.earlyRound hmore hmin hrun'⟩

end Starts

/-! ### Nodes -/

section Nodes

variable {call : String → Nat → MatchM Offsets}

/-- Items in a row, with the memory spelled out. -/
theorem matchSeq_cons (node : Node) (rest : List Node) (starts : Offsets) (m : Memory) :
    matchSeq order text call (node :: rest) starts m =
      let r := fromEach order (matchNode order text call node) starts m
      if r.1.isEmpty = true then ([], r.2) else matchSeq order text call rest r.1 r.2 := by
  rw [matchSeq]
  change (if (fromEach order (matchNode order text call node) starts m).1.isEmpty = true then
      (pure [] : MatchM Offsets)
    else matchSeq order text call rest (fromEach order (matchNode order text call node) starts m).1)
      (fromEach order (matchNode order text call node) starts m).2 = _
  dsimp only
  split_ifs
  · rfl
  · rfl

mutual

theorem matchNode_follows
    (hcall : ∀ name i, g.has name = true → i ≤ text.size →
      Follows order text g depth (.call name i) (call name i)) :
    ∀ (node : Node) (i : Nat), Knows g node → i ≤ text.size →
      Follows order text g depth (.node node i) (matchNode order text call node i)
  | .literal codes, i, _, _ => by
    intro m _
    rw [matchNode]
    cases h : startsAt text i codes with
    | true => exact ⟨[], .literal h⟩
    | false => exact ⟨[], .otherLiteral h⟩
  | .charClass negated ranges, i, _, _ => by
    intro m _
    rw [matchNode]
    cases hc : text[i]? with
    | none => exact ⟨[], .otherClass (by simp [hc])⟩
    | some c =>
      dsimp only
      split_ifs with h
      · exact ⟨[], .charClass hc h⟩
      · exact ⟨[], .otherClass (by simpa [hc] using h)⟩
  | .rule name, i, hknows, hi => by
    intro m hm
    rw [matchNode]
    obtain ⟨log, hrun⟩ := hcall name i (hknows name (by simp [Node.ruleNames])) hi m hm
    exact ⟨log, hrun.rule⟩
  | .seq items, i, hknows, hi => by
    intro m hm
    rw [matchNode]
    obtain ⟨log, hrun⟩ := matchSeq_follows hcall items [i] hknows
      (Offsets.Between.singleton_iff.2 ⟨Nat.zero_le i, hi⟩) m hm
    exact ⟨log, hrun.seq⟩
  | .alt branches, i, hknows, hi => by
    intro m hm
    rw [matchNode]
    obtain ⟨log, hrun⟩ := matchAlt_follows hcall branches i [] hknows hi .nil m hm
    exact ⟨log, hrun.alt⟩
  | .rep node min max, i, hknows, hi => by
    intro m hm
    rw [matchNode]
    have hstart : Offsets.Between 0 text.size [i] :=
      Offsets.Between.singleton_iff.2 ⟨Nat.zero_le i, hi⟩
    have hfound : Offsets.Between 0 text.size (if min = 0 then [i] else []) := by
      split_ifs
      · exact hstart
      · exact .nil
    have henough : Enough text.size min (min.toNat + text.size + 2) 0 [i]
        (if min = 0 then [i] else []) := .inr (by omega)
    obtain ⟨log, hrun⟩ := Follows.rounds
      (fun k hk => (matchNode_follows hcall node k hknows hk).visit) _ 0 [i] _ hstart hfound henough
      m hm
    exact ⟨log, hrun.rep⟩

theorem matchSeq_follows
    (hcall : ∀ name i, g.has name = true → i ≤ text.size →
      Follows order text g depth (.call name i) (call name i)) :
    ∀ (items : List Node) (starts : Offsets), (∀ name ∈ Node.ruleNamesOf items, g.has name = true) →
      Offsets.Between 0 text.size starts →
      Follows order text g depth (.items items starts) (matchSeq order text call items starts)
  | [], starts, _, _ => by
    intro m _
    rw [matchSeq]
    exact ⟨[], .noItem⟩
  | node :: rest, starts, hknows, hstarts => by
    intro m hm
    simp only [Node.ruleNamesOf, List.mem_append, or_imp, forall_and] at hknows
    obtain ⟨log, hrun⟩ := Follows.starts
      (fun k hk => (matchNode_follows hcall node k hknows.1 hk).visit) hstarts m hm
    rw [matchSeq_cons]
    dsimp only
    split_ifs with hempty
    · rw [List.isEmpty_iff] at hempty
      rw [hempty] at hrun
      exact ⟨log, hrun.lastItem⟩
    · rw [List.isEmpty_iff] at hempty
      obtain ⟨hends, -⟩ := hrun.bounds 0 hstarts hm.bounded
      obtain ⟨log', hrun'⟩ :=
        matchSeq_follows hcall rest _ hknows.2 hends _ (hm.after hrun hstarts)
      exact ⟨_, hrun.item hempty hrun'⟩

theorem matchAlt_follows
    (hcall : ∀ name i, g.has name = true → i ≤ text.size →
      Follows order text g depth (.call name i) (call name i)) :
    ∀ (branches : List Node) (i : Nat) (found : Offsets),
      (∀ name ∈ Node.ruleNamesOf branches, g.has name = true) → i ≤ text.size →
      Offsets.Between 0 text.size found →
      Follows order text g depth (.branches branches i found)
        (matchAlt order text call branches i found)
  | [], i, found, _, _, _ => by
    intro m _
    rw [matchAlt]
    exact ⟨[], .noBranch⟩
  | node :: rest, i, found, hknows, hi, hfound => by
    intro m hm
    simp only [Node.ruleNamesOf, List.mem_append, or_imp, forall_and] at hknows
    rw [matchAlt]
    obtain ⟨log, hrun⟩ := (matchNode_follows hcall node i hknows.1 hi).visit m hm
    have htask : Task.Between 0 text.size (.visit node i) := ⟨Nat.zero_le i, hi⟩
    obtain ⟨hends, -⟩ := hrun.bounds 0 htask hm.bounded
    obtain ⟨log', hrun'⟩ := matchAlt_follows hcall rest i _ hknows.2 hi (hfound.union hends) _
      (hm.after hrun htask)
    exact ⟨_, hrun.branch hrun'⟩

end

end Nodes

/-! ### Rules -/

/-- A placeholder for a rule that was unseen leaves room for the calls of its body. -/
theorem Ready.open {m : Memory} {name : String} {body : Node} (hi : i ≤ text.size)
    (hbody : g.find? name = some body) (hnone : m.ends[(name, i)]? = none)
    (h : Ready g text (depth + 1) m) : Ready g text depth (m.remember name i []) := by
  have hlt := card_unseen_insert_lt hi hbody hnone []
  exact ⟨h.bounded.remember .nil, hlt.trans_le (Nat.le_of_lt_succ h.room)⟩

/-- **Calls end.** In a closed grammar a call of a defined rule is a run. -/
theorem matchRule_follows (hclosed : IsClosed g) (depth : Nat) :
    ∀ (name : String) (i : Nat), g.has name = true → i ≤ text.size →
      Follows order text g depth (.call name i) (matchRule order text g depth name i) := by
  induction depth with
  | zero => exact fun name i _ _ m hm => absurd hm.room (Nat.not_lt_zero _)
  | succ depth ih =>
    intro name i hname hi m hm
    rw [matchRule_succ]
    cases hends : m.ends[(name, i)]? with
    | some ends => exact ⟨[], .remembered hends⟩
    | none =>
      obtain ⟨body, hbody⟩ := Option.isSome_iff_exists.1 hname
      obtain ⟨log, hrun⟩ := (matchNode_follows ih body i (hclosed.knows hbody) hi).visit _
        (hm.open hi hbody hends)
      rw [hbody]
      exact ⟨_, .entry hends hbody hrun⟩

end Follows

/-! ## Checks -/

section Check

variable {g : Grammar}

/-- A check of a defined rule in a closed grammar is a run, and its verdict is what the run has found
    and how far it has reached. -/
theorem exists_runs_checkIn (order : Order) (hclosed : IsClosed g) (text : String) {rule : String}
    (hrule : g.has rule = true) :
    ∃ ends m log, Runs order text.toList.toArray g (.call rule 0) .empty ends m log ∧
      checkIn order g text rule = .ok ⟨ends.contains text.length, text,
        if ends.contains text.length = true then text.length else m.furthest⟩ := by
  have hsize : text.toList.toArray.size = text.length := String.length_toList
  have hready : Ready g text.toList.toArray
      (g.length * (text.toList.toArray.size + 1) + 1) Memory.empty := by
    refine ⟨fun name offset ends h => ?_, Nat.lt_succ_of_le (card_unseen_le _)⟩
    simp [Memory.empty] at h
  obtain ⟨log, hrun⟩ := @matchRule_follows order _ _ hclosed _ rule 0 hrule
    (Nat.zero_le _) Memory.empty hready
  refine ⟨_, _, log, hrun, ?_⟩
  rw [checkIn, if_pos hrule, ← hsize]
  rfl

/-- **Checks end.** For every grammar that has been read, in whatever order sets of offsets are gone
    through, a check of a defined rule is a run that comes to its end: each node that starts at an
    offset has its ends between that offset and the end of the text, and no body is gone into twice at
    the same offset. A check of another rule fails at once. -/
theorem checkIn_ends {source : String} (hread : ofText source = .ok g) (order : Order)
    (text rule : String) :
    (g.has rule = false ∧ checkIn order g text rule = .error (.grammar (.undefinedRule rule) none)) ∨
      ∃ ends m log, Runs order text.toList.toArray g (.call rule 0) .empty ends m log ∧
        checkIn order g text rule = .ok ⟨ends.contains text.length, text,
          if ends.contains text.length = true then text.length else m.furthest⟩ ∧
        (∀ node offset found, .ends node offset found ∈ log →
          ∀ stop ∈ found, offset ≤ stop ∧ stop ≤ text.length) ∧
        (Report.entries log).Nodup := by
  cases hrule : g.has rule with
  | false =>
    refine .inl ⟨rfl, ?_⟩
    rw [checkIn, if_neg (by simp [hrule])]
  | true =>
    obtain ⟨ends, m, log, hrun, hcheck⟩ :=
      exists_runs_checkIn order (ofText_eq_ok_iff.1 hread).2.closed text hrule
    obtain ⟨-, -, hlog⟩ := hrun.bounds 0 ⟨le_rfl, Nat.zero_le _⟩ fun name offset ends h => by
      simp [Memory.empty] at h
    refine .inr ⟨ends, m, log, hrun, hcheck, fun node offset found hmem stop hstop => ?_,
      hrun.entries.nodup⟩
    have hsize : text.toList.toArray.size = text.length := String.length_toList
    exact hsize ▸ (hlog node offset found hmem).2 stop hstop

/-- A rule that starts with itself, and a repetition of something that may be empty. -/
def circling : String :=
  "root ::= root \"a\" | (\"b\"?)*\n"

theorem checkIn_ends_circling : ∃ g ends m log, ofText circling = .ok g ∧
    Runs .ascending "bba".toList.toArray g (.call "root" 0) .empty ends m log ∧
    (Report.entries log).Nodup := by
  have hread : ofText circling = .ok
      [("root", .alt [.seq [.rule "root", .literal [97]],
        .rep (.rep (.literal [98]) 0 (some 1)) 0 none])] := rfl
  obtain ⟨hnone, -⟩ | ⟨ends, m, log, hrun, -, -, hnodup⟩ :=
    checkIn_ends hread .ascending "bba" "root"
  · exact absurd hnone (by decide)
  · exact ⟨_, ends, m, log, hread, hrun, hnodup⟩

end Check

end Grammar

end SchemaGrammar
