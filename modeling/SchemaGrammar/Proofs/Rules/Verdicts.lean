import SchemaGrammar.Proofs.Grammar.Recognition
import SchemaGrammar.Proofs.Rules.Finished
import SchemaGrammar.Proofs.Rules.Request

set_option autoImplicit false

/-! # Verdicts on texts

A grammar that is fit for recognition accepts the texts of its root. Two ways to come by such a
grammar: an expression that refers to no rule, as the only body (`Writes.accepts_alone`), and a
complete table that has a root (`Complete.accepts`) or is given one (`Sound.accepts_root`). -/

namespace SchemaGrammar

namespace Grammar

/-- A check against the root of a grammar accepts a language, in whatever order sets of offsets are
    gone through. -/
def Accepts (g : Grammar) (L : Language Char) : Prop :=
  ∀ (order : Order) (text : String), ∃ v, checkIn order g text startRule = .ok v ∧
    (v.accepted = true ↔ text.toList ∈ L)

theorem accepts_language {g : Grammar} (hnat : g.hasNaturalCounts = true)
    (hleft : ¬ LeftRecursive g) (hroot : g.has startRule = true) :
    g.Accepts (g.language (.rule startRule)) := by
  intro order text
  obtain ⟨v, hv, -⟩ := checkIn_eq_ok order text hroot
  refine ⟨v, hv, fun haccepted => ?_, fun hmem => ?_⟩
  · exact derives_of_accepted hnat hroot hv haccepted
  · exact accepted_of_derives hnat hroot hleft hv hmem

/-! ## One expression -/

section Alone

variable {rows : List (List Node)} {e : String}
  (h : Written (fun _ => False) (.rows rows) e.toList)

include h

theorem passes_root : ∃ flag, Passes ("root ::= " ++ e).toList ⟨[], .between⟩
    ⟨[], .inside ⟨"root", Draft.empty.take rows, [], flag⟩⟩ := by
  have htext : ("root ::= " ++ e).toList = "root".toList ++ (" ::= ".toList ++ e.toList) := by
    rw [String.toList_append]
    rfl
  rw [htext]
  exact passes_beginning (by decide) rfl h fun _ => False.elim

/-- An expression that refers to no rule is read as the root of a grammar, with no line break behind
    it. -/
theorem ofText_alone : ofText ("root ::= " ++ e) = .ok [("root", ofRows rows)] := by
  obtain ⟨flag, hpasses⟩ := passes_root h
  obtain ⟨left, -, hread⟩ := hpasses 0 _ [] (apart_of_head (by simp)) (Nat.le_refl _)
  have hlexemes : (lexemes ("root ::= " ++ e)).foldlM step ⟨[], .between⟩ =
      .ok ⟨[], .inside ⟨"root", Draft.empty.take rows, [], flag⟩⟩ := by
    rw [lexemes]
    simpa [lexemesFrom_nil, pure, Except.pure, Text.Cursor.start] using hread
  have hclosed : (Draft.empty.take rows).node.ruleNames = [] :=
    List.eq_nil_iff_forall_not_mem.2 (fits_ofRows h.fits.1 h.fits.2).names
  rw [ofText, hlexemes]
  simp [finish, checkReferences, hclosed, ofRows, bind, Except.bind, pure, Except.pure]

end Alone

end Grammar

namespace RuleTable

open Grammar (IsReadable ofRows)

variable {t : RuleTable} {L : Language Char}

/-- An expression that refers to no rule, as the only body of a grammar. -/
theorem Writes.accepts_alone {e : String} (h : blank.Writes e L) :
    ∃ g, Grammar.ofText ("root ::= " ++ e) = .ok g ∧ g.Accepts L := by
  obtain ⟨rows, hw, hL⟩ := h
  have hclosed := hw.mono fun name hname => not_knows_blank name hname
  have hfits := Grammar.fits_ofRows hclosed.fits.1 hclosed.fits.2
  refine ⟨_, Grammar.ofText_alone hclosed, ?_⟩
  obtain ⟨g, hg⟩ : ∃ g : Grammar, [("root", ofRows rows)] = g := ⟨_, rfl⟩
  rw [hg]
  have hfind : g.find? Grammar.startRule = some (ofRows rows) := by
    rw [← hg]
    rfl
  have hnames {name : String} {body : Node} (hbody : g.find? name = some body) :
      body.ruleNames = [] := by
    rw [← hg, Grammar.find?, Assoc.lookup_cons] at hbody
    split_ifs at hbody
    · obtain rfl := Option.some.inj hbody
      exact List.eq_nil_iff_forall_not_mem.2 hfits.names
    · cases hbody
  have hlanguage : g.language (.rule Grammar.startRule) = L := by
    rw [Grammar.language_rule g hfind, Grammar.language_ofRows g hw.fits.1, hL g (holds_blank g)]
  rw [← hlanguage]
  refine Grammar.accepts_language ?_ (Grammar.not_leftRecursive_of_rank (fun _ => 0) ?_) ?_
  · rw [← hg]
    simpa [Grammar.hasNaturalCounts] using hfits.counts
  · -- no rule starts with a rule
    rintro name other ⟨body, hbody, hleads⟩
    have hmem := Grammar.mem_ruleNames_of_leads hleads
    rw [hnames hbody] at hmem
    cases hmem
  · rw [Grammar.has, hfind]
    rfl

/-! ## Tables -/

/-- A complete table with a root is read as a grammar that accepts what the root stands for. -/
theorem Complete.accepts (h : t.Complete) (hread : ∀ name, t.has name = true → IsReadable name)
    (hroot : t.Denotes "root" L) : ∃ g, Grammar.ofText t.text = .ok g ∧ g.Accepts L := by
  obtain ⟨g, htext, hholds, hhas, hnat, hleft⟩ := h.exists_grammar hread
  refine ⟨g, htext, ?_⟩
  rw [← hroot.language g hholds]
  exact Grammar.accepts_language hnat hleft ((hhas "root").trans hroot.known)

/-- With a body as its root, a table that has none is read as a grammar that accepts what the body
    stands for. -/
theorem Sound.accepts_root {body : String} (h : t.Sound True) (hfree : t.find? "root" = none)
    (hw : t.Writes body L) : ∃ t' g,
      t.add "root" body = ("root", t') ∧ Grammar.ofText t'.text = .ok g ∧ g.Accepts L := by
  have hname : Requestable True "root" := ⟨by decide, by decide, fun _ => by decide⟩
  obtain ⟨slot, t', hadd⟩ : ∃ slot t', t.add "root" body = (slot, t') := ⟨_, _, rfl⟩
  obtain ⟨-, hsound, hdenotes⟩ := h.add hname hw hadd
  obtain rfl : slot = "root" := by
    have hslot := add_of_find?_eq_none t "root" body hfree
    rw [hadd] at hslot
    exact hslot
  obtain ⟨g, hread, haccepts⟩ := hsound.complete.accepts (hsound.readable trivial) hdenotes
  exact ⟨t', g, hadd, hread, haccepts⟩

end RuleTable

end SchemaGrammar
