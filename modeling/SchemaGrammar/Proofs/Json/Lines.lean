import SchemaGrammar.Json.Writer
import SchemaGrammar.Proofs.Text.Lines

set_option autoImplicit false

/-! # Values that keep to a line

JSON text escapes the control characters of ASCII, so of the characters that end a line it holds
only those above them. A pattern and a count are copied as they are. A schema without such
characters keeps to a line (`keepsLine`), and so do the JSON text of each constant in it
(`isOneLine_compact`) and each of its counts (`isOneLine_shown`). -/

namespace SchemaGrammar

open Text (IsOneLine isOneLine_ofList isOneLine_intercalate endsLine)

/-! ## Numbers -/

namespace Double

variable {c : Char} {ds : List Char}

theorem endsLine_of_mem_positional (h : ∀ d ∈ ds, endsLine d = false) (point : Int)
    (hc : c ∈ positional ds point) : endsLine c = false := by
  have hmem : c ∈ ds ∨ c ∈ ['0', '.'] := by
    unfold positional at hc
    split_ifs at hc
    · simp only [List.mem_cons, List.mem_append, List.mem_replicate] at hc ⊢
      tauto
    · rcases List.mem_append.1 hc with hc | hc
      · exact .inl (List.mem_of_mem_take hc)
      · rcases List.mem_cons.1 hc with rfl | hc
        · simp
        · exact .inl (List.mem_of_mem_drop hc)
    · simp only [List.mem_cons, List.mem_append, List.mem_replicate] at hc ⊢
      tauto
  have hmarks : ∀ c ∈ ['0', '.'], endsLine c = false := by decide
  exact hmem.elim (h c) (hmarks c)

theorem endsLine_of_mem_scientific (h : ∀ d ∈ ds, endsLine d = false) (point : Int)
    (hc : c ∈ scientific ds point) : endsLine c = false := by
  have hmarks : ∀ c ∈ ['0', '.', 'e', '-', '+'], endsLine c = false := by decide
  have hmem : c ∈ ds ∨ c.isDigit = true ∨ c ∈ ['0', '.', 'e', '-', '+'] := by
    unfold scientific at hc
    dsimp only at hc
    rcases List.mem_append.1 hc with hc | hc
    · rcases ds with _ | ⟨d, _ | ⟨e, rest⟩⟩
      · obtain rfl := List.mem_singleton.1 hc
        simp
      · exact .inl hc
      · simp only [List.mem_cons] at hc ⊢
        tauto
    · rcases List.mem_cons.1 hc with rfl | hc
      · simp
      · rcases List.mem_cons.1 hc with rfl | hc
        · split_ifs <;> simp
        · split_ifs at hc
          · rcases List.mem_cons.1 hc with rfl | hc
            · simp
            · exact .inr (.inl (Text.isDigit_of_mem_toDigits hc))
          · exact .inr (.inl (Text.isDigit_of_mem_toDigits hc))
  exact hmem.elim (h c) fun hc => hc.elim Text.endsLine_of_isDigit (hmarks c)

theorem endsLine_of_mem_magnitudeText {m : Nat} {e : Int} (hc : c ∈ magnitudeText m e) :
    endsLine c = false := by
  unfold magnitudeText at hc
  split_ifs at hc with hm
  · have hzero : ∀ c ∈ ['0', '.', '0'], endsLine c = false := by decide
    exact hzero c hc
  dsimp only at hc
  have hdigits : ∀ d ∈ dropTrailingZeros (Nat.toDigits 10 (shortest m e).digits),
      endsLine d = false := by
    intro d hd
    rw [dropTrailingZeros, List.mem_reverse] at hd
    have hall := List.mem_reverse.1 ((List.dropWhile_sublist _).subset hd)
    exact Text.endsLine_of_isDigit (Text.isDigit_of_mem_toDigits hall)
  split_ifs at hc
  · exact endsLine_of_mem_positional hdigits _ hc
  · exact endsLine_of_mem_scientific hdigits _ hc

theorem isOneLine_text {names : Names} (hinfinity : IsOneLine names.infinity)
    (hnan : IsOneLine names.nan) (x : Double) : IsOneLine (x.text names) := by
  have hsigned {negative : Bool} {s : String} (h : IsOneLine s) : IsOneLine (signed negative s) := by
    unfold signed
    split_ifs
    · exact (by decide : IsOneLine "-").append h
    · exact h
  cases x with
  | nan => exact hnan
  | infinite negative => exact hsigned hinfinity
  | finite negative m e =>
    exact hsigned (isOneLine_ofList.2 fun _ hc => endsLine_of_mem_magnitudeText hc)

end Double

theorem Number.isOneLine_text (x : Number) : IsOneLine x.text := by
  cases x with
  | whole n => exact Text.isOneLine_intText n
  | double x => exact Double.isOneLine_text (by decide) (by decide) x

namespace Json

theorem isOneLine_numberText (x : Number) : IsOneLine (numberText x) := by
  cases x with
  | whole n => exact Text.isOneLine_intText n
  | double x => exact Double.isOneLine_text (by decide) (by decide) x

/-! ## Texts that are copied -/

/-- Does a text hold no line end that its JSON text would hold, too? -/
def escapesLineEnds (s : String) : Bool :=
  s.toList.all fun c => !endsLine c || c.toNat < 0x20

/-- The keywords whose texts stand in rules as they are. -/
def copiedKeywords : List String :=
  ["pattern", "minLength", "maxLength", "minItems", "maxItems"]

/-- Is what is copied from a field on one line? Only texts are copied. -/
def copiesOneLine (key : String) : Json → Bool
  | .str s => !copiedKeywords.contains key || decide (IsOneLine s)
  | _ => true

mutual

/-- Does a schema hold no line end that may get into a rule? -/
def keepsLine : Json → Bool
  | .str s => escapesLineEnds s
  | .arr items => itemsKeepLine items
  | .obj fields => fieldsKeepLine fields
  | _ => true

def itemsKeepLine : List Json → Bool
  | [] => true
  | v :: rest => keepsLine v && itemsKeepLine rest

def fieldsKeepLine : List (String × Json) → Bool
  | [] => true
  | (key, v) :: rest =>
    escapesLineEnds key && copiesOneLine key v && keepsLine v && fieldsKeepLine rest

end

theorem itemsKeepLine_iff {items : List Json} :
    itemsKeepLine items = true ↔ ∀ v ∈ items, keepsLine v = true := by
  induction items with
  | nil => simp [itemsKeepLine]
  | cons v rest ih => simp [itemsKeepLine, ih]

theorem fieldsKeepLine_iff {fields : Fields} :
    fieldsKeepLine fields = true ↔ ∀ x ∈ fields,
      escapesLineEnds x.1 = true ∧ copiesOneLine x.1 x.2 = true ∧ keepsLine x.2 = true := by
  induction fields with
  | nil => simp [fieldsKeepLine]
  | cons x rest ih => simp [fieldsKeepLine, ih, and_assoc]

/-! ## JSON text -/

theorem endsLine_of_mem_escapeChar {c d : Char} (hc : endsLine c = false ∨ c.toNat < 0x20)
    (hd : d ∈ escapeChar c) : endsLine d = false := by
  unfold escapeChar at hd
  split_ifs at hd with _ _ _ _ _ _ _ hcontrol
  iterate 7 exact Text.endsLine_of_mem_escape (by decide) (by simp) hd
  · exact Text.endsLine_of_mem_escape (by decide) (fun _ => Text.endsLine_of_mem_hexDigits) hd
  · rw [List.mem_singleton.1 hd]
    exact hc.resolve_right hcontrol

theorem isOneLine_stringText {s : String} (h : escapesLineEnds s = true) :
    IsOneLine (stringText s) := by
  refine Text.isOneLine_enclosed (by decide) fun d hd => ?_
  obtain ⟨c, hc, hd⟩ := List.mem_flatMap.1 hd
  exact endsLine_of_mem_escapeChar (by simpa using List.all_eq_true.1 h c hc) hd

mutual

/-- The JSON text of a value that keeps to a line is on one line. -/
theorem isOneLine_compact : ∀ v : Json, keepsLine v = true → IsOneLine v.compact
  | .null, _ => (by decide : IsOneLine "null")
  | .bool true, _ => (by decide : IsOneLine "true")
  | .bool false, _ => (by decide : IsOneLine "false")
  | .num x, _ => isOneLine_numberText x
  | .str _, h => isOneLine_stringText h
  | .arr items, h =>
    .between (by decide) (isOneLine_intercalate (by decide) (isOneLine_compactItems items h)) (by decide)
  | .obj fields, h =>
    .between (by decide) (isOneLine_intercalate (by decide) (isOneLine_compactFields fields h)) (by decide)

theorem isOneLine_compactItems : ∀ items : List Json, itemsKeepLine items = true →
    ∀ text ∈ compactItems items, IsOneLine text
  | [], _ => by simp [compactItems]
  | v :: rest, h => by
    obtain ⟨hv, hrest⟩ := Bool.and_eq_true_iff.1 h
    simp only [compactItems, List.forall_mem_cons]
    exact ⟨isOneLine_compact v hv, isOneLine_compactItems rest hrest⟩

theorem isOneLine_compactFields : ∀ fields : List (String × Json), fieldsKeepLine fields = true →
    ∀ text ∈ compactFields fields, IsOneLine text
  | [], _ => by simp [compactFields]
  | (key, v) :: rest, h => by
    obtain ⟨hfirst, hrest⟩ := Bool.and_eq_true_iff.1 h
    obtain ⟨hkeys, hv⟩ := Bool.and_eq_true_iff.1 hfirst
    have hkey := isOneLine_stringText (Bool.and_eq_true_iff.1 hkeys).1
    simp only [compactFields, List.forall_mem_cons]
    exact ⟨(hkey.append (by decide)).append (isOneLine_compact v hv),
      isOneLine_compactFields rest hrest⟩

end

/-! ## Counts -/

theorem endsLine_of_isPrintable {c : Char} (h : Text.isPrintable c = true) : endsLine c = false := by
  have hall : ∀ c ∈ Text.lineEndings, Text.isPrintable c = false := by decide +kernel
  by_contra hends
  rw [hall c (Text.mem_lineEndings (by simpa using hends))] at h
  cases h

theorem endsLine_of_mem_quoteChar {quote c d : Char} (hquote : endsLine quote = false)
    (hd : d ∈ Text.quoteChar quote c) : endsLine d = false := by
  unfold Text.quoteChar at hd
  split_ifs at hd with hspecial _ _ _ hprintable
  · refine Text.endsLine_of_mem_escape ?_ (by simp) hd
    simp only [Bool.or_eq_true, decide_eq_true_eq] at hspecial
    rcases hspecial with rfl | rfl
    · exact hquote
    · decide
  iterate 3 exact Text.endsLine_of_mem_escape (by decide) (by simp) hd
  · exact List.mem_singleton.1 hd ▸ endsLine_of_isPrintable hprintable
  iterate 3 exact Text.endsLine_of_mem_escape (by decide) (fun _ => Text.endsLine_of_mem_hexDigits) hd

/-- Between quotes nothing ends a line, as no line end is printable. -/
theorem isOneLine_quoted (s : String) : IsOneLine (Text.quoted s) := by
  have hquotes : ∀ quote ∈ ['\'', '"'], endsLine quote = false := by decide
  have hquote : endsLine (Text.quoteFor s.toList) = false := by
    unfold Text.quoteFor
    split_ifs <;> exact hquotes _ (by simp)
  refine Text.isOneLine_enclosed hquote fun d hd => ?_
  obtain ⟨c, -, hd⟩ := List.mem_flatMap.1 hd
  exact endsLine_of_mem_quoteChar hquote hd

mutual

theorem isOneLine_shownQuoted : ∀ v : Json, IsOneLine v.shownQuoted
  | .null => (by decide : IsOneLine "None")
  | .bool true => (by decide : IsOneLine "True")
  | .bool false => (by decide : IsOneLine "False")
  | .num x => x.isOneLine_text
  | .str s => isOneLine_quoted s
  | .arr items =>
    .between (by decide) (isOneLine_intercalate (by decide) (isOneLine_shownItems items)) (by decide)
  | .obj fields =>
    .between (by decide) (isOneLine_intercalate (by decide) (isOneLine_shownFields fields)) (by decide)

theorem isOneLine_shownItems : ∀ items : List Json, ∀ text ∈ shownItems items, IsOneLine text
  | [] => by simp [shownItems]
  | v :: rest => by
    simp only [shownItems, List.forall_mem_cons]
    exact ⟨isOneLine_shownQuoted v, isOneLine_shownItems rest⟩

theorem isOneLine_shownFields : ∀ fields : List (String × Json),
    ∀ text ∈ shownFields fields, IsOneLine text
  | [] => by simp [shownFields]
  | (key, v) :: rest => by
    simp only [shownFields, List.forall_mem_cons]
    exact ⟨((isOneLine_quoted key).append (by decide)).append (isOneLine_shownQuoted v),
      isOneLine_shownFields rest⟩

end

/-- A count is on one line, unless it is a text that is not. -/
theorem isOneLine_shown {v : Json} (h : ∀ s, v = .str s → IsOneLine s) : IsOneLine v.shown := by
  cases v with
  | str s => exact h s rfl
  | _ => exact isOneLine_shownQuoted _

end Json

end SchemaGrammar
