import SchemaGrammar.Proofs.Rules.IntRange
import SchemaGrammar.Proofs.Schema.Inside
import SchemaGrammar.Proofs.Work

set_option autoImplicit false

/-! # The bounds of integers are short

A bound of an integer has to fit in a double, so it has few digits: it can be written, and so can the
bounds that a range of integers comes to (`areModest_boundsOf`). -/

namespace SchemaGrammar

open Grammar (IsWritable)

namespace Schema

variable {fields : Json.Fields}

/-- How many bits the greatest doubles have. -/
def doubleBits : Nat :=
  53 + Double.maxExponent.toNat

/-- A whole number that is next to a finite double. -/
def IsModest (n : Int) : Prop :=
  n.natAbs ≤ 2 ^ doubleBits + 1

theorem two_pow_succ_lt (k : Nat) : 2 ^ k + 1 < 10 ^ (k + 1) := by
  have hbase : 2 ^ k ≤ 10 ^ k := Nat.pow_le_pow_left (by decide) k
  have hone : 1 ≤ 10 ^ k := Nat.one_le_pow _ _ (by decide)
  rw [Nat.pow_succ]
  omega

theorem IsModest.isWritable {n : Int} (h : IsModest n) : IsWritable n.natAbs :=
  calc n.natAbs ≤ 2 ^ doubleBits + 1 := h
    _ < 10 ^ (doubleBits + 1) := two_pow_succ_lt doubleBits
    _ ≤ 10 ^ Text.maxNumeralDigits := Nat.pow_le_pow_right (by decide) (by decide)

theorem natAbs_fdiv_le (num : Int) (den : Nat) : (num.fdiv den).natAbs ≤ num.natAbs := by
  rw [Int.fdiv_eq_ediv_of_nonneg num (Int.natCast_nonneg den)]
  exact Int.natAbs_ediv_le_natAbs num den

theorem scaled_le {m k bits : Nat} (hm : m ≤ 2 ^ 53) (hk : k ≤ bits) :
    m * 2 ^ k ≤ 2 ^ (53 + bits) ∧ m ≤ 2 ^ (53 + bits) := by
  rw [Nat.pow_add]
  exact ⟨Nat.mul_le_mul hm (Nat.pow_le_pow_right (by decide) hk),
    hm.trans (Nat.le_mul_of_pos_right _ (Nat.two_pow_pos bits))⟩

theorem natAbs_ratio {x : Double} {num : Int} {den : Nat} (hx : IsBinary64 x)
    (h : x.ratio? = some (num, den)) : num.natAbs ≤ 2 ^ doubleBits := by
  cases x with
  | finite negative m e =>
    obtain ⟨hm, he⟩ := hx
    have hmantissa : m ≤ 2 ^ 53 := by
      rw [Double.leastNormal, Nat.pow_eq] at hm
      omega
    have hnum : (if 0 ≤ e then m * Nat.pow 2 e.toNat else m) ≤ 2 ^ doubleBits := by
      have hexponent : e.toNat ≤ Double.maxExponent.toNat := Int.toNat_le_toNat he
      have hscaled := scaled_le hmantissa hexponent
      rw [← doubleBits] at hscaled
      split_ifs
      · exact hscaled.1
      · exact hscaled.2
    obtain ⟨hsign, -⟩ := Prod.mk.inj (Option.some.inj h)
    rw [← hsign]
    cases negative with
    | false => exact hnum
    | true =>
      rw [if_pos rfl, Int.natAbs_neg]
      exact hnum
  | _ => exact absurd h (by simp [Double.ratio?])

theorem natAbs_fits {n : Int} (h : (Number.whole n).fitsDouble = true) :
    n.natAbs ≤ 2 ^ doubleBits := by
  have hbits : 1024 = doubleBits := by decide
  simp only [Number.fitsDouble, decide_eq_true_eq] at h
  have hle : n.natAbs ≤ Nat.pow 2 1024 :=
    Nat.le_trans (Nat.le_of_lt h) (Nat.sub_le (Nat.pow 2 1024) (Nat.pow 2 970))
  exact hle.trans_eq (congrArg (Nat.pow 2) hbits)

/-- A number that a double can hold can be written. -/
theorem isWritable_of_fitsDouble {x : Number} (h : x.fitsDouble = true) : x.isWritable = true := by
  cases x with
  | whole n =>
    have hmodest : IsModest n := (natAbs_fits h).trans (Nat.le_add_right _ 1)
    rw [Grammar.isWritable_whole, decide_eq_true_eq]
    exact hmodest.isWritable
  | double _ => rfl

/-- The whole numbers next to a bound. -/
theorem natAbs_bound {schema v : Json} {key : String} {n : Number} (hv : IsProperBound v)
    (h : boundValue schema key v = .ok n) :
    (n.floor?.getD 0).natAbs ≤ 2 ^ doubleBits ∧ (n.ceil?.getD 0).natAbs ≤ 2 ^ doubleBits := by
  unfold boundValue at h
  split at h
  · rename_i m
    split_ifs at h with hfits hfinite
    obtain rfl := Except.ok.inj h
    cases m with
    | whole k =>
      have hk := natAbs_fits (n := k) (by simpa using hfits)
      exact ⟨hk, hk⟩
    | double x =>
      have hx := hv x rfl
      rw [Number.floor?, Number.ceil?, Double.floor?, Double.ceil?]
      cases hratio : x.ratio? with
      | none => simp
      | some pair =>
        obtain ⟨num, den⟩ := pair
        have hnum := natAbs_ratio hx hratio
        have hceil := natAbs_fdiv_le (-num) den
        rw [Int.natAbs_neg] at hceil
        simp only [Option.map_some, Option.getD_some, Int.natAbs_neg]
        exact ⟨(natAbs_fdiv_le num den).trans hnum, hceil.trans hnum⟩
  · exact absurd h (by simp)

/-- All bounds found are modest. -/
def Bounds.AreModest (b : Bounds) : Prop :=
  (∀ n ∈ b.low, IsModest n) ∧ ∀ n ∈ b.high, IsModest n

theorem Bounds.AreModest.raise {b : Bounds} (h : b.AreModest) {n : Int} (hn : IsModest n) :
    (b.raise n).AreModest := by
  refine ⟨fun m hm => ?_, h.2⟩
  obtain rfl := Option.some.inj hm
  split
  · rename_i k hk
    rcases max_choice k n with hmax | hmax <;> rw [hmax]
    · exact h.1 k hk
    · exact hn
  · exact hn

theorem Bounds.AreModest.lower {b : Bounds} (h : b.AreModest) {n : Int} (hn : IsModest n) :
    (b.lower n).AreModest := by
  refine ⟨h.1, fun m hm => ?_⟩
  obtain rfl := Option.some.inj hm
  split
  · rename_i k hk
    rcases min_choice k n with hmin | hmin <;> rw [hmin]
    · exact h.2 k hk
    · exact hn
  · exact hn

theorem Bounds.AreModest.addBound {schema : Json} {b b' : Bounds} {key : String}
    (hkey : IsProperBound (keyword fields key)) (hb : b.AreModest)
    (h : Schema.addBound schema fields b key = .ok b') : b'.AreModest := by
  unfold Schema.addBound at h
  cases hget : Json.Fields.get? fields key with
  | none =>
    rw [hget] at h
    obtain rfl := Except.ok.inj h
    exact hb
  | some v =>
    rw [keyword, hget, Option.getD_some] at hkey
    rw [hget] at h
    obtain ⟨n, hn, hlast⟩ := Work.except_bind_eq_ok.1 h
    obtain rfl := Except.ok.inj hlast
    obtain ⟨hfloor, hceil⟩ := natAbs_bound hkey hn
    split_ifs
    · exact hb.raise (by unfold IsModest; omega)
    · exact hb.raise (by unfold IsModest; omega)
    · exact hb.lower (by unfold IsModest; omega)
    · exact hb.lower (by unfold IsModest; omega)

theorem Bounds.AreModest.foldlM {schema : Json} {keys : List String} {b b' : Bounds}
    (hkeys : ∀ key ∈ keys, IsProperBound (keyword fields key)) (hb : b.AreModest)
    (h : keys.foldlM (Schema.addBound schema fields) b = .ok b') : b'.AreModest := by
  induction keys generalizing b with
  | nil =>
    obtain rfl := Except.ok.inj h
    exact hb
  | cons key rest ih =>
    obtain ⟨b₁, hfirst, hrest⟩ := Work.except_bind_eq_ok.1 h
    exact ih (fun other hother => hkeys other (List.mem_cons_of_mem _ hother))
      (hb.addBound (hkeys key (by simp)) hfirst) hrest

/-- The bounds that keywords come to are short. -/
theorem areModest_boundsOf {b : Bounds}
    (hkeys : ∀ key ∈ boundKeys, IsProperBound (keyword fields key)) (h : boundsOf fields = .ok b) :
    b.AreModest :=
  Bounds.AreModest.foldlM hkeys ⟨by simp, by simp⟩ h

end Schema

end SchemaGrammar
