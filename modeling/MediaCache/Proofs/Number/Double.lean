import Mathlib.Algebra.Group.Nat.Defs
import MediaCache.Number.Double

/-!
# Whole doubles

The double nearest to an integer is whole, and up to 2^53 it is the integer itself. Adding such a
number to an integer is then addition of integers.
-/

namespace MediaCache

namespace Double

/-! ## Rounding -/

theorem natPow_eq (b e : Nat) : Nat.pow b e = b ^ e := rfl

theorem roundUnits_of_dvd {n : Nat} (h : 2 ^ (n.log2 - 52) ∣ n) : roundUnits n 1 = n := by
  have hmod : n % 2 ^ (n.log2 - 52) = 0 := Nat.mod_eq_zero_of_dvd h
  have hstep : 0 < 2 ^ (n.log2 - 52) := Nat.two_pow_pos _
  unfold roundUnits
  simp only [natPow_eq, Nat.div_one, Nat.one_mul, hmod]
  rw [if_neg (by omega)]
  exact Nat.div_mul_cancel h

theorem roundUnits_of_lt {m : Nat} (hm : m < 2 ^ 53) (e : Nat) :
    roundUnits (m * 2 ^ e) 1 = m * 2 ^ e := by
  apply roundUnits_of_dvd
  rcases Nat.eq_zero_or_pos m with rfl | hpos
  · rw [Nat.zero_mul]
    exact Nat.dvd_zero _
  · have hne : m * 2 ^ e ≠ 0 := by
      have := Nat.mul_pos hpos (Nat.two_pow_pos e)
      omega
    have hlt : m * 2 ^ e < 2 ^ (53 + e) := by
      rw [Nat.pow_add]
      exact Nat.mul_lt_mul_of_pos_right hm (Nat.two_pow_pos e)
    have hlog := (Nat.log2_lt hne).2 hlt
    have hshift : (m * 2 ^ e).log2 - 52 ≤ e := by omega
    exact Nat.dvd_trans (Nat.pow_dvd_pow 2 hshift) (Nat.dvd_mul_left _ _)

/-- Up to 2^53 a number rounds to itself, whatever power of two it is scaled by. -/
theorem roundUnits_exact {m : Nat} (hm : m ≤ 2 ^ 53) (e : Nat) :
    roundUnits (m * 2 ^ e) 1 = m * 2 ^ e := by
  rcases Nat.lt_or_eq_of_le hm with hlt | rfl
  · exact roundUnits_of_lt hlt e
  · have hone := roundUnits_of_lt (m := 1) (by decide) (53 + e)
    rw [Nat.one_mul, Nat.pow_add] at hone
    exact hone

theorem dvd_roundUnits (m e : Nat) : 2 ^ e ∣ roundUnits (m * 2 ^ e) 1 := by
  by_cases hm : m ≤ 2 ^ 53
  · rw [roundUnits_exact hm]
    exact Nat.dvd_mul_left _ _
  · have hle : 2 ^ (53 + e) ≤ m * 2 ^ e := by
      rw [Nat.pow_add]
      exact Nat.mul_le_mul_right _ (by omega)
    have hne : m * 2 ^ e ≠ 0 := by
      have := Nat.two_pow_pos (53 + e)
      omega
    have hlog := (Nat.le_log2 hne).2 hle
    have hshift : e ≤ (m * 2 ^ e).log2 - 52 := by omega
    have hstep := Nat.pow_dvd_pow 2 hshift
    unfold roundUnits
    simp only [natPow_eq, Nat.div_one, Nat.one_mul]
    split
    · exact Nat.dvd_trans hstep (Nat.dvd_mul_left _ _)
    · exact Nat.dvd_trans hstep (Nat.dvd_mul_left _ _)

/-! ## Integers as doubles -/

-- The power is kept out of sight, since nothing depends on its size.
theorem exists_unitsPerOne_eq : ∃ e, unitsPerOne = 2 ^ e := by
  unfold unitsPerOne
  generalize 1074 = e
  exact ⟨e, natPow_eq 2 e⟩

theorem unitsPerOne_pos : 0 < unitsPerOne := by
  obtain ⟨e, he⟩ := exists_unitsPerOne_eq
  rw [he]
  exact Nat.two_pow_pos e

theorem isWhole_ofInt (i : Int) : (ofInt i).isWhole = true := by
  obtain ⟨e, he⟩ := exists_unitsPerOne_eq
  have hdvd : unitsPerOne ∣ (ofInt i).units := by
    unfold ofInt
    rw [he]
    exact dvd_roundUnits i.natAbs e
  generalize ofInt i = x at hdvd ⊢
  unfold isWhole
  rw [beq_iff_eq, Nat.mod_eq_zero_of_dvd hdvd]

@[simp]
theorem isWhole_neg (x : Double) : x.neg.isWhole = x.isWhole := by
  unfold neg
  simp only [isWhole]

theorem units_ofInt {i : Int} (h : i.natAbs ≤ 2 ^ 53) :
    (ofInt i).units = i.natAbs * unitsPerOne := by
  obtain ⟨e, he⟩ := exists_unitsPerOne_eq
  unfold ofInt
  rw [he]
  exact roundUnits_exact h e

theorem truncate_ofInt {i : Int} (h : i.natAbs ≤ 2 ^ 53) : (ofInt i).truncate = i := by
  have hdiv : (ofInt i).units / unitsPerOne = i.natAbs := by
    rw [units_ofInt h]
    exact Nat.mul_div_cancel _ unitsPerOne_pos
  unfold truncate
  rw [hdiv]
  unfold ofInt
  by_cases hneg : i < 0
  · simp only [hneg, decide_true, if_true]
    omega
  · simp only [hneg, decide_false]
    rw [if_neg (by simp)]
    omega

@[simp]
theorem truncate_neg (x : Double) : x.neg.truncate = -x.truncate := by
  unfold truncate neg
  generalize unitsPerOne = one
  cases x.negative
  · rfl
  · exact (Int.neg_neg _).symm

/-! ## Rounded magnitudes -/

theorem roundUnits_mul_mul {k : Nat} (hk : 0 < k) (num den : Nat) :
    roundUnits (k * num) (k * den) = roundUnits num den := by
  unfold roundUnits
  simp only [natPow_eq, Nat.mul_div_mul_left _ _ hk]
  generalize num / den = whole
  generalize 2 ^ (whole.log2 - 52) = scale
  rw [Nat.mul_assoc, Nat.mul_div_mul_left _ _ hk, Nat.mul_mod_mul_left]
  generalize den * scale = step
  have hless : k * step < 2 * (k * (num % step)) ↔ step < 2 * (num % step) := by
    rw [Nat.mul_left_comm]
    exact Nat.mul_lt_mul_left hk
  have hsame : 2 * (k * (num % step)) = k * step ↔ 2 * (num % step) = step := by
    rw [Nat.mul_left_comm]
    exact Nat.mul_right_inj (Nat.ne_of_gt hk)
  simp only [hless, hsame]

theorem exists_roundUnits_eq (num den : Nat) :
    ∃ m e, m ≤ 2 ^ 53 ∧ roundUnits num den = m * 2 ^ e ∧ m * 2 ^ e ≤ 2 * (num / den) + 1 := by
  unfold roundUnits
  simp only [natPow_eq, ← Nat.div_div_eq_div_mul]
  generalize num / den = whole
  generalize hshift : whole.log2 - 52 = shift
  have hbits : whole / 2 ^ shift < 2 ^ 53 := by
    refine Nat.div_lt_of_lt_mul (Nat.lt_of_lt_of_le Nat.lt_log2_self ?_)
    rw [← Nat.pow_add]
    exact Nat.pow_le_pow_right (by decide) (by omega)
  -- Rounding up adds one unit in the last place, which is no more than the number itself.
  have hbelow : whole / 2 ^ shift * 2 ^ shift ≤ whole := Nat.div_mul_le_self _ _
  have habove : (whole / 2 ^ shift + 1) * 2 ^ shift ≤ 2 * whole + 1 := by
    rw [Nat.succ_mul]
    rcases Nat.eq_zero_or_pos shift with rfl | hpos
    · rw [Nat.pow_zero] at hbelow ⊢
      omega
    · have hne : whole ≠ 0 := by
        rintro rfl
        simp at hshift
        omega
      have hstep : 2 ^ shift ≤ whole :=
        Nat.le_trans (Nat.pow_le_pow_right (by decide) (by omega)) (Nat.log2_self_le hne)
      omega
  split
  · exact ⟨_, shift, hbits, rfl, habove⟩
  · exact ⟨_, shift, Nat.le_of_lt hbits, rfl, by omega⟩

@[simp]
theorem roundUnits_roundUnits (num den : Nat) :
    roundUnits (roundUnits num den) 1 = roundUnits num den := by
  obtain ⟨m, e, hm, heq, -⟩ := exists_roundUnits_eq num den
  rw [heq]
  exact roundUnits_exact hm e

/-! ## Finite doubles -/

theorem ofRatio?_mul_mul {k : Nat} (hk : 0 < k) (negative : Bool) (num den : Nat) :
    ofRatio? negative (k * num) (k * den) = ofRatio? negative num den := by
  unfold ofRatio?
  rw [roundUnits_mul_mul hk]

/-- A double is the nearest to its own magnitude. -/
theorem Valid.ofRatio?_units {x : Double} (h : x.Valid) {den : Nat} (hden : 0 < den) :
    ofRatio? x.negative (den * x.units) den = some x := by
  have hone := ofRatio?_mul_mul hden x.negative x.units 1
  rw [Nat.mul_one] at hone
  rw [hone]
  unfold ofRatio?
  rw [h.1]
  exact if_pos h.2

theorem valid_of_ofRatio? {negative : Bool} {num den : Nat} {x : Double}
    (h : ofRatio? negative num den = some x) : x.Valid := by
  unfold ofRatio? at h
  simp only at h
  split at h
  · rename_i hlt
    cases h
    exact ⟨roundUnits_roundUnits num den, hlt⟩
  · cases h

theorem exists_limit_eq :
    ∃ e, 66 ≤ e ∧ (∃ digits, digits ≤ 309 ∧ Nat.pow 2 e < Nat.pow 10 digits) ∧
      limit = Nat.pow 2 e * unitsPerOne := by
  refine ⟨1024, by decide, ⟨309, Nat.le_refl _, by decide +kernel⟩, ?_⟩
  unfold limit unitsPerOne
  generalize htop : 2098 = top
  generalize he : 1024 = e
  generalize hone : 1074 = one
  obtain rfl : e + one = top := by omega
  exact Nat.pow_add 2 e one

theorem limit_pos : 0 < limit := by
  obtain ⟨e, -, -, he⟩ := exists_limit_eq
  rw [he]
  exact Nat.mul_pos (Nat.pow_pos Nat.two_pos) unitsPerOne_pos

theorem valid_zero (negative : Bool) : Valid ⟨negative, 0⟩ :=
  ⟨roundUnits_of_dvd (Nat.dvd_zero _), limit_pos⟩

theorem valid_of_add? {x y sum : Double} (h : x.add? y = some sum) : sum.Valid := by
  unfold add? at h
  simp only at h
  split at h
  · cases h
    exact valid_zero _
  · exact valid_of_ofRatio? h

theorem valid_ofInt {i : Int} (h : i.natAbs ≤ 2 ^ 64) : (ofInt i).Valid := by
  obtain ⟨m, e, -, heq, hle⟩ := exists_roundUnits_eq (i.natAbs * unitsPerOne) 1
  obtain ⟨top, htop, -, hlimit⟩ := exists_limit_eq
  have hunits := unitsPerOne_pos
  have hbound : i.natAbs * unitsPerOne ≤ 2 ^ 64 * unitsPerOne := Nat.mul_le_mul_right _ h
  have hpower : 2 * 2 ^ 64 + 2 ≤ Nat.pow 2 top :=
    Nat.le_trans (by decide) (Nat.pow_le_pow_right Nat.two_pos htop)
  have hroom : (2 * 2 ^ 64 + 2) * unitsPerOne ≤ limit := by
    rw [hlimit]
    exact Nat.mul_le_mul_right unitsPerOne hpower
  unfold Valid ofInt
  generalize limit = top at hroom ⊢
  generalize unitsPerOne = one at *
  simp only
  rw [Nat.div_one] at hle
  rw [Nat.add_mul, Nat.mul_assoc] at hroom
  refine ⟨roundUnits_roundUnits _ 1, ?_⟩
  rw [heq]
  omega

end Double

theorem inInt64_between {i j k : Int} (hi : inInt64 i = true) (hk : inInt64 k = true) (hij : i ≤ j)
    (hjk : j ≤ k) : inInt64 j = true := by
  simp only [inInt64, decide_eq_true_eq] at hi hk ⊢
  omega

theorem clampInt64_of_inInt64 {i : Int} (h : inInt64 i = true) : clampInt64 i = i := by
  simp only [inInt64, decide_eq_true_eq] at h
  unfold clampInt64
  omega

theorem clampInt64_ofInt {i : Int} (h : i.natAbs ≤ 2 ^ 53) : clampInt64 (Double.ofInt i).truncate = i := by
  have hfits : inInt64 i = true := by
    unfold inInt64
    rw [decide_eq_true_eq]
    omega
  rw [Double.truncate_ofInt h, clampInt64_of_inInt64 hfits]

theorem clampInt64_neg_ofInt {i : Int} (h : i.natAbs ≤ 2 ^ 53) :
    clampInt64 (Double.ofInt i).neg.truncate = -i := by
  have hfits : inInt64 (-i) = true := by
    unfold inInt64
    rw [decide_eq_true_eq]
    omega
  rw [Double.truncate_neg, Double.truncate_ofInt h, clampInt64_of_inInt64 hfits]

/-- Adding a double to an integer is exact up to 2^53. -/
theorem wrapInt64_add_ofInt {i delta : Int} (hi : i.natAbs ≤ 2 ^ 53) (hdelta : delta.natAbs ≤ 2 ^ 53) :
    wrapInt64 (i + clampInt64 (Double.ofInt delta).truncate) = i + delta := by
  have hsum : inInt64 (i + delta) = true := by
    unfold inInt64
    rw [decide_eq_true_eq]
    omega
  rw [clampInt64_ofInt hdelta, wrapInt64_of_inInt64 hsum]

theorem wrapInt64_add_right_comm (a b c : Int) :
    wrapInt64 (wrapInt64 (a + b) + c) = wrapInt64 (wrapInt64 (a + c) + b) := by
  unfold wrapInt64
  rw [Int.bmod_add_bmod, Int.bmod_add_bmod, Int.add_right_comm]

end MediaCache
