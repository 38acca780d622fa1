import MediaCache.Proofs.Number.Double
import MediaCache.Number.Decimal

/-!
# Decimals that read back

Which double a decimal is read as depends on the number alone, not on how its digits are cut. So the
shortest decimal of a magnitude reads back as it, and where no short one is found the exact one does.
-/

namespace MediaCache

namespace Decimal

/-! ## The number alone -/

theorem digitCount_mul_ten {n : Nat} (h : n ≠ 0) : digitCount (n * 10) = digitCount n + 1 := by
  have happend := Nat.toDigits_append_toDigits (b := 10) (d := 0) (by decide) (Nat.pos_of_ne_zero h)
    (by decide)
  rw [digitCount, Nat.mul_comm, ← Nat.add_zero (10 * n), ← happend, List.length_append]
  rfl

theorem digitCount_le_iff {n k : Nat} (hk : 0 < k) : digitCount n ≤ k ↔ n < Nat.pow 10 k :=
  Nat.length_toDigits_le_iff (by decide) hk

def nearest? (negative : Bool) (n : Nat) (e : Int) : Option Double :=
  if 0 ≤ e then Double.ofRatio? negative (n * Nat.pow 10 e.toNat * Double.unitsPerOne) 1
  else Double.ofRatio? negative (n * Double.unitsPerOne) (Nat.pow 10 (-e).toNat)

theorem nearest?_mul_ten (negative : Bool) (n : Nat) (e : Int) :
    nearest? negative (n * 10) e = nearest? negative n (e + 1) := by
  unfold nearest?
  generalize Double.unitsPerOne = one
  by_cases he : 0 ≤ e
  · have hpow : Nat.pow 10 (e + 1).toNat = 10 * Nat.pow 10 e.toNat := by
      rw [Int.toNat_add he (by decide)]
      exact Nat.pow_succ'
    rw [if_pos he, if_pos (by omega), hpow]
    ac_rfl
  · have hpow : Nat.pow 10 (-e).toNat = 10 * Nat.pow 10 (-(e + 1)).toNat := by
      have hexp : (-e).toNat = (-(e + 1)).toNat + 1 := by omega
      rw [hexp]
      exact Nat.pow_succ'
    have hnum : n * 10 * one = 10 * (n * one) := by ac_rfl
    rw [if_neg he, hpow, hnum, Double.ofRatio?_mul_mul (by decide)]
    split
    · have hlast : (-(e + 1)).toNat = 0 ∧ (e + 1).toNat = 0 := by omega
      rw [hlast.1, hlast.2]
      exact congrArg₂ _ (congrArg (· * one) (Nat.mul_one n).symm) rfl
    · rfl

/-- Only the number that a decimal stands for matters. -/
theorem toDouble?_mul_ten (negative : Bool) (n : Nat) (e : Int) :
    toDouble? negative ⟨n * 10, e⟩ = toDouble? negative ⟨n, e + 1⟩ := by
  rcases Nat.eq_zero_or_pos n with rfl | hpos
  · rfl
  · have hcount := digitCount_mul_ten (Nat.ne_of_gt hpos)
    have hmagnitude : e + ↑(digitCount (n * 10)) = e + 1 + ↑(digitCount n) := by omega
    have hzero : n * 10 = 0 ↔ n = 0 := by omega
    have hnearest := nearest?_mul_ten negative n e
    unfold nearest? at hnearest
    unfold toDouble?
    simp only [hmagnitude, hzero, hnearest]

theorem toDouble?_mul_pow (negative : Bool) (n k : Nat) (e : Int) :
    toDouble? negative ⟨n * 10 ^ k, e⟩ = toDouble? negative ⟨n, e + k⟩ := by
  induction k generalizing e with
  | zero => rw [Nat.pow_zero, Nat.mul_one, Int.natCast_zero, Int.add_zero]
  | succ k ih =>
    rw [Nat.pow_succ, ← Nat.mul_assoc, toDouble?_mul_ten, ih]
    congr 2
    omega

theorem toDouble?_go (negative : Bool) (fuel : Nat) (d : Decimal) :
    (trim.go fuel d d.digits).toDouble? negative = d.toDouble? negative := by
  induction fuel generalizing d with
  | zero => rfl
  | succ fuel ih =>
    rw [trim.go]
    split
    · rename_i hzero
      obtain ⟨n, e⟩ := d
      have hten : n / 10 * 10 = n := by
        have := hzero.1
        simp only at this
        omega
      calc toDouble? negative (trim.go fuel ⟨n / 10, e + 1⟩ (n / 10))
        _ = toDouble? negative ⟨n / 10, e + 1⟩ := ih ⟨n / 10, e + 1⟩
        _ = toDouble? negative ⟨n / 10 * 10, e⟩ := (toDouble?_mul_ten negative (n / 10) e).symm
        _ = toDouble? negative ⟨n, e⟩ := by rw [hten]
    · rfl

/-- Dropping zeros from the end changes nothing. -/
@[simp]
theorem toDouble?_trim (negative : Bool) (d : Decimal) :
    d.trim.toDouble? negative = d.toDouble? negative :=
  toDouble?_go negative d.digits d

theorem toDouble?_sign (negative : Bool) (d : Decimal) :
    d.toDouble? negative = (d.toDouble? false).map fun x => ⟨negative, x.units⟩ := by
  have hratio (num den : Nat) : Double.ofRatio? negative num den =
      (Double.ofRatio? false num den).map fun x => ⟨negative, x.units⟩ := by
    unfold Double.ofRatio?
    simp only
    split <;> rfl
  unfold toDouble?
  simp only [hratio]
  split
  · rfl
  · split
    · rfl
    · split <;> rfl

theorem valid_of_toDouble? {negative : Bool} {d : Decimal} {x : Double}
    (h : d.toDouble? negative = some x) : x.Valid := by
  unfold toDouble? at h
  simp only at h
  split at h
  · cases h
    exact Double.valid_zero negative
  · split at h
    · cases h
    · split at h
      · exact Double.valid_of_ofRatio? h
      · exact Double.valid_of_ofRatio? h

end Decimal

/-! ## Shortest decimals -/

namespace Double

/-- A power of ten that makes the unit whole makes an exact decimal of a magnitude. -/
theorem Valid.toDouble?_scaled {units : Nat} (h : Valid ⟨false, units⟩) (hpos : 0 < units) {k scale : Nat}
    (hunit : unitsPerOne * scale = Nat.pow 10 k) (hk : 324 < k) (hscale : Nat.pow 10 (k - 324) ≤ scale) :
    Decimal.toDouble? false ⟨units * scale, -k⟩ = some ⟨false, units⟩ := by
  obtain ⟨top, -, ⟨digits, hdigits, htop⟩, hlimit⟩ := exists_limit_eq
  have htens : 0 < Nat.pow 10 k := Nat.pow_pos (by decide)
  have hlt : units * scale < Nat.pow 10 (digits + k) := by
    calc units * scale
      _ ≤ Nat.pow 2 top * unitsPerOne * scale := Nat.mul_le_mul_right _ (hlimit ▸ Nat.le_of_lt h.2)
      _ = Nat.pow 2 top * Nat.pow 10 k := by rw [Nat.mul_assoc, hunit]
      _ < Nat.pow 10 digits * Nat.pow 10 k := Nat.mul_lt_mul_of_pos_right htop htens
      _ = Nat.pow 10 (digits + k) := (Nat.pow_add 10 digits k).symm
  -- The decimal is neither too small nor too large to be looked at.
  have hmany : k - 324 < Decimal.digitCount (units * scale) := by
    refine Nat.lt_of_not_le fun hle => ?_
    have hless := (Decimal.digitCount_le_iff (by omega)).1 hle
    exact absurd (Nat.le_trans hscale (Nat.le_mul_of_pos_left _ hpos)) (Nat.not_le.2 hless)
  have hfew := (Decimal.digitCount_le_iff (by omega)).2 hlt
  have hne : units * scale ≠ 0 := fun hzero => by
    have hone : Decimal.digitCount 0 = 1 := rfl
    rw [hzero, hone] at hmany
    omega
  have hratio : ofRatio? false (units * scale * unitsPerOne) (Nat.pow 10 k) = some ⟨false, units⟩ := by
    rw [Nat.mul_assoc, Nat.mul_comm scale, hunit, Nat.mul_comm]
    exact h.ofRatio?_units htens
  have hexp : (-(-(k : Int))).toNat = k := by omega
  unfold Decimal.toDouble?
  simp only [hexp]
  rw [if_neg (by omega), if_neg (by omega), if_neg (by omega), hratio]

theorem Valid.toDouble?_exactDecimal {units : Nat} (h : Valid ⟨false, units⟩) (hpos : 0 < units) :
    (exactDecimal units).toDouble? false = some ⟨false, units⟩ :=
  h.toDouble?_scaled hpos (k := 1074) (by decide +kernel) (by decide) (by decide +kernel)

/-- The shortest decimal reads back. -/
theorem Valid.toDouble?_shortest {x : Double} (h : x.Valid) (hpos : 0 < x.units) :
    (shortest x.units).toDouble? x.negative = some x := by
  have hmagnitude : Valid ⟨false, x.units⟩ := h
  have hread : (shortest x.units).toDouble? false = some ⟨false, x.units⟩ := by
    unfold shortest
    simp only [Decimal.toDouble?_trim]
    generalize hfound : (List.range 17).findSome? _ = found
    cases found with
    | none => exact hmagnitude.toDouble?_exactDecimal hpos
    | some d =>
      obtain ⟨n, -, hn⟩ := List.exists_of_findSome?_eq_some hfound
      have hback : readsBack x.units d = true := List.find?_some hn
      exact eq_of_beq hback
  rw [Decimal.toDouble?_sign, hread]
  rfl

end Double

end MediaCache
