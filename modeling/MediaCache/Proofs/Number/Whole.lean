import Mathlib.Data.Nat.Factorization.Basic
import MediaCache.Json.Number
import MediaCache.Proofs.Number.Decimal

/-!
# Whole numbers with all their digits

Canonical documents know doubles only, yet an integer of at most 2^53 is written with its own digits. No
grid of decimals that is too coarse for it comes back to it, so its shortest decimal leaves out its last
zeros and nothing else.
-/

namespace MediaCache

namespace Decimal

/-! ## Whole decimals -/

theorem digitCount_mul_pow {m : Nat} (hm : m ≠ 0) (k : Nat) : digitCount (m * 10 ^ k) = digitCount m + k := by
  induction k with
  | zero => rw [Nat.pow_zero, Nat.mul_one, Nat.add_zero]
  | succ k ih =>
    have hne : m * 10 ^ k ≠ 0 := Nat.mul_ne_zero hm (Nat.pow_pos (by decide)).ne'
    rw [Nat.pow_succ, ← Nat.mul_assoc, digitCount_mul_ten hne, ih, Nat.add_assoc]

theorem digitCount_pos (n : Nat) : 0 < digitCount n :=
  List.length_pos_of_ne_nil Nat.toDigits_ne_nil

theorem toDigits_mul_pow {m : Nat} (hm : m ≠ 0) (k : Nat) :
    Nat.toDigits 10 (m * 10 ^ k) = Nat.toDigits 10 m ++ List.replicate k '0' := by
  induction k with
  | zero => rw [Nat.pow_zero, Nat.mul_one, List.replicate_zero, List.append_nil]
  | succ k ih =>
    have hpos : 0 < m * 10 ^ k := Nat.mul_pos (Nat.pos_of_ne_zero hm) (Nat.pow_pos (by decide))
    have happend := Nat.toDigits_append_toDigits (b := 10) (d := 0) (by decide) hpos (by decide)
    calc Nat.toDigits 10 (m * 10 ^ (k + 1))
      _ = Nat.toDigits 10 (10 * (m * 10 ^ k) + 0) := by
        rw [Nat.pow_succ, ← Nat.mul_assoc, Nat.mul_comm, Nat.add_zero]
      _ = Nat.toDigits 10 (m * 10 ^ k) ++ ['0'] := happend.symm
      _ = Nat.toDigits 10 m ++ List.replicate (k + 1) '0' := by
        rw [ih, List.append_assoc, ← List.replicate_succ']

/-- One bit more than a double has is enough for even numbers. -/
theorem toDouble?_whole {n : Nat} (hn : n ≤ 2 ^ 54) (heven : 2 ^ 53 < n → n % 2 = 0) :
    toDouble? false ⟨n, 0⟩ = some ⟨false, n * Double.unitsPerOne⟩ := by
  rcases Nat.eq_zero_or_pos n with rfl | hpos
  · rw [Nat.zero_mul]
    rfl
  · have hround : Double.roundUnits (n * Double.unitsPerOne) 1 = n * Double.unitsPerOne := by
      obtain ⟨e, he⟩ := Double.exists_unitsPerOne_eq
      rw [he]
      by_cases hle : n ≤ 2 ^ 53
      · exact Double.roundUnits_exact hle e
      · -- An even number has one significant bit less.
        obtain ⟨half, rfl⟩ := Nat.dvd_of_mod_eq_zero (heven (Nat.lt_of_not_le hle))
        rw [Nat.mul_comm 2, Nat.mul_assoc, ← Nat.pow_succ']
        exact Double.roundUnits_exact (by omega) (e + 1)
    have hfinite : n * Double.unitsPerOne < Double.limit := by
      obtain ⟨e, hle, -, he⟩ := Double.exists_limit_eq
      rw [he]
      refine Nat.mul_lt_mul_of_pos_right (Nat.lt_of_le_of_lt hn ?_) Double.unitsPerOne_pos
      exact Nat.pow_lt_pow_right (by decide) (by omega)
    have hratio : Double.ofRatio? false (n * Nat.pow 10 0 * Double.unitsPerOne) 1 =
        some ⟨false, n * Double.unitsPerOne⟩ := by
      have hone : n * Nat.pow 10 0 = n := Nat.mul_one n
      unfold Double.ofRatio?
      rw [hone, hround]
      exact if_pos hfinite
    have hfew : digitCount n ≤ 17 :=
      (digitCount_le_iff (by decide)).2 (Nat.lt_of_le_of_lt hn (by decide))
    unfold toDouble?
    simp only [Int.zero_add]
    rw [if_neg (by omega), if_neg (by omega), if_pos (Int.le_refl 0)]
    exact hratio

/-- Of the multiples of ten up to twice a number, only the number itself is read as it. -/
theorem eq_of_toDouble? {n : Nat} (hn : n ≤ 2 ^ 53) {j x : Nat} (hx : 0 < x) (hj : j * 10 ^ x ≤ 2 * n)
    (h : toDouble? false ⟨j, x⟩ = some ⟨false, n * Double.unitsPerOne⟩) : j * 10 ^ x = n := by
  have heven : j * 10 ^ x % 2 = 0 := by
    obtain ⟨k, rfl⟩ := Nat.exists_eq_succ_of_ne_zero hx.ne'
    rw [Nat.pow_succ, ← Nat.mul_assoc]
    omega
  have hread := toDouble?_mul_pow false j x 0
  rw [Int.zero_add, h, toDouble?_whole (by omega) fun _ => heven] at hread
  simp only [Option.some.injEq, Double.mk.injEq, true_and] at hread
  exact Nat.eq_of_mul_eq_mul_right Double.unitsPerOne_pos hread

end Decimal

/-! ## The shortest decimal -/

namespace Double

theorem leadingExponent_whole {m : Nat} (hm : m ≠ 0) (e : Nat) :
    leadingExponent (m * 10 ^ e * unitsPerOne) = Decimal.digitCount m + e - 1 := by
  unfold leadingExponent
  generalize htop : 324 = top
  rw [natPow_eq, Nat.mul_right_comm, Nat.mul_div_cancel _ unitsPerOne_pos, Nat.mul_assoc, ← Nat.pow_add,
    Decimal.digitCount_mul_pow hm]
  omega

theorem neighbours_whole (n x : Nat) :
    neighbours (n * unitsPerOne) x =
      if 10 ^ x < 2 * (n % 10 ^ x) ∨ (2 * (n % 10 ^ x) = 10 ^ x ∧ n / 10 ^ x % 2 = 1) then
        [⟨n / 10 ^ x + 1, x⟩, ⟨n / 10 ^ x, x⟩]
      else [⟨n / 10 ^ x, x⟩, ⟨n / 10 ^ x + 1, x⟩] := by
  have hone := unitsPerOne_pos
  unfold neighbours
  generalize unitsPerOne = one at *
  have hless (a b : Nat) : one * a < 2 * (one * b) ↔ a < 2 * b := by
    rw [Nat.mul_left_comm]
    exact Nat.mul_lt_mul_left hone
  have hsame (a b : Nat) : 2 * (one * b) = one * a ↔ 2 * b = a := by
    rw [Nat.mul_left_comm]
    exact Nat.mul_right_inj hone.ne'
  simp only [Int.natCast_nonneg, if_true, Int.toNat_natCast, natPow_eq, Nat.mul_comm n,
    Nat.mul_div_mul_left _ _ hone, Nat.mul_mod_mul_left, hless, hsame]

theorem mem_neighbours_whole {n x : Nat} {d : Decimal} (h : d ∈ neighbours (n * unitsPerOne) x) :
    d = ⟨n / 10 ^ x, x⟩ ∨ d = ⟨n / 10 ^ x + 1, x⟩ := by
  rw [neighbours_whole] at h
  split at h <;> simp only [List.mem_cons, List.not_mem_nil, or_false] at h
  · exact h.symm
  · exact h

/-- A grid that is too coarse for the last digit has no decimal that is read as the number. -/
theorem find?_neighbours_coarse {m e x : Nat} (hm : ¬10 ∣ m) (hn : m * 10 ^ e ≤ 2 ^ 53) (hx : e < x)
    (hlead : x < Decimal.digitCount m + e) :
    (neighbours (m * 10 ^ e * unitsPerOne) x).find? (readsBack (m * 10 ^ e * unitsPerOne)) = none := by
  have hle : 10 ^ x ≤ m * 10 ^ e := by
    have hlarge : 10 ^ (Decimal.digitCount m - 1) ≤ m := by
      refine Nat.le_of_not_lt fun hless => ?_
      have hle := (Decimal.digitCount_le_iff (by omega)).2 hless
      omega
    calc 10 ^ x
      _ ≤ 10 ^ (Decimal.digitCount m - 1 + e) := Nat.pow_le_pow_right (by decide) (by omega)
      _ = 10 ^ (Decimal.digitCount m - 1) * 10 ^ e := Nat.pow_add 10 _ e
      _ ≤ m * 10 ^ e := Nat.mul_le_mul_right _ hlarge
  -- The last digit is not zero, so no power of ten beyond it divides the number.
  have hmiss : ¬10 ^ x ∣ m * 10 ^ e := fun hdvd => hm <| by
    have hnext : 10 * 10 ^ e ∣ m * 10 ^ e := by
      rw [← Nat.pow_succ']
      exact Nat.dvd_trans (Nat.pow_dvd_pow 10 hx) hdvd
    exact Nat.dvd_of_mul_dvd_mul_right (Nat.pow_pos (by decide)) hnext
  -- Either neighbour that is read as the number would be a multiple of that power.
  generalize m * 10 ^ e = n at *
  refine List.find?_eq_none.2 fun d hd hback => hmiss ?_
  have hread : d.toDouble? false = some ⟨false, n * unitsPerOne⟩ := eq_of_beq hback
  have hbelow : n / 10 ^ x * 10 ^ x ≤ n := Nat.div_mul_le_self n _
  rcases mem_neighbours_whole hd with rfl | rfl
  · exact Dvd.intro_left _ (Decimal.eq_of_toDouble? hn (by omega) (by omega) hread)
  · refine Dvd.intro_left _ (Decimal.eq_of_toDouble? hn (by omega) ?_ hread)
    rw [Nat.succ_mul]
    omega

theorem find?_neighbours_fine {m e : Nat} (hn : m * 10 ^ e ≤ 2 ^ 53) :
    (neighbours (m * 10 ^ e * unitsPerOne) e).find? (readsBack (m * 10 ^ e * unitsPerOne)) =
      some ⟨m, e⟩ := by
  have hpos : 0 < 10 ^ e := Nat.pow_pos (by decide)
  have hread : readsBack (m * 10 ^ e * unitsPerOne) ⟨m, e⟩ = true := by
    have hpow := Decimal.toDouble?_mul_pow false m e 0
    rw [Int.zero_add] at hpow
    rw [readsBack, ← hpow, Decimal.toDouble?_whole (by omega) fun hlt => absurd hn (Nat.not_le.2 hlt)]
    exact beq_self_eq_true _
  rw [neighbours_whole, Nat.mul_mod_left, Nat.mul_div_cancel _ hpos, if_neg (by omega)]
  exact List.find?_cons_of_pos hread

theorem findSome?_range {f : Nat → Option α} {a : α} {k n : Nat} (hk : k < n) (h : f k = some a)
    (hbefore : ∀ j < k, f j = none) : (List.range n).findSome? f = some a := by
  have hsplit : List.range n = List.range k ++ k :: List.range' (k + 1) (n - k - 1) := by
    have happend := List.range'_append_1 (s := 0) (m := k) (n := n - k - 1 + 1)
    rw [Nat.zero_add, List.range'_succ, ← List.range_eq_range'] at happend
    rw [happend, List.range_eq_range']
    congr 1
    omega
  exact List.findSome?_eq_some_iff.2 ⟨_, k, _, hsplit, h, fun j hj => hbefore j (List.mem_range.1 hj)⟩

/-- The shortest decimal of a whole number leaves out its last zeros. -/
theorem shortest_whole {m e : Nat} (hm : ¬10 ∣ m) (hn : m * 10 ^ e ≤ 2 ^ 53) :
    shortest (m * 10 ^ e * unitsPerOne) = ⟨m, e⟩ := by
  have hne : m ≠ 0 := by
    rintro rfl
    exact hm (Nat.dvd_zero 10)
  have hcount := Decimal.digitCount_pos m
  have hfew : Decimal.digitCount m ≤ 17 := by
    refine (Decimal.digitCount_le_iff (by decide)).2 (Nat.lt_of_le_of_lt ?_ (Nat.lt_of_le_of_lt hn ?_))
    · exact Nat.le_mul_of_pos_right m (Nat.pow_pos (by decide))
    · decide
  -- The search ends at the grid of the last digit that is not zero.
  have hfound : (List.range 17).findSome? (fun n : Nat =>
      (neighbours (m * 10 ^ e * unitsPerOne) (leadingExponent (m * 10 ^ e * unitsPerOne) - n)).find?
        (readsBack (m * 10 ^ e * unitsPerOne))) = some ⟨m, e⟩ := by
    rw [leadingExponent_whole hne]
    refine findSome?_range (k := Decimal.digitCount m - 1) (by omega) ?_ fun n hlt => ?_
    · have hgrid : (Decimal.digitCount m : Int) + e - 1 - ↑(Decimal.digitCount m - 1) = e := by omega
      rw [hgrid]
      exact find?_neighbours_fine hn
    · have hgrid : (Decimal.digitCount m : Int) + e - 1 - n = ↑(Decimal.digitCount m + e - 1 - n) := by omega
      rw [hgrid]
      exact find?_neighbours_coarse hm hn (by omega) (by omega)
  have htrim : Decimal.trim ⟨m, e⟩ = ⟨m, e⟩ := by
    obtain ⟨fuel, rfl⟩ := Nat.exists_eq_succ_of_ne_zero hne
    rw [Decimal.trim, Decimal.trim.go]
    exact if_neg fun hzero => hm (Nat.dvd_of_mod_eq_zero hzero.1)
  unfold shortest
  simp only [hfound, Option.getD_some, htrim]

end Double

/-! ## The text -/

/-- Up to 21 places a whole decimal is written out. -/
theorem DecimalStyle.canonical_magnitude {m e : Nat} (hm : m ≠ 0)
    (hfew : Decimal.digitCount m + e ≤ 21) :
    DecimalStyle.canonical.magnitude ⟨m, e⟩ = Nat.toDigits 10 (m * 10 ^ e) := by
  have hcount := Decimal.digitCount_pos m
  rw [Decimal.toDigits_mul_pow hm]
  unfold Decimal.digitCount at hfew hcount
  unfold magnitude
  generalize Nat.toDigits 10 m = digits at *
  have hlead : (e : Int) + digits.length - 1 = (digits.length + e - 1 : Nat) := by omega
  have hzeros : digits.length + e - 1 + 1 - digits.length = e := by omega
  simp only [hlead]
  rw [if_pos (by simp only [DecimalStyle.canonical]; omega), plain, if_neg (by omega)]
  simp only [Int.toNat_natCast, hzeros]
  rw [if_pos (by omega)]
  exact List.append_nil _

/-- Up to 2^53 an integer is written as in any other document. -/
theorem Number.writeCanonical_integer {i : Int} (h : i.natAbs ≤ 2 ^ 53) :
    (integer i).writeCanonical = integerText i := by
  have hunits := Double.units_ofInt h
  unfold writeCanonical asDouble DecimalStyle.write
  rcases Nat.eq_zero_or_pos i.natAbs with hzero | hpos
  · -- Zero has no sign in either text.
    obtain rfl := Int.natAbs_eq_zero.1 hzero
    rw [hzero, Nat.zero_mul] at hunits
    simp only [hunits, bne_self_eq_false, Bool.false_or, if_true]
    rfl
  · have hsome : (Double.ofInt i).units ≠ 0 := by
      rw [hunits]
      exact (Nat.mul_pos hpos Double.unitsPerOne_pos).ne'
    have hsign : ((Double.ofInt i).negative && ((Double.ofInt i).units != 0 ||
        DecimalStyle.canonical.signedZero)) = decide (i < 0) := by
      rw [bne_iff_ne.2 hsome, Bool.true_or, Bool.and_true]
      rfl
    have htext : DecimalStyle.canonical.magnitude (Double.shortest (Double.ofInt i).units) =
        Nat.toDigits 10 i.natAbs := by
      rw [hunits]
      generalize i.natAbs = n at *
      -- The last zeros are split off.
      obtain ⟨e, m, hm, hn⟩ := Nat.exists_eq_pow_mul_and_not_dvd hpos.ne' 10 (by decide)
      obtain rfl : n = m * 10 ^ e := by rw [hn, Nat.mul_comm]
      have hne : m ≠ 0 := by
        rintro rfl
        exact hm (Nat.dvd_zero 10)
      have hfew := (Decimal.digitCount_le_iff (n := m * 10 ^ e) (k := 17) (by decide)).2
        (Nat.lt_of_le_of_lt h (by decide))
      rw [Decimal.digitCount_mul_pow hne] at hfew
      rw [Double.shortest_whole hm h, DecimalStyle.canonical_magnitude hne (by omega)]
    unfold integerText
    simp only [hsign, if_neg hsome, htext, decide_eq_true_eq]

end MediaCache
