import CheckpointRestore.Lib.QuantityOrder
import CheckpointRestore.Lib.QuantityParse
import Mathlib.Data.Rat.Floor

namespace Resource

open Go

/-!
# Quantities as rational numbers — when `Value` and `MilliValue` are exact

A quantity stands for an unscaled number over a power of ten.  `Value` rounds that number up to
an integer and `MilliValue` does so in thousandths, as long as the result fits an `int64`;
otherwise the digits that are left over depend on the representation, and there may be none.

* `Quantity.ceil` — the number rounded up at some decimal places;
* `scaled_eq_ceil` — what the conversions return where that fits;
* `Vanishes`, `scaled_eq_zero_iff` — the positive quantities they convert to zero.
-/

/-! ### Rounding up -/

/-- Rounding a quotient up, by quotient and remainder. -/
theorem neg_ediv_neg (a : ℤ) {b : ℤ} (hb : 0 < b) :
    -(-a / b) = a / b + if a % b ≠ 0 then 1 else 0 := by
  have hsplit := Int.mul_ediv_add_emod a b
  have hnn := Int.emod_nonneg a hb.ne'
  have hlt := Int.emod_lt_of_pos a hb
  split_ifs with hrem
  · have hexp : b * (-(a / b) - 1) = -(b * (a / b)) - b := by ring
    have hneg : -a / b = -(a / b) - 1 :=
      ((Int.ediv_emod_unique hb).mpr
        (⟨by omega, by omega, by omega⟩ : b - a % b + b * (-(a / b) - 1) = -a ∧ _ ∧ _)).1
    omega
  · have hexp : b * -(a / b) = -(b * (a / b)) := by ring
    have hneg : -a / b = -(a / b) :=
      ((Int.ediv_emod_unique hb).mpr
        (⟨by omega, le_rfl, hb⟩ : (0 : ℤ) + b * -(a / b) = -a ∧ _ ∧ _)).1
    omega

/-- `u` over `10 ^ d`, rounded up. -/
def ceilShift (u d : ℤ) : ℤ :=
  if 0 < d then -(-u / 10 ^ d.toNat) else u * 10 ^ (-d).toNat

theorem ceilShift_nonneg {u : ℤ} (hu : 0 ≤ u) (d : ℤ) : 0 ≤ ceilShift u d := by
  unfold ceilShift
  split_ifs with hd
  · have hquot : -u / 10 ^ d.toNat ≤ 0 :=
      Int.ediv_nonpos_of_nonpos_of_neg (by omega) (by positivity)
    omega
  · positivity

theorem ceilShift_pos {u : ℤ} (hu : 0 < u) (d : ℤ) : 0 < ceilShift u d := by
  unfold ceilShift
  split_ifs with hd
  · have hquot : -u / 10 ^ d.toNat < 0 := Int.ediv_neg_of_neg_of_pos (by omega) (by positivity)
    omega
  · positivity

namespace Quantity

/-- The number a quantity stands for. -/
def toRat (q : Quantity) : ℚ := q.asDec.1 * (10 : ℚ) ^ (-q.asDec.2)

/-- That number, rounded up at `digits` decimal places and counted in units of the last. -/
def ceil (digits : ℤ) (q : Quantity) : ℤ := ⌈q.toRat * 10 ^ digits⌉

theorem ceil_eq (digits : ℤ) (q : Quantity) :
    q.ceil digits = ceilShift q.asDec.1 (q.asDec.2 - digits) := by
  have hten : (10 : ℚ) ≠ 0 := by norm_num
  have hnumber : q.toRat * 10 ^ digits = q.asDec.1 * (10 : ℚ) ^ (-(q.asDec.2 - digits)) := by
    unfold toRat
    rw [mul_assoc, ← zpow_add₀ hten]
    congr 2
    ring
  unfold ceil ceilShift
  rw [hnumber]
  generalize q.asDec.2 - digits = d
  split_ifs with hd
  · obtain ⟨n, rfl⟩ := Int.eq_ofNat_of_zero_le hd.le
    have hquot : (q.asDec.1 : ℚ) * 10 ^ (-(n : ℤ)) = (q.asDec.1 : ℚ) / ((10 ^ n : ℕ) : ℚ) := by
      rw [zpow_neg, zpow_natCast, div_eq_mul_inv]
      push_cast
      rfl
    rw [hquot, Rat.ceil_intCast_div_natCast]
    norm_num
  · obtain ⟨n, hn⟩ := Int.eq_ofNat_of_zero_le (show 0 ≤ -d by omega)
    rw [hn, zpow_natCast, Int.toNat_natCast]
    exact_mod_cast Int.ceil_intCast (R := ℚ) (q.asDec.1 * 10 ^ n)

theorem ceil_nonneg {q : Quantity} (hq : 0 ≤ q.asDec.1) (digits : ℤ) : 0 ≤ q.ceil digits := by
  rw [ceil_eq]
  exact ceilShift_nonneg hq _

theorem ceil_pos {q : Quantity} (hq : 0 < q.asDec.1) (digits : ℤ) : 0 < q.ceil digits := by
  rw [ceil_eq]
  exact ceilShift_pos hq _

end Quantity

/-! ### Conversions that fit -/

/-- A conversion never rounds past the number itself. -/
theorem ceilShift_le {u d : ℤ} (hu : 0 ≤ u) (hd : 0 < d) : ceilShift u d ≤ u := by
  have hpow : (1 : ℤ) ≤ 10 ^ d.toNat := one_le_pow₀ (by norm_num)
  have hquot : -u ≤ -u / 10 ^ d.toNat := by
    rw [Int.le_ediv_iff_mul_le (by omega)]
    nlinarith
  unfold ceilShift
  rw [if_pos hd]
  omega

theorem int64MultiplyScale_fits {a b : ℤ} (ha : 0 ≤ a) (hb : 0 < b) (h : a * b < 2 ^ 63) :
    int64MultiplyScale a b = (a * b, true) := by
  have hnn : 0 ≤ a * b := by positivity
  have hleast : ¬ (a = mostNegative ∧ b ≠ 1) := by
    unfold mostNegative
    omega
  unfold int64MultiplyScale
  dsimp only
  rw [wrap64_eq (by omega) h, if_neg hleast, Int.mul_tdiv_cancel a hb.ne', beq_self_eq_true]
  exact ite_self _

theorem multiplyTens_fits {value : ℤ} (hv : 0 ≤ value) {n : ℕ} (h : value * 10 ^ n < 2 ^ 63) :
    multiplyTens value n = (value * 10 ^ n, true) := by
  induction n generalizing value with
  | zero => simp [multiplyTens]
  | succ n ih =>
    have hpow : (1 : ℤ) ≤ 10 ^ n := one_le_pow₀ (by norm_num)
    have hassoc : value * 10 ^ (n + 1) = value * 10 * 10 ^ n := by ring
    have hten : value * 10 * 1 ≤ value * 10 * 10 ^ n :=
      mul_le_mul_of_nonneg_left hpow (by omega)
    rw [multiplyTens, int64MultiplyScale_fits hv (by norm_num) (by omega)]
    rw [hassoc] at h ⊢
    exact ih (by omega) h

theorem positiveScaleInt64_fits {base : ℤ} (hbase : 0 ≤ base) {n : ℕ}
    (h : base * 10 ^ n < 2 ^ 63) : positiveScaleInt64 base n = (base * 10 ^ n, true) := by
  unfold positiveScaleInt64
  split_ifs with h0 hfast
  · simp [h0]
  · exact int64MultiplyScale_fits hbase (by positivity) h
  · exact multiplyTens_fits hbase h

/-- Past 18 zeros nothing fits. -/
theorem le_pow_of_le {n : ℕ} (h : 19 ≤ n) : (2 : ℤ) ^ 63 ≤ 10 ^ n :=
  calc (2 : ℤ) ^ 63 ≤ 10 ^ 19 := by norm_num
    _ ≤ 10 ^ n := pow_le_pow_right₀ (by norm_num) h

/-- `scaledValue` rounds up, where the result fits. -/
theorem scaledValue_eq {u d : ℤ} (hu : 0 ≤ u) (h : ceilShift u d < 2 ^ 63) :
    scaledValue u d = ceilShift u d := by
  have hceil := neg_ediv_neg u (show (0 : ℤ) < 10 ^ d.toNat by positivity)
  have hnn := ceilShift_nonneg hu d
  have hquot : 0 ≤ u / 10 ^ d.toNat := Int.ediv_nonneg hu (by positivity)
  unfold scaledValue
  split_ifs with h0 hneg hsmall
  · subst h0
    have hself : ceilShift u 0 = u := by simp [ceilShift]
    rw [hself] at h ⊢
    exact wrap64_eq (by omega) h
  · have hup : ceilShift u d = u * 10 ^ (-d).toNat := if_neg (by omega)
    rw [hup] at h hnn ⊢
    rcases hu.eq_or_lt with rfl | hpos
    · simp [wrap64]
    · -- a positive number that fits has at most 18 zeros
      have hpow : (1 : ℤ) ≤ 10 ^ (-d).toNat := one_le_pow₀ (by norm_num)
      have hle : 10 ^ (-d).toNat ≤ u * 10 ^ (-d).toNat := by nlinarith
      have hle' : u ≤ u * 10 ^ (-d).toNat := by nlinarith
      have hzeros : (-d).toNat ≤ 18 := by
        by_contra hmany
        have hbig := le_pow_of_le (n := (-d).toNat) (by omega)
        omega
      rw [pow10, if_pos hzeros, wrap64_eq (x := u) (by omega) (by omega), wrap64_eq (by omega) h]
  all_goals
    have hdown : ceilShift u d = -(-u / 10 ^ d.toNat) := if_pos (by omega)
    rw [hdown, hceil] at h hnn ⊢
    dsimp only
  · have hdivide : pow10 d.toNat = 10 ^ d.toNat := if_pos (by omega)
    rw [hdivide, wrap64_eq (x := u) (by omega) (by omega), Int.tdiv_eq_ediv_of_nonneg hu,
      Int.tmod_eq_emod_of_nonneg hu]
    split_ifs at h ⊢ with hrem
    · exact wrap64_eq (by omega) h
    · omega
  · split_ifs at h ⊢ with hrem
    · rw [wrap64_eq (x := u / _) (by omega) (by omega), wrap64_eq (by omega) h]
    · rw [add_zero] at h ⊢
      exact wrap64_eq (by omega) h

namespace Quantity

/-- **Conversions that fit are exact.** -/
theorem scaled_eq_ceil {q : Quantity} (hq : q.InRange) (hnn : 0 ≤ q.asDec.1) {digits : ℤ}
    (h : q.ceil digits < 2 ^ 63) :
    q.scaled digits = q.ceil digits := by
  rw [ceil_eq] at h ⊢
  cases q with
  | dec u k => exact scaledValue_eq hnn h
  | int64 v s =>
    obtain ⟨-, hlo, hhi⟩ := hq
    have hv : 0 ≤ v := hnn
    change ceilShift v (-s - digits) < 2 ^ 63 at h
    show (if s < -digits then _ else _) = ceilShift v (-s - digits)
    split_ifs with hs
    · have hdown : ceilShift v (-s - digits) = -(-v / 10 ^ (-s - digits).toNat) := if_pos (by omega)
      have hn : (-digits - s).toNat = (-s - digits).toNat := by omega
      rw [hdown, neg_ediv_neg v (by positivity), hn, negativeScaleInt64]
      rcases hv.eq_or_lt with rfl | hpos
      · cases (-s - digits).toNat <;> simp [divideTens]
      · rw [divideTens_pos hpos hv]
        simp
    · have hup : ceilShift v (-s - digits) = v * 10 ^ (-(-s - digits)).toNat := if_neg (by omega)
      have hn : (-(-s - digits)).toNat = (s + digits).toNat := by omega
      rw [hup, hn] at h ⊢
      rcases hv.eq_or_lt with rfl | hpos
      · rw [positiveScaleInt64_fits le_rfl (by simp)]
        simp
      · -- the scale cannot have wrapped around: such a number would not fit
        have hzeros : (s + digits).toNat ≤ 18 := by
          by_contra hmany
          have hbig := le_pow_of_le (n := (s + digits).toNat) (by omega)
          have hle : 1 * 10 ^ (s + digits).toNat ≤ v * 10 ^ (s + digits).toNat :=
            mul_le_mul_of_nonneg_right (by omega) (by positivity)
          omega
        rw [wrap32_eq (by omega) (by omega), positiveScaleInt64_fits hv h]

/-- `Value` is the conversion without decimal places. -/
theorem value_eq_scaled {q : Quantity} (hq : q.InRange) : q.value = q.scaled 0 := by
  cases q with
  | dec u k =>
    show scaledValue u k = scaledValue u (k - 0)
    rw [sub_zero]
  | int64 v s =>
    obtain ⟨-, hlo, hhi⟩ := hq
    show (if s < 0 then _ else _) = if s < -0 then _ else _
    rw [neg_zero, zero_sub, add_zero, wrap32_eq hlo hhi]

end Quantity

/-! ### Conversions to zero -/

theorem wrap64_eq_zero_iff (x : ℤ) : wrap64 x = 0 ↔ (2 ^ 64 : ℤ) ∣ x := by
  unfold wrap64
  rw [Int.bmod_def, Int.dvd_iff_emod_eq_zero]
  split <;> omega

/-- A product that is cut off to nothing: in one step it wraps around to zero; digit by digit,
    it is given up at the first overflow. -/
def Overflows (value : ℤ) (n : ℕ) : Prop :=
  if n = 1 ∨ n = 2 ∨ n = 3 ∨ n = 6 ∨ n = 9 then (2 ^ 64 : ℤ) ∣ value * 10 ^ n
  else 2 ^ 63 ≤ value * 10 ^ n

theorem multiplyTens_of_not_ok {value c : ℤ} {n : ℕ} (h : multiplyTens value n = (c, false)) :
    c = 0 := by
  induction n generalizing value with
  | zero => exact absurd (Prod.mk.inj h).2 (by simp)
  | succ n ih =>
    rw [multiplyTens] at h
    split at h
    · exact (Prod.mk.inj h).1.symm
    · exact ih h

theorem multiplyTens_eq_zero_iff {value : ℤ} (hv : 0 < value) (hlt : value < 2 ^ 63) (n : ℕ) :
    (multiplyTens value n).1 = 0 ↔ 2 ^ 63 ≤ value * 10 ^ n := by
  have hpos : 0 < value * 10 ^ n := by positivity
  cases hresult : multiplyTens value n with | mk c ok
  cases ok with
  | true =>
    obtain ⟨rfl, hfits⟩ := Quantity.multiplyTens_exact hlt hresult
    show value * 10 ^ n = 0 ↔ _
    omega
  | false =>
    obtain rfl := multiplyTens_of_not_ok hresult
    have hbig : ¬ value * 10 ^ n < 2 ^ 63 := by
      intro hfits
      rw [multiplyTens_fits hv.le hfits] at hresult
      exact absurd (Prod.mk.inj hresult).2 (by simp)
    exact ⟨fun _ => not_lt.mp hbig, fun _ => rfl⟩

theorem positiveScaleInt64_eq_zero_iff {base : ℤ} (hbase : 0 < base) (hlt : base < 2 ^ 63)
    (n : ℕ) : (positiveScaleInt64 base n).1 = 0 ↔ Overflows base n := by
  unfold positiveScaleInt64 Overflows
  by_cases h0 : n = 0
  · subst h0
    simp
    omega
  rw [if_neg h0]
  split_ifs with hfast
  · have hleast : ¬ (base = mostNegative ∧ (10 : ℤ) ^ n ≠ 1) := by
      unfold mostNegative
      omega
    have hproduct : (int64MultiplyScale base (10 ^ n)).1 = wrap64 (base * 10 ^ n) := by
      unfold int64MultiplyScale
      rw [if_neg hleast]
      split <;> rfl
    rw [hproduct, wrap64_eq_zero_iff]
  · exact multiplyTens_eq_zero_iff hbase hlt n

/-- A positive decimal that is converted to zero. -/
theorem scaledValue_eq_zero_iff {u : ℤ} (hu : 0 < u) (d : ℤ) :
    scaledValue u d = 0 ↔
      if 0 < d then (2 ^ 64 : ℤ) ∣ ceilShift u d else (2 ^ 64 : ℤ) ∣ u * pow10 (-d).toNat := by
  have hpos := ceilShift_pos hu d
  have hwrap : ∀ x y : ℤ, (2 ^ 64 : ℤ) ∣ wrap64 x * y ↔ (2 ^ 64 : ℤ) ∣ x * y := by
    intro x y
    rw [← wrap64_eq_zero_iff, ← wrap64_eq_zero_iff]
    unfold wrap64
    rw [Int.bmod_mul_bmod]
  by_cases hsmall : u < 2 ^ 63 - 1 ∧ 0 < d
  · -- rounding up stays below the number itself
    have hfits : ceilShift u d < 2 ^ 63 := lt_of_le_of_lt (ceilShift_le hu.le hsmall.2) (by omega)
    rw [if_pos hsmall.2, scaledValue_eq hu.le hfits]
    omega
  · unfold scaledValue
    split_ifs with h0 hneg hfast hd hd
    · omega
    · subst h0
      simp [pow10, wrap64_eq_zero_iff]
    · omega
    · rw [wrap64_eq_zero_iff, hwrap]
    · omega
    · omega
    · have hdown : ceilShift u d = -(-u / 10 ^ d.toNat) := if_pos (by omega)
      rw [hdown, neg_ediv_neg u (by positivity)]
      dsimp only
      split_ifs with hrem
      · rw [← wrap64_eq_zero_iff]
        unfold wrap64
        rw [Int.bmod_add_bmod]
      · rw [add_zero, wrap64_eq_zero_iff]
    · omega

namespace Quantity

/-- A positive quantity that is converted to zero: its digits do not fit, and none is left. -/
def Vanishes (digits : ℤ) : Quantity → Prop
  | .int64 value scale => -digits ≤ scale ∧ Overflows value (wrap32 (scale + digits)).toNat
  | .dec unscaled scale =>
    if digits < scale then (2 ^ 64 : ℤ) ∣ ceilShift unscaled (scale - digits)
    else (2 ^ 64 : ℤ) ∣ unscaled * pow10 (digits - scale).toNat

/-- **Which quantities are converted to zero.** -/
theorem scaled_eq_zero_iff {q : Quantity} (hq : q.InRange) (hpos : 0 < q.asDec.1) (digits : ℤ) :
    q.scaled digits = 0 ↔ q.Vanishes digits := by
  cases q with
  | dec u k =>
    show scaledValue u (k - digits) = 0 ↔ if digits < k then _ else _
    have hu : 0 < u := hpos
    simp only [scaledValue_eq_zero_iff hu, neg_sub, sub_pos]
  | int64 v s =>
    obtain ⟨⟨-, hlt⟩, -, -⟩ := hq
    have hv : 0 < v := hpos
    show (if s < -digits then _ else _) = 0 ↔ -digits ≤ s ∧ _
    split_ifs with hs
    · -- rounding up leaves at least one
      have hdown : negativeScaleInt64 v (-digits - s).toNat ≠ 0 := by
        rw [negativeScaleInt64, divideTens_pos hv hv.le]
        have hceil := ceilShift_pos hv (-digits - s)
        rw [ceilShift, if_pos (by omega), neg_ediv_neg v (by positivity)] at hceil
        simp only [Bool.false_eq_true, false_or]
        omega
      exact ⟨fun h => absurd h hdown, fun h => absurd h.1 (by omega)⟩
    · rw [positiveScaleInt64_eq_zero_iff hv hlt]
      exact ⟨fun h => ⟨by omega, h⟩, fun h => h.2⟩

end Quantity

end Resource
