import Mathlib.Tactic.Linarith
import Mathlib.Tactic.Push
import CheckpointRestore.Lib.Quantity

namespace Resource

open Go

/-!
# Quantities against whole numbers

Sizes are whole numbers; a limit is any quantity.  What the operations of `Quantity.lean` come
to when a limit is compared with a size or taken from one.

* `Quantity.Below` — the quantity is less than a whole number, by cross-multiplication;
* `Quantity.cmp_new_lt_iff` — `Cmp` decides it;
* `Quantity.add_new`, `Quantity.sub_new` — totals below `2 ^ 63` are exact;
* `Quantity.excess_covers`, `Quantity.not_below_of_excess` — the excess of a total over a limit,
  rounded up, is enough to bring the total down to the limit.
-/

/-! ### Wrapping and dividing -/

theorem wrap64_eq {x : ℤ} (h₁ : -2 ^ 63 ≤ x) (h₂ : x < 2 ^ 63) : wrap64 x = x := by
  unfold wrap64
  rw [Int.bmod_def]
  split <;> omega

theorem wrap64_lt (x : ℤ) : wrap64 x < 2 ^ 63 := by
  unfold wrap64
  rw [Int.bmod_def]
  split <;> omega

variable {b : ℤ}

/-- Quotient and remainder towards zero. -/
theorem tdiv_tmod_bounds (a : ℤ) (hb : 0 < b) :
    a = a.tdiv b * b + a.tmod b ∧ -b < a.tmod b ∧ a.tmod b < b ∧ (0 ≤ a → 0 ≤ a.tmod b) := by
  have hsum := Int.tmod_add_tdiv_mul a b
  exact ⟨by omega, Int.lt_tmod_of_pos a hb, Int.tmod_lt_of_pos a hb, fun ha => Int.tmod_nonneg b ha⟩

/-! ### Comparing -/

namespace Quantity

/-- The quantity, an unscaled value over a power of ten, is less than `n`. -/
def Below (q : Quantity) (n : ℤ) : Prop :=
  q.asDec.1 * 10 ^ (-q.asDec.2).toNat < n * 10 ^ q.asDec.2.toNat

theorem decCmp_zero_lt_iff (u k n : ℤ) :
    decCmp u k n 0 = .lt ↔ u * 10 ^ (-k).toNat < n * 10 ^ k.toNat := by
  have h₁ : (max k 0 - k).toNat = (-k).toNat := by omega
  have h₂ : (max k 0 - 0).toNat = k.toNat := by omega
  unfold decCmp rescale
  rw [compare_lt_iff_lt, h₁, h₂]

variable {a r : ℤ}

/-- A quotient and what is left of it decide like the number itself. -/
theorem cmpQuotient_lt_iff {q : ℤ} (hr₀ : 0 ≤ r) (hr : r < b) :
    cmpQuotient a q r = .lt ↔ a * b < q * b + r := by
  unfold cmpQuotient
  have hb : 0 < b := by omega
  split_ifs with h
  · subst h
    rw [compare_lt_iff_lt]
    omega
  · rw [compare_lt_iff_lt]
    constructor
    · intro hlt
      have hmul : a * b < q * b := mul_lt_mul_of_pos_right hlt hb
      omega
    · intro hlt
      by_contra hge
      have hqa : q + 1 ≤ a := by omega
      have hmul : (q + 1) * b ≤ a * b := mul_le_mul_of_nonneg_right hqa hb.le
      have hexp : (q + 1) * b = q * b + b := by ring
      omega

theorem cmpQuotient_gt_iff {q : ℤ} (hr₀ : -b < r) (hr : r < b) :
    cmpQuotient a q r = .gt ↔ q * b + r < a * b := by
  unfold cmpQuotient
  have hb : 0 < b := by omega
  split_ifs with h
  · subst h
    rw [compare_gt_iff_gt]
    omega
  · rw [compare_gt_iff_gt]
    constructor
    · intro hlt
      have hqa : q + 1 ≤ a := by omega
      have hmul : (q + 1) * b ≤ a * b := mul_le_mul_of_nonneg_right hqa hb.le
      have hexp : (q + 1) * b = q * b + b := by ring
      omega
    · intro hlt
      by_contra hge
      have hqa : a + 1 ≤ q := by omega
      have hmul : (a + 1) * b ≤ q * b := mul_le_mul_of_nonneg_right hqa hb.le
      have hexp : (a + 1) * b = a * b + b := by ring
      omega

/-- The value is an `int64`, and the scale an `int32` that can be negated. -/
def Representable : Quantity → Prop
  | .int64 value scale => (-2 ^ 63 ≤ value ∧ value < 2 ^ 63) ∧ -2 ^ 31 < scale ∧ scale < 2 ^ 31
  | .dec _ _ => True

variable {q : Quantity} {n : ℤ}

/-- **`Cmp` with a whole number is exact.** -/
theorem cmp_new_lt_iff (hq : q.Representable) (hn : 0 ≤ n) : q.cmp (.new n) = .lt ↔ q.Below n := by
  cases q with
  | dec u k => exact decCmp_zero_lt_iff u k n
  | int64 v s =>
    obtain ⟨-, hlo, hhi⟩ := hq
    show cmpInt64 v s n 0 = .lt ↔ v * 10 ^ (- -s).toNat < n * 10 ^ (-s).toNat
    unfold cmpInt64
    rw [wrap32_eq (by omega) (by omega), wrap32_eq (by omega) (by omega)]
    split_ifs with hz hpos
    · subst hz
      simp [compare_lt_iff_lt]
    · -- a coarser scale: the whole number is divided
      have hs : (-s).toNat = 0 := by omega
      cases hdiv : divideByScaleInt64 n (s - 0).toNat with
      | none =>
        dsimp only
        rw [neg_zero, decCmp_zero_lt_iff]
      | some qr =>
        obtain ⟨q, r⟩ := qr
        have hscale : (- -s).toNat = (s - 0).toNat := by omega
        unfold divideByScaleInt64 at hdiv
        split_ifs at hdiv with h0 h18
        · omega
        · obtain ⟨rfl, rfl⟩ := Prod.mk.inj (Option.some.inj hdiv)
          obtain ⟨heq, -, hlt, hnn⟩ := tdiv_tmod_bounds n (b := 10 ^ (s - 0).toNat) (by positivity)
          dsimp only
          rw [cmpQuotient_lt_iff (hnn hn) hlt, ← heq, hs, hscale]
          simp
    · -- a finer scale: the quantity is divided
      have hs : (- -s).toNat = 0 := by omega
      cases hdiv : divideByScaleInt64 v (0 - s).toNat with
      | none =>
        dsimp only
        rw [neg_zero, decCmp_zero_lt_iff]
      | some qr =>
        obtain ⟨q, r⟩ := qr
        have hscale : (-s).toNat = (0 - s).toNat := by omega
        unfold divideByScaleInt64 at hdiv
        split_ifs at hdiv with h0 h18
        · omega
        · obtain ⟨rfl, rfl⟩ := Prod.mk.inj (Option.some.inj hdiv)
          obtain ⟨heq, hgt, hlt, -⟩ := tdiv_tmod_bounds v (b := 10 ^ (0 - s).toNat) (by positivity)
          dsimp only
          rw [Ordering.swap_eq_lt, cmpQuotient_gt_iff hgt hlt, ← heq, hs, hscale]
          simp

variable {m : ℤ}

/-- A smaller number is not above a limit that a larger one is not above. -/
theorem Below.mono (h : q.Below m) (hmn : m ≤ n) : q.Below n := by
  unfold Below at h ⊢
  have hmul : m * 10 ^ q.asDec.2.toNat ≤ n * 10 ^ q.asDec.2.toNat :=
    mul_le_mul_of_nonneg_right hmn (by positivity)
  omega

/-! ### Totals -/

theorem value_new (n : ℤ) : (Quantity.int64 n 0).value = n := by
  simp [value, positiveScaleInt64]

/-- Adding a size to a total below `2 ^ 63`. -/
theorem add_new (hm : 0 ≤ m) (hn : 0 ≤ n) (h : m + n < 2 ^ 63) :
    (Quantity.new m).add (.new n) = .new (m + n) := by
  have hwrap : wrap64 (m + n) = m + n := wrap64_eq (by omega) h
  show (addInt64 m 0 n 0).getD _ = .int64 (m + n) 0
  unfold addInt64 int64Add
  by_cases hn0 : n = 0
  · simp [hn0]
  · by_cases hm0 : m = 0
    · simp [hm0, hn0]
    · have hboth : 0 < m ∧ 0 < n := by omega
      have hnneg : ¬ m + n < 0 := by omega
      simp [hn0, hm0, hboth, hwrap, hnneg]

/-- Taking a size off a total. -/
theorem sub_new (hn : 0 ≤ n) (hmn : n ≤ m) (h : m < 2 ^ 63) :
    (Quantity.new m).sub (.new n) = .new (m - n) := by
  have hneg : wrap64 (-n) = -n := wrap64_eq (by omega) (by omega)
  have hwrap : wrap64 (m + -n) = m - n := by rw [wrap64_eq (by omega) (by omega)]; omega
  show (addInt64 m 0 (wrap64 (-n)) 0).getD _ = .int64 (m - n) 0
  unfold addInt64 int64Add
  rw [hneg]
  by_cases hn0 : n = 0
  · simp [hn0]
  · have hm0 : m ≠ 0 := by omega
    have hnpos : ¬ (0 < m ∧ 0 < -n) := by omega
    have hmneg : ¬ (m < 0 ∧ -n < 0) := by omega
    simp only [neg_eq_zero, hn0, hm0, hnpos, hmneg, hwrap, if_false, if_true, Option.map_some,
      Option.getD_some]

/-! ### The excess over a limit -/

/-- `value` is at least `n / d`, and fits. -/
def CoversRatio (value n d : ℤ) : Prop := n ≤ value * d ∧ 0 < value ∧ value < 2 ^ 63

/-- Rounding a positive ratio below `2 ^ 63` up. -/
theorem coversRatio_ceil {d : ℤ} (hd : 0 < d) (hn : 0 < n) (hm : n ≤ m * d) (h : m < 2 ^ 63)
    {q : ℤ} (heq : n = q * d + r) (hr₀ : 0 ≤ r) (hr : r < d) :
    CoversRatio (if r ≠ 0 then q + 1 else q) n d := by
  have hq₀ : 0 ≤ q := by
    by_contra hneg
    have hmul : (q + 1) * d ≤ 0 * d := mul_le_mul_of_nonneg_right (by omega) hd.le
    have hexp : (q + 1) * d = q * d + d := by ring
    omega
  have hqm : q ≤ m := by
    by_contra hlt
    have hmul : (m + 1) * d ≤ q * d := mul_le_mul_of_nonneg_right (by omega) hd.le
    have hexp : (m + 1) * d = m * d + d := by ring
    omega
  split_ifs with hrem
  · have hqm' : q ≠ m := by
      rintro rfl
      omega
    have hexp : (q + 1) * d = q * d + d := by ring
    exact ⟨by omega, by omega, by omega⟩
  · have hr0 : r = 0 := not_not.mp hrem
    have hq : q ≠ 0 := by
      rintro rfl
      omega
    exact ⟨by omega, by omega, by omega⟩

/-- `Value` of a positive decimal that is at most `m`. -/
theorem scaledValue_covers {u k : ℤ} (hk : 0 ≤ k) (hu : 0 < u) (hm : u ≤ m * 10 ^ k.toNat)
    (h : m < 2 ^ 63) : CoversRatio (scaledValue u k) u (10 ^ k.toNat) := by
  have hd : (0 : ℤ) < 10 ^ k.toNat := by positivity
  unfold scaledValue
  split_ifs with h0 hneg hsmall
  · subst h0
    have hum : u ≤ m := by simpa using hm
    rw [wrap64_eq (by omega) (by omega)]
    exact ⟨by simp, hu, by omega⟩
  · omega
  · -- the fast path of `scaledValue`, on `int64`
    have hpow : pow10 k.toNat = 10 ^ k.toNat := if_pos (by omega)
    obtain ⟨heq, -, hlt, hnn⟩ := tdiv_tmod_bounds u hd
    have hcov := coversRatio_ceil hd hu hm h heq (hnn hu.le) hlt
    rw [wrap64_eq (by omega) (by omega), hpow]
    dsimp only
    split_ifs at hcov ⊢ with hrem
    · have hpos := hcov.2.1
      rw [wrap64_eq (by omega) hcov.2.2]
      exact hcov
    · exact hcov
  · have heq : u = u / 10 ^ k.toNat * 10 ^ k.toNat + u % 10 ^ k.toNat := by
      rw [mul_comm]
      exact (Int.mul_ediv_add_emod u _).symm
    have hcov := coversRatio_ceil hd hu hm h heq (Int.emod_nonneg _ hd.ne')
      (Int.emod_lt_of_pos _ hd)
    have hq₀ : 0 ≤ u / 10 ^ k.toNat := Int.ediv_nonneg hu.le hd.le
    dsimp only
    split_ifs at hcov ⊢ with hrem
    · have hfits := hcov.2.2
      rw [wrap64_eq (x := u / _) (by omega) (by omega), wrap64_eq (by omega) hfits]
      exact hcov
    · rw [wrap64_eq (by omega) hcov.2.2]
      exact hcov

variable {c : ℤ}

/-- A product whose check succeeds is exact. -/
theorem int64MultiplyScale_exact (hb : 0 < b ∧ b ≤ 10 ^ 9)
    (h : int64MultiplyScale a b = (c, true)) : c = a * b ∧ c < 2 ^ 63 := by
  unfold int64MultiplyScale at h
  split_ifs at h with h01 hmost
  · obtain ⟨rfl, -⟩ := Prod.mk.inj h
    refine ⟨?_, wrap64_lt _⟩
    rcases h01 with rfl | rfl
    · exact wrap64_eq (by omega) (by omega)
    · exact wrap64_eq (by omega) (by omega)
  · exact absurd (Prod.mk.inj h).2 (by simp)
  · obtain ⟨rfl, hcheck⟩ := Prod.mk.inj h
    have hquot : (wrap64 (a * b)).tdiv b = a := by simpa using hcheck
    obtain ⟨heq, hlo, hhi, -⟩ := tdiv_tmod_bounds (wrap64 (a * b)) hb.1
    rw [hquot] at heq
    -- the remainder is a multiple of 2 ^ 64 and smaller than b
    have hmod : (2 ^ 64 : ℤ) ∣ wrap64 (a * b) - a * b := by
      unfold wrap64
      rw [Int.bmod_def]
      have hdiv := Int.mul_ediv_add_emod (a * b) (2 ^ 64)
      split
      · exact ⟨-(a * b / 2 ^ 64), by push_cast at *; omega⟩
      · exact ⟨-(a * b / 2 ^ 64) - 1, by push_cast at *; omega⟩
    exact ⟨by omega, wrap64_lt _⟩

/-- The loop multiplies exactly, or says it did not. -/
theorem multiplyTens_exact {value : ℤ} (hv : value < 2 ^ 63) {n : ℕ}
    (h : multiplyTens value n = (c, true)) : c = value * 10 ^ n ∧ c < 2 ^ 63 := by
  induction n generalizing value with
  | zero =>
    obtain ⟨rfl, -⟩ := Prod.mk.inj h
    exact ⟨by simp, hv⟩
  | succ n ih =>
    rw [multiplyTens] at h
    split at h
    · exact absurd (Prod.mk.inj h).2 (by simp)
    · rename_i v hstep
      obtain ⟨rfl, hlt⟩ := int64MultiplyScale_exact (by omega) hstep
      obtain ⟨rfl, hc⟩ := ih hlt h
      exact ⟨by ring, hc⟩

theorem positiveScaleInt64_exact {base : ℤ} (hbase : base < 2 ^ 63) {scale : ℕ}
    (h : positiveScaleInt64 base scale = (c, true)) : c = base * 10 ^ scale ∧ c < 2 ^ 63 := by
  unfold positiveScaleInt64 at h
  split_ifs at h with h0 hfast
  · obtain ⟨rfl, -⟩ := Prod.mk.inj h
    exact ⟨by simp [h0], hbase⟩
  · refine int64MultiplyScale_exact ⟨by positivity, ?_⟩ h
    rcases hfast with rfl | rfl | rfl | rfl | rfl <;> norm_num
  · exact multiplyTens_exact hbase h

/-- The division loop rounds a positive value up. -/
theorem divideTens_pos {base value : ℤ} (hbase : 0 < base) (hv : 0 ≤ value) (fraction : Bool)
    (n : ℕ) : divideTens base value fraction n
      = value / 10 ^ n + if fraction = true ∨ value % 10 ^ n ≠ 0 then 1 else 0 := by
  induction n generalizing value fraction with
  | zero => cases fraction <;> simp [divideTens, hbase]
  | succ n ih =>
    have hquot : value.tdiv 10 = value / 10 := Int.tdiv_eq_ediv_of_nonneg hv
    have hrem : value.tmod 10 = value % 10 := Int.tmod_eq_emod_of_nonneg hv
    have hdiv : value / 10 / 10 ^ n = value / 10 ^ (n + 1) := by
      rw [Int.ediv_ediv_of_nonneg (by norm_num), pow_succ, mul_comm]
    have hpos : (0 : ℤ) < 10 ^ n := by positivity
    -- the digits that are cut off: the last one, and those of the quotient
    have hmod : value % 10 ^ (n + 1) = value % 10 + 10 * (value / 10 % 10 ^ n) := by
      obtain ⟨w, rfl⟩ := Int.eq_ofNat_of_zero_le hv
      rw [pow_succ, mul_comm]
      exact_mod_cast Nat.mod_mul
    have hfrac : (fraction || value % 10 != 0) = true ∨ value / 10 % 10 ^ n ≠ 0 ↔
        fraction = true ∨ value % 10 ^ (n + 1) ≠ 0 := by
      have h10 := Int.emod_nonneg value (b := 10) (by norm_num)
      have hn := Int.emod_nonneg (value / 10) hpos.ne'
      rw [hmod, Bool.or_eq_true, bne_iff_ne, or_assoc]
      refine or_congr_right ?_
      omega
    rw [divideTens, hquot, hrem, ← hdiv, if_pos hbase]
    simp only [← hfrac]
    by_cases h0 : value / 10 = 0
    · rw [if_pos h0, h0]
      simp
    · rw [if_neg h0]
      exact ih (by omega) _

/-- `Value` of a positive `int64` amount with a negative scale that is at most `m`. -/
theorem negativeScaleInt64_covers {v : ℤ} {k : ℕ} (hv : 0 < v) (hm : v ≤ m * 10 ^ k)
    (h : m < 2 ^ 63) : CoversRatio (negativeScaleInt64 v k) v (10 ^ k) := by
  have hd : (0 : ℤ) < 10 ^ k := by positivity
  have heq : v = v / 10 ^ k * 10 ^ k + v % 10 ^ k := by
    rw [mul_comm]
    exact (Int.mul_ediv_add_emod v _).symm
  have hcov := coversRatio_ceil hd hv hm h heq (Int.emod_nonneg _ hd.ne') (Int.emod_lt_of_pos _ hd)
  unfold negativeScaleInt64
  rw [divideTens_pos hv hv.le]
  by_cases hrem : v % 10 ^ k = 0
  · rw [if_neg (by simp [hrem])] at hcov ⊢
    rwa [add_zero]
  · rw [if_pos hrem] at hcov
    rwa [if_pos (Or.inr hrem)]

/-- The difference of decimals. -/
theorem addDec_covers {u k : ℤ} (hu : 0 ≤ u) (hn : n < 2 ^ 63)
    (hbelow : u * 10 ^ (-k).toNat < n * 10 ^ k.toNat) :
    CoversRatio (addDec n 0 (-u) k).value (n * 10 ^ k.toNat - u * 10 ^ (-k).toNat)
      (10 ^ k.toNat) := by
  have h₁ : (max 0 k - 0).toNat = k.toNat := by omega
  have h₂ : (max 0 k - k).toNat = (-k).toNat := by omega
  have h₃ : (max 0 k).toNat = k.toNat := by omega
  have hvalue : (addDec n 0 (-u) k).value
      = scaledValue (n * 10 ^ k.toNat - u * 10 ^ (-k).toNat) (max 0 k) := by
    unfold addDec rescale
    rw [h₁, h₂, neg_mul, ← sub_eq_add_neg]
    rfl
  have hnn : 0 ≤ u * 10 ^ (-k).toNat := mul_nonneg hu (by positivity)
  have hcov := scaledValue_covers (m := n) (le_max_left 0 k) (sub_pos.mpr hbelow)
    (by rw [h₃]; omega) hn
  rw [hvalue]
  rwa [h₃] at hcov

/-- Of two numbers that do not both have one sign, the sum fits. -/
theorem int64Add_sub (hb : 0 ≤ b) (hab : b < a) (ha : a < 2 ^ 63) :
    int64Add a (-b) = some (a - b) := by
  have hwrap : wrap64 (a + -b) = a - b := by rw [wrap64_eq (by omega) (by omega)]; omega
  unfold int64Add
  dsimp only
  rw [if_neg (by omega), if_neg (by omega), hwrap]

/-- **The excess is enough.**  Of a total above a limit that is not negative, `Sub` and `Value`
    give a number that fits and covers the difference: once as much is gone, the total is not
    above the limit. -/
theorem excess_covers (hq : q.Representable) (hnn : 0 ≤ q.asDec.1) (hbelow : q.Below n)
    (hn : n < 2 ^ 63) :
    CoversRatio ((Quantity.new n).sub q).value
      (n * 10 ^ q.asDec.2.toNat - q.asDec.1 * 10 ^ (-q.asDec.2).toNat) (10 ^ q.asDec.2.toNat) := by
  cases q with
  | dec u k => exact addDec_covers hnn hn hbelow
  | int64 v s =>
    have hv : 0 ≤ v := hnn
    obtain ⟨hvq, hlo, hhi⟩ := hq
    have hlt : v * 10 ^ (- -s).toNat < n * 10 ^ (-s).toNat := hbelow
    have hdec := addDec_covers hv hn hlt
    have hnpos : 0 < n := by
      have hnonneg : 0 ≤ v * 10 ^ (- -s).toNat := mul_nonneg hv (by positivity)
      exact pos_of_mul_pos_left (by omega) (by positivity : (0 : ℤ) ≤ 10 ^ (-s).toNat)
    show CoversRatio ((addInt64 n 0 (wrap64 (-v)) s).getD (addDec n (-0) (-v) (-s))).value
      (n * 10 ^ (-s).toNat - v * 10 ^ (- -s).toNat) (10 ^ (-s).toNat)
    rw [wrap64_eq (by omega) (by omega), neg_zero]
    cases hsum : addInt64 n 0 (-v) s with
    | none => exact hdec
    | some r =>
      rw [Option.getD_some]
      unfold addInt64 at hsum
      rw [wrap32_eq (by omega) (by omega), wrap32_eq (by omega) (by omega)] at hsum
      split_ifs at hsum with hv0 hn0 hs0 hneg
      · -- the limit is zero
        obtain rfl := Option.some.inj hsum
        have hv0' : v = 0 := by omega
        rw [value_new, hv0', zero_mul, sub_zero]
        exact ⟨le_rfl, hnpos, hn⟩
      · omega
      · subst hs0
        have hlt' : v < n := by simpa using hlt
        rw [int64Add_sub hv hlt' hn] at hsum
        obtain rfl := Option.some.inj hsum
        rw [value_new]
        exact ⟨by simp, by omega, by omega⟩
      · -- a finer scale: the total is multiplied
        split at hsum
        · exact absurd hsum (by simp)
        · rename_i c hscale
          have hk : (- -s).toNat = 0 := by omega
          have hk' : (0 - s).toNat = (-s).toNat := by omega
          obtain ⟨rfl, hc⟩ := positiveScaleInt64_exact hn hscale
          rw [hk] at hlt ⊢
          rw [hk'] at hc hsum
          rw [int64Add_sub hv (by simpa using hlt) hc] at hsum
          obtain rfl := Option.some.inj hsum
          have hvalue : (Quantity.int64 (n * 10 ^ (-s).toNat - v) s).value
              = negativeScaleInt64 (n * 10 ^ (-s).toNat - v) (-s).toNat := if_pos (by omega)
          rw [hvalue, pow_zero, mul_one]
          refine negativeScaleInt64_covers (m := n) ?_ (by omega) hn
          simpa using hlt
      · -- a coarser scale: the limit is multiplied
        split at hsum
        · exact absurd hsum (by simp)
        · rename_i c hscale
          have hk : (-s).toNat = 0 := by omega
          have hk' : (s - 0).toNat = (- -s).toNat := by omega
          obtain ⟨rfl, -⟩ := positiveScaleInt64_exact (by omega) hscale
          rw [hk, pow_zero, mul_one] at hlt ⊢
          rw [hk', neg_mul, int64Add_sub (mul_nonneg hv (by positivity)) hlt hn] at hsum
          obtain rfl := Option.some.inj hsum
          have hnn' : 0 ≤ v * 10 ^ (- -s).toNat := mul_nonneg hv (by positivity)
          rw [value_new]
          exact ⟨by simp, by omega, by omega⟩

/-- Once the excess is gone, the total is not above the limit. -/
theorem not_below_of_excess (hq : q.Representable) (hnn : 0 ≤ q.asDec.1) (hbelow : q.Below n)
    (hn : n < 2 ^ 63) (hm : ((Quantity.new n).sub q).value ≤ m) : ¬ q.Below (n - m) := by
  obtain ⟨hcov, -, -⟩ := excess_covers hq hnn hbelow hn
  have hmul : ((Quantity.new n).sub q).value * 10 ^ q.asDec.2.toNat ≤ m * 10 ^ q.asDec.2.toNat :=
    mul_le_mul_of_nonneg_right hm (by positivity)
  unfold Below
  rw [sub_mul]
  omega

end Quantity

end Resource
