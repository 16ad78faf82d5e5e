import CheckpointRestore.Lib.Ints

namespace Resource

open Go

/-!
# `resource.Quantity` — the vendored fixed-point numbers

A quantity is an `int64` with a decimal exponent, or, where that does not fit, an
arbitrary-precision decimal (`inf.Dec`, whose scale has the opposite sign).  The operations are
those of `amount.go`, `math.go`, `scale_int.go` and `quantity.go`, with their overflows.

* `Quantity.value` — `Value()`: rounded away from zero, `0` or wrapped where it does not fit;
* `Quantity.milliValue` — `MilliValue()`, the same in thousandths;
* `Quantity.cmp`, `Quantity.add`, `Quantity.sub`.
-/

/-- `resource.Quantity`, without its format and cached text. -/
inductive Quantity where
  | int64 (value scale : ℤ)
  | dec (unscaled scale : ℤ)
  deriving DecidableEq

/-! ### `int64` arithmetic with overflow checks -/

/-- `mostNegative`. -/
def mostNegative : ℤ := -2 ^ 63

/-- `int64Add`. -/
def int64Add (a b : ℤ) : Option ℤ :=
  let c := wrap64 (a + b)
  if 0 < a ∧ 0 < b then (if c < 0 then none else some c)
  else if a < 0 ∧ b < 0 then
    if c > 0 then none
    else if a = mostNegative ∧ b = mostNegative then none
    else some c
  else some c

/-- `int64MultiplyScale`, and its versions for 10, 100 and 1000: the product and whether it
    fits. -/
def int64MultiplyScale (a b : ℤ) : ℤ × Bool :=
  if a = 0 ∨ a = 1 then (wrap64 (a * b), true)
  else if a = mostNegative ∧ b ≠ 1 then (0, false)
  else
    let c := wrap64 (a * b)
    (c, c.tdiv b == a)

/-- The loop of `positiveScaleInt64`. -/
def multiplyTens (value : ℤ) : ℕ → ℤ × Bool
  | 0 => (value, true)
  | n + 1 =>
    match int64MultiplyScale value 10 with
    | (_, false) => (0, false)
    | (value, true) => multiplyTens value n

/-- `positiveScaleInt64`. -/
def positiveScaleInt64 (base : ℤ) (scale : ℕ) : ℤ × Bool :=
  if scale = 0 then (base, true)
  else if scale = 1 ∨ scale = 2 ∨ scale = 3 ∨ scale = 6 ∨ scale = 9 then
    int64MultiplyScale base (10 ^ scale)
  else multiplyTens base scale

/-- The loop of `negativeScaleInt64`; `fraction` is whether a digit other than zero was cut
    off. -/
def divideTens (base value : ℤ) (fraction : Bool) : ℕ → ℤ
  | 0 => if fraction then (if base > 0 then value + 1 else value - 1) else value
  | n + 1 =>
    let fraction := fraction || value.tmod 10 != 0
    let value := value.tdiv 10
    if value = 0 then (if fraction then (if base > 0 then 1 else -1) else 0)
    else divideTens base value fraction n

/-- `negativeScaleInt64`, without its second result. -/
def negativeScaleInt64 (base : ℤ) (scale : ℕ) : ℤ := divideTens base base false scale

/-- `divideByScaleInt64`: quotient and remainder, `none` where it is not exact. -/
def divideByScaleInt64 (base : ℤ) (scale : ℕ) : Option (ℤ × ℤ) :=
  if scale = 0 then some (base, 0)
  else if scale ≥ 18 then none
  else some (base.tdiv (10 ^ scale), base.tmod (10 ^ scale))

/-! ### Decimals -/

/-- `int64(math.Pow10(n))`; past the largest `int64` as amd64 converts. -/
def pow10 (n : ℕ) : ℤ := if n ≤ 18 then 10 ^ n else mostNegative

/-- `scaledValue` at scale 0. -/
def scaledValue (unscaled scale : ℤ) : ℤ :=
  if scale = 0 then wrap64 unscaled
  else if scale < 0 then wrap64 (wrap64 unscaled * pow10 (-scale).toNat)
  else if unscaled < 2 ^ 63 - 1 ∧ scale < 19 then
    let divide := pow10 scale.toNat
    let result := (wrap64 unscaled).tdiv divide
    if (wrap64 unscaled).tmod divide ≠ 0 then wrap64 (result + 1) else result
  else
    let divisor : ℤ := 10 ^ scale.toNat
    if unscaled % divisor ≠ 0 then wrap64 (wrap64 (unscaled / divisor) + 1)
    else wrap64 (unscaled / divisor)

/-- The unscaled value at a finer scale. -/
def rescale (unscaled scale newScale : ℤ) : ℤ := unscaled * 10 ^ (newScale - scale).toNat

/-- `inf.Dec.Cmp`. -/
def decCmp (u₁ s₁ u₂ s₂ : ℤ) : Ordering :=
  compare (rescale u₁ s₁ (max s₁ s₂)) (rescale u₂ s₂ (max s₁ s₂))

/-! ### Quantities -/

namespace Quantity

/-- `resource.NewQuantity`. -/
def new (value : ℤ) : Quantity := .int64 value 0

/-- `AsDec`: unscaled value and scale. -/
def asDec : Quantity → ℤ × ℤ
  | .int64 value scale => (value, -scale)
  | .dec unscaled scale => (unscaled, scale)

/-- `Value`. -/
def value : Quantity → ℤ
  | .int64 value scale =>
    if scale < 0 then negativeScaleInt64 value (-scale).toNat
    else (positiveScaleInt64 value scale.toNat).1
  | .dec unscaled scale => scaledValue unscaled scale

/-- `IsZero`: of the exact quantity. -/
def isZero : Quantity → Bool
  | .int64 value _ => value == 0
  | .dec unscaled _ => unscaled == 0

/-- `ScaledValue` at the scale of `digits` decimal places.  The scales are `int32`, and a
    negative scale leaves `positiveScaleInt64` without a turn of its loop. -/
def scaled (digits : ℤ) : Quantity → ℤ
  | .int64 value scale =>
    if scale < -digits then negativeScaleInt64 value (-digits - scale).toNat
    else (positiveScaleInt64 value (wrap32 (scale + digits)).toNat).1
  | .dec unscaled scale => scaledValue unscaled (scale - digits)

/-- `MilliValue`. -/
def milliValue : Quantity → ℤ := scaled 3

/-- Compare `a` with the quotient `q` of the other value, then by the remainder. -/
def cmpQuotient (a q remainder : ℤ) : Ordering :=
  if q = a then compare 0 remainder else compare a q

/-- `int64Amount.Cmp`.  The scales are `int32`, and so is their difference; where it wraps to a
    negative one, the source divides by zero. -/
def cmpInt64 (v₁ s₁ v₂ s₂ : ℤ) : Ordering :=
  if s₁ = s₂ then compare v₁ v₂
  else if s₁ > s₂ then
    match divideByScaleInt64 v₂ (wrap32 (s₁ - s₂)).toNat with
    | none => decCmp v₁ (-s₁) v₂ (-s₂)
    | some (q, remainder) => cmpQuotient v₁ q remainder
  else
    match divideByScaleInt64 v₁ (wrap32 (s₂ - s₁)).toNat with
    | none => decCmp v₁ (-s₁) v₂ (-s₂)
    | some (q, remainder) => (cmpQuotient v₂ q remainder).swap

/-- `Cmp`. -/
def cmp : Quantity → Quantity → Ordering
  | .int64 v₁ s₁, .int64 v₂ s₂ => cmpInt64 v₁ s₁ v₂ s₂
  | x, y => decCmp x.asDec.1 x.asDec.2 y.asDec.1 y.asDec.2

/-- `int64Amount.Add`; `none` where it overflows.  A difference of the scales that wraps to a
    negative one leaves the value as it is. -/
def addInt64 (v₁ s₁ v₂ s₂ : ℤ) : Option Quantity :=
  if v₂ = 0 then some (.int64 v₁ s₁)
  else if v₁ = 0 then some (.int64 v₂ s₂)
  else if s₁ = s₂ then (int64Add v₁ v₂).map (.int64 · s₁)
  else if s₁ > s₂ then
    match positiveScaleInt64 v₁ (wrap32 (s₁ - s₂)).toNat with
    | (_, false) => none
    | (c, true) => (int64Add c v₂).map (.int64 · s₂)
  else
    match positiveScaleInt64 v₂ (wrap32 (s₂ - s₁)).toNat with
    | (_, false) => none
    | (c, true) => (int64Add v₁ c).map (.int64 · s₁)

/-- `inf.Dec.Add`. -/
def addDec (u₁ s₁ u₂ s₂ : ℤ) : Quantity :=
  .dec (rescale u₁ s₁ (max s₁ s₂) + rescale u₂ s₂ (max s₁ s₂)) (max s₁ s₂)

/-- `Add`. -/
def add : Quantity → Quantity → Quantity
  | .int64 v₁ s₁, .int64 v₂ s₂ => (addInt64 v₁ s₁ v₂ s₂).getD (addDec v₁ (-s₁) v₂ (-s₂))
  | x, y => addDec x.asDec.1 x.asDec.2 y.asDec.1 y.asDec.2

/-- `Sub`. -/
def sub : Quantity → Quantity → Quantity
  | .int64 v₁ s₁, .int64 v₂ s₂ =>
    (addInt64 v₁ s₁ (wrap64 (-v₂)) s₂).getD (addDec v₁ (-s₁) (-v₂) (-s₂))
  | x, y => addDec x.asDec.1 x.asDec.2 (-y.asDec.1) y.asDec.2

end Quantity

end Resource
