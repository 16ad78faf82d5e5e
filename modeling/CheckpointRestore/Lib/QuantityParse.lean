import CheckpointRestore.Lib.Quantity
import Mathlib.Tactic.NormNum

namespace Resource

open Go

/-!
# `resource.ParseQuantity` — from text to a quantity

A quantity is written as a sign, digits with an optional point, and a suffix: a power of ten by
its letter, a power of two by its letters, or an exponent.  Short numbers become an `int64`
amount; the others a decimal, rounded up to nanos.

* `parseQuantityString` — the parts of the text;
* `interpret` — base, exponent and format of a suffix;
* `parseQuantity` — the fast path and the decimal one;
* `parseQuantity_inRange` — what is accepted fits its fields.
-/

/-- `ErrFormatWrong`, `ErrNumeric` and `ErrSuffix`; the last is no error but a run-time panic,
    of `inf.exp10` at the least `int32`. -/
inductive ParseError where
  | formatWrong
  | numeric
  | suffix
  | indexOutOfRange
  deriving DecidableEq

/-- `Format`. -/
inductive Format where
  | decimalExponent
  | binarySI
  | decimalSI
  deriving DecidableEq

/-! ### Numbers -/

/-- The number that digits write. -/
def digitsValue (digits : List Char) : ℕ :=
  digits.foldl (fun n c => 10 * n + (c.toNat - 48)) 0

/-- Whether a number is not negative, and what follows its sign. -/
def splitSign : List Char → Bool × List Char
  | '-' :: rest => (false, rest)
  | '+' :: rest => (true, rest)
  | rest => (true, rest)

/-- `strconv.ParseInt(text, 10, 64)`. -/
def parseInt (text : List Char) : Option ℤ :=
  let (positive, digits) := splitSign text
  if digits ≠ [] ∧ digits.all Char.isDigit then
    let n : ℤ := if positive then digitsValue digits else -digitsValue digits
    if -2 ^ 63 ≤ n ∧ n < 2 ^ 63 then some n else none
  else none

/-- `inf.Dec.SetString`: unscaled value and scale. -/
def decSetString (text : List Char) : Option (ℤ × ℤ) :=
  let (positive, unsigned) := splitSign text
  let whole := unsigned.takeWhile Char.isDigit
  let fraction := match unsigned.dropWhile Char.isDigit with
    | [] => some []
    | '.' :: digits => if digits.all Char.isDigit then some digits else none
    | _ :: _ => none
  match fraction with
  | none => none
  | some fraction =>
    if whole ++ fraction = [] then none
    else
      let n : ℤ := digitsValue (whole ++ fraction)
      some (if positive then n else -n, fraction.length)

/-- `int64Multiply`. -/
def int64Multiply (a b : ℤ) : Option ℤ :=
  if a = 0 ∨ b = 0 ∨ a = 1 ∨ b = 1 then some (wrap64 (a * b))
  else if a = mostNegative ∨ b = mostNegative then none
  else
    let c := wrap64 (a * b)
    if c.tdiv b = a then some c else none

/-! ### The parts of the text -/

/-- What `parseQuantityString` returns; `value` is the number with its sign and its point. -/
structure Parts where
  positive : Bool
  value : List Char
  num : List Char
  denom : List Char
  suffix : List Char
  deriving DecidableEq

/-- Letters, then a sign, then digits. -/
def isSuffix (text : List Char) : Bool :=
  (splitSign (text.dropWhile ("eEinumkKMGTP".toList.contains ·))).2.all Char.isDigit

/-- `parseQuantityString`. -/
def parseQuantityString (str : List Char) : Except ParseError Parts :=
  let (positive, unsigned) := splitSign str
  let stripped := unsigned.dropWhile (· == '0')
  if stripped = [] then .ok ⟨positive, ['0'], ['0'], [], []⟩
  else
    let num := stripped.takeWhile Char.isDigit
    let rest := stripped.dropWhile Char.isDigit
    let denom := match rest with
      | '.' :: digits => digits.takeWhile Char.isDigit
      | _ => []
    let suffix := match rest with
      | '.' :: digits => digits.dropWhile Char.isDigit
      | _ => rest
    if isSuffix suffix then
      .ok ⟨positive, str.take (str.length - suffix.length), if num = [] then ['0'] else num, denom,
        suffix⟩
    else .error .formatWrong

/-- `interpret`: base, exponent and format of a suffix. -/
def interpret (suffix : List Char) : Option (ℤ × ℤ × Format) :=
  match String.ofList suffix with
  | "" => some (10, 0, .decimalSI)
  | "n" => some (10, -9, .decimalSI)
  | "u" => some (10, -6, .decimalSI)
  | "m" => some (10, -3, .decimalSI)
  | "k" => some (10, 3, .decimalSI)
  | "M" => some (10, 6, .decimalSI)
  | "G" => some (10, 9, .decimalSI)
  | "T" => some (10, 12, .decimalSI)
  | "P" => some (10, 15, .decimalSI)
  | "E" => some (10, 18, .decimalSI)
  | "Ki" => some (2, 10, .binarySI)
  | "Mi" => some (2, 20, .binarySI)
  | "Gi" => some (2, 30, .binarySI)
  | "Ti" => some (2, 40, .binarySI)
  | "Pi" => some (2, 50, .binarySI)
  | "Ei" => some (2, 60, .binarySI)
  | _ =>
    match suffix with
    | letter :: exponent =>
      if letter = 'E' ∨ letter = 'e' then
        (parseInt exponent).map (fun n => (10, wrap32 n, .decimalExponent))
      else none
    | [] => none

/-! ### The quantity -/

/-- The digits to spare in an `int64`; a number without any is left to the decimal path. -/
def precision (parts : Parts) (exponent : ℤ) : Format → ℤ
  | .decimalExponent | .decimalSI => wrap32 (18 - (parts.num.length + parts.denom.length))
  | .binarySI =>
    -- only whole numbers; 3 of 10 binary digits are a decimal one
    if parts.denom = [] then wrap32 (15 - parts.num.length - exponent * 3 / 10 - 1) else -1

/-- The fast path: an `int64` amount, an error, or nothing. -/
def parseInt64 (parts : Parts) (base exponent : ℤ) (format : Format) :
    Option (Except ParseError Quantity) :=
  let mantissa : ℤ := if base = 2 then 2 ^ exponent.toNat else 1
  let scale := wrap32 ((if base = 2 then 0 else exponent) - parts.denom.length)
  if 0 ≤ precision parts exponent format ∧ -9 ≤ scale then
    match parseInt (parts.num ++ parts.denom) with
    | none => some (.error .numeric)
    | some value =>
      (int64Multiply value mantissa).map (fun result =>
        .ok (.int64 (if parts.positive then result else wrap64 (-result)) scale))
  else none

/-- `Round(amount, Nano, RoundUp)` of an unscaled value that is not negative. -/
def roundNano (unscaled scale : ℤ) : Except ParseError ℤ :=
  let shift := wrap32 (9 - scale)
  if shift = -2 ^ 31 then .error .indexOutOfRange
  else if 0 ≤ shift then .ok (unscaled * 10 ^ shift.toNat)
  else
    let divisor := 10 ^ (-shift).toNat
    .ok (if unscaled % divisor ≠ 0 then unscaled / divisor + 1 else unscaled / divisor)

/-- The magnitude of a decimal: rounded to nanos, and capped in the binary format. -/
def roundDec (magnitude scale : ℤ) (format : Format) : Except ParseError (ℤ × ℤ) :=
  if magnitude = 0 then .ok (0, scale)
  else
    match roundNano magnitude scale with
    | .error e => .error e
    | .ok nanos =>
      if format = .binarySI ∧ decCmp nanos 9 (2 ^ 63 - 1) 0 = .gt then .ok (2 ^ 63 - 1, 0)
      else .ok (nanos, 9)

/-- The decimal path. -/
def parseDec (parts : Parts) (base exponent : ℤ) (format : Format) : Except ParseError Quantity :=
  match decSetString parts.value with
  | none => .error .numeric
  | some (unscaled, scale) =>
    let scale := if base = 10 then wrap32 (scale + wrap32 (-exponent)) else scale
    let unscaled := if base = 2 then unscaled * 2 ^ exponent.toNat else unscaled
    match roundDec |unscaled| scale format with
    | .error e => .error e
    | .ok (magnitude, scale) => .ok (.dec (if unscaled < 0 then -magnitude else magnitude) scale)

/-- `ParseQuantity`. -/
def parseQuantity (str : String) : Except ParseError Quantity :=
  if str = "" then .error .formatWrong
  else if str = "0" then .ok (.int64 0 0)
  else
    match parseQuantityString str.toList with
    | .error e => .error e
    | .ok parts =>
      match interpret parts.suffix with
      | none => .error .suffix
      | some (base, exponent, format) =>
        match parseInt64 parts base exponent format with
        | some result => result
        | none => parseDec parts base exponent format

example : parseQuantity "1.5Gi" = .ok (.dec (1610612736 * 10 ^ 9) 9) ∧
    parseQuantity "10E" = .ok (.int64 10 18) ∧ parseQuantity "-250m" = .ok (.int64 (-250) (-3)) ∧
    parseQuantity "1e" = .error .suffix ∧ parseQuantity "1 Gi" = .error .formatWrong ∧
    parseQuantity "1234567890123456789e2147483639" = .error .indexOutOfRange := by
  decide +kernel

/-! ### What is accepted -/

/-- The fields of the quantity hold its value: an `int64` and an `int32`. -/
def Quantity.InRange : Quantity → Prop
  | .int64 value scale => (-2 ^ 63 ≤ value ∧ value < 2 ^ 63) ∧ -2 ^ 31 ≤ scale ∧ scale < 2 ^ 31
  | .dec _ _ => True

theorem int64Multiply_bounds {a b c : ℤ} (h : int64Multiply a b = some c) :
    -2 ^ 63 ≤ c ∧ c < 2 ^ 63 := by
  unfold int64Multiply at h
  dsimp only at h
  split_ifs at h with hsmall hleast hexact
  · exact Option.some.inj h ▸ wrap64_bounds _
  · exact Option.some.inj h ▸ wrap64_bounds _

/-- What the fast path accepts. -/
theorem parseInt64_inRange {parts : Parts} {base exponent : ℤ} {format : Format} {q : Quantity}
    (h : parseInt64 parts base exponent format = some (.ok q)) : q.InRange := by
  unfold parseInt64 at h
  dsimp only at h
  generalize (if base = 2 then (2 : ℤ) ^ exponent.toNat else 1) = mantissa at h
  generalize (if base = 2 then (0 : ℤ) else exponent) = shift at h
  by_cases hshort : 0 ≤ precision parts exponent format ∧ -9 ≤ wrap32 (shift - parts.denom.length)
  · rw [if_pos hshort] at h
    cases hvalue : parseInt (parts.num ++ parts.denom) with
    | none => rw [hvalue] at h; exact absurd h (by simp)
    | some value =>
      rw [hvalue] at h
      dsimp only at h
      obtain ⟨result, hresult, hq⟩ := Option.map_eq_some_iff.mp h
      obtain rfl := Except.ok.inj hq
      refine ⟨?_, wrap32_bounds _⟩
      by_cases hpositive : parts.positive = true
      · rw [if_pos hpositive]
        exact int64Multiply_bounds hresult
      · rw [if_neg hpositive]
        exact wrap64_bounds _
  · rw [if_neg hshort] at h
    exact absurd h (by simp)

/-- The decimal path gives a decimal. -/
theorem parseDec_inRange {parts : Parts} {base exponent : ℤ} {format : Format} {q : Quantity}
    (h : parseDec parts base exponent format = .ok q) : q.InRange := by
  unfold parseDec at h
  dsimp only at h
  split at h
  · exact absurd h (by simp)
  · split at h
    · exact absurd h (by simp)
    · exact Except.ok.inj h ▸ trivial

/-- **What `ParseQuantity` accepts fits its fields.** -/
theorem parseQuantity_inRange {str : String} {q : Quantity} (h : parseQuantity str = .ok q) :
    q.InRange := by
  unfold parseQuantity at h
  split_ifs at h with hempty hzero
  · exact Except.ok.inj h ▸ ⟨⟨by norm_num, by norm_num⟩, by norm_num, by norm_num⟩
  · cases hparts : parseQuantityString str.toList with
    | error e => rw [hparts] at h; exact absurd h (by simp)
    | ok parts =>
      rw [hparts] at h
      dsimp only at h
      cases hsuffix : interpret parts.suffix with
      | none => rw [hsuffix] at h; exact absurd h (by simp)
      | some found =>
        obtain ⟨base, exponent, format⟩ := found
        rw [hsuffix] at h
        dsimp only at h
        cases hfast : parseInt64 parts base exponent format with
        | none => rw [hfast] at h; exact parseDec_inRange h
        | some result =>
          rw [hfast] at h
          dsimp only at h
          rw [h] at hfast
          exact parseInt64_inRange hfast

end Resource
