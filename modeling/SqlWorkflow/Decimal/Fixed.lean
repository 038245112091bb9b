import SqlWorkflow.Decimal.Layout

/-!
# Numbers with fixed places

A binary fraction is rounded to a number of decimal places; a tie goes to the even neighbour.  The
whole part of a fraction is exact.

Main statements: the rounded quotient is within half a unit of the exact one
(`roundDiv_le`, `le_roundDiv`).
-/

namespace SqlWorkflow.Decimal

/-- The whole number nearest to `num / den`; of two, the even one. -/
def roundDiv (num den : Nat) : Nat :=
  let below := num / den
  let left := 2 * (num % den)
  if left < den then below
  else if den < left then below + 1
  else if below % 2 = 0 then below else below + 1

/-- Rounding goes up by at most half a unit. -/
theorem roundDiv_le (num den : Nat) : 2 * (roundDiv num den * den) ≤ 2 * num + den := by
  have h := Nat.div_add_mod num den
  rw [Nat.mul_comm] at h
  unfold roundDiv
  simp only
  split
  · omega
  · split
    · rw [Nat.add_mul]; omega
    · split
      · omega
      · rw [Nat.add_mul]; omega

/-- Rounding goes down by at most half a unit. -/
theorem le_roundDiv (num : Nat) {den : Nat} (hden : 0 < den) :
    2 * num ≤ 2 * (roundDiv num den * den) + den := by
  have h := Nat.div_add_mod num den
  have hlt := Nat.mod_lt num hden
  rw [Nat.mul_comm] at h
  unfold roundDiv
  simp only
  split
  · omega
  · split
    · rw [Nat.add_mul]; omega
    · split
      · omega
      · rw [Nat.add_mul]; omega

/-- Numerator and denominator of a non-negative binary fraction. -/
def Binary.quotient (b : Binary) : Nat × Nat :=
  if 0 ≤ b.exponent then (b.mantissa * Nat.pow 2 b.exponent.toNat, 1)
  else (b.mantissa, Nat.pow 2 (-b.exponent).toNat)

/-- The whole number that a float has before its point; none for what is no number. -/
def wholePart? (x : Float) : Option Int :=
  if x.isNaN || x.isInf then none
  else
    let (num, den) := (Binary.ofBits x.toBits).quotient
    let n : Int := num / den
    some (if x.toBits.toNat < Nat.pow 2 63 then n else -n)

/-- A number written with so many places after the point. -/
def fixed (places : Nat) (x : Float) : String :=
  if x.isNaN then "NaN"
  else
    let sign := if x.toBits.toNat < Nat.pow 2 63 then "" else "-"
    if x.isInf then sign ++ "inf"
    else
      let (num, den) := (Binary.ofBits x.toBits).quotient
      let digits := Nat.toDigits 10 (roundDiv (num * Nat.pow 10 places) den)
      let padded := List.replicate (places + 1 - digits.length) '0' ++ digits
      let whole := padded.take (padded.length - places)
      let rest := padded.drop (padded.length - places)
      sign ++ String.ofList whole ++ (if places = 0 then "" else "." ++ String.ofList rest)

end SqlWorkflow.Decimal
