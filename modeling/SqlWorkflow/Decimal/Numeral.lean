/-!
# Numerals

Whole numbers written in decimal digits.

Main statement: digits written one after the other denote what the first ones denote, shifted by
the number of the others, plus what the others denote (`valueOf_append`).
-/

namespace SqlWorkflow.Decimal

/-- The number that a run of decimal digits denotes. -/
def valueOf (digits : List Char) : Nat :=
  digits.foldl (fun acc c => acc * 10 + (c.toNat - '0'.toNat)) 0

theorem foldl_digits (digits : List Char) (start : Nat) :
    digits.foldl (fun acc c => acc * 10 + (c.toNat - '0'.toNat)) start =
      start * Nat.pow 10 digits.length + valueOf digits := by
  induction digits generalizing start with
  | nil => simp [valueOf]
  | cons c rest ih =>
    have hpow : Nat.pow 10 (rest.length + 1) = Nat.pow 10 rest.length * 10 := rfl
    rw [valueOf, List.foldl_cons, List.foldl_cons, ih, ih (0 * 10 + _), List.length_cons, hpow]
    grind

/-- The digits in front count for as many powers of ten as digits follow them. -/
theorem valueOf_append (a b : List Char) :
    valueOf (a ++ b) = valueOf a * Nat.pow 10 b.length + valueOf b := by
  rw [valueOf, List.foldl_append, foldl_digits]
  rfl

/-- The number below `limit` that a text of decimal digits denotes. -/
def digits? (limit : Nat) (cs : List Char) : Option Nat :=
  if cs.isEmpty || !cs.all Char.isDigit then none
  else if valueOf cs < limit then some (valueOf cs) else none

/-- The number below `limit` that a text of decimal digits denotes, after an optional plus sign. -/
def natural? (limit : Nat) : List Char → Option Nat
  | '+' :: cs => digits? limit cs
  | cs => digits? limit cs

end SqlWorkflow.Decimal
