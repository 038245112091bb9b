/-!
# The shortest decimal of a binary fraction

A finite binary64 number is `m * 2 ^ q`.  The reals that round to it form an interval around it;
its shortest decimal is the point of the coarsest power-of-ten grid that lies in this interval,
and of two such points the nearer one (the even one if both are equally near).

All arithmetic is on natural numbers, so nothing is rounded.
-/

namespace SqlWorkflow.Decimal

/-- The decimal number `digits * 10 ^ exponent`. -/
structure Scaled where
  digits : Nat
  exponent : Int
  deriving DecidableEq, Repr, Inhabited

/-- A finite, non-negative binary fraction `mantissa * 2 ^ exponent`, and whether its lower
neighbour is half as far away as its upper one. -/
structure Binary where
  mantissa : Nat
  exponent : Int
  narrowBelow : Bool
  deriving DecidableEq, Repr, Inhabited

namespace Binary

/-- The binary fraction that the low 63 bits of a binary64 pattern denote. -/
def ofBits (bits : UInt64) : Binary :=
  let fraction : Nat := bits.toNat % Nat.pow 2 52
  let biased : Nat := bits.toNat / Nat.pow 2 52 % Nat.pow 2 11
  if biased = 0 then ⟨fraction, -1074, false⟩
  else ⟨fraction + Nat.pow 2 52, (biased : Int) - 1075, fraction == 0 && biased > 1⟩

/-- Numerator and denominator of a quarter unit of the last place. -/
def quarter (b : Binary) : Nat × Nat :=
  let e := b.exponent - 2
  if 0 ≤ e then (Nat.pow 2 e.toNat, 1) else (1, Nat.pow 2 (-e).toNat)

end Binary

/-- The candidate of the grid `10 ^ p` for `b`, if one of the two grid points next to `b` rounds
to `b`. -/
def gridPoint? (b : Binary) (p : Int) : Option Nat :=
  let (unit, den) := b.quarter
  -- All quantities below are multiples of `1 / scale`.
  let grid := if 0 ≤ p then Nat.pow 10 p.toNat * den else den
  let unit := if 0 ≤ p then unit else unit * Nat.pow 10 (-p).toNat
  let value := 4 * b.mantissa * unit
  let low := value - (if b.narrowBelow then 1 else 2) * unit
  let high := value + 2 * unit
  let even := b.mantissa % 2 = 0
  let inside (d : Nat) : Bool :=
    let x := d * grid
    if even then low ≤ x && x ≤ high else low < x && x < high
  let below := value / grid
  let above := below + 1
  let farBelow := value - below * grid
  let farAbove := above * grid - value
  match inside below, inside above with
  | false, false => none
  | true, false => some below
  | false, true => some above
  | true, true =>
    if farBelow < farAbove then some below
    else if farAbove < farBelow then some above
    else if below % 2 = 0 then some below else some above

/-- The first grid, from `10 ^ p` downwards, that has a candidate; at most `fuel` grids are
tried. -/
def firstGrid (b : Binary) (p : Int) : Nat → Scaled
  | 0 => ⟨0, p⟩
  | fuel + 1 =>
    match gridPoint? b p with
    | some (d + 1) => ⟨d + 1, p⟩
    | _ => firstGrid b (p - 1) fuel

/-- The shortest decimal that rounds to a positive binary fraction.

The coarsest grid worth trying is the one just above the number's decimal exponent, and seventeen
digits always suffice, so forty grids are more than enough. -/
def shortest (b : Binary) : Scaled :=
  if b.mantissa = 0 then ⟨0, 0⟩
  else
    let (unit, den) := b.quarter
    let width (n : Nat) : Int := (Nat.toDigits 10 n).length
    firstGrid b (width (4 * b.mantissa * unit) - width den + 1) 40

end SqlWorkflow.Decimal
