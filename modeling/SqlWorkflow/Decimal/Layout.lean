import SqlWorkflow.Decimal.Shortest

/-!
# Writing binary64 numbers

A `Layout` says when a number is written positionally and when with an exponent.  The digits are
always the shortest ones that read back, and a whole number keeps one zero after the point.
-/

namespace SqlWorkflow.Decimal

/-- Where the point may stand for the positional form: `point` digits stand before it, none if
`point` is zero or negative. -/
structure Layout where
  positional : Int → Bool

namespace Layout

/-- Numbers in JSON text: positional from `1e-5` up to, not including, `1e16`. -/
def json : Layout := ⟨fun point => -5 < point && point ≤ 16⟩

/-- Numbers in rendered text and in messages: always positional. -/
def plain : Layout := ⟨fun _ => true⟩

end Layout

/-- The decimal digits of a number, most significant first. -/
def digitsOf (n : Nat) : List Char := Nat.toDigits 10 n

/-- A positive decimal in positional form. -/
def inPlace (d : Scaled) : List Char :=
  let ds := digitsOf d.digits
  let point := (ds.length : Int) + d.exponent
  if point ≤ 0 then '0' :: '.' :: List.replicate (-point).toNat '0' ++ ds
  else if 0 ≤ d.exponent then ds ++ List.replicate d.exponent.toNat '0' ++ ['.', '0']
  else ds.take point.toNat ++ '.' :: ds.drop point.toNat

/-- A positive decimal with one digit before the point and an exponent, which has its sign. -/
def withPower (d : Scaled) : List Char :=
  let ds := digitsOf d.digits
  let power := (ds.length : Int) + d.exponent - 1
  let exponent := (if power < 0 then '-' else '+') :: digitsOf power.natAbs
  match ds with
  | [] => []
  | [c] => c :: 'e' :: exponent
  | c :: rest => c :: '.' :: rest ++ 'e' :: exponent

/-- A non-negative finite number. -/
def Layout.magnitude (layout : Layout) (b : Binary) : List Char :=
  if b.mantissa = 0 then ['0', '.', '0']
  else
    let d := shortest b
    if layout.positional ((digitsOf d.digits).length + d.exponent) then inPlace d
    else withPower d

/-- The text of a number; numbers without a decimal are written `NaN`, `inf` and `-inf`. -/
def Layout.write (layout : Layout) (x : Float) : String :=
  if x.isNaN then "NaN"
  else
    let sign := if x.toBits.toNat / Nat.pow 2 63 = 1 then "-" else ""
    if x.isInf then sign ++ "inf"
    else sign ++ String.ofList (layout.magnitude (Binary.ofBits x.toBits))

end SqlWorkflow.Decimal
