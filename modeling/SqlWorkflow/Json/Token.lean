import SqlWorkflow.Document.Word

/-!
# Tokens of JSON text

The tokens of a text up to the first place that belongs to none; there the list ends with
`Token.bad`.

Main statement: the scan of a literal leaves no more text than it was given
(`length_scanString_le`, `length_scanNumber_lt`), so the scan of a text ends.
-/

namespace SqlWorkflow.Json

/-- A token of JSON text. -/
inductive Token where
  | openBrace | closeBrace | openBracket | closeBracket | comma | colon
  | null
  | bool (b : Bool)
  | num (n : Number)
  | str (s : String)
  | bad
  deriving Repr, Inhabited

/-- The four characters between tokens. -/
def isSpace (c : Char) : Bool := c = ' ' || c = '\n' || c = '\t' || c = '\r'

/-- The code unit that four hexadecimal digits spell. -/
def codeUnit? (a b c d : Char) : Option Nat := Word.natural? 16 [a, b, c, d]

/-- The character that an escape of one letter stands for. -/
def simpleEscape? (c : Char) : Option Char :=
  match c with
  | '"' => some '"'
  | '\\' => some '\\'
  | '/' => some '/'
  | 'b' => some '\x08'
  | 'f' => some '\x0c'
  | 'n' => some '\n'
  | 'r' => some '\r'
  | 't' => some '\t'
  | _ => none

/-- Is the code unit the first or the second of a pair? -/
def isLeading (n : Nat) : Bool := 0xD800 ≤ n && n ≤ 0xDBFF
def isTrailing (n : Nat) : Bool := 0xDC00 ≤ n && n ≤ 0xDFFF

/-- Reads `\uXXXX` after its first two characters.  A character outside the basic plane is written
as a pair of code units, of which neither may stand alone. -/
def scanCodeUnit : List Char → Option (Char × List Char)
  | a :: b :: c :: d :: rest =>
    match codeUnit? a b c d with
    | none => none
    | some first =>
      if isTrailing first then none
      else if isLeading first then
        match rest with
        | '\\' :: 'u' :: e :: f :: g :: h :: rest =>
          match codeUnit? e f g h with
          | none => none
          | some second =>
            if isTrailing second then
              some (Char.ofNat (0x10000 + (first - 0xD800) * 0x400 + (second - 0xDC00)), rest)
            else none
        | _ => none
      else some (Char.ofNat first, rest)
  | _ => none

/-- Reads one character of a text, which starts with `c`; `none` if it is malformed. -/
def scanChar (c : Char) (cs : List Char) : Option (Char × List Char) :=
  if c = '\\' then
    match cs with
    | 'u' :: rest => scanCodeUnit rest
    | e :: rest => (simpleEscape? e).map fun c => (c, rest)
    | [] => none
  else if c.toNat < 0x20 then none
  else some (c, cs)

theorem length_scanCodeUnit_le {cs rest : List Char} {c : Char}
    (h : scanCodeUnit cs = some (c, rest)) : rest.length ≤ cs.length := by
  revert h
  fun_cases scanCodeUnit cs <;> intro h <;> try simp at h
  all_goals
    obtain ⟨-, rfl⟩ := h
    simp only [List.length_cons]
    omega

theorem length_scanChar_le {c : Char} {cs rest : List Char} {x : Char}
    (h : scanChar c cs = some (x, rest)) : rest.length ≤ cs.length := by
  revert h
  fun_cases scanChar c cs <;> intro h <;> try simp at h
  · exact Nat.le_succ_of_le (length_scanCodeUnit_le h)
  · obtain ⟨_, -, -, rfl⟩ := h
    exact Nat.le_succ _
  · obtain ⟨-, rfl⟩ := h
    exact Nat.le_refl _

/-- Scans a text after its opening quote; `none` if it is malformed. -/
def scanString : List Char → Option (List Char × List Char)
  | [] => none
  | c :: cs =>
    if c = '"' then some ([], cs)
    else
      match _h : scanChar c cs with
      | none => none
      | some (x, rest) => (scanString rest).map fun (text, rest) => (x :: text, rest)
termination_by cs => cs.length
decreasing_by exact Nat.lt_succ_of_le (length_scanChar_le _h)

/-- The value of a decimal digit. -/
def digitValue (c : Char) : Nat := c.toNat - '0'.toNat

/-- Significant digits of a number while they fit 64 bits, and the power of ten they stand for. -/
structure Significand where
  value : Nat
  power : Int
  full : Bool := false

namespace Significand

/-- One more digit before the point.  Digits that no longer fit only count. -/
def pushWhole (s : Significand) (c : Char) : Significand :=
  let value := s.value * 10 + digitValue c
  if s.full || value ≥ Nat.pow 2 64 then ⟨s.value, s.power + 1, true⟩ else ⟨value, s.power, false⟩

/-- One more digit after the point.  Digits that no longer fit are dropped. -/
def pushPlace (s : Significand) (c : Char) : Significand :=
  let value := s.value * 10 + digitValue c
  if s.full || value ≥ Nat.pow 2 64 then ⟨s.value, s.power, true⟩ else ⟨value, s.power - 1, false⟩

/-- The binary fraction `value * 10 ^ power`, by one rounding of `value` and one multiplication
or division by a power of ten (several divisions below `1e-308`); `none` if it is too great. -/
def toFloat? (s : Significand) : Option Float :=
  let start := (UInt64.ofNat s.value).toFloat
  let rec shrink (x : Float) (power : Nat) (fuel : Nat) : Float :=
    match fuel with
    | 0 => 0.0
    | fuel + 1 =>
      if power ≤ 308 then x / Float.ofScientific 1 false power
      else if x == 0.0 then x
      else shrink (x / 1e308) (power - 308) fuel
  if 0 ≤ s.power then
    if s.power ≤ 308 then
      let x := start * Float.ofScientific 1 false s.power.toNat
      if x.isInf then none else some x
    else if s.value = 0 then some start
    else none
  else some (shrink start (-s.power).toNat 5)

end Significand

/-- The number of a scanned literal: its sign, the digits before and after the point, and the power
of ten after them. -/
def number? (negative : Bool) (whole : List Char) (places : Option (List Char))
    (power : Option Int) : Option Number :=
  let digits := whole.foldl Significand.pushWhole ⟨0, 0, false⟩
  if places.isNone && power.isNone && !digits.full then
    if !negative then some (.int digits.value)
    else if digits.value = 0 then some (.float (-0.0))
    else if digits.value ≤ Nat.pow 2 63 then some (.int (-digits.value))
    else some (.float (-(UInt64.ofNat digits.value).toFloat))
  else
    let digits := (places.getD []).foldl Significand.pushPlace { digits with full := false }
    let digits := { digits with power := digits.power + power.getD 0 }
    digits.toFloat?.map fun x => .float (if negative then -x else x)

/-- Scans the sign of a number. -/
def scanSign : List Char → Bool × List Char
  | '-' :: rest => (true, rest)
  | cs => (false, cs)

/-- Scans the digits before the point; a number starts with a zero only if that is its one digit. -/
def scanWhole (cs : List Char) : Option (List Char × List Char) :=
  match cs.takeWhile Char.isDigit with
  | [] => none
  | '0' :: _ :: _ => none
  | c :: whole => some (c :: whole, cs.dropWhile Char.isDigit)

/-- Scans a point and the digits after it. -/
def scanPlaces : List Char → Option (Option (List Char) × List Char)
  | '.' :: rest =>
    match rest.takeWhile Char.isDigit with
    | [] => none
    | c :: places => some (some (c :: places), rest.dropWhile Char.isDigit)
  | cs => some (none, cs)

/-- Scans the sign and the digits of a power of ten. -/
def scanExponent (cs : List Char) : Option (Int × List Char) :=
  let (minus, cs) := match cs with
    | '-' :: rest => (true, rest)
    | '+' :: rest => (false, rest)
    | _ => (false, cs)
  (Word.natural? 10 (cs.takeWhile Char.isDigit)).map fun power =>
    (if minus then -(power : Int) else power, cs.dropWhile Char.isDigit)

/-- Scans a power of ten, if there is one. -/
def scanPower : List Char → Option (Option Int × List Char)
  | [] => some (none, [])
  | c :: cs =>
    if c = 'e' || c = 'E' then
      (scanExponent cs).map fun (power, rest) => (some power, rest)
    else some (none, c :: cs)

/-- Scans a number; `none` if it is malformed or too great. -/
def scanNumber (cs : List Char) : Option (Number × List Char) := do
  let (negative, cs) := scanSign cs
  let (whole, cs) ← scanWhole cs
  let (places, cs) ← scanPlaces cs
  let (power, cs) ← scanPower cs
  let n ← number? negative whole places power
  return (n, cs)

theorem length_scanString_le {cs text rest : List Char} (h : scanString cs = some (text, rest)) :
    rest.length ≤ cs.length := by
  fun_induction scanString cs generalizing text rest with
  | case1 => simp at h
  | case2 cs => simp at h; simp [h.2]
  | case3 => simp at h
  | case4 c cs _ x rest' hx ih =>
    obtain ⟨⟨text', rest''⟩, hs, heq⟩ := Option.map_eq_some_iff.1 h
    have := length_scanChar_le hx
    have := ih hs
    simp only [Prod.mk.injEq] at heq
    simp [← heq.2]
    omega

theorem length_dropWhile_le (p : Char → Bool) (cs : List Char) :
    (cs.dropWhile p).length ≤ cs.length :=
  (List.dropWhile_sublist p).length_le

theorem length_scanSign_le (cs : List Char) : (scanSign cs).2.length ≤ cs.length := by
  fun_cases scanSign cs <;> simp

theorem length_scanWhole_lt {cs whole rest : List Char} (h : scanWhole cs = some (whole, rest)) :
    rest.length < cs.length := by
  have hsplit : (cs.takeWhile Char.isDigit).length + (cs.dropWhile Char.isDigit).length =
      cs.length := by
    rw [← List.length_append, List.takeWhile_append_dropWhile]
  revert h
  fun_cases scanWhole cs <;> intro h <;> simp at h
  next c whole' _ heq =>
    rw [heq, List.length_cons] at hsplit
    rw [← h.2]
    omega

theorem length_scanPlaces_le {cs rest : List Char} {places : Option (List Char)}
    (h : scanPlaces cs = some (places, rest)) : rest.length ≤ cs.length := by
  revert h
  fun_cases scanPlaces cs <;> intro h <;> simp at h
  · rw [← h.2]
    exact Nat.le_succ_of_le (length_dropWhile_le _ _)
  · simp [h.2]

theorem length_scanExponent_le {cs rest : List Char} {power : Int}
    (h : scanExponent cs = some (power, rest)) : rest.length ≤ cs.length := by
  simp only [scanExponent, Option.map_eq_some_iff, Prod.mk.injEq] at h
  obtain ⟨_, -, -, rfl⟩ := h
  refine Nat.le_trans (length_dropWhile_le _ _) ?_
  split <;> simp

theorem length_scanPower_le {cs rest : List Char} {power : Option Int}
    (h : scanPower cs = some (power, rest)) : rest.length ≤ cs.length := by
  revert h
  fun_cases scanPower cs <;> intro h
  · simp at h
    simp [h.2]
  · obtain ⟨⟨power', rest'⟩, hs, heq⟩ := Option.map_eq_some_iff.1 h
    simp only [Prod.mk.injEq] at heq
    rw [← heq.2]
    exact Nat.le_succ_of_le (length_scanExponent_le hs)
  · simp at h
    simp [← h.2]

theorem length_scanNumber_lt {cs rest : List Char} {n : Number}
    (h : scanNumber cs = some (n, rest)) : rest.length < cs.length := by
  simp only [scanNumber, Option.bind_eq_bind, Option.bind_eq_some_iff] at h
  obtain ⟨⟨whole, cs₁⟩, h₁, ⟨places, cs₂⟩, h₂, ⟨power, cs₃⟩, h₃, n', -, h₄⟩ := h
  have hrest : cs₃ = rest := by simpa using (Prod.mk.inj (Option.some.inj h₄)).2
  rw [← hrest]
  exact Nat.lt_of_le_of_lt (length_scanPower_le h₃) (Nat.lt_of_le_of_lt (length_scanPlaces_le h₂)
    (Nat.lt_of_lt_of_le (length_scanWhole_lt h₁) (length_scanSign_le cs)))

/-- The token that starts with `c`, and the rest of the text. -/
def scanToken (c : Char) (cs : List Char) : Token × List Char :=
  match c, cs with
  | '\x7b', _ => (.openBrace, cs)
  | '\x7d', _ => (.closeBrace, cs)
  | '[', _ => (.openBracket, cs)
  | ']', _ => (.closeBracket, cs)
  | ',', _ => (.comma, cs)
  | ':', _ => (.colon, cs)
  | 'n', 'u' :: 'l' :: 'l' :: rest => (.null, rest)
  | 't', 'r' :: 'u' :: 'e' :: rest => (.bool true, rest)
  | 'f', 'a' :: 'l' :: 's' :: 'e' :: rest => (.bool false, rest)
  | '"', _ =>
    match scanString cs with
    | some (text, rest) => (.str (String.ofList text), rest)
    | none => (.bad, [])
  | c, cs =>
    if c = '-' || c.isDigit then
      match scanNumber (c :: cs) with
      | some (n, rest) => (.num n, rest)
      | none => (.bad, [])
    else (.bad, [])

theorem length_scanToken_le (c : Char) (cs : List Char) :
    (scanToken c cs).2.length < (c :: cs).length := by
  fun_cases scanToken c cs
  case case10 h =>
    rw [h]
    exact Nat.lt_succ_of_le (length_scanString_le h)
  case case12 h => exact length_scanNumber_lt h
  all_goals
    simp only [*, List.length_cons, List.length_nil]
    omega

/-- The tokens of a text. -/
def tokens : List Char → List Token
  | [] => []
  | c :: cs =>
    if isSpace c then tokens cs
    else (scanToken c cs).1 :: tokens (scanToken c cs).2
termination_by cs => cs.length
decreasing_by
  · simp
  · exact length_scanToken_le c cs

end SqlWorkflow.Json
