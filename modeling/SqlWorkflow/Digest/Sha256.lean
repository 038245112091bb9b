/-!
# SHA-256

The digest of a byte sequence, written as 64 hexadecimal digits.  A message is padded to whole
blocks of sixteen words; every block is stirred into the state of eight words in 64 rounds.
-/

namespace SqlWorkflow.Sha256

/-- The first 32 bits of the fractional parts of the cube roots of the first 64 primes. -/
def roundConstants : Array UInt32 := #[
  0x428a2f98, 0x71374491, 0xb5c0fbcf, 0xe9b5dba5, 0x3956c25b, 0x59f111f1, 0x923f82a4, 0xab1c5ed5,
  0xd807aa98, 0x12835b01, 0x243185be, 0x550c7dc3, 0x72be5d74, 0x80deb1fe, 0x9bdc06a7, 0xc19bf174,
  0xe49b69c1, 0xefbe4786, 0x0fc19dc6, 0x240ca1cc, 0x2de92c6f, 0x4a7484aa, 0x5cb0a9dc, 0x76f988da,
  0x983e5152, 0xa831c66d, 0xb00327c8, 0xbf597fc7, 0xc6e00bf3, 0xd5a79147, 0x06ca6351, 0x14292967,
  0x27b70a85, 0x2e1b2138, 0x4d2c6dfc, 0x53380d13, 0x650a7354, 0x766a0abb, 0x81c2c92e, 0x92722c85,
  0xa2bfe8a1, 0xa81a664b, 0xc24b8b70, 0xc76c51a3, 0xd192e819, 0xd6990624, 0xf40e3585, 0x106aa070,
  0x19a4c116, 0x1e376c08, 0x2748774c, 0x34b0bcb5, 0x391c0cb3, 0x4ed8aa4a, 0x5b9cca4f, 0x682e6ff3,
  0x748f82ee, 0x78a5636f, 0x84c87814, 0x8cc70208, 0x90befffa, 0xa4506ceb, 0xbef9a3f7, 0xc67178f2]

/-- The eight words that are carried from block to block. -/
structure State where
  a : UInt32
  b : UInt32
  c : UInt32
  d : UInt32
  e : UInt32
  f : UInt32
  g : UInt32
  h : UInt32

/-- The first 32 bits of the fractional parts of the square roots of the first eight primes. -/
def State.initial : State :=
  ⟨0x6a09e667, 0xbb67ae85, 0x3c6ef372, 0xa54ff53a, 0x510e527f, 0x9b05688c, 0x1f83d9ab, 0x5be0cd19⟩

/-- The words of two states added place by place. -/
def State.add (s t : State) : State :=
  ⟨s.a + t.a, s.b + t.b, s.c + t.c, s.d + t.d, s.e + t.e, s.f + t.f, s.g + t.g, s.h + t.h⟩

/-- The word turned right by `n` places. -/
def rotate (x : UInt32) (n : UInt32) : UInt32 := (x >>> n) ||| (x <<< (32 - n))

/-- One round with the schedule word `w` and the constant `k`. -/
def State.round (s : State) (w k : UInt32) : State :=
  let sum := rotate s.e 6 ^^^ rotate s.e 11 ^^^ rotate s.e 25
  let choice := (s.e &&& s.f) ^^^ (~~~s.e &&& s.g)
  let first := s.h + sum + choice + k + w
  let sum' := rotate s.a 2 ^^^ rotate s.a 13 ^^^ rotate s.a 22
  let majority := (s.a &&& s.b) ^^^ (s.a &&& s.c) ^^^ (s.b &&& s.c)
  ⟨first + (sum' + majority), s.a, s.b, s.c, s.d + first, s.e, s.f, s.g⟩

/-- The next word of the schedule. -/
def nextWord (words : Array UInt32) : UInt32 :=
  let wordAt (back : Nat) : UInt32 := words[words.size - back]?.getD 0
  let x := wordAt 15
  let y := wordAt 2
  wordAt 16 + (rotate x 7 ^^^ rotate x 18 ^^^ (x >>> 3)) + wordAt 7 +
    (rotate y 17 ^^^ rotate y 19 ^^^ (y >>> 10))

/-- The 64 words that the sixteen words of a block give. -/
def schedule (block : Array UInt32) : Array UInt32 :=
  (List.range 48).foldl (fun words _ => words.push (nextWord words)) block

/-- The state after one more block. -/
def State.absorb (s : State) (block : Array UInt32) : State :=
  let words := schedule block
  let stirred := (List.range 64).foldl
    (fun t i => t.round (words[i]?.getD 0) (roundConstants[i]?.getD 0)) s
  s.add stirred

/-- The message with a one bit, zeros, and its length in bits, filling whole blocks. -/
def pad (message : List UInt8) : List UInt8 :=
  let length := message.length
  let zeros := (119 - length % 64) % 64
  let bits := 8 * length
  message ++ 0x80 :: List.replicate zeros 0 ++
    (List.range 8).map fun i => UInt8.ofNat (bits / Nat.pow 2 (8 * (7 - i)))

/-- The big-endian words of a byte sequence. -/
def wordsOf : List UInt8 → List UInt32
  | a :: b :: c :: d :: rest =>
    ((a.toUInt32 <<< 24) ||| (b.toUInt32 <<< 16) ||| (c.toUInt32 <<< 8) ||| d.toUInt32) ::
      wordsOf rest
  | _ => []

/-- Absorbs the words block by block; `fuel` bounds the number of blocks. -/
def absorbAll (s : State) (words : List UInt32) : Nat → State
  | 0 => s
  | fuel + 1 =>
    if words.isEmpty then s
    else absorbAll (s.absorb (words.take 16).toArray) (words.drop 16) fuel

/-- The eight hexadecimal digits of a word. -/
def hexOfWord (x : UInt32) : List Char :=
  (List.range 8).map fun i =>
    Nat.digitChar (x.toNat / Nat.pow 16 (7 - i) % 16)

/-- The digest of a byte sequence. -/
def digest (message : List UInt8) : String :=
  let words := wordsOf (pad message)
  let s := absorbAll State.initial words (words.length / 16)
  String.ofList ([s.a, s.b, s.c, s.d, s.e, s.f, s.g, s.h].flatMap hexOfWord)

/-- The digest of a text. -/
def ofText (text : String) : String := digest text.toUTF8.toList

end SqlWorkflow.Sha256
