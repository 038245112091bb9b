import SqlWorkflow.Files.Disk

/-!
# Patterns of paths

A pattern describes a path segment by segment.  In a segment `*` stands for any characters, `?`
for one and a set in brackets for one of its characters; the segment `**` stands for any folders
between two segments.  A pattern of a name matches whole names only (`matchesAll`).
-/

namespace SqlWorkflow

/-- What a pattern says about a stretch of a name. -/
inductive NameToken where
  | char (c : Char)
  | anyChar
  /-- Any number of characters. -/
  | anyChars
  /-- One character between the bounds of one of the ranges. -/
  | within (ranges : List (Char × Char))
  /-- One character outside of all ranges. -/
  | without (ranges : List (Char × Char))
  deriving DecidableEq, Repr, Inhabited

namespace NameToken

/-! ## §1 Reading patterns of names -/

/-- The ranges that the inside of a set lists. -/
def ranges : List Char → List (Char × Char)
  | a :: '-' :: b :: rest => (a, b) :: ranges rest
  | a :: rest => (a, a) :: ranges rest
  | [] => []

/-- The characters before the end of a set, and what follows it. -/
def untilClosed : List Char → Option (List Char × List Char)
  | [] => none
  | c :: rest =>
    if c = ']' then some ([], rest)
    else (untilClosed rest).map fun (inside, rest) => (c :: inside, rest)

/-- The set of characters after an opening bracket; its first character does not end it. -/
def readSet : List Char → Option (NameToken × List Char)
  | '!' :: c :: rest =>
    (untilClosed rest).map fun (inside, rest) => (.without (ranges (c :: inside)), rest)
  | c :: rest =>
    if c = '!' then none
    else (untilClosed rest).map fun (inside, rest) => (.within (ranges (c :: inside)), rest)
  | [] => none

theorem length_untilClosed_lt {cs inside rest : List Char}
    (h : untilClosed cs = some (inside, rest)) : rest.length < cs.length := by
  induction cs generalizing inside with
  | nil => simp [untilClosed] at h
  | cons c cs ih =>
    simp only [untilClosed] at h
    split at h
    · simp_all
    · obtain ⟨⟨inside', rest'⟩, hi, he⟩ := Option.map_eq_some_iff.1 h
      simp only [Prod.mk.injEq] at he
      have := ih (he.2 ▸ hi)
      simp only [List.length_cons]
      omega

theorem length_readSet_lt {cs rest : List Char} {token : NameToken}
    (h : readSet cs = some (token, rest)) : rest.length < cs.length := by
  unfold readSet at h
  split at h
  · obtain ⟨⟨inside, rest'⟩, hi, he⟩ := Option.map_eq_some_iff.1 h
    simp only [Prod.mk.injEq] at he
    have := length_untilClosed_lt (he.2 ▸ hi)
    simp only [List.length_cons]
    omega
  · split at h
    · simp at h
    · obtain ⟨⟨inside, rest'⟩, hi, he⟩ := Option.map_eq_some_iff.1 h
      simp only [Prod.mk.injEq] at he
      have := length_untilClosed_lt (he.2 ▸ hi)
      simp only [List.length_cons]
      omega
  · simp at h

/-- The tokens of a pattern of a name; `none` for a set without end and for neighbouring stars. -/
def read : List Char → Option (List NameToken)
  | [] => some []
  | '*' :: '*' :: _ => none
  | '*' :: rest => (read rest).map (.anyChars :: ·)
  | '?' :: rest => (read rest).map (.anyChar :: ·)
  | '[' :: rest =>
    match h : readSet rest with
    | some (token, rest') =>
      have := length_readSet_lt h
      (read rest').map (token :: ·)
    | none => none
  | c :: rest => (read rest).map (.char c :: ·)
termination_by cs => cs.length

/-- Has the character a meaning of its own in patterns? -/
def isMark (c : Char) : Bool := c = '?' || c = '*' || c = '[' || c = ']'

/-- The pattern of a text that stands for itself: what has a meaning of its own becomes a set. -/
def escape (cs : List Char) : List Char :=
  cs.flatMap fun c => if isMark c then ['[', c, ']'] else [c]

/-! ## §2 Matching names -/

/-- Does the token stand for the character? -/
def accepts (c : Char) : NameToken → Bool
  | .char expected => c == expected
  | .anyChar | .anyChars => true
  | .within ranges => ranges.any fun (low, high) => low ≤ c && c ≤ high
  | .without ranges => !ranges.any fun (low, high) => low ≤ c && c ≤ high

/-- Do the tokens match the whole of a name? -/
def matchesAll : List NameToken → List Char → Bool
  | [], cs => cs.isEmpty
  | .anyChars :: tokens, [] => matchesAll tokens []
  | .anyChars :: tokens, c :: cs =>
    matchesAll tokens (c :: cs) || matchesAll (.anyChars :: tokens) cs
  | _ :: _, [] => false
  | token :: tokens, c :: cs => token.accepts c && matchesAll tokens cs
termination_by tokens cs => tokens.length + cs.length

/-- The only name that the tokens match, if they say every character. -/
def literal? : List NameToken → Option (List Char)
  | [] => some []
  | .char c :: tokens => (literal? tokens).map (c :: ·)
  | _ :: _ => none

end NameToken

/-! ## §3 Patterns of paths -/

/-- What a pattern says about a segment. -/
inductive SegmentPattern where
  /-- Any folders, also none. -/
  | anyFolders
  | name (tokens : List NameToken)
  deriving DecidableEq, Repr, Inhabited

namespace SegmentPattern

/-- The pattern of one segment. -/
def read (segment : String) : Option SegmentPattern :=
  if segment = "**" then some .anyFolders
  else (NameToken.read segment.toList).map .name

/-- The segments of a pattern of paths; a separator at the end ends the last one. -/
def readAll (pattern : String) : Option (List SegmentPattern) :=
  let segments := Path.segments pattern
  let segments := if segments.getLast? = some "" then segments.dropLast else segments
  segments.mapM read

end SegmentPattern

/-! ## §4 Expanding patterns -/

/-- Where a pattern has led so far. -/
structure Spot where
  /-- The segments that led here, as a path would write them. -/
  segments : List String
  /-- The names that lead here from the root of the disk. -/
  place : List String
  deriving Repr, Inhabited

/-- The spot one segment further, if there is one. -/
def Spot.enter? (d : Disk) (spot : Spot) (segment : String) : Option Spot :=
  match d.step spot.place segment with
  | .ok place => some { segments := spot.segments ++ [segment], place }
  | .error _ => none

/-- What the folder at a spot holds. -/
def Spot.tree (d : Disk) (spot : Spot) : FileTree := (d.root.at? spot.place).getD .empty

namespace SegmentPattern

/-- The spots one segment further that the tokens match.  The folder itself and the one around it
are meant only by tokens that start with a dot. -/
def matching (d : Disk) (tokens : List NameToken) (spot : Spot) : List Spot :=
  match NameToken.literal? tokens with
  | some cs => (spot.enter? d (String.ofList cs)).toList
  | none =>
    let special := if tokens.head? = some (.char '.') then [".", ".."] else []
    let names := (spot.tree d).entries.map (·.1) ++ special
    (names.filter fun s => NameToken.matchesAll tokens s.toList).filterMap (spot.enter? d)

/-- The spots anywhere below the folder at a spot whose name the tokens match. -/
def matchingBelow (d : Disk) (tokens : List NameToken) (spot : Spot) : List Spot :=
  ((spot.tree d).inside.filter fun (names, _) =>
      NameToken.matchesAll tokens (names.getLast?.getD "").toList).map
    fun (names, _) => { segments := spot.segments ++ names, place := spot.place ++ names }

/-- Every spot to which a pattern leads.  A pattern that ends in any folders leads to folders only,
which are left out. -/
def expand (d : Disk) : List SegmentPattern → Spot → List Spot
  | [], spot => [spot]
  | .name tokens :: rest, spot => (matching d tokens spot).flatMap (expand d rest)
  | [.anyFolders], _ => []
  | .anyFolders :: .anyFolders :: rest, spot => expand d (.anyFolders :: rest) spot
  | .anyFolders :: .name tokens :: rest, spot =>
    (matchingBelow d tokens spot).flatMap (expand d rest)

end SegmentPattern

end SqlWorkflow
