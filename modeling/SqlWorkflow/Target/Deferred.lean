import SqlWorkflow.Target.Reference

/-!
# Deferred references

While the files of a project are evaluated, not every action is known yet.  Text that names an
action therefore holds a marker, which is replaced once all actions are known.  A marker is the
JSON text of what it stands for between two control characters; JSON text holds no raw control
character, so the end of a marker is never in doubt.

A text is read as a list of pieces: literal text and markers.
-/

namespace SqlWorkflow

/-- What a marker stands for. -/
inductive Deferred where
  /-- The name of another action. -/
  | target (reference : TargetRef)
  /-- The name of the action that holds the text. -/
  | selfTarget
  /-- The schema of the action that holds the text. -/
  | selfSchema
  /-- The database of the action that holds the text. -/
  | selfDatabase
  deriving DecidableEq, Repr, Inhabited

namespace Deferred

/-- The character before a marker's body. -/
def opening : Char := '\x01'

/-- The character after a marker's body. -/
def closing : Char := '\x02'

/-- What the marker stands for, as JSON. -/
def toJson : Deferred → Json
  | .target reference => .obj [("kind", .str "target"), ("target", reference.toJson)]
  | .selfTarget => .obj [("kind", .str "selfTarget")]
  | .selfSchema => .obj [("kind", .str "selfSchema")]
  | .selfDatabase => .obj [("kind", .str "selfDatabase")]

/-- The marker's text. -/
def encode (d : Deferred) : String :=
  String.ofList (opening :: Json.compactChars d.toJson ++ [closing])

/-- The field of a marker that stands for another action. -/
def targetShape : Decode.Shape TargetRef where
  title := "struct variant Deferred::Target"
  fields := [(Decode.field "target" TargetRef.decode fun v _ => v).mandatory]

/-- Reads what a marker stands for. -/
def decode : Decoder Deferred :=
  Decode.tagged "Deferred" "kind"
    [ ("target", fun source doc =>
        (targetShape.decode { name := "" } source doc).map Deferred.target),
      ("selfTarget", Decode.bare .selfTarget),
      ("selfSchema", Decode.bare .selfSchema),
      ("selfDatabase", Decode.bare .selfDatabase) ]

/-- What a marker with the given body stands for, if it stands for anything. -/
def ofBody? (body : List Char) : Option Deferred :=
  (Decode.whole decode .jsonText (Json.readChars body)).toOption

/-- A piece of a text. -/
inductive Piece where
  | literal (text : String)
  | marker (d : Deferred)
  deriving DecidableEq, Repr, Inhabited

/-- The piece between two control characters; a body that stands for nothing is literal text. -/
def pieceOf (body : List Char) : Piece :=
  match ofBody? body with
  | some d => .marker d
  | none => .literal (String.ofList (opening :: body ++ [closing]))

/-- The pieces of a text, from first to last. -/
def piecesOf (cs : List Char) : List Piece :=
  match _h : cs.dropWhile (· != opening) with
  | [] => [.literal (String.ofList cs)]
  | _ :: after =>
    match _h' : after.dropWhile (· != closing) with
    | [] => [.literal (String.ofList cs)]
    | _ :: rest =>
      .literal (String.ofList (cs.takeWhile (· != opening))) ::
        pieceOf (after.takeWhile (· != closing)) :: piecesOf rest
termination_by cs.length
decreasing_by
  have h₁ := (List.dropWhile_sublist (· != opening) (l := cs)).length_le
  have h₂ := (List.dropWhile_sublist (· != closing) (l := after)).length_le
  simp only [_h, _h', List.length_cons] at h₁ h₂
  omega

/-- The pieces of a text. -/
def pieces (text : String) : List Piece := piecesOf text.toList

/-- The text with every marker replaced. -/
def substitute (resolve : Deferred → String) (text : String) : String :=
  String.join ((pieces text).map fun
    | .literal s => s
    | .marker d => resolve d)

/-- The text with every marker replaced by a resolver that keeps a record or may fail; it is asked
about one marker after the other, from first to last. -/
def substituteM {m : Type → Type} [Monad m] (resolve : Deferred → m String) (text : String) :
    m String := do
  let parts ← (pieces text).mapM fun
    | .literal s => pure s
    | .marker d => resolve d
  return String.join parts

/-- Does the text hold the start of a marker? -/
def hasMarkers (text : String) : Bool := text.toList.contains opening

/-- What the markers of a text stand for, from first to last. -/
def markers (text : String) : List Deferred :=
  (pieces text).filterMap fun
    | .literal _ => none
    | .marker d => some d

end Deferred

end SqlWorkflow
