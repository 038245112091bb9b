import SqlWorkflow.Document.Decode
import SqlWorkflow.Json.Printer
import SqlWorkflow.Json.Reader

/-!
# Responses

A response holds the text of a graph, or the error because of which there is none.  It is passed
on as JSON text.
-/

namespace SqlWorkflow

/-- An error because of which a project has no graph, in a form that can be passed on. -/
structure FatalError where
  message : String
  /-- The message together with the messages of what caused the error. -/
  stack : String := ""
  /-- The name of the kind of error. -/
  name : String := ""
  /-- What the error is about. -/
  properties : Dict Json := {}
  deriving Repr, Inhabited

namespace FatalError

/-- The properties of an error as JSON. -/
def propertiesJson (e : FatalError) : Json := Json.ofDict id e.properties

/-- The error as JSON. -/
def toJson (e : FatalError) : Json :=
  Json.present
    [ ("message", some (.str e.message)), ("stack", some (.str e.stack)),
      ("name", some (.str e.name)),
      ("properties", if e.properties.isEmpty then none else some e.propertiesJson) ]

/-- Reads any JSON value. -/
def anyJson : Decoder Json := fun _ doc =>
  match Json.ofDoc? doc with
  | some value => .ok value
  | none => .error .fault

/-- The fields of an error in a document. -/
def shape : Decode.Shape FatalError where
  title := "struct SerializedError"
  fields :=
    [ (Decode.field "message" Decode.string fun v e => { e with message := v }).mandatory,
      Decode.field "stack" Decode.string fun v e => { e with stack := v },
      Decode.field "name" Decode.string fun v e => { e with name := v },
      Decode.field "properties" (Decode.dict anyJson) fun v e => { e with properties := v } ]

/-- Reads an error. -/
def decode : Decoder FatalError := shape.decode { message := "" }

end FatalError

/-- The answer to a request. -/
inductive CompileResponse where
  | success (encodedGraph : String)
  | failure (error : FatalError)
  deriving Repr, Inhabited

namespace CompileResponse

/-- The response as JSON. -/
def toJson : CompileResponse → Json
  | .success encodedGraph =>
    .obj [("type", .str "success"), ("encodedGraph", .str encodedGraph)]
  | .failure error => .obj [("type", .str "error"), ("error", error.toJson)]

/-- The field of a response with a graph. -/
def successShape : Decode.Shape String where
  title := "struct variant CompileResponse::Success"
  fields := [(Decode.field "encodedGraph" Decode.string fun v _ => v).mandatory]

/-- The field of a response with an error. -/
def failureShape : Decode.Shape FatalError where
  title := "struct variant CompileResponse::Error"
  fields := [(Decode.field "error" FatalError.decode fun v _ => v).mandatory]

/-- Reads a response. -/
def decode : Decoder CompileResponse :=
  Decode.tagged "CompileResponse" "type"
    [ ("success", fun source doc => (successShape.decode "" source doc).map success),
      ("error", fun source doc =>
        (failureShape.decode { message := "" } source doc).map failure) ]

/-- The text by which a response is passed on. -/
def encode (r : CompileResponse) : String := r.toJson.compact

/-- The response that a text holds. -/
def ofText (text : String) : Except DecodeError CompileResponse :=
  Decode.whole decode .jsonText (Json.read text)

end CompileResponse

end SqlWorkflow
