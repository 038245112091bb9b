import SqlWorkflow.Dict
import SqlWorkflow.Document.Error

/-!
# Reading values out of documents

A decoder turns a document into a value of a known shape or says why it cannot.  Decoders read a
document from front to back and report the first thing that is wrong.

A record is read by a `Shape`: the list of its fields, each with its names, whether it must be
present, and how its value is put into the record under construction.
-/

namespace SqlWorkflow

/-- Reads a value of type `α` out of a document. -/
abbrev Decoder (α : Type) := Source → Doc → Except DecodeError α

namespace Decode

variable {α β σ : Type}

/-! ## §1 Tags -/

namespace Tag

/-- A tag of the core schema. -/
def core (name : String) : String := "tag:yaml.org,2002:" ++ name

/-- The name in a tag that is not of the core schema but of an application. -/
def own? (tag : String) : Option String :=
  match tag.toList with
  | ['!'] => some "!"
  | '!' :: name => some (String.ofList name)
  | _ => none

end Tag

/-- What an unquoted word denotes in a place where anything is allowed. -/
def ofWord (s : String) : Doc :=
  match Word.meaning s with
  | .null => .null
  | .bool b => .bool b
  | .int n => .num (.int n)
  | .float x => .num (.float x)
  | .text s => .text s

/-- What a scalar with a tag denotes in such a place.  Some tags demand a value of a type. -/
def ofScalar (tag : String) (form : ScalarForm) (s : String) : Except ShapeError Doc :=
  let demand (type : String) (doc? : Option Doc) : Except ShapeError Doc :=
    match doc? with
    | some doc => .ok doc
    | none => .error (.invalidValue (.string s) type)
  if tag = Tag.core "bool" then demand "a boolean" ((Word.bool? s).map .bool)
  else if tag = Tag.core "int" then demand "an integer" ((Word.int? s).map fun n => .num (.int n))
  else if tag = Tag.core "float" then
    demand "a float" ((Word.fractionOf? s).map fun x => .num (.float x))
  else if tag = Tag.core "null" then
    demand "null" (if Word.isNull s && s != "" then some .null else none)
  else if (Tag.own? tag).isSome && form = .plain then .ok (ofWord s)
  else .ok (.text s)

/-- The word that may be read as a value of a type of the core schema. -/
def wordFor? (type : String) : Doc → Option String
  | .word s => some s
  | .scalar tag form s =>
    if form = .plain || (form = .literal && tag = Tag.core type) then some s else none
  | _ => none

/-! ## §2 Scalars -/

/-- What stands in a place where something else is expected; nothing if the text ends here. -/
def found? (source : Source) : Doc → Option Found
  | .fault => none
  | .null => some (if source = .yaml then .unit else .null)
  | .bool b => some (.boolean b)
  | .num (.int n) => some (.integer n)
  | .num (.float x) => some (.fraction x)
  | .text s => some (.string s)
  | .word s =>
    match Word.meaning s with
    | .null => some .unit
    | .bool b => some (.boolean b)
    | .int n => some (.integer n)
    | .float x => some (.fraction x)
    | .text s => some (.string s)
  | .scalar _ _ s => some (.string s)
  | .seq _ => some .sequence
  | .map _ => some .map
  | .tagged _ container => found? source container
  | .tooDeep container => found? source container

/-- The error for a value that is not what is expected. -/
def mismatch (source : Source) (doc : Doc) (expected : String) : DecodeError :=
  let wrong (doc : Doc) : DecodeError :=
    match found? source doc with
    | none => .fault
    | some found => .shape (some []) (.invalidType found expected)
  match doc with
  | .scalar tag form s =>
    match ofScalar tag form s with
    | .ok doc => wrong doc
    | .error cause => .shape (some []) cause
  | doc => wrong doc

/-- Reads a text; an unquoted word stands for itself. -/
def textAs (expected : String) : Decoder String := fun source doc =>
  match doc with
  | .text s => .ok s
  | .word s => .ok s
  | .scalar _ _ s => .ok s
  | _ => .error (mismatch source doc expected)

/-- Reads a text. -/
def string : Decoder String := textAs "a string"

/-- Reads a truth value. -/
def bool : Decoder Bool := fun source doc =>
  match doc with
  | .bool b => .ok b
  | _ =>
    match (wordFor? "bool" doc).bind Word.bool? with
    | some b => .ok b
    | none => .error (mismatch source doc "a boolean")

/-- Reads a whole number of `bits` bits. -/
def natural (bits : Nat) : Decoder Nat := fun source doc =>
  let expected := "u" ++ toString bits
  let check (n : Int) : Except DecodeError Nat :=
    if 0 ≤ n ∧ n < Nat.pow 2 bits then .ok n.toNat
    else .error (.shape (some []) (.invalidValue (.integer n) expected))
  match doc with
  | .num (.int n) => check n
  | _ =>
    match (wordFor? "int" doc).bind Word.unsigned? with
    | some n => check n
    | none => .error (mismatch source doc expected)

/-- Reads one of finitely many words. -/
def oneOf (variants : List (String × α)) : Decoder α := fun source doc =>
  let pick (path : Option (List Step)) (s : String) : Except DecodeError α :=
    match lookupEntry s variants with
    | some value => .ok value
    | none => .error (.shape path (.unknownVariant s (variants.map (·.1))))
  -- A JSON object with one key names the variant by that key and holds nothing.
  let keyed (key value : Doc) : Except DecodeError α := do
    let name ← string source key
    let variant ← pick (some []) name
    match value with
    | .null => .ok variant
    | _ => .error (mismatch source value "unit")
  match source, doc with
  | _, .fault => .error .fault
  | _, .text s => pick (some []) s
  | _, .word s => pick (some []) s
  -- So does the tag of a YAML value.
  | .yaml, .scalar tag form s =>
    match Tag.own? tag with
    | none => pick (some []) s
    | some name => do
      let variant ← pick none name
      if form = .plain && Word.isNull s then .ok variant
      else .error (.shape (some []) (.invalidValue (.string s) "null"))
  | .yaml, .tagged tag container =>
    match Tag.own? tag with
    | none => .error (mismatch source doc "a YAML tag starting with '!'")
    | some name => do
      let _ ← pick none name
      .error (mismatch source container "unit")
  | .yaml, _ => .error (mismatch source doc "a YAML tag starting with '!'")
  | .jsonText, .map ((key, value) :: rest) => do
    let variant ← keyed key value
    if rest.isEmpty then .ok variant else .error .fault
  | .jsonText, _ => .error .fault
  | _, .map [(key, value)] => keyed key value
  | _, .map _ => .error (.shape (some []) (.invalidValue .map "map with a single key"))
  | _, _ => .error (mismatch source doc "string or map")

/-! ## §3 Containers -/

/-- Reads a value that may be null. -/
def option (decode : Decoder α) : Decoder (Option α) := fun source doc =>
  match doc with
  | .null => .ok none
  | .word s => if Word.isNull s then .ok none else some <$> decode source doc
  | .scalar tag .plain s =>
    if tag = Tag.core "null" then
      if Word.isNull s && s != "" then .ok none
      else .error (.shape none (.invalidValue (.string s) "null"))
    else some <$> decode source doc
  | _ => some <$> decode source doc

/-- Reads the elements of a sequence, the first of which stands at position `i`. -/
def elements (decode : Decoder α) (source : Source) (i : Nat) :
    List Doc → Except DecodeError (List α)
  | [] => .ok []
  | doc :: rest => do
    let first ← (decode source doc).mapError (DecodeError.under (.index i))
    let others ← elements decode source (i + 1) rest
    return first :: others

/-- Reads a sequence. -/
def list (decode : Decoder α) : Decoder (List α) := fun source doc =>
  match doc.untagged with
  | .seq items => (elements decode source 0 items).mapError DecodeError.place
  | .word "" => .ok []
  | .tooDeep (.seq _) => .error .fault
  | _ => .error (mismatch source doc "a sequence")

/-- The step to the value under a key. -/
def stepTo : Doc → Step
  | .text s => .key s
  | .word s => .key s
  | .scalar _ _ s => .key s
  | _ => .unnamed

/-- Reads the entries of a map whose keys are texts. -/
def members (decode : Decoder α) (source : Source) :
    List (Doc × Doc) → Except DecodeError (List (String × α))
  | [] => .ok []
  | (key, value) :: rest => do
    let name ← string source key
    let first ← (decode source value).mapError (DecodeError.under (stepTo key))
    let others ← members decode source rest
    return (name, first) :: others

/-- Reads a map whose keys are texts; the last of several equal keys wins. -/
def dict (decode : Decoder α) : Decoder (Dict α) := fun source doc =>
  match doc.untagged with
  | .map entries => (Dict.ofList <$> members decode source entries).mapError DecodeError.place
  | .word "" => .ok ∅
  | .tooDeep (.map _) => .error .fault
  | _ => .error (mismatch source doc "a map")

mutual

/-- A document that is set aside until more is known: its scalars have become what they denote, and
tags of an application are refused. -/
def setAside : Doc → Except DecodeError Doc
  | .fault => .error .fault
  | .word s => .ok (ofWord s)
  | .scalar tag form s =>
    if (Tag.own? tag).isSome then .error .fault
    else (ofScalar tag form s).mapError fun cause => .shape (some []) cause
  | .seq items => Doc.seq <$> setAllAside 0 items
  | .map entries => Doc.map <$> setEntriesAside entries
  | .tagged tag container => if (Tag.own? tag).isSome then .error .fault else setAside container
  | .tooDeep _ => .error .fault
  | doc => .ok doc

def setAllAside (i : Nat) : List Doc → Except DecodeError (List Doc)
  | [] => .ok []
  | doc :: rest => do
    let first ← (setAside doc).mapError (DecodeError.under (.index i))
    let others ← setAllAside (i + 1) rest
    return first :: others

def setEntriesAside : List (Doc × Doc) → Except DecodeError (List (Doc × Doc))
  | [] => .ok []
  | (key, value) :: rest => do
    let name ← setAside key
    let first ← (setAside value).mapError (DecodeError.under (stepTo key))
    let others ← setEntriesAside rest
    return (name, first) :: others

end

/-! ## §4 Records -/

/-- One field of a record under construction. -/
structure Field (σ : Type) where
  name : String
  /-- All names under which the field may be given, in the order in which messages list them. -/
  spellings : List String := [name]
  required : Bool := false
  /-- Puts the field's value into the record. -/
  read : Source → Doc → σ → Except DecodeError σ

/-- A field with the given name, whose value `decode` reads and `put` stores. -/
def field (name : String) (decode : Decoder α) (put : α → σ → σ) : Field σ where
  name := name
  read source doc record := (decode source doc).map fun value => put value record

/-- A field that must be present. -/
def Field.mandatory (f : Field σ) : Field σ := { f with required := true }

/-- A field that has a second name. -/
def Field.alias (f : Field σ) (spellings : List String) : Field σ :=
  { f with spellings := spellings }

/-- The fields of a record, and what becomes of other fields. -/
structure Shape (σ : Type) where
  title : String
  fields : List (Field σ)
  /-- Are other fields refused? -/
  closed : Bool := false
  /-- Are other fields set aside?  Otherwise they are skipped. -/
  keeps : Bool := false

/-- A record of which some entries have been read. -/
structure Partial (σ : Type) where
  record : σ
  seen : List String := []
  /-- Entries that have been set aside, in order. -/
  others : List (Doc × Doc) := []

namespace Shape

/-- Every name that a field of the record may have. -/
def names (shape : Shape σ) : List String := shape.fields.flatMap (·.spellings)

/-- Reads one entry of the record. -/
def entry (shape : Shape σ) (source : Source) (state : Partial σ) (key value : Doc) :
    Except DecodeError (Partial σ) := do
  let name ← textAs "field identifier" source key
  match shape.fields.find? (fun f => f.spellings.contains name) with
  | none =>
    if shape.closed then .error (.shape none (.unknownField name shape.names))
    else if shape.keeps then do
      let value ← (setAside value).mapError (DecodeError.under (stepTo key))
      .ok { state with others := state.others ++ [(.text name, value)] }
    else if value.hasFault then .error .fault
    else .ok state
  | some f =>
    if state.seen.contains f.name then .error (.shape none (.duplicateField f.name))
    else
      let record ← (f.read source value state.record).mapError (DecodeError.under (stepTo key))
      .ok { state with record := record, seen := f.name :: state.seen }

/-- Reads the entries of the record from first to last. -/
def entries (shape : Shape σ) (source : Source) (state : Partial σ) :
    List (Doc × Doc) → Except DecodeError (Partial σ)
  | [] => .ok state
  | (key, value) :: rest => do
    let state ← shape.entry source state key value
    shape.entries source state rest

/-- The first mandatory field that was not given. -/
def missing? (shape : Shape σ) (state : Partial σ) : Option String :=
  (shape.fields.find? fun f => f.required && !state.seen.contains f.name).map (·.name)

/-- Reads a record from its entries. -/
def ofEntries (shape : Shape σ) (source : Source) (start : σ) (items : List (Doc × Doc)) :
    Except DecodeError (Partial σ) := do
  let state ← shape.entries source { record := start } items
  match shape.missing? state with
  | some name => .error (.shape none (.missingField name))
  | none => .ok state

/-- Reads the fields of a record that is given as a sequence, from field number `i` on. -/
def positional (source : Source) (expected : String) (i : Nat) (record : σ) :
    List (Field σ) → List Doc → Except DecodeError (σ × List Doc)
  | [], rest => .ok (record, rest)
  | f :: fields, [] =>
    if f.required then .error (.shape none (.invalidLength i expected))
    else positional source expected (i + 1) record fields []
  | f :: fields, item :: rest => do
    let record ← f.read source item record
    positional source expected (i + 1) record fields rest

/-- Reads a record that is given as a sequence of its fields. -/
def ofItems (shape : Shape σ) (source : Source) (start : σ) (items : List Doc) :
    Except DecodeError σ := do
  let count := shape.fields.length
  let plural := if count = 1 then " element" else " elements"
  let expected := shape.title ++ " with " ++ toString count ++ plural
  let (record, rest) ← positional source expected 0 start shape.fields items
  if rest.isEmpty then .ok record
  else
    match source with
    | .jsonText => .error .fault
    | .aside =>
      let expected := toString count ++ plural ++ " in sequence"
      .error (.shape none (.invalidLength items.length expected))
    | _ => .error (.shape none (.invalidLength items.length "fewer elements in array"))

/-- Reads a record, starting from the one that has no field set. -/
def decode (shape : Shape σ) (start : σ) : Decoder σ := fun source doc =>
  match doc.untagged with
  | .map items => ((shape.ofEntries source start items).map (·.record)).mapError DecodeError.place
  | .word "" => ((shape.ofEntries source start []).map (·.record)).mapError DecodeError.place
  | .seq items =>
    if source = .yaml then .error (mismatch source doc shape.title)
    else (shape.ofItems source start items).mapError DecodeError.place
  | .tooDeep (.map _) => .error .fault
  | .tooDeep (.seq _) =>
    if source = .yaml then .error (mismatch source doc shape.title) else .error .fault
  | _ => .error (mismatch source doc shape.title)

end Shape

/-! ## §5 Values that are set aside -/

/-- Reads a value by the first of several decoders that accepts it.  The value is set aside
first, so what is wrong with it by itself wins over its shape. -/
def firstOf (type : String) (decoders : List (Decoder α)) : Decoder α := fun _ doc => do
  let doc ← setAside doc
  match decoders.findSome? fun decode => (decode .aside doc).toOption with
  | some value => return value
  | none => throw (.shape none (.noVariant type))

/-- The entries of a record that names its own variant, read from first to last: the variant, and
the entries that are not its name. -/
def taggedEntries (tag : String) (variants : List (String × α)) (source : Source) :
    Option α → List (Doc × Doc) → Except DecodeError (Option α × List (Doc × Doc))
  | variant, [] => .ok (variant, [])
  | variant, (key, value) :: rest => do
    let name ← setAside key
    if (match name with | .text s => s == tag | _ => false) then
      if variant.isSome then throw (.shape none (.duplicateField tag))
      let chosen ← variantOf variants source value
      taggedEntries tag variants source (some chosen) rest
    else
      let value ← (setAside value).mapError (DecodeError.under (stepTo key))
      let (variant, others) ← taggedEntries tag variants source variant rest
      return (variant, (name, value) :: others)
where
  variantOf (variants : List (String × α)) (source : Source) (value : Doc) :
      Except DecodeError α := do
    let name ← textAs "variant identifier" source value
    match lookupEntry name variants with
    | some variant => return variant
    | none => throw (.shape none (.unknownVariant name (variants.map (·.1))))

/-- Reads a value of a type with several variants, where the entry `tag` of a record, or the first
element of a sequence, names the variant.  The rest is set aside until the variant is known. -/
def tagged (title tag : String) (variants : List (String × Decoder α)) : Decoder α :=
  fun source doc =>
    match doc with
    | .map entries => do
      let (variant, others) ← taggedEntries tag variants source none entries
      match variant with
      | some decode => decode .aside (.map others)
      | none => throw (.shape none (.missingField tag))
    | .seq [] => .error (.shape none (.missingField tag))
    | .seq (first :: rest) => do
      let decode ← taggedEntries.variantOf variants source first
      let rest ← setAllAside 1 rest
      decode .aside (.seq rest)
    | .tooDeep _ => .error .fault
    | _ => .error (mismatch source doc ("internally tagged enum " ++ title))

/-- Reads a variant that holds nothing; entries beside its name do not matter. -/
def bare (value : α) : Decoder α := fun source doc =>
  match doc with
  | .map _ => .ok value
  | .seq [] => .ok value
  | .seq items => .error (.shape none (.invalidLength items.length "0 elements in sequence"))
  | _ => .error (mismatch source doc "unit variant")

/-! ## §6 Whole texts -/

/-- Reads the value of a whole text; whatever follows the document is a fault after it. -/
def whole (decode : Decoder α) (source : Source) (reading : Reading) : Except DecodeError α := do
  let value ← decode source reading.doc
  if reading.complete then return value else throw .fault

end Decode

end SqlWorkflow
