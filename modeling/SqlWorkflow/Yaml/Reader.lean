import SqlWorkflow.Document.Basic
import SqlWorkflow.Dict
import SqlWorkflow.Yaml.Token

/-!
# Reading YAML text

The tokens of a text are made into a document.  Where the tokens end before the text does, or go
on with one that must not come next, the document holds a fault in the place of what was expected,
and everything before that is kept.
-/

namespace SqlWorkflow.Yaml

/-- A document read from the front of a token list, the tokens after it unless reading has
stopped, and the documents that have a name. -/
structure Parsed where
  doc : Doc
  rest : Option (List Token)
  named : List (String × Doc)
  deriving Inhabited

/-- Reading has stopped with the given document. -/
def Parsed.stop (doc : Doc) (named : List (String × Doc)) : Parsed := ⟨doc, none, named⟩

/-- The properties in front of a node: a name and a tag in either order. -/
structure Properties where
  anchor : Option String := none
  tag : Option String := none

/-- Reads the properties of a node. -/
def properties : List Token → Properties × List Token
  | .anchor name :: .tag _ tag :: ts => (⟨some name, some tag⟩, ts)
  | .tag _ tag :: .anchor name :: ts => (⟨some name, some tag⟩, ts)
  | .anchor name :: ts => (⟨some name, none⟩, ts)
  | .tag _ tag :: ts => (⟨none, some tag⟩, ts)
  | ts => ({}, ts)

/-- The document of a scalar, for which a tag without a name says nothing. -/
def scalarDoc (tag : Option String) (s : String) (form : ScalarForm) : Doc :=
  match tag with
  | none | some "!" => if form = .plain then .word s else .text s
  | some tag => .scalar tag form s

/-- What has been read, with a tag. -/
def Parsed.withTag (tag : Option String) (found : Parsed) : Parsed :=
  match tag with
  | some tag => { found with doc := .tagged tag found.doc }
  | none => found

/-- The kind of collection that is being read. -/
inductive Kind where
  | blockSequence
  /-- A block sequence that is not indented more than the key it belongs to. -/
  | inlineSequence
  | blockMapping
  | flowSequence
  | flowMapping
  deriving DecidableEq, Repr

/-- Does the token show that the node before it is empty? -/
def Kind.endsNode (kind : Kind) (t : Token) : Bool :=
  match kind with
  | .blockSequence => t == .blockEntry || t == .blockEnd
  | .inlineSequence => t == .blockEntry || t == .key || t == .value || t == .blockEnd
  | .blockMapping => t == .key || t == .value || t == .blockEnd
  | .flowSequence => t == .flowEntry || t == .flowSequenceEnd
  | .flowMapping => t == .flowEntry || t == .flowMappingEnd

/-- Is the kind a block collection? -/
def Kind.isBlock : Kind → Bool
  | .flowSequence | .flowMapping => false
  | _ => true

mutual

/-- Reads a node.  In a block mapping a sequence may stand without indentation. -/
def node (block unindented : Bool) (named : List (String × Doc)) (ts : List Token) :
    Nat → Parsed
  | 0 => .stop .fault named
  | fuel + 1 =>
    match ts with
    | .aliasOf name :: ts =>
      match lookupEntry name named with
      | some doc => ⟨doc, some ts, named⟩
      | none => .stop .fault named
    | ts =>
      let (props, ts) := properties ts
      let found := content block unindented props named ts fuel
      match props.anchor with
      | none => found
      | some name => { found with named := (name, found.doc) :: found.named }

/-- Reads a node after its properties. -/
def content (block unindented : Bool) (props : Properties) (named : List (String × Doc))
    (ts : List Token) : Nat → Parsed
  | 0 => .stop .fault named
  | fuel + 1 =>
    match ts with
    | .scalar s form :: ts => ⟨scalarDoc props.tag s form, some ts, named⟩
    | .flowSequenceStart :: ts => (items .flowSequence true [] named ts fuel).withTag props.tag
    | .flowMappingStart :: ts => (entries .flowMapping true [] named ts fuel).withTag props.tag
    | .blockSequenceStart :: rest =>
      if block then (items .blockSequence true [] named rest fuel).withTag props.tag
      else empty props named ts
    | .blockMappingStart :: rest =>
      if block then (entries .blockMapping true [] named rest fuel).withTag props.tag
      else empty props named ts
    | .blockEntry :: _ =>
      if unindented then (items .inlineSequence true [] named ts fuel).withTag props.tag
      else empty props named ts
    | [] => .stop .fault named
    | _ => empty props named ts

/-- A node of which there is nothing but its properties. -/
def empty (props : Properties) (named : List (String × Doc)) (ts : List Token) : Parsed :=
  match props.tag with
  | some tag => ⟨.scalar tag .plain "", some ts, named⟩
  | none => if props.anchor.isSome then ⟨.word "", some ts, named⟩ else .stop .fault named

/-- Reads the node of a collection, which may be missing. -/
def member (kind : Kind) (named : List (String × Doc)) (ts : List Token) : Nat → Parsed
  | 0 => .stop .fault named
  | fuel + 1 =>
    match ts with
    | [] => .stop .fault named
    | t :: _ =>
      if kind.endsNode t then ⟨.word "", some ts, named⟩
      else node kind.isBlock (kind == .blockMapping) named ts fuel

/-- Reads the items of a sequence after those that are `done`, which stand in reverse. -/
def items (kind : Kind) (first : Bool) (done : List Doc) (named : List (String × Doc))
    (ts : List Token) : Nat → Parsed
  | 0 => .stop (.seq (.fault :: done).reverse) named
  | fuel + 1 =>
    let broken := Parsed.stop (.seq (.fault :: done).reverse) named
    let finish (ts : List Token) : Parsed := ⟨.seq done.reverse, some ts, named⟩
    let add (found : Parsed) : Parsed :=
      match found.rest with
      | none => .stop (.seq (found.doc :: done).reverse) found.named
      | some ts => items kind false (found.doc :: done) found.named ts fuel
    match kind with
    | .flowSequence =>
      match ts with
      | .flowSequenceEnd :: ts => finish ts
      | _ =>
        let ts? := if first then some ts else
          match ts with
          | .flowEntry :: ts => some ts
          | _ => none
        match ts? with
        | none => broken
        -- A pair among the items is a mapping of its own.
        | some (.key :: ts) => add (pair named ts fuel)
        -- A comma may stand before the end.
        | some (.flowSequenceEnd :: ts) => finish ts
        | some ts => add (node false false named ts fuel)
    | .inlineSequence =>
      match ts with
      | .blockEntry :: ts => add (member kind named ts fuel)
      | [] => broken
      | ts => finish ts
    | _ =>
      match ts with
      | .blockEntry :: ts => add (member kind named ts fuel)
      | .blockEnd :: ts => finish ts
      | _ => broken

/-- Reads a mapping of one entry inside a flow sequence, after its first token. -/
def pair (named : List (String × Doc)) (ts : List Token) : Nat → Parsed
  | 0 => .stop .fault named
  | fuel + 1 =>
    -- Where the key is empty, the token that shows it is read over.
    let key : Parsed := match ts with
      | .value :: ts | .flowEntry :: ts | .flowSequenceEnd :: ts => ⟨.word "", some ts, named⟩
      | ts => node false false named ts fuel
    match key.rest with
    | none => .stop (.map [(key.doc, .fault)]) key.named
    | some ts =>
      let value : Parsed := match ts with
        | .value :: ts => member .flowSequence key.named ts fuel
        | [] => .stop .fault key.named
        | ts => ⟨.word "", some ts, key.named⟩
      { value with doc := .map [(key.doc, value.doc)] }

/-- Reads the entries of a mapping after those that are `done`, which stand in reverse. -/
def entries (kind : Kind) (first : Bool) (done : List (Doc × Doc)) (named : List (String × Doc))
    (ts : List Token) : Nat → Parsed
  | 0 => .stop (.map ((.fault, .fault) :: done).reverse) named
  | fuel + 1 =>
    let broken := Parsed.stop (.map ((.fault, .fault) :: done).reverse) named
    let finish (ts : List Token) : Parsed := ⟨.map done.reverse, some ts, named⟩
    let add (key : Parsed) (value : Parsed) : Parsed :=
      match value.rest with
      | none => .stop (.map ((key.doc, value.doc) :: done).reverse) value.named
      | some ts => entries kind false ((key.doc, value.doc) :: done) value.named ts fuel
    let valueOf (key : Parsed) : Parsed :=
      match key.rest with
      | none => .stop (.map ((key.doc, .fault) :: done).reverse) key.named
      | some (.value :: ts) => add key (member kind key.named ts fuel)
      | some [] => .stop (.map ((key.doc, .fault) :: done).reverse) key.named
      | some ts => add key ⟨.word "", some ts, key.named⟩
    let keyAt (ts : List Token) : Parsed :=
      match ts with
      | .value :: _ => valueOf ⟨.word "", some ts, named⟩
      | ts => valueOf (member kind named ts fuel)
    match kind with
    | .flowMapping =>
      match ts with
      | .flowMappingEnd :: ts => finish ts
      | _ =>
        let ts? := if first then some ts else
          match ts with
          | .flowEntry :: ts => some ts
          | _ => none
        match ts? with
        | none => broken
        | some (.key :: ts) => keyAt ts
        | some (.flowMappingEnd :: ts) => finish ts
        | some ts =>
          let key := node false false named ts fuel
          match key.rest with
          | none | some [] => .stop (.map ((key.doc, .fault) :: done).reverse) key.named
          | some ts => add key ⟨.word "", some ts, key.named⟩
    | _ =>
      match ts with
      | .key :: ts => keyAt ts
      | .blockEnd :: ts => finish ts
      | _ => broken

end

/-- The handles that need no declaration. -/
def commonHandles : List (String × String) := [("!", "!"), ("!!", "tag:yaml.org,2002:")]

/-- The tokens with full tags, up to the first tag whose handle is not among the given ones. -/
def fullTags (handles : List (String × String)) : List Token → List Token
  | [] => []
  | .tag handle suffix :: ts =>
    if handle = "" then .tag "" suffix :: fullTags handles ts
    else
      match lookupEntry handle handles with
      | some start => .tag "" (start ++ suffix) :: fullTags handles ts
      | none => []
  | t :: ts => t :: fullTags handles ts

/-- Reads the directives in front of a document: the handles that they declare, and what follows.
There is one version at most, and no handle is declared twice. -/
def directives (versioned : Bool) (handles : List (String × String)) :
    List Token → Option (List (String × String) × List Token)
  | .version major minor :: ts =>
    if versioned || major != 1 || (minor != 1 && minor != 2) then none
    else directives true handles ts
  | .declaration handle tags :: ts =>
    if (lookupEntry handle handles).isSome then none
    else directives versioned ((handle, tags) :: handles) ts
  | ts => some (handles, ts)

/-- Do directives come next? -/
def startsDirectives : List Token → Bool
  | .version _ _ :: _ | .declaration _ _ :: _ => true
  | _ => false

/-- The document of a token list. -/
def ofTokens (ts : List Token) : Reading :=
  let fuel := 4 * ts.length + 8
  let root (handles : List (String × String)) (ts : List Token) : Reading :=
    let found := node true false [] (fullTags (handles ++ commonHandles) ts) fuel
    match found.rest with
    | none => ⟨found.doc, false⟩
    | some ts => ⟨found.doc, ts.dropWhile (· == .documentEnd) == [.streamEnd]⟩
  if ts == [.streamEnd] then ⟨.word "", true⟩
  else if startsDirectives ts || ts.head? == some .documentStart then
    match directives false [] ts with
    | some (handles, .documentStart :: ts) =>
      if startsDirectives ts then ⟨.word "", false⟩
      else
        match ts with
        | .documentEnd :: _ | .streamEnd :: _ =>
          ⟨.word "", ts.dropWhile (· == .documentEnd) == [.streamEnd]⟩
        | ts => root handles ts
    | _ => ⟨.fault, false⟩
  else root [] ts

/-- As many containers may be read inside of one another. -/
def depthLimit : Nat := 128

/-- The document that a YAML text holds. -/
def read (text : String) : Reading :=
  let reading := ofTokens (tokens text.toList)
  { reading with doc := reading.doc.limited depthLimit }

end SqlWorkflow.Yaml
