import SqlWorkflow.Text.Quoted

/-!
# Failures of templates

A template that cannot be read or evaluated fails with a cause and, unless it could not be read at
all, the place in some template where the failure arose.  A failure inside an embedded template is
reported at the embedding statement, and what failed inside is not shown.

A panic is no failure of the template: it breaks off everything around it as well, and whoever runs
the template must hold it back.
-/

namespace SqlWorkflow.Template

/-- Why a template fails. -/
inductive Cause where
  /-- The template does not follow the grammar. -/
  | malformed
  /-- A quoted text holds an unknown escape. -/
  | badEscape
  /-- An operation does not apply to the values it was given. -/
  | invalid (detail : String)
  /-- Only a number has an opposite. -/
  | notANumber
  /-- A value is missing that must be there. -/
  | undefined (detail : Option String)
  | unknownFilter (name : String)
  | unknownTest (name : String)
  /-- A filter or test that is named by a value is unknown. -/
  | unknownFilterValue
  | unknownTestValue
  | unknownFunction (name : String)
  /-- A loop is called by another name than its own. -/
  | loopRenamed
  | unknownMethod (owner method : String)
  /-- A block that is run by its name is not there. -/
  | unknownBlock (name : String)
  | templateNotFound (name : String)
  /-- A template that is to be extended is not there. -/
  | noSuchTemplate (name : String)
  | noneOfTemplates (names : String)
  | tooManyArguments (detail : Option String)
  | missingArgument
  | missingNamed (name : String)
  | cannotUnpack (detail : String)
  /-- An embedded template failed. -/
  | insideTemplate (name : String)
  /-- What a block stands in for failed. -/
  | insideSuper
  | outOfFuel
  /-- The evaluation breaks off. -/
  | panic (message : String)
  deriving DecidableEq, Repr, Inhabited

namespace Cause

/-- What kind of failure it is. -/
def title : Cause → String
  | .malformed => "syntax error"
  | .badEscape => "bad string escape"
  | .invalid _ | .notANumber => "invalid operation"
  | .undefined _ => "undefined value"
  | .unknownFilter _ | .unknownFilterValue => "unknown filter"
  | .unknownTest _ | .unknownTestValue => "unknown test"
  | .unknownFunction _ | .loopRenamed => "unknown function"
  | .unknownMethod _ _ => "unknown method"
  | .unknownBlock _ => "unknown block"
  | .templateNotFound _ | .noSuchTemplate _ | .noneOfTemplates _ => "template not found"
  | .tooManyArguments _ => "too many arguments"
  | .missingArgument | .missingNamed _ => "missing argument"
  | .cannotUnpack _ => "cannot unpack"
  | .insideTemplate _ => "could not render include"
  | .insideSuper => "could not render block"
  | .outOfFuel => "engine ran out of fuel"
  | .panic _ => "panic"

/-- What exactly failed. -/
def detail? : Cause → Option String
  | .malformed | .badEscape | .notANumber | .unknownFilterValue | .unknownTestValue
  | .missingArgument | .outOfFuel => none
  | .invalid detail => some detail
  | .undefined detail => detail
  | .unknownFilter name => some ("filter " ++ name ++ " is unknown")
  | .unknownTest name => some ("test " ++ name ++ " is unknown")
  | .unknownFunction name => some (name ++ " is unknown")
  | .loopRenamed => some "loop cannot be called if reassigned to different variable"
  | .unknownMethod owner method => some (owner ++ " has no method named " ++ method)
  | .unknownBlock name => some ("block '" ++ name ++ "' not found")
  | .noSuchTemplate name => some ("template " ++ Text.displayQuoted name ++ " does not exist")
  | .templateNotFound name =>
    some ("tried to include non-existing template " ++ Text.displayQuoted name)
  | .noneOfTemplates names =>
    some ("tried to include one of multiple templates, none of which existed " ++ names)
  | .tooManyArguments detail => detail
  | .missingNamed name => some ("missing keyword argument '" ++ name ++ "'")
  | .cannotUnpack detail => some detail
  | .insideTemplate name => some ("error in \"" ++ name ++ "\"")
  | .insideSuper => some "error in super block"
  | .panic message => some message

/-- Failures that are reported without a place: where they strike is not part of the report. -/
def hasNoPlace : Cause → Bool
  | .malformed | .outOfFuel | .panic _ => true
  | _ => false

/-- The message of a panic. -/
def panic? : Cause → Option String
  | .panic message => some message
  | _ => none

end Cause

/-- A line of a template. -/
structure Place where
  file : String
  line : Nat
  deriving DecidableEq, Repr, Inhabited

/-- A failure. -/
structure Fault where
  cause : Cause
  place : Option Place := none
  deriving DecidableEq, Repr, Inhabited

namespace Fault

/-- The failure, which arose at a place unless it is known already where. -/
def placed (fault : Fault) (place : Place) : Fault :=
  { fault with place := some (fault.place.getD place) }

/-- What the failure of a part of a template is to the template as a whole: another failure, unless
it breaks off the whole. -/
def around (cause : Cause) (fault : Fault) : Fault :=
  match fault.cause.panic? with
  | some _ => fault
  | none => { cause }

/-- The text of a failure. -/
def message (fault : Fault) : String :=
  let detail := match fault.cause.detail? with
    | some detail => ": " ++ detail
    | none => ""
  let place := match fault.place with
    | some place =>
      if fault.cause.hasNoPlace then ""
      else " (in " ++ place.file ++ ":" ++ toString place.line ++ ")"
    | none => ""
  fault.cause.title ++ detail ++ place

end Fault

end SqlWorkflow.Template
