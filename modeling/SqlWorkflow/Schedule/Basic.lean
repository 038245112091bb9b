import SqlWorkflow.Document.Decode
import SqlWorkflow.Json.Basic
import SqlWorkflow.Json.Reader
import SqlWorkflow.Schedule.Cron
import SqlWorkflow.Schedule.Email

/-!
# Schedules

A schedules file says when which actions of a project are run and who is told about it.
-/

namespace SqlWorkflow

/-- Who is told, and of what. -/
structure Notification where
  emails : List String := []
  onSuccess : Bool := false
  onFailure : Bool := false
  deriving DecidableEq, Repr, Inhabited

/-- What a schedule runs. -/
structure ScheduleOptions where
  tags : List String := []
  actions : List String := []
  includeDependencies : Bool := false
  fullRefresh : Bool := false
  deriving DecidableEq, Repr, Inhabited

/-- Runs of part of a project at certain times. -/
structure Schedule where
  name : String := ""
  cron : String := ""
  disabled : Bool := false
  options : Option ScheduleOptions := none
  notification : Option Notification := none
  deriving DecidableEq, Repr, Inhabited

/-- The contents of a schedules file. -/
structure Schedules where
  defaultNotification : Option Notification := none
  schedules : List Schedule := []
  deriving DecidableEq, Repr, Inhabited

/-! ## §1 JSON -/

namespace Notification

def toJson (n : Notification) : Json :=
  .obj
    [ ("emails", .strings n.emails), ("onSuccess", .bool n.onSuccess),
      ("onFailure", .bool n.onFailure) ]

def shape : Decode.Shape Notification where
  title := "struct Notification"
  fields :=
    [ Decode.field "emails" (Decode.list Decode.string) fun v n => { n with emails := v },
      Decode.field "onSuccess" Decode.bool fun v n => { n with onSuccess := v },
      Decode.field "onFailure" Decode.bool fun v n => { n with onFailure := v } ]

end Notification

namespace ScheduleOptions

def toJson (o : ScheduleOptions) : Json :=
  .obj
    [ ("tags", .strings o.tags), ("actions", .strings o.actions),
      ("includeDependencies", .bool o.includeDependencies),
      ("fullRefresh", .bool o.fullRefresh) ]

def shape : Decode.Shape ScheduleOptions where
  title := "struct ScheduleOptions"
  fields :=
    let texts := Decode.list Decode.string
    [ Decode.field "tags" texts fun v o => { o with tags := v },
      Decode.field "actions" texts fun v o => { o with actions := v },
      Decode.field "includeDependencies" Decode.bool
        fun v o => { o with includeDependencies := v },
      Decode.field "fullRefresh" Decode.bool fun v o => { o with fullRefresh := v } ]

end ScheduleOptions

namespace Schedule

def toJson (s : Schedule) : Json :=
  Json.present
    [ ("name", some (.str s.name)), ("cron", some (.str s.cron)),
      ("disabled", some (.bool s.disabled)),
      ("options", s.options.map ScheduleOptions.toJson),
      ("notification", s.notification.map Notification.toJson) ]

def shape : Decode.Shape Schedule where
  title := "struct Schedule"
  fields :=
    [ Decode.field "name" Decode.string fun v s => { s with name := v },
      Decode.field "cron" Decode.string fun v s => { s with cron := v },
      Decode.field "disabled" Decode.bool fun v s => { s with disabled := v },
      Decode.field "options" (Decode.option (ScheduleOptions.shape.decode {}))
        fun v s => { s with options := v },
      Decode.field "notification" (Decode.option (Notification.shape.decode {}))
        fun v s => { s with notification := v } ]

end Schedule

/-- Why a schedules file is refused. -/
structure SchedulesError where
  path : String
  cause : DecodeError
  deriving Repr

/-- The text of the error. -/
def SchedulesError.message (e : SchedulesError) : String :=
  "[SCH001] Failed to parse schedules file " ++ e.path ++ ": " ++ e.cause.message .jsonText

namespace Schedules

def toJson (s : Schedules) : Json :=
  Json.present
    [ ("defaultNotification", s.defaultNotification.map Notification.toJson),
      ("schedules", some (.arr (s.schedules.map Schedule.toJson))) ]

def shape : Decode.Shape Schedules where
  title := "struct SchedulesJson"
  fields :=
    [ Decode.field "defaultNotification" (Decode.option (Notification.shape.decode {}))
        fun v s => { s with defaultNotification := v },
      Decode.field "schedules" (Decode.list (Schedule.shape.decode {}))
        fun v s => { s with schedules := v } ]

/-- The schedules that the text of the file at `path` holds. -/
def ofText (path text : String) : Except SchedulesError Schedules :=
  (Decode.whole (shape.decode {}) .jsonText (Json.read text)).mapError fun e => ⟨path, e⟩

/-! ## §2 Problems -/

/-- What is wrong with schedules. -/
inductive Problem where
  | badEmail (email : String)
  | noName
  | repeatedName (name : String)
  | noCron
  | badCron (cron : String)
  deriving DecidableEq, Repr

/-- The wording of a problem. -/
def Problem.message : Problem → String
  | .badEmail email => email ++ " is not a valid email address"
  | .noName => "schedule name is required"
  | .repeatedName name => name ++ " is not unique. All the schedules name should be unique."
  | .noCron => "cron expression is required"
  | .badCron cron => cron ++ " is not a valid cron expression"

/-- The addresses of a notification that are none. -/
def emailProblems (n : Option Notification) : List Problem :=
  ((n.map (·.emails)).getD []).filterMap fun email =>
    if Email.isValid email then none else some (.badEmail email)

/-- What is wrong with the times of a schedule. -/
def cronProblems (cron : String) : List Problem :=
  if Text.isAllBlank cron then [.noCron] else if Cron.isValid cron then [] else [.badCron cron]

/-- What is wrong with a schedule; `seen` are the names of the schedules before it. -/
def scheduleProblems (seen : List String) (s : Schedule) : List Problem :=
  (if s.name.isEmpty then [.noName] else []) ++
    (if s.name ∈ seen then [.repeatedName s.name] else []) ++
    cronProblems s.cron ++ emailProblems s.notification

/-- What is wrong with a list of schedules that stands after schedules with the names `seen`. -/
def listProblems (seen : List String) : List Schedule → List Problem
  | [] => []
  | s :: rest => scheduleProblems seen s ++ listProblems (s.name :: seen) rest

/-- Everything that is wrong with the schedules, in the order of the file. -/
def problems (s : Schedules) : List Problem :=
  emailProblems s.defaultNotification ++ listProblems [] s.schedules

end Schedules

end SqlWorkflow
