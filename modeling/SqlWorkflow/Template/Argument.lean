import SqlWorkflow.Template.Fault
import SqlWorkflow.Template.Value

/-!
# Arguments

A function takes its arguments one by one.  The named arguments of a call are its last argument;
a function that does not ask for them takes them as one dictionary.
-/

namespace SqlWorkflow.Template

/-- Takes values from the arguments that are left. -/
abbrev Take (α : Type) := StateT (List Value) (Except Cause) α

namespace Take

variable {α : Type}

/-- The next argument, which must be there. -/
def required : Take Value := fun args =>
  match args with
  | [] => .error .missingArgument
  | v :: rest => .ok (v, rest)

/-- The next argument, unless it is absent or denotes nothing. -/
def optional : Take (Option Value) := fun args =>
  match args with
  | [] => .ok (none, [])
  | .undefined :: rest => .ok (none, rest)
  | .none :: rest => .ok (none, rest)
  | v :: rest => .ok (some v, rest)

/-- A value that must be text. -/
def textOf (v : Value) : Except Cause String :=
  match v.text? with
  | some s => .ok s
  | none => .error (.invalid "value is not a string")

/-- A value as a whole number between bounds. -/
def intOf (type : String) (low high : Int) (v : Value) : Except Cause Int :=
  match v.int? with
  | some n =>
    if low ≤ n ∧ n < high then .ok n
    else .error (.invalid ("cannot convert " ++ v.kind.name ++ " to " ++ type))
  | none => .error (.invalid ("cannot convert " ++ v.kind.name ++ " to " ++ type))

/-- A natural number of 32 bits. -/
def indexOf (v : Value) : Except Cause Nat := Int.toNat <$> intOf "u32" 0 (Nat.pow 2 32) v

/-- A value that must be a truth value. -/
def flagOf (v : Value) : Except Cause Bool :=
  match v with
  | .bool b => .ok b
  | v => .error (.invalid ("cannot convert " ++ v.kind.name ++ " to bool"))

/-- The next argument, which must be text. -/
def text : Take String := do textOf (← required)

/-- A value as it would be written; named arguments are not written. -/
def writtenOf (v : Value) : Except Cause String :=
  match v with
  | .arguments _ => .error (.invalid "cannot convert kwargs to string")
  | v => .ok v.write

/-- The next argument as it would be written. -/
def written : Take String := do writtenOf (← required)

/-- The next argument with a conversion, if there is one. -/
def ifAny (convert : Value → Except Cause α) : Take (Option α) := do
  match ← optional with
  | some v => some <$> (convert v : Except Cause α)
  | none => pure none

/-- The next argument as it would be written, if there is one. -/
def writtenIfAny : Take (Option String) := ifAny writtenOf

/-- The next argument that is not named with a conversion, if there is one. -/
def plainIfAny (convert : Value → Except Cause α) : Take (Option α) := fun args =>
  match args with
  | [.arguments _] => .ok (none, args)
  | args => ifAny convert args

/-- All arguments that are left. -/
def rest : Take (List Value) := fun args => .ok (args, [])

/-- The named arguments, which come last. -/
def named : Take (List (String × Value)) := fun args =>
  match args with
  | [.arguments entries] => .ok (entries, [])
  | args => .ok ([], args)

/-- A named argument with a conversion, if it is there. -/
def option (entries : List (String × Value)) (name : String) (convert : Value → Except Cause α) :
    Take (Option α) :=
  match lookupEntry name entries with
  | none | some .undefined | some .none => pure none
  | some v => some <$> (convert v : Except Cause α)

/-- Refuses named arguments other than those given. -/
def onlyNamed (entries : List (String × Value)) (names : List String) : Take Unit :=
  match entries.find? fun entry => !names.contains entry.1 with
  | some (name, _) => throw (.tooManyArguments (some ("unknown keyword argument '" ++ name ++ "'")))
  | none => pure ()

/-- The result of a function that takes all the arguments of a call. -/
def all (take : Take α) (args : List Value) : Except Cause α := do
  match ← take.run args with
  | (result, []) => return result
  | (_, _ :: _) => throw (.tooManyArguments none)

end Take

end SqlWorkflow.Template
