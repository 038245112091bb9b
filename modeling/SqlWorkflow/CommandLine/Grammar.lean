import SqlWorkflow.Text.Split

/-!
# Grammars of command lines

A command knows some options and operands, or else some further commands.  An option is given by
its long name after `--` or by its letter after `-`, and its value follows it or is attached to it.
Letters can be given together.  After `--` everything is an operand.  No option can be given twice
to one command.
-/

namespace SqlWorkflow.CommandLine

/-- What an option is for. -/
inductive OptionRole where
  | flag
  /-- The option has a value, which must be acceptable. -/
  | value (accepts : String → Bool)
  /-- The option asks for help and for nothing else. -/
  | help
  /-- The option asks for the version and for nothing else. -/
  | version
  deriving Inhabited

/-- An option of a command. -/
structure OptionSpec where
  name : String
  letter : Option Char := none
  role : OptionRole := .flag
  deriving Inhabited

/-- A command, the number of its operands, and its further commands. -/
inductive CommandSpec where
  | command (name : String) (options : List OptionSpec) (operands : Nat)
      (commands : List CommandSpec)
  deriving Inhabited

namespace CommandSpec

/-- The name of the command. -/
def name : CommandSpec → String
  | .command name _ _ _ => name

/-- The options that the command knows. -/
def options : CommandSpec → List OptionSpec
  | .command _ options _ _ => options

/-- How many operands the command takes at most. -/
def operands : CommandSpec → Nat
  | .command _ _ operands _ => operands

/-- The further commands, one of which must be given. -/
def commands : CommandSpec → List CommandSpec
  | .command _ _ _ commands => commands

/-- The further command with a name. -/
def find? (spec : CommandSpec) (name : String) : Option CommandSpec :=
  spec.commands.find? fun c => c.name == name

end CommandSpec

/-- Why a command line names no command to run. -/
inductive Stop where
  | refused
  | help
  | version
  deriving DecidableEq, Repr, Inhabited

/-- What one command was given. -/
structure Given where
  command : String
  /-- The options in the order in which they were given; a flag has no value. -/
  options : List (String × Option String) := []
  operands : List String := []
  deriving Repr, Inhabited

namespace Given

/-- Was the option given? -/
def has (g : Given) (name : String) : Bool := g.options.any fun entry => entry.1 == name

/-- The value that was given for an option. -/
def value? (g : Given) (name : String) : Option String :=
  (g.options.find? fun entry => entry.1 == name).bind (·.2)

/-- Adds an option, which must not be there yet. -/
def add (g : Given) (name : String) (value : Option String) : Except Stop Given :=
  if g.has name then .error .refused
  else .ok { g with options := g.options ++ [(name, value)] }

end Given

/-! ## §1 Options -/

/-- An option and, if one is attached to it, its value. -/
structure OptionUse where
  spec : OptionSpec
  attached : Option String := none

/-- Gives an option its value. -/
def giveValue (g : Given) (spec : OptionSpec) (accepts : String → Bool) (value : String) :
    Except Stop Given :=
  if accepts value then g.add spec.name (some value) else .error .refused

/-- Uses an option that does not wait for a value; `none` if it does. -/
def useOption (g : Given) (use : OptionUse) : Except Stop (Option Given) :=
  match use.spec.role, use.attached with
  | .value accepts, some value => some <$> giveValue g use.spec accepts value
  | .value _, none => .ok none
  | _, some _ => .error .refused
  | .flag, none => some <$> g.add use.spec.name none
  | .help, none => .error .help
  | .version, none => .error .version

/-- The option that is given by a long name. -/
def longUse (spec : CommandSpec) (text : List Char) : Except Stop OptionUse :=
  let (name, rest) := Text.breakOn (· == '=') text
  match spec.options.find? fun o => o.name == String.ofList name with
  | none => .error .refused
  | some o =>
    match rest with
    | [] => .ok { spec := o }
    | _ :: value => .ok { spec := o, attached := some (String.ofList value) }

/-- Uses options that are given by letters.  What follows the letter of an option with a value is
its value; if nothing does, the option waits for it. -/
def useLetters (spec : CommandSpec) (g : Given) :
    List Char → Except Stop (Given × Option OptionSpec)
  | [] => .ok (g, none)
  | c :: rest =>
    match spec.options.find? fun o => o.letter == some c with
    | none => .error .refused
    | some o =>
      match o.role, rest with
      | .value _, [] => .ok (g, some o)
      | .value accepts, '=' :: value => do
        return (← giveValue g o accepts (String.ofList value), none)
      | .value accepts, value => do
        return (← giveValue g o accepts (String.ofList value), none)
      | .flag, rest => do useLetters spec (← g.add o.name none) rest
      | .help, _ => .error .help
      | .version, _ => .error .version

/-! ## §2 Command lines -/

/-- Is the argument an option rather than a value? -/
def isOption (arg : String) : Bool :=
  match arg.toList with
  | '-' :: _ :: _ => true
  | _ => false

/-- Do the arguments name a command that help can be given for? -/
def helpFor (spec : CommandSpec) : List String → Stop
  | [] => .help
  | name :: rest =>
    match spec.find? name with
    | some inner => helpFor inner rest
    | none => .refused

/-- Adds an operand. -/
def addOperand (spec : CommandSpec) (g : Given) (arg : String) : Except Stop Given :=
  if g.operands.length < spec.operands then .ok { g with operands := g.operands ++ [arg] }
  else .error .refused

/-- What the end of a command line gives. -/
def finish (spec : CommandSpec) (g : Given) : Except Stop (List Given) :=
  if spec.commands.isEmpty then .ok [g] else .error .refused

/-- Reads the arguments of a command; what it and each of the further commands was given.
`waiting` is an option whose value comes next, and `plain` says that only operands follow. -/
def read (spec : CommandSpec) (g : Given) (waiting : Option OptionSpec) (plain : Bool) :
    List String → Except Stop (List Given)
  | [] => if waiting.isSome then .error .refused else finish spec g
  | arg :: rest =>
    match waiting with
    | some o =>
      match o.role with
      | .value accepts =>
        if isOption arg then .error .refused
        else do read spec (← giveValue g o accepts arg) none false rest
      | _ => .error .refused
    | none =>
      if plain then do read spec (← addOperand spec g arg) none true rest
      else
        match spec.find? arg with
        | some inner => do
          return g :: (← read inner { command := arg } none false rest)
        | none =>
          match arg.toList with
          -- Nothing after two dashes is an option.
          | ['-', '-'] => read spec g none true rest
          | '-' :: '-' :: text => do
            let use ← longUse spec text
            match ← useOption g use with
            | some g => read spec g none false rest
            | none => read spec g (some use.spec) false rest
          | '-' :: c :: letters => do
            let (g, waiting) ← useLetters spec g (c :: letters)
            read spec g waiting false rest
          | _ =>
            if arg = "help" ∧ !spec.commands.isEmpty then .error (helpFor spec rest)
            else do read spec (← addOperand spec g arg) none false rest

end SqlWorkflow.CommandLine
