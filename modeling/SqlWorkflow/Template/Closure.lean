import SqlWorkflow.Template.Tree

/-!
# Free names

The names that the body of a function uses but does not bind before.  A function keeps the values
of its free names.
-/

namespace SqlWorkflow.Template

mutual

/-- The names that an expression uses. -/
def Expr.names : Expr → List String
  | .undefined | .literal _ => []
  | .name id => [id]
  | .list items => namesOfAll items
  | .dict entries => namesOfEntries entries
  | .negate _ e | .not e => e.names
  | .binary _ _ a b | .both a b | .either a b => a.names ++ b.names
  | .choose c yes no => c.names ++ yes.names ++ no.names
  | .filter _ _ subject args | .test _ _ subject args => subject.names ++ namesOfArgs args
  | .member _ subject _ => subject.names
  | .item _ subject key => subject.names ++ key.names
  | .slice _ subject start stop step => subject.names ++ start.names ++ stop.names ++ step.names
  | .callName _ function args => function :: namesOfArgs args
  | .callMethod _ subject _ args => subject.names ++ namesOfArgs args
  | .callValue _ subject args => subject.names ++ namesOfArgs args
  | .showBlock _ _ => ["self"]

def namesOfAll : List Expr → List String
  | [] => []
  | e :: rest => e.names ++ namesOfAll rest

def namesOfEntries : List (Expr × Expr) → List String
  | [] => []
  | (key, value) :: rest => key.names ++ value.names ++ namesOfEntries rest

def namesOfArgs : List (ArgKind × Expr) → List String
  | [] => []
  | (_, e) :: rest => e.names ++ namesOfArgs rest

end

/-- The names that filters use. -/
def FilterCall.names (calls : List FilterCall) : List String :=
  calls.flatMap fun call => namesOfArgs call.args

mutual

/-- The names that a target binds. -/
def Target.binds : Target → List String
  | .name id => [id]
  | .member _ _ _ | .impossible => []
  | .list _ items => bindsOfAll items

def bindsOfAll : List Target → List String
  | [] => []
  | t :: rest => t.binds ++ bindsOfAll rest

end

/-- The names among `names` that are not bound. -/
def unbound (bound names : List String) : List String := names.filter fun n => !bound.contains n

/-- The names bound after some bindings of a block, and the free names of their values. -/
def freeInBindings (bound : List String) : List (Target × Expr) → List String × List String
  | [] => (bound, [])
  | (target, value) :: rest =>
    let bound := target.binds ++ bound
    let (after, free) := freeInBindings bound rest
    (after, unbound bound value.names ++ free)

/-- The free names of the values that parameters have without an argument. -/
def freeInParams (bound : List String) (params : List Param) : List String :=
  unbound bound (params.flatMap fun p => (p.fallback.map Expr.names).getD [])

mutual

/-- The names bound after a statement, and its free names. -/
def Stmt.free (bound : List String) : Stmt → List String × List String
  | .raw _ => (bound, [])
  | .emit value => (bound, unbound bound value.names)
  | .forLoop _ target items condition _ body otherwise =>
    let around := "loop" :: bound
    let inside := target.binds ++ around
    (bound,
      unbound around items.names ++ unbound inside ((condition.map Expr.names).getD []) ++
        freeInBody inside body ++ freeInBody bound otherwise)
  | .again _ items => (bound, unbound bound ("loop" :: items.names))
  | .ifElse condition yes no =>
    (bound, unbound bound condition.names ++ freeInBody bound yes ++ freeInBody bound no)
  | .withBlock bindings body =>
    let (inside, free) := freeInBindings bound bindings
    (bound, free ++ freeInBody inside body)
  | .assign target value =>
    let bound := target.binds ++ bound
    (bound, unbound bound value.names)
  | .capture target filters body =>
    let bound := target.binds ++ bound
    (bound, freeInBody bound body ++ unbound bound (FilterCall.names filters))
  | .filtered filters body =>
    (bound, freeInBody bound body ++ unbound bound (FilterCall.names filters))
  | .embed _ _ _ => (bound, [])
  | .importModule _ _ target => (target.binds ++ bound, [])
  | .importNames _ _ names => (names.map (·.2) ++ bound, [])
  | .define name params body =>
    let bound := name :: bound
    let inside := params.map (·.name) ++ bound
    (bound, freeInParams inside params ++ freeInBody inside body)
  | .callWith call params body =>
    let inside := params.map (·.name) ++ bound
    (bound,
      unbound bound call.names ++ freeInParams inside params ++ freeInBody inside body)
  | .run call => (bound, unbound bound call.names)
  | .escaping _ _ body => (bound, freeInBody bound body)
  | .block _ _ body => (bound, freeInBody ("super" :: bound) body)
  | .showBlock _ _ => (bound, unbound bound ["self"])
  | .showSuper _ => (bound, unbound bound ["super"])
  | .extend _ _ => (bound, [])

/-- The free names of some statements, one after the other. -/
def freeInBody (bound : List String) : List Stmt → List String
  | [] => []
  | stmt :: rest =>
    let (after, free) := stmt.free bound
    free ++ freeInBody after rest

end

/-- The free names of a function. -/
def freeNames (params : List Param) (body : List Stmt) : List String :=
  let bound := params.map (·.name)
  (freeInParams bound params ++ freeInBody bound body).eraseDups

end SqlWorkflow.Template
