import ScriptCheck.Check.Name

/-!
# Calls

The rules for calls of functions and methods. `Check.arguments` binds the generic parameters of the
callee in this order: to explicit type arguments, by comparing the result with the hint, by the
arguments that are no lambdas, and by the lambdas, which come last so that their parameters can take
types from the bindings made so far. Each argument is then compared with the parameter under all
bindings. What is still open becomes unknown in the result.
-/

namespace ScriptCheck.Check

/-- The part of a hint that says something about the result of a call. -/
def resultHint (hint : Option Ty) : Option Ty := hint.filter fun t => t.isConcrete && !t.isUnit

/-- Checks arguments that no parameter tells anything about. Lambdas are only inferred, since
nothing is known about their parameters. -/
def unguided (id : Nat) : List Part → CheckM Unit
  | [] => pure ()
  | arg :: rest => do
    let _ ← if arg.isLambda then infer arg id none else arg.check id none
    unguided id rest

/-- An argument with its parameter, and its type once it is checked. -/
structure Argument where
  part : Part
  param : Param Ty
  found : Option Ty := none

/-- Checks the arguments that are lambdas, or those that are not, and binds generic parameters by
what it finds. -/
def guided (registry : Registry) (lambdas : Bool) (id : Nat) :
    Bindings → List Argument → CheckM (Bindings × List Argument)
  | bound, [] => return (bound, [])
  | bound, arg :: rest => do
    if arg.part.isLambda == lambdas then
      let found ← arg.part.check id (some (arg.param.ty.fill registry bound))
      let (bound, rest) ← guided registry lambdas id (Ty.guess bound arg.param.ty found) rest
      return (bound, { arg with found := some found } :: rest)
    else
      let (bound, rest) ← guided registry lambdas id bound rest
      return (bound, arg :: rest)

/-- Compares the arguments with their parameters. -/
def compare [Comparing] (registry : Registry) (bound : Bindings) : List Argument → CheckM Unit
  | [] => pure ()
  | arg :: rest => do
    match arg.found with
    | some found => expect (arg.param.ty.fill registry bound) found arg.part.range
    | none => pure ()
    compare registry bound rest

/-- The generic parameters that explicit type arguments bind. -/
def explicitBindings (name : Ident) (generics : List String) (typeArgs : List TypeSpec) :
    CheckM Bindings := do
  if typeArgs.isEmpty then return {}
  let types ← TypeSpec.checkList typeArgs
  unless types.length = generics.length do
    error (.count (.typeArguments name.name) generics.length types.length) name.range
  return Table.ofList (generics.zip types)

/-- Complains about a wrong number of arguments. -/
def countArguments (name : Ident) (callee : Signature Ty) (found : Nat) : CheckM Unit :=
  let what := Counted.arguments name.name
  if found < callee.required then error (.count what callee.required found) name.range
  else if callee.params.length < found then
    error (.count what callee.params.length found) name.range
  else pure ()

/-- What is bound before the arguments are checked, given the type that is expected of the call. -/
def guessed (callee : Signature Ty) (hint : Option Ty) (bound : Bindings) : Bindings :=
  match resultHint hint with
  | some expected => Ty.guess bound callee.result expected
  | none => bound

/-- Checks arguments that were counted, given what is bound. -/
def boundArguments [Comparing] (callee : Signature Ty) (args : List Part) (id : Nat)
    (registry : Registry) (bound : Bindings) : CheckM Ty := do
  let paired := List.zipWith (fun part param => { part, param : Argument }) args callee.params
  let (bound, paired) ← guided registry false id bound paired
  let (bound, paired) ← guided registry true id bound paired
  unguided id (args.drop callee.params.length)
  compare registry bound paired
  return (callee.result.fill registry bound).erase

/-- Checks the arguments of a call and returns the type of its result. -/
def arguments [Comparing] (callee : Signature Ty) (typeArgs : List TypeSpec) (args : List Part)
    (name : Ident) (id : Nat) (hint : Option Ty) : CheckM Ty := do
  let s ← symbols
  countArguments name callee args.length
  let bound ← explicitBindings name callee.generics typeArgs
  boundArguments callee args id s.registry (guessed callee hint bound)

/-- The rule for a call, given the type of the callee if it is known. -/
def callee [Comparing] (found : Option Ty) (module : Option Ident) (name : Ident)
    (typeArgs : List TypeSpec) (args : List Part) (id : Nat) (hint : Option Ty) : CheckM Ty := do
  match found with
  | some (.function signature) => arguments signature typeArgs args name id hint
  | some .unknown =>
    unguided id args
    return .unknown
  | some other =>
    error (.notCallable name.name other) name.range
    unguided id args
    return .unknown
  | none =>
    error (.undefined .function name.name (module.map Ident.name)) name.range
    unguided id args
    return .unknown

/-- The rule for a call of a function. Constructor functions take their type from the hint. -/
def call [Comparing] (module : Option Ident) (name : Ident) (typeArgs : List TypeSpec)
    (args : List Part) (id : Nat) (hint : Option Ty) : CheckM Ty := do
  match module with
  | some qualifier =>
    if ← moduleName qualifier then
      let found := (← symbols).function? (some qualifier.name) name.name none
      match found with
      | some f => markFunction name f
      | none => pure ()
      callee (found.map Value.ty) module name typeArgs args id hint
    else
      unguided id args
      return .unknown
  | none =>
    let found ← lookup name.name id ((resultHint hint).map (Ty.fn []))
    match found with
    | some f => mark name f
    | none => pure ()
    callee (found.map Resolved.ty) module name typeArgs args id hint

/-- The function that a call of `name` on a value reaches: a method, or else a field that holds a
function. -/
def method? (owner : Ty) (name : Ident) : CheckM (Option (Signature Ty)) := do
  let s ← symbols
  match s.method? owner name.name with
  | some m =>
    token name.range .method (libraryModifiers m.definition)
    link name.range m.definition
    hover name.range name.name (.function m.signature) m.description
    return some m.signature
  | none =>
    match s.field? owner name.name with
    | some f =>
      match f.ty with
      | .function signature =>
        markField name (libraryModifiers f.definition) f
        return some signature
      | _ => return none
    | none => return none

/-- The rule for `target.name(args)`, given the type of the target. -/
def methodOf [Comparing] (name : Ident) (args : List Part) (id : Nat) (hint : Option Ty)
    (owner : Ty) : CheckM Ty := do
  if owner.isUnknown then
    unguided id args
    return .unknown
  match ← method? owner name with
  | some signature => arguments signature [] args name id hint
  | none =>
    error (.undefined .method name.name (some owner.localName)) name.range
    unguided id args
    return .unknown

/-- The rule for `target.name(args)`. -/
def methodCall [Comparing] (target : Part) (name : Ident) (args : List Part) (id : Nat)
    (hint : Option Ty) : CheckM Ty := do
  methodOf name args id hint (← target.check id none)

end ScriptCheck.Check
