import ScriptCheck.Library.Registry

/-!
# Generic parameters

Substituting, guessing and erasing placeholders. `Ty.fill` substitutes by name and leaves what it
has no binding for; a library type that is generic and has no arguments yet becomes applied as soon
as one of its parameters is bound. `Ty.guess` compares a type with an observed one and binds the
placeholders it meets; it looks into structural types only, keeps bindings that exist and skips
what does not match. `Ty.erase` replaces what stayed open by `Ty.unknown`.
-/

namespace ScriptCheck.Ty

/-- The generic parameters that arguments bind by position. -/
def genericNames (r : Registry) : Ty → List String
  | .named q => ((r.type? q).map Library.TypeInfo.generics).getD []
  | .function s => s.generics
  | _ => []

mutual
/-- Whether a type has open placeholders or a generic part without arguments. -/
def hasGenerics (r : Registry) : Ty → Bool
  | .unknown => false
  | .placeholder _ => true
  | .named q => !(genericNames r (.named q)).isEmpty
  | .applied _ args => hasGenericsList r args
  | .array element => element.hasGenerics r
  | .option inner => inner.hasGenerics r
  | .result ok err => ok.hasGenerics r || err.hasGenerics r
  | .tuple items => hasGenericsList r items
  | .record _ items => hasGenericsItems r items
  | .function s => !s.generics.isEmpty || hasGenericsParams r s.params || s.result.hasGenerics r

/-- Whether one of the types has generics. -/
def hasGenericsList (r : Registry) : List Ty → Bool
  | [] => false
  | t :: rest => t.hasGenerics r || hasGenericsList r rest

/-- Whether one of the record items has generics. -/
def hasGenericsItems (r : Registry) : List (String × Ty) → Bool
  | [] => false
  | (_, t) :: rest => t.hasGenerics r || hasGenericsItems r rest

/-- Whether one of the parameters has generics. -/
def hasGenericsParams (r : Registry) : List (Param Ty) → Bool
  | [] => false
  | p :: rest => p.ty.hasGenerics r || hasGenericsParams r rest
end

mutual
/-- Substitutes placeholders by name. -/
def fill (r : Registry) (bound : Bindings) : Ty → Ty
  | .unknown => .unknown
  | .placeholder name => (bound.get? name).getD (.placeholder name)
  | .named q =>
    let params := genericNames r (.named q)
    if params.any bound.contains then
      .applied q (params.map fun p => (bound.get? p).getD (.placeholder p))
    else .named q
  | .applied base args => .applied base (fillList r bound args)
  | .array element => .array (element.fill r bound)
  | .option inner => .option (inner.fill r bound)
  | .result ok err => .result (ok.fill r bound) (err.fill r bound)
  | .tuple items => .tuple (fillList r bound items)
  | .record name items => .record name (fillItems r bound items)
  | .function s =>
    .function
      { isAsync := s.isAsync
        generics := s.generics.filter fun p => !bound.contains p
        params := fillParams r bound s.params
        result := s.result.fill r bound }

/-- `fill` on each type of a list. -/
def fillList (r : Registry) (bound : Bindings) : List Ty → List Ty
  | [] => []
  | t :: rest => t.fill r bound :: fillList r bound rest

/-- `fill` on each record item. -/
def fillItems (r : Registry) (bound : Bindings) : List (String × Ty) → List (String × Ty)
  | [] => []
  | (name, t) :: rest => (name, t.fill r bound) :: fillItems r bound rest

/-- `fill` on each parameter. -/
def fillParams (r : Registry) (bound : Bindings) : List (Param Ty) → List (Param Ty)
  | [] => []
  | p :: rest => ⟨p.name, p.ty.fill r bound, p.hasDefault⟩ :: fillParams r bound rest
end

/-- Binds generic parameters by position. Arguments without a parameter are ignored and parameters
without an argument stay open. -/
def fillPositional (r : Registry) (args : List Ty) (t : Ty) : Ty :=
  let names := genericNames r t
  if names.isEmpty then t else t.fill r (Table.ofList (names.zip args))

mutual
/-- Binds the placeholders of the expected type that an actual type determines. -/
def guess (bound : Bindings) : (expected actual : Ty) → Bindings
  | _, .unknown => bound
  | _, .placeholder _ => bound
  | .placeholder name, actual => bound.insertNew name actual
  | .array a, .array b => guess bound a b
  | .option a, .option b => guess bound a b
  | .result a c, .result b d => guess (guess bound a b) c d
  | .tuple as, .tuple bs => guessList bound as bs
  | .record _ as, .record _ bs => guessItems bound as bs
  | .function f, .function g => guess (guessParams bound f.params g.params) f.result g.result
  | _, _ => bound
termination_by structural expected => expected

/-- `guess` on the types of two lists, pair by pair. -/
def guessList (bound : Bindings) : List Ty → List Ty → Bindings
  | a :: as, b :: bs => guessList (guess bound a b) as bs
  | _, _ => bound
termination_by structural as => as

/-- `guess` on record items, pair by pair whatever their names. -/
def guessItems (bound : Bindings) : List (String × Ty) → List (String × Ty) → Bindings
  | (_, a) :: as, (_, b) :: bs => guessItems (guess bound a b) as bs
  | _, _ => bound
termination_by structural as => as

/-- `guess` on parameters, pair by pair. -/
def guessParams (bound : Bindings) : List (Param Ty) → List (Param Ty) → Bindings
  | p :: ps, q :: qs => guessParams (guess bound p.ty q.ty) ps qs
  | _, _ => bound
termination_by structural ps => ps
end

mutual
/-- Neither `Ty.unknown` nor an open placeholder anywhere. -/
def isConcrete : Ty → Bool
  | .unknown | .placeholder _ => false
  | .named _ => true
  | .applied _ args => isConcreteList args
  | .array element => element.isConcrete
  | .option inner => inner.isConcrete
  | .result ok err => ok.isConcrete && err.isConcrete
  | .tuple items => isConcreteList items
  | .record _ items => isConcreteItems items
  | .function s => s.generics.isEmpty && isConcreteParams s.params && s.result.isConcrete

/-- Whether all types of a list are concrete. -/
def isConcreteList : List Ty → Bool
  | [] => true
  | t :: rest => t.isConcrete && isConcreteList rest

/-- Whether all record items are concrete. -/
def isConcreteItems : List (String × Ty) → Bool
  | [] => true
  | (_, t) :: rest => t.isConcrete && isConcreteItems rest

/-- Whether all parameters are concrete. -/
def isConcreteParams : List (Param Ty) → Bool
  | [] => true
  | p :: rest => p.ty.isConcrete && isConcreteParams rest
end

mutual
/-- Replaces what is still open by `Ty.unknown`. -/
def erase : Ty → Ty
  | .placeholder _ => .unknown
  | .unknown => .unknown
  | .named q => .named q
  | .applied base args => .applied base (eraseList args)
  | .array element => .array element.erase
  | .option inner => .option inner.erase
  | .result ok err => .result ok.erase err.erase
  | .tuple items => .tuple (eraseList items)
  | .record name items => .record name (eraseItems items)
  | .function s =>
    .function
      { isAsync := s.isAsync, params := eraseParams s.params, result := s.result.erase }

/-- `erase` on each type of a list. -/
def eraseList : List Ty → List Ty
  | [] => []
  | t :: rest => t.erase :: eraseList rest

/-- `erase` on each record item. -/
def eraseItems : List (String × Ty) → List (String × Ty)
  | [] => []
  | (name, t) :: rest => (name, t.erase) :: eraseItems rest

/-- `erase` on each parameter. -/
def eraseParams : List (Param Ty) → List (Param Ty)
  | [] => []
  | p :: rest => ⟨p.name, p.ty.erase, p.hasDefault⟩ :: eraseParams rest
end

end ScriptCheck.Ty
