import ScriptCheck.Proofs.RegimeNames

/-!
# Calls under a regime

Lambdas among the arguments of a call are checked after all other arguments, and their effects are
hidden. So the effect of a call is that of its arguments in their order.
-/

namespace ScriptCheck

open Check

namespace Regime

variable {G : Type} [Effects G] {L : Regime G} {x : L.Site} {g h k : G}
  {hint : Option Ty} {name : Ident} {args args' : List Part} {v v' : View}
  {typeArgs : List TypeSpec} {target target' : Part}

/-- The arguments of a call. The effects of lambdas are hidden. -/
inductive ArgumentsRun (L : Regime G) : List Part → List Part → G → Prop
  | nil : ArgumentsRun L [] [] 1
  | plain {p p' : Part} {ps ps' : List Part} {g h : G} (hp : p.Runs L g p')
      (hlambda : p.isLambda = false) (hrest : ArgumentsRun L ps ps' h) :
      ArgumentsRun L (p :: ps) (p' :: ps') (g * h)
  | lambda {p p' : Part} {ps ps' : List Part} {g h : G} (hp : p.Runs L g p')
      (hlambda : p.isLambda = true) (hrest : ArgumentsRun L ps ps' h) :
      ArgumentsRun L (p :: ps) (p' :: ps') (Effects.hide g * h)

theorem ArgumentsRun.length_eq (hargs : ArgumentsRun L args args' g) :
    args'.length = args.length := by
  induction hargs with
  | nil => rfl
  | plain _ _ _ ih | lambda _ _ _ ih => simp [ih]

/-- Arguments of unknown parameters have their effects one after the other. -/
theorem unguided (hargs : ArgumentsRun L args args' g) :
    L.Runs x g Any (unguided x.id args) (unguided x.id' args') := by
  induction hargs with
  | nil => exact pure trivial
  | plain hp hlambda _ ih =>
    rw [Check.unguided, Check.unguided, hp.isLambda, hlambda]
    exact hp.alone.bind fun _ _ => ih
  | lambda hp hlambda _ ih =>
    rw [Check.unguided, Check.unguided, hp.isLambda, hlambda]
    exact (infer hp hints_none).bind fun _ _ => ih

/-- An argument with its parameter, in both runs. -/
structure ArgumentRuns (L : Regime G) (g : G) (a a' : Argument) : Prop where
  part : a.part.Runs L g a'.part
  param : a'.param = a.param
  found : a'.found = a.found
  hint : L.Hint a.param.ty
  good : ∀ t ∈ a.found, L.Good t

theorem ArgumentRuns.checked {a a' : Argument} (ha : ArgumentRuns L g a a') {t : Ty}
    (ht : L.Good t) :
    ArgumentRuns L g { a with found := some t }
      { part := a'.part, param := a.param, found := t } := by
  refine ⟨ha.part, rfl, rfl, ha.hint, ?_⟩
  rintro _ ⟨⟩
  exact ht

/-- Arguments with their parameters. The lambdas have an effect of their own, since they are checked
after the other arguments. -/
inductive PairedRun (L : Regime G) : List Argument → List Argument → G → G → Prop
  | nil : PairedRun L [] [] 1 1
  | plain {a a' : Argument} {as as' : List Argument} {g h k : G} (ha : ArgumentRuns L g a a')
      (hlambda : a.part.isLambda = false) (hrest : PairedRun L as as' h k) :
      PairedRun L (a :: as) (a' :: as') (g * h) k
  | lambda {a a' : Argument} {as as' : List Argument} {g h k : G} (ha : ArgumentRuns L g a a')
      (hlambda : a.part.isLambda = true) (hrest : PairedRun L as as' h k) :
      PairedRun L (a :: as) (a' :: as') h (Effects.hide g * k)

/-- Some of the arguments have parameters, and the others do not. -/
theorem ArgumentsRun.paired (hargs : ArgumentsRun L args args' g) :
    (params : List (Param Ty)) → (∀ p ∈ params, L.Hint p.ty) → ∃ h k l,
      PairedRun L (List.zipWith (fun part param => { part, param : Argument }) args params)
        (List.zipWith (fun part param => { part, param : Argument }) args' params) h k ∧
      ArgumentsRun L (args.drop params.length) (args'.drop params.length) l ∧
      g = h * (k * l) := by
  induction hargs with
  | nil => exact fun _ _ => ⟨1, 1, 1, by simpa using .nil, by simpa using .nil, by simp⟩
  | @plain p p' ps ps' g h hp hlambda hrest ih =>
    rintro (_ | ⟨param, params⟩) hparams
    · exact ⟨1, 1, _, .nil, .plain hp hlambda hrest, by simp⟩
    · obtain ⟨hparam, hparams⟩ := List.forall_mem_cons.1 hparams
      obtain ⟨h, k, l, hpaired, hdrop, rfl⟩ := ih params hparams
      exact ⟨g * h, k, l, .plain ⟨hp, rfl, rfl, hparam, nofun⟩ hlambda hpaired, hdrop,
        (mul_assoc _ _ _).symm⟩
  | @lambda p p' ps ps' g h hp hlambda hrest ih =>
    rintro (_ | ⟨param, params⟩) hparams
    · exact ⟨1, 1, _, .nil, .lambda hp hlambda hrest, by simp⟩
    · obtain ⟨hparam, hparams⟩ := List.forall_mem_cons.1 hparams
      obtain ⟨h, k, l, hpaired, hdrop, rfl⟩ := ih params hparams
      refine ⟨h, Effects.hide g * k, l, .lambda ⟨hp, rfl, rfl, hparam, nofun⟩ hlambda hpaired,
        hdrop, ?_⟩
      rw [← mul_assoc, Effects.hide_mul, mul_assoc, mul_assoc]

/-- What is bound, and the arguments, once some of them are checked. -/
def Guided (L : Regime G) (h k : G) (r r' : Bindings × List Argument) : Prop :=
  r'.1 = r.1 ∧ (r.1.All fun _ u => L.Hint u) ∧ PairedRun L r.2 r'.2 h k

/-- One round over the arguments has the effect of those that are checked in it, and binds types
that may be expected. -/
theorem guided (hv : L.Like v v') (lambdas : Bool) {args args' : List Argument}
    (hargs : PairedRun L args args' h k) : ∀ {bound : Bindings}, (bound.All fun _ u => L.Hint u) →
    L.RunsOn x (if lambdas then k else h) (Guided L h k)
      (guided v.symbols.registry lambdas x.id bound args)
      (guided v'.symbols.registry lambdas x.id' bound args') := by
  induction hargs with
  | nil =>
    intro bound hbound
    rw [ite_self]
    exact .pure ⟨rfl, hbound, .nil⟩
  | @plain a a' as as' g h k ha hlambda hrest ih =>
    intro bound hbound
    obtain ⟨hfill, hfilled⟩ := L.like_fill hv hbound ha.hint
    rw [Check.guided, Check.guided, ha.part.isLambda, hlambda, ha.param, hfill]
    cases lambdas with
    | false =>
      refine (ha.part.check x (hints_some hfilled)).bind fun found hfound =>
        (ih (L.hint_guess _ hbound (L.hint hfound))).settle ?_
      rintro r r' ⟨hsame, hbound, hrest⟩
      exact .pure ⟨hsame, hbound, .plain (ha.checked hfound) hlambda hrest⟩
    | true =>
      refine (ih hbound).settle ?_
      rintro r r' ⟨hsame, hbound, hrest⟩
      exact .pure ⟨hsame, hbound, .plain ha hlambda hrest⟩
  | @lambda a a' as as' g h k ha hlambda hrest ih =>
    intro bound hbound
    obtain ⟨hfill, hfilled⟩ := L.like_fill hv hbound ha.hint
    rw [Check.guided, Check.guided, ha.part.isLambda, hlambda, ha.param, hfill]
    cases lambdas with
    | false =>
      refine (ih hbound).settle ?_
      rintro r r' ⟨hsame, hbound, hrest⟩
      exact .pure ⟨hsame, hbound, .lambda ha hlambda hrest⟩
    | true =>
      refine (ha.part.checkHidden hlambda (hints_some hfilled)).bind fun found hfound =>
        (ih (L.hint_guess _ hbound (L.hint hfound))).settle ?_
      rintro r r' ⟨hsame, hbound, hrest⟩
      exact .pure ⟨hsame, hbound, .lambda (ha.checked hfound) hlambda hrest⟩

/-- Arguments are compared with their parameters, without an effect. -/
theorem compare (hv : L.Like v v') {bound : Bindings} (hbound : bound.All fun _ u => L.Hint u)
    {args args' : List Argument} (hargs : PairedRun L args args' h k) :
    L.Runs x 1 Any (compare v.symbols.registry bound args)
      (compare v'.symbols.registry bound args') := by
  induction hargs with
  | nil => exact pure trivial
  | @plain a _ _ _ _ _ _ ha _ _ ih | @lambda a _ _ _ _ _ _ ha _ _ ih =>
    obtain ⟨hfill, hfilled⟩ := L.like_fill hv hbound ha.hint
    rw [Check.compare, Check.compare, ha.found, ha.param, hfill]
    cases hfound : a.found with
    | some found =>
      exact (expect hfilled (ha.good found hfound) ha.part.spot ha.part.range).quiet fun _ _ => ih
    | none => exact ih

/-- Type arguments bind types that may be expected. -/
theorem explicitBindings (hname : L.margins.spots name.range) (generics : List String)
    (htypeArgs : ∀ spec ∈ typeArgs, L.Allows spec) :
    L.Keeps x (fun bound => bound.All fun _ u => L.Hint u)
      (explicitBindings name generics typeArgs) := by
  unfold Check.explicitBindings
  split
  · exact pure .empty
  · refine (checkSpecs typeArgs htypeArgs).quiet fun types htypes => ?_
    have hbound : (Table.ofList (generics.zip types)).All fun _ u => L.Hint u :=
      .ofList fun p hp => L.hint (htypes p.2 (List.of_mem_zip hp).2)
    split
    · exact pure hbound
    · rename_i hcount
      exact (miscount _ (Ne.symm hcount) hname).quiet fun _ _ => pure hbound

/-- Arguments are counted alike in both runs. -/
theorem countArguments (hname : L.margins.spots name.range) (callee : Signature Ty) (found : Nat) :
    L.Keeps x Any (countArguments name callee found) := by
  unfold Check.countArguments
  split
  · rename_i hfew
    exact miscount _ (Nat.ne_of_gt hfew) hname
  · split
    · rename_i hmany
      exact miscount _ (Nat.ne_of_lt hmany) hname
    · exact pure trivial

/-- The arguments of a call, once they are counted and the type arguments are checked. -/
theorem boundArguments {callee : Signature Ty} (hcallee : L.Hint (.function callee))
    (hargs : ArgumentsRun L args args' g) (hv : L.Like v v') {bound : Bindings}
    (hbound : bound.All fun _ u => L.Hint u) :
    L.Runs x g L.Good (boundArguments callee args x.id v.symbols.registry bound)
      (boundArguments callee args' x.id' v'.symbols.registry bound) := by
  obtain ⟨hparams, hresult⟩ := L.hint_function.1 hcallee
  obtain ⟨h, k, l, hpaired, hdrop, rfl⟩ := hargs.paired callee.params hparams
  refine (guided hv false hpaired hbound).bind ?_
  rintro ⟨bound, first⟩ ⟨_, first'⟩ ⟨rfl, hbound, hfirst⟩
  refine (guided hv true hfirst hbound).bind ?_
  rintro ⟨bound, second⟩ ⟨_, second'⟩ ⟨rfl, hbound, hsecond⟩
  obtain ⟨hfill, hfilled⟩ := L.like_fill hv hbound hresult
  refine (unguided hdrop).settle fun _ _ => (compare hv hbound hsecond).quiet fun _ _ => ?_
  rw [hfill]
  exact pure (L.good_erase hfilled)

theorem hint_guessed {callee : Signature Ty} (hhint : L.Hints hint) {bound : Bindings}
    (hbound : bound.All fun _ u => L.Hint u) :
    (guessed callee hint bound).All fun _ u => L.Hint u := by
  unfold guessed
  split
  · rename_i expected hexpected
    exact L.hint_guess _ hbound (hhint.filter _ expected hexpected)
  · exact hbound

/-- The rule for the arguments of a known callee has the effect of the arguments. -/
theorem arguments {callee : Signature Ty} (hcallee : L.Hint (.function callee))
    (htypeArgs : ∀ spec ∈ typeArgs, L.Allows spec) (hargs : ArgumentsRun L args args' g)
    (hname : L.margins.spots name.range) (hhint : L.Hints hint) :
    L.Runs x g L.Good (arguments callee typeArgs args name x.id hint)
      (arguments callee typeArgs args' name x.id' hint) := by
  refine symbols fun v v' hv => ?_
  rw [hargs.length_eq]
  exact (countArguments hname _ _).quiet fun _ _ =>
    (explicitBindings hname _ htypeArgs).quiet fun _ hbound =>
      boundArguments hcallee hargs hv (hint_guessed hhint hbound)

/-- Arguments that nothing is known about. -/
theorem unguidedLast (hargs : ArgumentsRun L args args' g) :
    L.Runs x g L.Good (do Check.unguided x.id args; return .unknown)
      (do Check.unguided x.id' args'; return .unknown) :=
  (unguided hargs).settle fun _ _ => pure L.good_unknown

/-- The callee is resolved, be it callable or not. -/
theorem callee {found : Ty} (hfound : L.Hint found) (module : Option Ident)
    (hname : L.margins.spots name.range) (htypeArgs : ∀ spec ∈ typeArgs, L.Allows spec)
    (hargs : ArgumentsRun L args args' g) (hhint : L.Hints hint) :
    L.Runs x g L.Good (callee (some found) module name typeArgs args x.id hint)
      (callee (some found) module name typeArgs args' x.id' hint) := by
  cases found with
  | function signature => exact arguments hfound htypeArgs hargs hname hhint
  | unknown => exact unguidedLast hargs
  | named | applied | array | tuple | record | option | result | placeholder =>
    exact (note (.diagnostic ⟨.error, .notCallable _ _, _⟩) rfl fun _ =>
      ⟨⟨⟨rfl, rfl⟩, nofun⟩, hname⟩).quiet fun _ _ => unguidedLast hargs

/-- The rule for a call: the name is used, then the arguments have their effect. -/
theorem call {module : Option Ident} (h : L.Reaches module name)
    (htypeArgs : ∀ spec ∈ typeArgs, L.Allows spec) (hargs : ArgumentsRun L args args' g)
    (hhint : L.Hints hint) :
    L.Runs x (Effects.refer .function module name * g) L.Good
      (call module name typeArgs args x.id hint)
      (call module name typeArgs args' x.id' hint) := by
  cases module with
  | some qualifier =>
    obtain ⟨hmodule, hspot⟩ := h.qualifier qualifier rfl
    rw [Effects.refer, one_mul]
    refine (moduleName hmodule hspot).quiet fun known _ => ?_
    split
    · refine symbols fun v v' hv => ?_
      obtain ⟨hsame, hgood⟩ := L.like_function? name.name hv h.outside hints_none
      dsimp only
      rw [hsame]
      cases hfound : v.symbols.function? (some qualifier.name) name.name none with
      | some f =>
        exact (markFunction h.spot _).quiet fun _ _ =>
          callee (hgood f hfound).1 _ h.spot htypeArgs hargs hhint
      | none => exact (error rfl rfl h.spot).quiet fun _ _ => unguidedLast hargs
    · exact unguidedLast hargs
  | none =>
    obtain ⟨hknown, hname⟩ := h.plain
    have hexpected : L.Hints ((resultHint hint).map (Ty.fn [])) := by
      intro t ht
      obtain ⟨result, hresult, rfl⟩ := Option.map_eq_some_iff.1 ht
      exact L.hint_function.2 ⟨List.forall_mem_nil _, hhint.filter _ result hresult⟩
    refine lookup hknown h.spot rfl hexpected (fun found hplaces hfound _ => ?_)
      (unguidedLast hargs) rfl rfl
    exact (mark hname hplaces).quiet fun _ _ => callee hfound _ h.spot htypeArgs hargs hhint

theorem method? {owner : Ty} (howner : L.Good owner) (hname : L.Refers .member name) :
    L.Keeps x (fun found => ∀ f ∈ found, L.Hint (.function f)) (method? owner name) := by
  refine symbols fun v v' hv => ?_
  obtain ⟨hmethod, hmethodHint⟩ := L.like_method? name.name hv howner
  obtain ⟨hfield, hfieldHint⟩ := L.like_field? name.name hv (L.hint howner)
  rw [hmethod, hfield]
  split
  · rename_i m hm
    refine (token hname.mark _ _).quiet fun _ _ =>
      (link _ hname.use ((L.like_placed hv).method? hm)).quiet fun _ _ =>
        (hover _ _ _ _).quiet fun _ _ => pure ?_
    rintro _ ⟨⟩
    exact hmethodHint m hm
  · split
    · rename_i f hf
      have hty := (hfieldHint f hf).1
      split
      · rename_i signature hsignature
        rw [hsignature] at hty
        refine (markField hname _ hv hf).quiet fun _ _ => pure ?_
        rintro _ ⟨⟩
        exact hty
      · exact pure nofun
    · exact pure nofun

/-- The rule for a method call: the target has its effect, then the arguments have theirs. -/
theorem methodCall (ht : target.Runs L g target') (hname : L.Refers .member name)
    (hargs : ArgumentsRun L args args' h) (hhint : L.Hints hint) :
    L.Runs x (g * h) L.Good (methodCall target name args x.id hint)
      (methodCall target' name args' x.id' hint) := by
  refine ht.alone.bind fun owner howner => ?_
  unfold methodOf
  split
  · exact unguidedLast hargs
  · refine (method? howner hname).quiet fun found hfound => ?_
    cases found with
    | some signature =>
      exact arguments (hfound _ rfl) (List.forall_mem_nil _) hargs hname.spot hhint
    | none => exact (error rfl rfl hname.spot).quiet fun _ _ => unguidedLast hargs

end Regime

end ScriptCheck
