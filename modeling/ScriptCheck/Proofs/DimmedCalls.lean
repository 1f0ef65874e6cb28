import ScriptCheck.Proofs.DimmedStatements

/-!
# Calls under faded types

A callee that both checks know binds its generic parameters by the arguments. If only the argument
that is checked last may be lost, then the second check has fewer bindings when it compares the
arguments and fills in the result (`Dim.arguments_leading`). A callee without generic parameters
has nothing to bind, so that all arguments may be vague (`Dim.arguments_plain`). If the callee
itself is lost, the second check only looks for errors inside of the arguments
(`Dim.arguments_lost`).
-/

namespace ScriptCheck

open Check Ty

variable {o : Outlook} {path path' rest rest' : List Nat} {id id' : Nat} {g h : Grade} {a b : Ty}
  {sketches : List Sketch} {parts : List Part}

/-! ## Arguments one after the other -/

namespace Outlook

variable {vague : Grade → Bool}

theorem leading_same_cons (grades : List Grade) :
    leading vague (.same :: grades) = leading vague grades := by
  cases grades <;> simp [leading]

/-- If there is something left to check, then nothing vague has been checked so far. -/
theorem leading_append {first others : List Grade}
    (hleading : leading vague (first ++ others) = some g) :
    ∃ k, leading vague first = some k ∧
      ((k = .same ∧ leading vague others = some g) ∨ (others = [] ∧ k = g)) := by
  induction first with
  | nil => exact ⟨.same, rfl, .inl ⟨rfl, hleading⟩⟩
  | cons grade first ih =>
    rcases leading_cons hleading with ⟨rfl, hrest⟩ | ⟨hnil, hvague, rfl⟩
    · rw [leading_same_cons]
      exact ih hrest
    · obtain ⟨rfl, rfl⟩ := List.append_eq_nil_iff.1 hnil
      rw [List.append_nil] at hleading
      exact ⟨_, hleading, .inr ⟨rfl, rfl⟩⟩

/-- Some of the values may not be checked. -/
theorem leading_sublist {grades fewer : List Grade} (hsub : fewer.Sublist grades)
    (hleading : leading vague grades = some g) :
    ∃ k, leading vague fewer = some k ∧ (k = .same ∨ k = g) := by
  induction hsub with
  | slnil => exact ⟨_, rfl, .inl rfl⟩
  | cons grade hsub ih =>
    rcases leading_cons hleading with ⟨-, hrest⟩ | ⟨rfl, -, -⟩
    · exact ih hrest
    · rw [List.sublist_nil.1 hsub]
      exact ⟨_, rfl, .inl rfl⟩
  | cons_cons grade hsub ih =>
    rcases leading_cons hleading with ⟨rfl, hrest⟩ | ⟨rfl, -, -⟩
    · rw [leading_same_cons]
      exact ih hrest
    · rw [List.sublist_nil.1 hsub]
      exact ⟨g, hleading, .inr rfl⟩

theorem order_take_sublist (n : Nat) (args : List Sketch) :
    (order (args.take n)).Sublist (order args) :=
  ((List.Sublist.filter _ (List.take_sublist n args)).map _).append
    ((List.Sublist.filter _ (List.take_sublist n args)).map _)

end Outlook

/-! ## Guided arguments -/

theorem exists_sketch (hparts : List.Forall₂ (Part.Sketched o) sketches parts) {part : Part}
    (hpart : part ∈ parts) : ∃ sketch ∈ sketches, part.Sketched o sketch := by
  induction hparts with
  | nil => cases hpart
  | cons hfirst _ ih =>
    rcases List.mem_cons.1 hpart with rfl | hpart
    · exact ⟨_, List.mem_cons_self, hfirst⟩
    · obtain ⟨sketch, hsketch, hpart⟩ := ih hpart
      exact ⟨sketch, List.mem_cons_of_mem _ hsketch, hpart⟩

namespace Check

variable {x y : Bindings × List Argument}

/-- The same argument in both checks. The types found stand in the relation. -/
structure Argument.Alike (R : Ty → Ty → Prop) (arg arg' : Argument) : Prop where
  part : arg'.part = arg.part
  param : arg'.param = arg.param
  found : Option.Rel R arg.found arg'.found

/-- What both checks know after they have checked some of the arguments. -/
structure Filled (g : Grade) (x y : Bindings × List Argument) : Prop where
  bindings : x.1.Fewer y.1
  args : List.Forall₂ (Argument.Alike Grade.lost.Allows) x.2 y.2
  same : g = .same → y = x

theorem Argument.Alike.refl (g : Grade) (arg : Argument) : arg.Alike g.Allows arg :=
  ⟨rfl, rfl, relOption_refl (fun t => .refl g t) _⟩

theorem Filled.refl (g : Grade) (x : Bindings × List Argument) : Filled g x x :=
  ⟨.refl _, List.forall₂_same.2 fun arg _ => .refl _ arg, fun _ => rfl⟩

theorem Filled.parts_eq (h : Filled g x y) : y.2.map Argument.part = x.2.map Argument.part := by
  have hargs := h.args
  generalize x.2 = args at hargs
  generalize y.2 = args' at hargs
  induction hargs with
  | nil => rfl
  | cons harg _ ih => rw [List.map_cons, List.map_cons, harg.part, ih]

/-- With fewer bindings and a lost type the same arguments are accepted. -/
theorem Filled.accepts {s : Symbols} (h : Filled g x y) (hg : g = .same ∨ s.registry.Flat) :
    List.Forall₂ (fun arg arg' => arg'.part = arg.part ∧
      Option.Rel (fun found found' =>
        s.accepts (arg.param.ty.fill s.registry x.1) found = true →
        s.accepts (arg'.param.ty.fill s.registry y.1) found' = true)
        arg.found arg'.found) x.2 y.2 := by
  rcases hg with rfl | hflat
  · rw [h.same rfl]
    exact List.forall₂_same.2 fun arg _ => ⟨rfl, relOption_refl (fun _ haccepts => haccepts) _⟩
  · refine h.args.imp fun arg arg' harg => ⟨harg.part, harg.param ▸ ?_⟩
    refine relOption_mono (fun a b hab => ?_) harg.found
    refine Symbols.accepts_of_fades (fun _ ht => ht) hflat (fades_fill _ h.bindings _) ?_
    rcases hab with rfl | rfl
    · exact .refl _ _
    · exact .of_hole rfl

/-- With fewer bindings less of the result is known. -/
theorem Filled.result (h : Filled g x y) (hg : g = .same ∨ g = .faded) (r : Registry)
    (result : Ty) : g.Allows (result.fill r x.1).erase (result.fill r y.1).erase := by
  rcases hg with rfl | rfl
  · rw [h.same rfl]
    exact .refl _ _
  · exact (fades_fill r h.bindings result).erase

theorem returns_parts_guided (r : Registry) (lambdas : Bool) (id : Nat) : (bound : Bindings) →
    (args : List Argument) →
    Returns (fun x => x.2.map Argument.part = args.map Argument.part)
      (guided r lambdas id bound args)
  | _, [] => .pure rfl
  | bound, arg :: rest => by
    have hrest (bound : Bindings) := returns_parts_guided r lambdas id bound rest
    rw [guided]
    split
    · exact .bind (.any _) fun _ _ => .bind (hrest _) fun _ hparts =>
        .pure (congrArg (arg.part :: ·) hparts)
    · exact .bind (hrest _) fun _ hparts => .pure (congrArg (arg.part :: ·) hparts)

/-- Nothing is done if there is no argument of the kind. -/
theorem guided_of_none (r : Registry) {lambdas : Bool} (id : Nat) (bound : Bindings)
    {args : List Argument}
    (hparts : List.Forall₂ (Part.Sketched o) sketches (args.map Argument.part))
    (hnone : sketches.filter (·.isLambda == lambdas) = []) :
    guided r lambdas id bound args = pure (bound, args) := by
  induction args generalizing sketches with
  | nil => rfl
  | cons arg args ih =>
    rw [List.map_cons] at hparts
    obtain ⟨sketch, sketches, harg, hargs, rfl⟩ := List.forall₂_cons_right_iff.1 hparts
    have hkind : (sketch.isLambda == lambdas) = false := by
      simpa using List.filter_eq_nil_iff.1 hnone sketch List.mem_cons_self
    rw [List.filter_cons_of_neg (by simpa using hkind)] at hnone
    rw [guided, harg.isLambda, hkind, ih hargs hnone]
    rfl

end Check

namespace Dim

/-- The arguments of one kind are checked. As long as their types are the same in both checks, so
are the bindings. -/
theorem guided (r : Registry) {lambdas : Bool} {args : List Argument} {vague : Grade → Bool}
    (hparts : List.Forall₂ (Part.Sketched o) sketches (args.map Argument.part))
    (hleading : Outlook.leading vague
      ((sketches.filter (·.isLambda == lambdas)).map Sketch.grade) = some g)
    (hvague : ∀ g, vague g = true → g ≤ .lost) (bound : Bindings) :
    Dim o (id :: rest) (id' :: rest') (Filled g) (guided r lambdas id bound args)
      (guided r lambdas id' bound args) := by
  induction args generalizing sketches bound with
  | nil => exact pure (.refl _ _)
  | cons arg args ih =>
    rw [List.map_cons] at hparts
    obtain ⟨sketch, sketches, harg, hargs, rfl⟩ := List.forall₂_cons_right_iff.1 hparts
    rw [Check.guided, Check.guided, harg.isLambda]
    cases hkind : sketch.isLambda == lambdas with
    | false =>
      rw [List.filter_cons_of_neg (by simpa using hkind)] at hleading
      exact (ih hargs hleading bound).bind fun x y hxy =>
        pure ⟨hxy.bindings, .cons (.refl _ arg) hxy.args, fun hg => by rw [hxy.same hg]⟩
    | true =>
      rw [List.filter_cons_of_pos (by simpa using hkind), List.map_cons] at hleading
      refine (check harg.dims _).bind fun a b hab => ?_
      rcases Outlook.leading_cons hleading with ⟨hsame, hleading⟩ | ⟨hnil, hlast, rfl⟩
      · rw [hsame] at hab
        obtain rfl : b = a := hab
        refine (ih hargs hleading _).bind fun x y hxy => pure ⟨hxy.bindings, ?_, fun hg => ?_⟩
        · exact .cons ⟨rfl, rfl, .some (.refl _ _)⟩ hxy.args
        · rw [hxy.same hg]
      · have hnone := List.map_eq_nil_iff.1 hnil
        rw [guided_of_none r id _ hargs hnone, guided_of_none r id' _ hargs hnone]
        refine pure ⟨?_, ?_, fun hg => by cases hg⟩
        · rcases hab.cases_lost (hvague _ hlast) with rfl | ⟨rfl, -⟩
          · exact .refl _
          · rw [guess_unknown]
            exact fewer_guess bound _ a
        · exact .cons ⟨rfl, rfl, .some (hab.mono (hvague _ hlast))⟩
            (List.forall₂_same.2 fun arg _ => .refl _ arg)

/-- Lambdas are checked after the other arguments, so that there are none if one of the others is
vague. -/
theorem guided_lambdas (r : Registry) {k : Grade} {vague : Grade → Bool}
    {x y : Bindings × List Argument} (hfilled : Filled k x y)
    (hparts : List.Forall₂ (Part.Sketched o) sketches (x.2.map Argument.part))
    (hlambdas : (k = .same ∧ Outlook.leading vague
        ((sketches.filter (·.isLambda == true)).map Sketch.grade) = some g) ∨
      ((sketches.filter (·.isLambda == true)).map Sketch.grade = [] ∧ k = g))
    (hvague : ∀ g, vague g = true → g ≤ .lost) :
    Dim o (id :: rest) (id' :: rest') (Filled g) (Check.guided r true id x.1 x.2)
      (Check.guided r true id' y.1 y.2) := by
  rcases hlambdas with ⟨rfl, hleading⟩ | ⟨hnil, rfl⟩
  · rw [hfilled.same rfl]
    exact guided r hparts hleading hvague x.1
  · have hnone := List.map_eq_nil_iff.1 hnil
    rw [guided_of_none r id _ hparts hnone,
      guided_of_none r id' _ (hfilled.parts_eq ▸ hparts) hnone]
    exact pure hfilled

/-- The arguments are compared with their parameters. -/
theorem compare {bound bound' : Bindings} {args args' : List Argument}
    (hargs : List.Forall₂ (fun arg arg' => arg'.part = arg.part ∧
      Option.Rel (fun found found' =>
        o.symbols.accepts (arg.param.ty.fill o.symbols.registry bound) found = true →
        o.symbols.accepts (arg'.param.ty.fill o.symbols.registry bound') found' = true)
        arg.found arg'.found) args args') :
    Dim o path path' (fun _ _ => True) (compare o.symbols.registry bound args)
      (compare o.symbols.registry bound' args') := by
  induction hargs with
  | nil => exact pure trivial
  | @cons arg arg' args args' harg _ ih =>
    obtain ⟨hpart, hfound⟩ := harg
    rw [Check.compare, Check.compare, hpart]
    generalize arg.found = found, arg'.found = found' at hfound ⊢
    cases hfound with
    | none => exact ih
    | some haccepts => exact (expect arg.part.range haccepts).bind fun _ _ _ => ih

end Dim

/-! ## What arguments leave behind -/

namespace Check

theorem Notes.explicitBindings (name : Ident) (generics : List String) (typeArgs : List TypeSpec) :
    Notes (explicitBindings name generics typeArgs) := by
  unfold Check.explicitBindings
  split
  · exact .pure _
  · refine .bind (fun _ => ⟨_, _, TypeSpec.writes_checkList typeArgs⟩) fun types => ?_
    split
    · exact .pure _
    · exact (error _ _).bind fun _ => .pure _

theorem Notes.countArguments (name : Ident) (callee : Signature Ty) (found : Nat) :
    Notes (countArguments name callee found) := by
  unfold Check.countArguments
  dsimp only
  split
  · exact error _ _
  · split
    · exact error _ _
    · exact .pure _

theorem Notes.compare (r : Registry) (bound : Bindings) : (args : List Argument) →
    Notes (compare r bound args)
  | [] => .pure _
  | arg :: rest => by
    rw [Check.compare]
    split
    · exact (expect _ _ _).bind fun _ => Notes.compare r bound rest
    · exact Notes.compare r bound rest

/-- Arguments with the parameters that they are for. -/
theorem parts_paired (args : List Part) (params : List (Param Ty)) :
    (List.zipWith (fun part param => { part, param : Argument }) args params).map Argument.part =
      args.take params.length := by
  induction args generalizing params with
  | nil => simp
  | cons arg args ih =>
    cases params with
    | nil => rfl
    | cons param params => exact congrArg (arg :: ·) (ih params)

theorem Notes.method? (owner : Ty) (name : Ident) : Notes (method? owner name) := by
  refine .symbols fun s => ?_
  split
  · exact (Hushed.token _ _ _).notes.bind fun _ => (Hushed.link _ _).notes.bind fun _ =>
      (Hushed.hover _ _ _ _).notes.bind fun _ => .pure _
  · split
    · split
      · exact (Hushed.markField _ _ _).notes.bind fun _ => .pure _
      · exact .pure _
    · exact .pure _

theorem unguided_append (id : Nat) (first others : List Part) :
    unguided id (first ++ others) = (do unguided id first; unguided id others) := by
  induction first with
  | nil => rfl
  | cons part first ih =>
    rw [List.cons_append, unguided, unguided, ih]
    split <;> rfl

theorem Grows.guided (r : Registry) (id : Nat) {args : List Argument}
    (hparts : ∀ arg ∈ args, ∃ sketch, arg.part.Sketched o sketch) (bound : Bindings) :
    Grows (guided r true id bound args) := by
  induction args generalizing bound with
  | nil => exact .pure _
  | cons arg args ih =>
    obtain ⟨⟨sketch, harg⟩, hargs⟩ := List.forall_mem_cons.1 hparts
    rw [Check.guided]
    split
    · rename_i hlambda
      exact (harg.grows (by simpa using hlambda) _ _).bind fun _ =>
        (ih hargs _).bind fun _ => .pure _
    · exact (ih hargs _).bind fun _ => .pure _

end Check

/-- Only constructor functions take their types from the hint. -/
theorem Symbols.function?_of_hint (s : Symbols) {name : String}
    (hname : constructorNames.contains name = false) (hint hint' : Option Ty) :
    s.function? none name hint' = s.function? none name hint := by
  have hnone (expected : Option Ty) : constructor? name expected = none := by
    rw [← Option.not_isSome_iff_eq_none, isSome_constructor?, hname]
    exact Bool.false_ne_true
  simp [function?, hnone]

/-- An argument for a parameter that has nothing to bind. -/
structure Check.Argument.Plain (o : Outlook) (arg arg' : Argument) : Prop where
  part : arg'.part = arg.part
  param : arg'.param = arg.param
  rigid : arg.param.ty.Rigid
  dims : ∃ g free, o.fits g = true ∧ arg.part.Dims o g free
  found : Option.Rel (fun a b => ∃ g, o.fits g = true ∧ g.Allows a b) arg.found arg'.found

theorem Check.returns_explicitBindings (name : Ident) (typeArgs : List TypeSpec) :
    Returns (· = {}) (explicitBindings name [] typeArgs) := by
  unfold explicitBindings
  split
  · exact .pure rfl
  · refine .bind (.any _) fun types _ => ?_
    split
    · exact .pure rfl
    · exact .bind (.any _) fun _ _ => .pure rfl

namespace Dim

/-- Inference leaves no trace in either of the checks. -/
theorem infer {part : Part} (hpart : part.Confined) :
    Dim o path path' (fun _ _ => True) (infer part id none) (infer part id' none) := by
  intro c c' hc
  rw [hpart.state_infer, hpart.state_infer]
  exact ⟨trivial, hc⟩

/-- What is found in arguments without parameters does not matter. -/
theorem unguided : (parts : List Part) → (∀ part ∈ parts, ∃ sketch, part.Sketched o sketch) →
    Dim o (id :: rest) (id' :: rest') (fun _ _ => True) (unguided id parts) (unguided id' parts)
  | [], _ => pure trivial
  | part :: parts, hparts => by
    obtain ⟨⟨sketch, hpart⟩, hparts⟩ := List.forall_mem_cons.1 hparts
    have hrest := unguided parts hparts
    rw [Check.unguided, Check.unguided]
    split
    · exact (infer hpart.confined).bind fun _ _ _ => hrest
    · exact (check hpart.dims none).bind fun _ _ _ => hrest

theorem guided_plain (r : Registry) (lambdas : Bool) {bound bound' : Bindings} (hbound : bound = {})
    (hbound' : bound' = {}) {args args' : List Argument}
    (hargs : List.Forall₂ (Argument.Plain o) args args') :
    Dim o (id :: rest) (id' :: rest')
      (fun x y => x.1 = {} ∧ y.1 = {} ∧ List.Forall₂ (Argument.Plain o) x.2 y.2)
      (Check.guided r lambdas id bound args) (Check.guided r lambdas id' bound' args') := by
  subst hbound hbound'
  induction hargs with
  | nil => exact pure ⟨rfl, rfl, .nil⟩
  | @cons arg arg' args args' harg _ ih =>
    rw [Check.guided, Check.guided, harg.part, harg.param]
    split
    · obtain ⟨g, free, hg, hdims⟩ := harg.dims
      refine (check hdims _).bind fun a b hab => ?_
      rw [guess_of_rigid _ _ a harg.rigid, guess_of_rigid _ _ b harg.rigid]
      refine ih.bind fun x y hxy => pure ⟨hxy.1, hxy.2.1, .cons ?_ hxy.2.2⟩
      exact ⟨rfl, rfl, harg.rigid, harg.dims, .some ⟨g, hg, hab⟩⟩
    · exact ih.bind fun x y hxy => pure ⟨hxy.1, hxy.2.1, .cons harg hxy.2.2⟩

/-- Only the second check infers something. -/
theorem rightInfer {α β : Type} {P : α → β → Prop} {m : CheckM α} {k : Ty → CheckM β} {part : Part}
    (hpart : part.Confined) (hk : ∀ ty, Dim o path path' P m (k ty)) :
    Dim o path path' P m (Check.infer part id' none >>= k) := by
  intro c c' hc
  rw [← hpart.state_infer id' none c'] at hc
  exact hk ((Check.infer part id' none).run c').1 hc

/-- Both checks look into the arguments, only the first one with types that it expects. -/
theorem guided_lost (r : Registry) {args : List Argument}
    (hparts : ∀ arg ∈ args, ∃ sketch, arg.part.Sketched o sketch ∧
      (sketch.isLambda || sketch.free) = true) (bound : Bindings) :
    Dim o (id :: rest) (id' :: rest') (fun _ _ => True) (Check.guided r false id bound args)
      (Check.unguided id' (args.map Argument.part)) := by
  induction args generalizing bound with
  | nil => exact pure trivial
  | cons arg args ih =>
    obtain ⟨⟨sketch, harg, hfree⟩, hargs⟩ := List.forall_mem_cons.1 hparts
    rw [List.map_cons, Check.guided, Check.unguided]
    cases hlambda : arg.part.isLambda with
    | true => exact rightInfer harg.confined fun _ => (ih hargs _).thenLeft fun _ => .pure _
    | false =>
      rw [← harg.isLambda, hlambda, Bool.false_or] at hfree
      exact (harg.dims _ _ _ _ _ _ (.inl hfree)).bind fun _ _ _ =>
        (ih hargs _).thenLeft fun _ => .pure _

/-- A name that is not that of a variable stands for the same function without generic parameters,
if it stands for anything. -/
theorem lookup_plain {name : Ident} (hvar : o.var? name.name = none)
    (hplain : o.symbols.plainCallee none name = true) (hint hint' : Option Ty) :
    Dim o (id :: rest) (id' :: rest')
      (Option.Rel fun f f' => f'.ty = f.ty ∧ f.ty.Rigid) (Check.lookup name.name id hint)
      (Check.lookup name.name id' hint') := by
  refine get fun c c' hc => pure ?_
  rw [hc.view, hc.symbols]
  have hlocal := hc.scopes.local? name.name
  rw [hvar] at hlocal
  simp only [Symbols.plainCallee, Bool.and_eq_true, Bool.not_eq_true'] at hplain
  obtain ⟨hname, hrigid⟩ := hplain
  unfold Scopes.resolve?
  rw [o.symbols.function?_of_hint hname none hint, o.symbols.function?_of_hint hname none hint']
  generalize c.scopes.local? id name.name = v, c'.scopes.local? id' name.name = v' at hlocal ⊢
  cases hlocal with
  | some hv =>
    obtain ⟨g, hg, -⟩ := hv.ty
    cases hg
  | none =>
    dsimp only
    cases hconstant : o.symbols.constant? none name.name with
    | some c =>
      rw [hconstant] at hrigid
      exact .some ⟨rfl, of_decide_eq_true hrigid⟩
    | none =>
      rw [hconstant] at hrigid
      cases hfunction : o.symbols.function? none name.name none with
      | none => exact .none
      | some f =>
        rw [hfunction] at hrigid
        exact .some ⟨rfl, of_decide_eq_true hrigid⟩

end Dim

/-- A callee of which something is known is the same in both checks, or it is lost. -/
theorem Outlook.callOf?_eq_some {k : Grade} (hcall : o.callOf? k sketches = some g) :
    k ≤ .lost ∧ (∃ h, o.arguments? sketches = some h ∧ h ≤ g) ∧
      (k ≠ .same → g ≠ .same ∧ ∀ sketch ∈ sketches, (sketch.isLambda || sketch.free) = true) := by
  unfold callOf? at hcall
  split at hcall
  · exact ⟨by decide, ⟨g, hcall, Nat.le_refl _⟩, fun h => absurd rfl h⟩
  · split at hcall
    · rename_i hfree
      obtain ⟨h, hgrade, rfl⟩ := Option.map_eq_some_iff.1 hcall
      refine ⟨by decide, ⟨h, hgrade, Grade.le_max_right _ _⟩, fun _ => ⟨?_, ?_⟩⟩
      · exact fun hmax => absurd (Grade.max_eq_same.1 hmax).1 (by decide)
      · exact List.all_eq_true.1 hfree
    · cases hcall
  · cases hcall

/-! ## Calls -/

namespace Dim

variable (hparts : List.Forall₂ (Part.Sketched o) sketches parts)

include hparts

/-- A function is called that is the same in both checks. -/
theorem arguments_leading (callee : Signature Ty) (typeArgs : List TypeSpec) (name : Ident)
    (hint : Option Ty)
    (hgrade : o.arguments? sketches = some g) :
    Dim o (id :: rest) (id' :: rest') g.Allows (arguments callee typeArgs parts name id hint)
      (arguments callee typeArgs parts name id' hint) := by
  unfold Check.arguments
  refine symbols ((same (.countArguments _ _ _)).bind fun _ _ _ => ?_)
  refine (same (.explicitBindings _ _ _)).bind fun bound _ hbound => ?_
  rw [hbound]
  -- only the arguments that have a parameter matter, in the order in which they are checked
  obtain ⟨k, hk, hkg⟩ :=
    Outlook.leading_sublist (Outlook.order_take_sublist callee.params.length sketches) hgrade
  have hvague (k : Grade) (hk : (decide (k ≤ .lost) && o.symbols.registry.isFlat) = true) :
      k ≤ .lost := of_decide_eq_true (Bool.and_eq_true _ _ ▸ hk).1
  have hargs : List.Forall₂ (Part.Sketched o) (sketches.take callee.params.length)
      ((List.zipWith (fun part param => { part, param : Argument }) parts callee.params).map
        Argument.part) := by
    rw [parts_paired]
    exact List.forall₂_take _ hparts
  have hextra : ∀ part ∈ parts.drop callee.params.length, ∃ sketch, part.Sketched o sketch :=
    fun part hpart => (exists_sketch hparts (List.mem_of_mem_drop hpart)).imp fun _ h => h.2
  have hflat : k = .same ∨ o.symbols.registry.Flat := by
    refine (Outlook.cases_of_leading hk).imp_right ?_
    rintro ⟨-, _, hlast⟩
    exact Registry.flat_of_isFlat (Bool.and_eq_true _ _ ▸ hlast).2
  obtain ⟨first, hfirst, hlambdas⟩ := Outlook.leading_append hk
  refine ((guided _ hargs hfirst hvague _).returning (returns_parts_guided _ _ _ _ _)).bind ?_
  rintro x y ⟨hfilled, hsame⟩
  refine (guided_lambdas _ hfilled (hsame ▸ hargs) hlambdas hvague).bind fun x y hfilled => ?_
  refine (unguided _ hextra).bind fun _ _ _ => ?_
  refine (compare (hfilled.accepts hflat)).bind fun _ _ _ => pure ?_
  refine (hfilled.result ?_ _ _).mono ?_
  · exact (Outlook.cases_of_leading hk).imp_right And.left
  · rcases hkg with rfl | rfl
    · exact Nat.zero_le _
    · exact Nat.le_refl _

/-- A function without generic parameters is called. What is expected of the result does not
matter. -/
theorem arguments_plain {callee : Signature Ty} (hcallee : (Ty.function callee).Rigid)
    (typeArgs : List TypeSpec) (name : Ident) (hint hint' : Option Ty)
    (hfits : ∀ sketch ∈ sketches, o.fits sketch.grade = true) :
    Dim o (id :: rest) (id' :: rest') Grade.same.Allows
      (arguments callee typeArgs parts name id hint)
      (arguments callee typeArgs parts name id' hint') := by
  obtain ⟨-, hgenerics, hchildren⟩ := rigid_iff.1 hcallee
  have hresult : callee.result.Rigid := hchildren _ (by simp [children])
  have hargs : List.Forall₂ (Argument.Plain o)
      (List.zipWith (fun part param => { part, param : Argument }) parts callee.params)
      (List.zipWith (fun part param => { part, param : Argument }) parts callee.params) := by
    refine List.forall₂_same.2 fun arg harg => ?_
    obtain ⟨i, hi, rfl⟩ := List.getElem_of_mem harg
    rw [List.getElem_zipWith]
    obtain ⟨sketch, hsketch, hpart⟩ := exists_sketch hparts (List.getElem_mem _)
    refine ⟨rfl, rfl, hchildren _ ?_, ⟨_, _, hfits sketch hsketch, hpart.dims⟩, .none⟩
    exact List.mem_append_left _ (List.mem_map_of_mem (List.getElem_mem _))
  have hextra : ∀ part ∈ parts.drop callee.params.length, ∃ sketch, part.Sketched o sketch :=
    fun part hpart => (exists_sketch hparts (List.mem_of_mem_drop hpart)).imp fun _ h => h.2
  unfold Check.arguments
  rw [hgenerics callee rfl]
  refine symbols ((same (.countArguments _ _ _)).bind fun _ _ _ => ?_)
  refine ((same (.explicitBindings _ _ _)).returning (returns_explicitBindings _ _)).bind ?_
  rintro _ _ ⟨rfl, rfl⟩
  refine (guided_plain _ false ?guessed ?guessed' hargs).bind ?_
  case guessed | guessed' =>
    unfold guessed
    split
    · exact guess_of_rigid _ _ _ hresult
    · rfl
  rintro ⟨_, args⟩ ⟨_, args'⟩ ⟨hempty, hempty', hargs⟩
  refine (guided_plain _ true hempty hempty' hargs).bind ?_
  rintro ⟨_, args⟩ ⟨_, args'⟩ ⟨rfl, rfl, hargs⟩
  refine (unguided _ hextra).bind fun _ _ _ => ?_
  refine (compare (hargs.imp fun arg arg' harg => ⟨harg.part, harg.param ▸ ?_⟩)).bind
    fun _ _ _ => pure rfl
  refine relOption_mono ?_ harg.found
  rintro a b ⟨g, hg, hab⟩
  exact Outlook.accepts_of_fits o.fits_same hg (.refl _ _) hab

/-- The second check does not know the function that is called. -/
theorem arguments_lost (callee : Signature Ty) (typeArgs : List TypeSpec) (name : Ident)
    (hint : Option Ty)
    (hfree : ∀ sketch ∈ sketches, (sketch.isLambda || sketch.free) = true) :
    Dim o (id :: rest) (id' :: rest') (fun _ _ => True)
      (arguments callee typeArgs parts name id hint) (Check.unguided id' parts) := by
  have hsketch {part : Part} (hpart : part ∈ parts) : ∃ sketch, part.Sketched o sketch ∧
      (sketch.isLambda || sketch.free) = true :=
    (exists_sketch hparts hpart).imp fun sketch h => ⟨h.2, hfree sketch h.1⟩
  have hargs : ∀ arg ∈ List.zipWith (fun part param => { part, param : Argument }) parts
      callee.params, ∃ sketch, arg.part.Sketched o sketch ∧
        (sketch.isLambda || sketch.free) = true := by
    intro arg harg
    have hpart := List.mem_map_of_mem (f := Argument.part) harg
    rw [parts_paired] at hpart
    exact hsketch (List.mem_of_mem_take hpart)
  have hsplit : Check.unguided id' parts = (do
      Check.unguided id' ((List.zipWith (fun part param => { part, param : Argument }) parts
        callee.params).map Argument.part)
      Check.unguided id' (parts.drop callee.params.length)) := by
    rw [parts_paired, ← unguided_append, List.take_append_drop]
  rw [hsplit]
  unfold Check.arguments
  refine left (.of_notes (.symbols fun s => .pure s)) fun s => ?_
  refine left (.of_notes (.countArguments _ _ _)) fun _ => ?_
  refine left (.of_notes (.explicitBindings _ _ _)) fun bound => ?_
  refine ((guided_lost _ hargs _).returning (returns_parts_guided _ _ _ _ _)).bind ?_
  rintro x _ ⟨-, hsame⟩
  have hlambdas : ∀ arg ∈ x.2, ∃ sketch, arg.part.Sketched o sketch := by
    intro arg harg
    have hpart := List.mem_map_of_mem (f := Argument.part) harg
    rw [hsame, parts_paired] at hpart
    exact (hsketch (List.mem_of_mem_take hpart)).imp fun _ h => h.1
  refine left (.guided _ _ hlambdas _) fun y => ?_
  refine (unguided _ fun part hpart => ?_).thenLeft fun _ =>
    .of_notes ((Notes.compare _ _ _).bind fun _ => .pure _)
  exact (hsketch (List.mem_of_mem_drop hpart)).imp fun _ h => h.1

/-- Both checks only look into the arguments. -/
theorem uncalled (g : Grade) :
    Dim o (id :: rest) (id' :: rest') g.Allows
      (do Check.unguided id parts; return Ty.unknown)
      (do Check.unguided id' parts; return Ty.unknown) :=
  (unguided parts fun _ hpart => (exists_sketch hparts hpart).imp fun _ h => h.2).bind
    fun _ _ _ => pure (.refl g _)

/-- Both checks know what is called, and they check its arguments alike. -/
theorem callee_of {found : Option Ty} {name : Ident} {typeArgs : List TypeSpec}
    {hint hint' : Option Ty} (module : Option Ident)
    (harguments : ∀ s, found = some (.function s) → Dim o (id :: rest) (id' :: rest') g.Allows
      (arguments s typeArgs parts name id hint) (arguments s typeArgs parts name id' hint')) :
    Dim o (id :: rest) (id' :: rest') g.Allows (callee found module name typeArgs parts id hint)
      (callee found module name typeArgs parts id' hint') := by
  unfold Check.callee
  split
  · exact harguments _ rfl
  · exact uncalled hparts g
  · exact (error rfl _).bind fun _ _ _ => uncalled hparts g
  · exact (error rfl _).bind fun _ _ _ => uncalled hparts g

/-- Something without generic parameters is called. -/
theorem callee_plain {found : Option Ty} (hfound : ∀ ty ∈ found, ty.Rigid) (module : Option Ident)
    (name : Ident) (typeArgs : List TypeSpec) (hint hint' : Option Ty)
    (hfits : ∀ sketch ∈ sketches, o.fits sketch.grade = true) :
    Dim o (id :: rest) (id' :: rest') Grade.same.Allows
      (callee found module name typeArgs parts id hint)
      (callee found module name typeArgs parts id' hint') :=
  callee_of hparts module fun _ hs =>
    arguments_plain hparts (hfound _ hs) typeArgs name hint hint' hfits

/-- Only the first check knows what is called. -/
theorem callee_lost (found : Option Ty) (module : Option Ident) (name : Ident)
    (typeArgs : List TypeSpec) (hint : Option Ty)
    (hfree : ∀ sketch ∈ sketches, (sketch.isLambda || sketch.free) = true) (hg : g ≠ .same) :
    Dim o (id :: rest) (id' :: rest') g.Allows (callee found module name typeArgs parts id hint)
      (do Check.unguided id' parts; return Ty.unknown) := by
  unfold Check.callee
  split
  · exact (arguments_lost hparts _ typeArgs name hint hfree).thenRight
      fun _ => Grade.allows_unknown hg _
  · exact uncalled hparts g
  · exact left (.of_notes (.error _ _)) fun _ => uncalled hparts g
  · exact left (.of_notes (.error _ _)) fun _ => uncalled hparts g

/-- What is called is the same for both checks, or the second one has lost it. -/
theorem callee {k : Grade} {found found' : Option Ty} (hfound : Option.Rel k.Allows found found')
    (hcall : o.callOf? k sketches = some g) (module : Option Ident) (name : Ident)
    (typeArgs : List TypeSpec) (hint : Option Ty)
    :
    Dim o (id :: rest) (id' :: rest') g.Allows (callee found module name typeArgs parts id hint)
      (callee found' module name typeArgs parts id' hint) := by
  obtain ⟨hk, ⟨h, hgrade, hle⟩, hlost⟩ := Outlook.callOf?_eq_some hcall
  have hsame (found : Option Ty) : Dim o (id :: rest) (id' :: rest') g.Allows
      (Check.callee found module name typeArgs parts id hint)
      (Check.callee found module name typeArgs parts id' hint) :=
    (callee_of hparts module fun s _ => arguments_leading hparts s typeArgs name hint hgrade).mono
      fun _ _ => .mono hle
  cases hfound with
  | none => exact hsame none
  | some hab =>
    rcases hab.cases_lost hk with rfl | ⟨rfl, hne⟩
    · exact hsame _
    · obtain ⟨hg, hfree⟩ := hlost hne
      exact callee_lost hparts _ module name typeArgs hint hfree hg

/-- A function of a module is called. -/
theorem call_member (module name : Ident) (typeArgs : List TypeSpec) {hint hint' : Option Ty}
    (hcall : o.call? (some module) name sketches = some g)
    (hhint : o.symbols.plainCallee (some module) name = true ∨ hint = hint') :
    Dim o (id :: rest) (id' :: rest') g.Allows (call (some module) name typeArgs parts id hint)
      (call (some module) name typeArgs parts id' hint') := by
  have hcallee : Dim o (id :: rest) (id' :: rest') g.Allows
      (Check.callee ((o.symbols.function? (some module.name) name.name none).map Value.ty)
        (some module) name typeArgs parts id hint)
      (Check.callee ((o.symbols.function? (some module.name) name.name none).map Value.ty)
        (some module) name typeArgs parts id' hint') := by
    simp only [Outlook.call?, Option.elim_some] at hcall
    split_ifs at hcall with hplain hfits
    · cases hcall
      refine callee_plain hparts ?_ _ name typeArgs hint hint' (by simpa using hfits)
      simpa [Symbols.plainCallee, Option.all_eq_true] using hplain
    · obtain rfl := hhint.resolve_left hplain
      exact callee_of hparts _ fun s _ => arguments_leading hparts s typeArgs name hint hcall
  refine (moduleName module).bind fun known known' hknown => ?_
  rw [hknown]
  cases known with
  | false => exact uncalled hparts g
  | true =>
    refine symbols ?_
    dsimp only
    split
    · exact marks (.markFunction _ _) (.markFunction _ _) fun _ _ => hcallee
    · exact hcallee

/-- A function is called by its name alone, which may be that of a variable. -/
theorem call_name (name : Ident) (typeArgs : List TypeSpec) {hint hint' : Option Ty}
    (hcall : o.call? none name sketches = some g)
    (hhint : ((o.var? name.name).isNone && o.symbols.plainCallee none name) = true ∨
      hint = hint') :
    Dim o (id :: rest) (id' :: rest') g.Allows (call none name typeArgs parts id hint)
      (call none name typeArgs parts id' hint') := by
  simp only [Outlook.call?, Option.elim_none] at hcall
  by_cases hplain : ((o.var? name.name).isNone && o.symbols.plainCallee none name) = true
  · obtain ⟨hvar, hplain⟩ := (Bool.and_eq_true _ _).mp hplain
    rw [Option.isNone_iff_eq_none] at hvar
    rw [hvar] at hcall
    dsimp only at hcall
    rw [if_pos hplain] at hcall
    obtain ⟨hfits, hsame⟩ := Option.ite_none_right_eq_some.1 hcall
    cases hsame
    refine (lookup_plain hvar hplain _ _).bind fun found found' hfound => ?_
    cases hfound with
    | none => exact callee_plain hparts (by simp) _ name typeArgs hint hint' (by simpa using hfits)
    | @some f f' hf =>
      obtain ⟨hty, hrigid⟩ := hf
      refine marks (.mark _ _) (.mark _ _) fun _ _ => ?_
      rw [Option.map_some, Option.map_some, hty]
      exact callee_plain hparts (by simpa using hrigid) _ name typeArgs hint hint'
        (by simpa using hfits)
  · obtain rfl := hhint.resolve_left hplain
    have hcall : o.callOf? ((o.var? name.name).getD .same) sketches = some g := by
      cases hvar : o.var? name.name with
      | some k =>
        rw [hvar] at hcall
        exact hcall
      | none =>
        rw [hvar] at hcall hplain
        rw [if_neg (by simpa using hplain)] at hcall
        exact hcall
    refine (lookup name.name _).bind fun found found' hfound => ?_
    cases hfound with
    | none => exact callee hparts .none hcall none name typeArgs hint
    | some hf =>
      exact marks (.mark _ _) (.mark _ _) fun _ _ =>
        callee hparts (.some hf) hcall none name typeArgs hint

/-! ## Methods -/

/-- A method is called on a target of the same type. -/
theorem methodOf_same (owner : Ty) (name : Ident) (hint : Option Ty)
    (hgrade : o.arguments? sketches = some g) :
    Dim o (id :: rest) (id' :: rest') g.Allows (methodOf name parts id hint owner)
      (methodOf name parts id' hint owner) := by
  unfold Check.methodOf
  split
  · exact uncalled hparts g
  · refine (same (.method? owner name)).bind fun found _ hfound => ?_
    rw [hfound]
    split
    · exact arguments_leading hparts _ [] name hint hgrade
    · exact (error rfl _).bind fun _ _ _ => uncalled hparts g

/-- Only the first check knows the type of the target. -/
theorem methodOf_lost (owner : Ty) (name : Ident) (hint : Option Ty)
    (hfree : ∀ sketch ∈ sketches, (sketch.isLambda || sketch.free) = true) (hg : g ≠ .same) :
    Dim o (id :: rest) (id' :: rest') g.Allows (methodOf name parts id hint owner)
      (methodOf name parts id' hint .unknown) := by
  change Dim _ _ _ _ (Check.methodOf name parts id hint owner)
    (do Check.unguided id' parts; return Ty.unknown)
  unfold Check.methodOf
  split
  · exact uncalled hparts g
  · refine left (.of_notes (.method? owner name)) fun found => ?_
    split
    · exact (arguments_lost hparts _ [] name hint hfree).thenRight
        fun _ => Grade.allows_unknown hg _
    · exact left (.of_notes (.error _ _)) fun _ => uncalled hparts g

/-- The target of a method call is the same for both checks, or the second one has lost its type. -/
theorem methodCall {target : Part} {k : Grade} {free : Bool} (htarget : target.Dims o k free)
    (name : Ident) (hint : Option Ty)
    (hcall : o.callOf? k sketches = some g) :
    Dim o (id :: rest) (id' :: rest') g.Allows (methodCall target name parts id hint)
      (methodCall target name parts id' hint) := by
  obtain ⟨hk, ⟨h, hgrade, hle⟩, hlost⟩ := Outlook.callOf?_eq_some hcall
  refine (check htarget none).bind fun a b hab => ?_
  rcases hab.cases_lost hk with rfl | ⟨rfl, hne⟩
  · exact (methodOf_same hparts b name hint hgrade).mono fun _ _ => .mono hle
  · obtain ⟨hg, hfree⟩ := hlost hne
    exact methodOf_lost hparts a name hint hfree hg

end Dim

end ScriptCheck
