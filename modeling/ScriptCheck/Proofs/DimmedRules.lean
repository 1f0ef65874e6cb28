import ScriptCheck.Proofs.DimmedStates

/-!
# Rules under faded types

One lemma for each rule that does not call anything: what it finds in the check that sees faded
types differs from what it finds in the other one no further than the grades of its parts allow, and
it adds no error of its own.
-/

namespace ScriptCheck

open Check Ty

variable {o : Outlook} {path path' rest rest' : List Nat} {id id' : Nat} {α : Type} {g h : Grade}
  {a b : Ty}

/-! ## Types that go together -/

namespace Grade

/-- Nothing is less precise than an unknown type. -/
theorem allows_unknown (hg : g ≠ same) (a : Ty) : g.Allows a .unknown := by
  cases g with
  | same => exact absurd rfl hg
  | lost => exact .inr rfl
  | faded => exact Fades.of_hole rfl
  | loose => trivial

/-- The second type is the first one, or it is not known, or both are of one form. -/
theorem Allows.cases (hg : g ≤ faded) (h : g.Allows a b) :
    b = a ∨ (b = .unknown ∧ g ≠ same) ∨
      (g = faded ∧ b.isUnknown = false ∧ Alike (Fades isUnknown) a b) := by
  cases g with
  | same => exact .inl h
  | lost => exact h.imp_right fun hb => .inl ⟨hb, by decide⟩
  | faded =>
    cases hunknown : b.isUnknown with
    | true =>
      refine .inr (.inl ⟨?_, by decide⟩)
      cases b <;> first | rfl | cases hunknown
    | false =>
      refine .inr (.inr ⟨rfl, rfl, ?_⟩)
      exact (fades_iff.1 h).resolve_left (by simp [hunknown])
  | loose => exact absurd hg (by decide)

theorem Allows.cases_lost (hg : g ≤ lost) (h : g.Allows a b) :
    b = a ∨ (b = .unknown ∧ g ≠ same) := by
  cases g with
  | same => exact .inl h
  | lost => exact h.imp_right fun hb => ⟨hb, by decide⟩
  | _ => exact absurd hg (by decide)

end Grade

/-- What fits is accepted if it was. -/
theorem Outlook.accepts_of_fits (hg : o.fits g = true) (hh : o.fits h = true) {a a' b b' : Ty}
    (ha : g.Allows a a') (hb : h.Allows b b') (haccepts : o.symbols.accepts a b = true) :
    o.symbols.accepts a' b' = true := by
  have hcases (g : Grade) (hg : o.fits g = true) :
      g ≤ .lost ∨ (g = .faded ∧ o.symbols.registry.isFlat = true) := by
    simpa [Outlook.fits] using hg
  have hfaded {g : Grade} (hg : g ≤ .faded) {a a' : Ty} (ha : g.Allows a a') :
      a.Fades isUnknown a' := ha.mono hg
  have hopen (t : Ty) : t.isUnknown = true → t.isOpen = true := isOpen_of_isUnknown
  rcases hcases g hg with hg | ⟨rfl, hflat⟩
  · rcases hcases h hh with hh | ⟨rfl, hflat⟩
    · rcases ha.cases_lost hg with rfl | ⟨rfl, -⟩
      · rcases hb.cases_lost hh with rfl | ⟨rfl, -⟩
        · exact haccepts
        · exact Symbols.accepts_of_isOpen (.inr rfl)
      · exact Symbols.accepts_of_isOpen (.inl rfl)
    · have hg : g ≤ .faded := Nat.le_succ_of_le hg
      exact Symbols.accepts_of_fades hopen (Registry.flat_of_isFlat hflat)
        (hfaded hg ha) hb haccepts
  · have hh : h ≤ .faded := by
      rcases hcases h hh with hh | ⟨rfl, -⟩
      · exact Nat.le_succ_of_le hh
      · exact Nat.le_refl _
    exact Symbols.accepts_of_fades hopen (Registry.flat_of_isFlat hflat) ha (hfaded hh hb) haccepts

theorem Outlook.fits_same (o : Outlook) : o.fits .same = true := rfl

theorem Outlook.le_faded_of_fits (hg : o.fits g = true) : g ≤ .faded := by
  cases g with
  | loose => exact absurd hg (by simp [fits]; decide)
  | _ => decide

/-! ## Parts -/

/-- The part finds types that differ no further than the grade says. If it is free, this holds
whatever types are expected of it. -/
def Part.Dims (o : Outlook) (g : Grade) (free : Bool) (part : Part) : Prop :=
  ∀ id rest id' rest' hint hint', free = true ∨ hint = hint' →
    Dim o (id :: rest) (id' :: rest') g.Allows (part.check id hint) (part.check id' hint')

theorem Part.Dims.mono {free : Bool} {part : Part} (hpart : part.Dims o g free) (hle : g ≤ h) :
    part.Dims o h free :=
  fun id rest id' rest' hint hint' hhint =>
    Dim.mono (hpart id rest id' rest' hint hint' hhint) fun _ _ => Grade.Allows.mono hle

/-- The part is as it was sketched. Besides, inferring it leaves no trace, and a lambda changes no
scope that is open already. -/
structure Part.Sketched (o : Outlook) (sketch : Sketch) (part : Part) : Prop where
  isLambda : part.isLambda = sketch.isLambda
  dims : part.Dims o sketch.grade sketch.free
  confined : part.Confined
  grows : part.isLambda = true → ∀ id hint, Grows (part.check id hint)

namespace Dim

variable {free : Bool} {part : Part}

/-- The same type is expected of a part. -/
theorem check (hpart : part.Dims o g free) (hint : Option Ty) :
    Dim o (id :: rest) (id' :: rest') g.Allows (part.check id hint) (part.check id' hint) :=
  hpart id rest id' rest' hint hint (.inr rfl)

theorem typed (range : Range) {rule rule' : CheckM Ty}
    (hrule : Dim o path path' g.Allows rule rule') :
    Dim o path path' g.Allows (typed range rule) (typed range rule') :=
  hrule.bind fun ty ty' hty =>
    (hushed (.setType range ty) (.setType range ty')).bind fun _ _ _ => pure hty

/-- A value is compared with a type that may have faded as well. -/
theorem require {expected expected' : Ty} (hpart : part.Dims o g free) (hg : o.fits g = true)
    (hexpected : h.Allows expected expected') (hh : o.fits h = true)
    (hfree : free = true ∨ expected = expected') :
    Dim o (id :: rest) (id' :: rest') (fun _ _ => True) (require part expected id)
      (require part expected' id') :=
  (hpart _ _ _ _ _ _ (hfree.imp_right (congrArg some))).bind fun _ _ hfound =>
    expect part.range (Outlook.accepts_of_fits hh hg hexpected hfound)

/-- A value is compared with a type that is the same in both checks. -/
theorem requireSame (hpart : part.Dims o g free) (hg : o.fits g = true) (expected : Ty) :
    Dim o (id :: rest) (id' :: rest') (fun _ _ => True) (Check.require part expected id)
      (Check.require part expected id') :=
  require hpart hg (Grade.Allows.refl .same expected) o.fits_same (.inr rfl)

/-- Both checks mark what they have found. -/
theorem marks {m m' : CheckM α} {β γ : Type} {P : β → γ → Prop} {k : α → CheckM β}
    {k' : α → CheckM γ}
    (hm : Hushed m) (hm' : Hushed m') (hk : ∀ a a', Dim o path path' P (k a) (k' a')) :
    Dim o path path' P (m >>= k) (m' >>= k') :=
  (hushed hm hm').bind fun a a' _ => hk a a'

/-- The first check marks something that the second one does not mark. -/
theorem leftMark {m : CheckM Unit} {β γ : Type} {P : β → γ → Prop} {k : CheckM β} {k' : CheckM γ}
    (hm : Hushed m) (hk : Dim o path path' P k k') : Dim o path path' P (m >>= fun _ => k) k' :=
  left (.of_notes hm.notes) fun _ => hk

/-- The second check marks something that the first one does not mark. -/
theorem rightMark {m : CheckM Unit} {β γ : Type} {P : β → γ → Prop} {k : CheckM β} {k' : CheckM γ}
    (hm : Hushed m) (hk : Dim o path path' P k k') : Dim o path path' P k (m >>= fun _ => k') :=
  right hm fun _ => hk

/-- Both checks complain and find no type. -/
theorem fails {problem problem' : Problem} (hcategory : problem'.category = problem.category)
    (range : Range) :
    Dim o path path' g.Allows (do Check.error problem range; return Ty.unknown)
      (do Check.error problem' range; return Ty.unknown) :=
  (error hcategory range).bind fun _ _ _ => pure (Grade.Allows.refl g .unknown)

/-- Both checks write the same and find the same. -/
theorem unchanged {m : CheckM Ty} (h : Notes m) (g : Grade) : Dim o path path' g.Allows m m :=
  (same h).mono fun a _ hab => hab ▸ Grade.Allows.refl g a

/-- A type is asked for something. That only leads to complaints if it is known. -/
theorem consume {k : Ty → CheckM Ty} (hg : g ≤ .faded) (hab : g.Allows a b)
    (hnotes : ∀ t, Notes (k t)) (hunknown : k .unknown = Pure.pure .unknown)
    (hfaded : g = .faded → b.isUnknown = false → Alike (Fades isUnknown) a b →
      Dim o path path' Grade.faded.Allows (k a) (k b)) :
    Dim o path path' g.Allows (k a) (k b) := by
  rcases hab.cases hg with rfl | ⟨rfl, hne⟩ | ⟨rfl, hb, halike⟩
  · exact unchanged (hnotes b) g
  · rw [hunknown]
    exact leftLast (.of_notes (hnotes a)) fun _ => Grade.allows_unknown hne _
  · exact hfaded rfl hb halike

end Dim

/-! ## Marks -/

namespace Check.Hushed

theorem markToken (range : Range) (found : Resolved) : Hushed (markToken range found) := by
  unfold Check.markToken
  split <;> exact .token _ _ _

theorem mark (name : Ident) (found : Resolved) : Hushed (mark name found) :=
  (markToken _ _).bind fun _ => (link _ _).bind fun _ => hover _ _ _ _

theorem markConstant (name : Ident) (found : Value) : Hushed (markConstant name found) :=
  (token _ _ _).bind fun _ => hover _ _ _ _

theorem markFunction (name : Ident) (found : Value) : Hushed (markFunction name found) :=
  (token _ _ _).bind fun _ => hover _ _ _ _

theorem markField (name : Ident) (modifiers : List TokenModifier) (found : FieldType) :
    Hushed (markField name modifiers found) :=
  (token _ _ _).bind fun _ => (link _ _).bind fun _ => hover _ _ _ _

end Check.Hushed

/-! ## Names -/

namespace Dim

theorem moduleName (name : Ident) :
    Dim o path path' (fun x y => y = x) (moduleName name) (moduleName name) := by
  refine symbols ?_
  split
  · exact (error rfl _).bind fun _ _ _ => pure rfl
  · exact (hushed (.token _ _ _) (.token _ _ _)).bind fun _ _ _ => pure rfl

/-- Members of modules are the same in both checks. -/
theorem memberVar (module name : Ident) :
    Dim o path path' (fun x y => y = x) (memberVar module name) (memberVar module name) := by
  refine (moduleName module).bind fun known known' hknown => ?_
  rw [hknown]
  cases known with
  | false => exact pure rfl
  | true =>
    refine symbols ?_
    split
    · exact marks (.markConstant _ _) (.markConstant _ _) fun _ _ => pure rfl
    · split
      · exact marks (.markFunction _ _) (.markFunction _ _) fun _ _ => pure rfl
      · exact (error rfl _).bind fun _ _ _ => pure rfl

/-- A plain name stands for a variable in both checks, or for the same constant or function. -/
theorem lookup (name : String) (hint : Option Ty) :
    Dim o (id :: rest) (id' :: rest')
      (Option.Rel fun f f' => ((o.var? name).getD .same).Allows f.ty f'.ty)
      (lookup name id hint) (lookup name id' hint) := by
  refine get fun c c' hc => pure ?_
  rw [hc.view, hc.symbols]
  have hlocal := hc.scopes.local? name
  unfold Scopes.resolve?
  generalize c.scopes.local? id name = v, c'.scopes.local? id' name = v' at hlocal ⊢
  cases hlocal with
  | some hv =>
    obtain ⟨g, hg, hallows⟩ := hv.ty
    rw [hg]
    exact .some hallows
  | none => exact relOption_refl (fun f => .refl _ f.ty) _

/-- A variable differs as far as the outlook allows for its name. -/
theorem var (name : Ident) :
    Dim o (id :: rest) (id' :: rest') ((o.var? name.name).getD .same).Allows
      (var none name id) (var none name id') := by
  refine (lookup name.name none).bind fun found found' hfound => ?_
  cases hfound with
  | none => exact fails rfl _
  | some hty => exact marks (.mark _ _) (.mark _ _) fun _ _ => pure hty

end Dim

/-! ## Members -/

namespace Check

namespace Notes

theorem fieldOf (name : Ident) (owner : Ty) : Notes (fieldOf name owner) := by
  unfold Check.fieldOf
  split
  · exact .pure _
  · refine .symbols fun s => ?_
    split
    · exact (Hushed.markField _ _ _).notes.bind fun _ => .pure _
    · exact (error _ _).bind fun _ => .pure _

theorem elementOf (find : Symbols → Ty → Option Ty) (what : Ty → Unsupported) (range : Range)
    (owner : Ty) : Notes (elementOf find what range owner) := by
  unfold Check.elementOf
  split
  · exact .pure _
  · refine .symbols fun s => ?_
    split
    · exact .pure _
    · exact (error _ _).bind fun _ => .pure _

end Notes

end Check

namespace Dim

variable {free free' : Bool} {target position : Part}

theorem not_isUnknown (hb : b.isUnknown = false) (halike : Alike (Fades isUnknown) a b) :
    a.isUnknown = false := by
  cases halike <;> first | rfl | cases hb

/-- A field of something faded has faded as well, or both checks complain. -/
theorem fieldOf (name : Ident) (hg : g ≤ .faded) (hab : g.Allows a b) :
    Dim o path path' g.Allows (fieldOf name a) (fieldOf name b) := by
  refine consume hg hab (.fieldOf name) rfl fun _ hb halike => ?_
  unfold Check.fieldOf
  rw [hb, not_isUnknown hb halike]
  refine symbols ?_
  have hfield := o.symbols.field?_of_alike halike name.name
  generalize o.symbols.field? a name.name = found, o.symbols.field? b name.name = found' at hfield ⊢
  cases hfield with
  | some h => exact marks (.markField _ _ _) (.markField _ _ _) fun _ _ => pure h.1
  | none => exact fails (by rfl) _

/-- An element of something faded has faded as well, or both checks complain. -/
theorem elementOf (find : Symbols → Ty → Option Ty) (what : Ty → Unsupported) (range : Range)
    (hfind : ∀ a b, Alike (Fades isUnknown) a b →
      Option.Rel (Fades isUnknown) (find o.symbols a) (find o.symbols b))
    (hg : g ≤ .faded) (hab : g.Allows a b) :
    Dim o path path' g.Allows (elementOf find what range a) (elementOf find what range b) := by
  refine consume hg hab (.elementOf find what range) rfl fun _ hb halike => ?_
  unfold Check.elementOf
  rw [hb, not_isUnknown hb halike]
  refine symbols ?_
  have hfound := hfind a b halike
  generalize find o.symbols a = found, find o.symbols b = found' at hfound ⊢
  cases hfound with
  | some h => exact pure h
  | none => exact fails (by rfl) _

theorem field (htarget : target.Dims o g free) (hg : g ≤ .faded) (name : Ident) :
    Dim o (id :: rest) (id' :: rest') g.Allows (field target name id) (field target name id') :=
  (check htarget none).bind fun _ _ hab => fieldOf name hg hab

theorem index (htarget : target.Dims o g free) (hg : g ≤ .faded)
    (hposition : position.Dims o h free') (hh : o.fits h = true) :
    Dim o (id :: rest) (id' :: rest') g.Allows (index target position id)
      (index target position id') :=
  (check htarget none).bind fun _ _ hab => (requireSame hposition hh Ty.int).bind fun _ _ _ =>
    elementOf Symbols.indexed? Unsupported.index target.range
      (fun _ _ => o.symbols.elementIn?_of_alike _) hg hab

end Dim

/-! ## Operators -/

namespace Check

namespace Notes

theorem search {overloads : Symbols → List Overload} {other : Ty} {k : Option Overload → CheckM α}
    (hk : ∀ found, Notes (k found)) : Notes (search overloads other >>= k) := by
  rw [search_eq, bind_assoc]
  exact .symbols fun s => by
    rw [pure_bind]
    exact hk _

theorem unaryOf (range : Range) (op : Operator) (ty : Ty) : Notes (unaryOf range op ty) := by
  unfold Check.unaryOf
  split
  · exact .pure _
  · refine search fun found => ?_
    split
    · exact .pure _
    · exact (error _ _).bind fun _ => .pure _

theorem apply (range : Range) (left : Ty) (op : Operator) (right : Ty) :
    Notes (apply range left op right) := by
  unfold Check.apply
  split
  · exact .pure _
  · refine search fun found => ?_
    split
    · exact .pure _
    · refine search fun found => ?_
      split
      · exact .pure _
      · exact (error _ _).bind fun _ => .pure _

end Notes

end Check

namespace Dim

variable {free free' : Bool} {left right operand : Part}

/-- The operand is the same, or its type is lost. -/
theorem unary (hoperand : operand.Dims o g free) (hg : g ≤ .lost) (range : Range) (op : Operator) :
    Dim o (id :: rest) (id' :: rest') g.Allows (unary range op operand id)
      (unary range op operand id') := by
  refine (check hoperand none).bind fun a b hab => ?_
  refine consume (k := unaryOf range op) (Nat.le_succ_of_le hg) hab (.unaryOf range op) rfl ?_
  rintro rfl
  exact absurd hg (by decide)

/-- The operands are the same, or the type of one is lost and so is that of the result. -/
theorem apply (range : Range) (op : Operator) {l l' r r' : Ty} (hg : g ≤ .lost) (hh : h ≤ .lost)
    (hl : g.Allows l l') (hr : h.Allows r r') :
    Dim o path path' (max g h).Allows (apply range l op r) (apply range l' op r') := by
  have hlost (hne : max g h ≠ .same) (hunknown : (l'.isUnknown || r'.isUnknown) = true) :
      Dim o path path' (max g h).Allows (Check.apply range l op r)
        (Check.apply range l' op r') := by
    have hright : Check.apply range l' op r' = Pure.pure .unknown := by
      rw [Check.apply, if_pos hunknown]
    rw [hright]
    exact leftLast (.of_notes (.apply _ _ _ _)) fun _ => Grade.allows_unknown hne _
  rcases hl.cases_lost hg with rfl | ⟨rfl, hne⟩
  · rcases hr.cases_lost hh with rfl | ⟨rfl, hne⟩
    · exact unchanged (.apply _ _ _ _) _
    · exact hlost (fun hmax => hne (Grade.max_eq_same.1 hmax).2) (by simp [isUnknown])
  · exact hlost (fun hmax => hne (Grade.max_eq_same.1 hmax).1) rfl

theorem binary (hleft : left.Dims o g free) (hright : right.Dims o h free') (range : Range)
    {op : Operator} (hop : op.isLogical = false) (hg : g ≤ .lost) (hh : h ≤ .lost) :
    Dim o (id :: rest) (id' :: rest') (max g h).Allows (binary range left op right id)
      (binary range left op right id') := by
  unfold Check.binary
  rw [hop]
  exact (check hleft none).bind fun _ _ hl => (check hright none).bind fun _ _ hr =>
    apply range op hg hh hl hr

/-- Truth values are asked for in both checks. -/
theorem logical (hleft : left.Dims o g free) (hright : right.Dims o h free') (range : Range)
    {op : Operator} (hop : op.isLogical = true) (hg : o.fits g = true) (hh : o.fits h = true) :
    Dim o (id :: rest) (id' :: rest') Grade.same.Allows (Check.binary range left op right id)
      (Check.binary range left op right id') := by
  unfold Check.binary
  rw [hop]
  exact (requireSame hleft hg Ty.bool).bind fun _ _ _ =>
    (requireSame hright hh Ty.bool).bind fun _ _ _ => pure rfl

end Dim

end ScriptCheck
