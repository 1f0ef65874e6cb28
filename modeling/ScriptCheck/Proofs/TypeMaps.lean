import ScriptCheck.Proofs.Tables
import ScriptCheck.Proofs.TypeParts
import ScriptCheck.Ty.Generics

/-!
# Maps over types

Substituting and erasing placeholders work child by child. Two properties of types are said of all
their parts: a type is known if no part of it is `Ty.unknown`, and ground if none is a placeholder.
Substitution keeps types known, and what is left after erasing is ground.
-/

namespace ScriptCheck.Ty

/-! ## Child by child -/

theorem fillList_eq_map (r : Registry) (bound : Bindings) (ts : List Ty) :
    fillList r bound ts = ts.map (fill r bound) := by
  induction ts with
  | nil => rfl
  | cons t rest ih => simp [fillList, ih]

theorem fillItems_eq_map (r : Registry) (bound : Bindings) (items : List (String × Ty)) :
    fillItems r bound items = items.map fun item => (item.1, item.2.fill r bound) := by
  induction items with
  | nil => rfl
  | cons item rest ih => simp [fillItems, ih]

theorem fillParams_eq_map (r : Registry) (bound : Bindings) (params : List (Param Ty)) :
    fillParams r bound params = params.map fun p => ⟨p.name, p.ty.fill r bound, p.hasDefault⟩ := by
  induction params with
  | nil => rfl
  | cons p rest ih => simp [fillParams, ih]

/-- A type that is neither a name nor a placeholder is filled child by child. -/
theorem children_fill (r : Registry) (bound : Bindings) {t : Ty} (hnamed : ∀ q, t ≠ .named q)
    (hplaceholder : ∀ name, t ≠ .placeholder name) :
    (t.fill r bound).children = t.children.map (fill r bound) := by
  cases t with
  | named q => exact absurd rfl (hnamed q)
  | placeholder name => exact absurd rfl (hplaceholder name)
  | unknown | array | option | result => rfl
  | applied base args => exact fillList_eq_map r bound args
  | tuple items => exact fillList_eq_map r bound items
  | record name items => simp [fill, children, fillItems_eq_map]
  | function s => simp [fill, children, fillParams_eq_map]

theorem eraseList_eq_map (ts : List Ty) : eraseList ts = ts.map erase := by
  induction ts with
  | nil => rfl
  | cons t rest ih => simp [eraseList, ih]

theorem eraseItems_eq_map (items : List (String × Ty)) :
    eraseItems items = items.map fun item => (item.1, item.2.erase) := by
  induction items with
  | nil => rfl
  | cons item rest ih => simp [eraseItems, ih]

theorem eraseParams_eq_map (params : List (Param Ty)) :
    eraseParams params = params.map fun p => ⟨p.name, p.ty.erase, p.hasDefault⟩ := by
  induction params with
  | nil => rfl
  | cons p rest ih => simp [eraseParams, ih]

theorem children_erase (t : Ty) : t.erase.children = t.children.map erase := by
  cases t with
  | unknown | named | placeholder | array | option | result => rfl
  | applied base args => exact eraseList_eq_map args
  | tuple items => exact eraseList_eq_map items
  | record name items => simp [erase, children, eraseItems_eq_map]
  | function s => simp [erase, children, eraseParams_eq_map]

/-! ## Known types -/

/-- No part of the type is unknown. -/
def Known (t : Ty) : Prop := .unknown ∉ t.parts

instance (t : Ty) : Decidable t.Known := inferInstanceAs (Decidable (_ ∉ _))

theorem known_iff {t : Ty} : t.Known ↔ t ≠ .unknown ∧ ∀ c ∈ t.children, c.Known := by
  rw [Known, parts_eq, List.mem_cons, not_or, ne_comm]
  simp [Known]

theorem known_named (q : QName) : (named q).Known :=
  known_iff.2 ⟨by simp, List.forall_mem_nil _⟩

/-- Substituting known types in a known type gives a known type. What stays open is a placeholder,
which is known as well. -/
theorem Known.fill {r : Registry} {bound : Bindings} (hbound : bound.All fun _ t => t.Known)
    {t : Ty} (h : t.Known) : (t.fill r bound).Known := by
  have hopen (name : String) : ((bound.get? name).getD (.placeholder name)).Known := by
    cases hname : bound.get? name with
    | none => exact known_iff.2 ⟨nofun, nofun⟩
    | some t => exact hbound.get? hname
  induction t using children_induction with
  | h t ih =>
    obtain ⟨hunknown, hchildren⟩ := known_iff.1 h
    cases t with
    | unknown => exact absurd rfl hunknown
    | placeholder name => exact hopen name
    | named q =>
      simp only [Ty.fill]
      split
      · refine known_iff.2 ⟨nofun, fun c hc => ?_⟩
        obtain ⟨name, -, rfl⟩ := List.mem_map.1 hc
        exact hopen name
      · exact h
    | applied | array | tuple | record | option | result | function =>
      refine known_iff.2 ⟨by simp [Ty.fill], fun c hc => ?_⟩
      rw [children_fill] at hc
      case hnamed | hplaceholder => simp
      obtain ⟨child, hchild, rfl⟩ := List.mem_map.1 hc
      exact ih child hchild (hchildren child hchild)

/-! ## Ground types -/

/-- No part of the type is a placeholder. -/
def Ground (t : Ty) : Prop := ∀ name, .placeholder name ∉ t.parts

theorem ground_iff {t : Ty} :
    t.Ground ↔ (∀ name, t ≠ .placeholder name) ∧ ∀ c ∈ t.children, c.Ground := by
  simp only [Ground, parts_eq t, List.mem_cons, not_or, List.mem_flatMap, not_exists, not_and,
    forall_and, ne_comm]
  exact and_congr_right fun _ => ⟨fun h c hc name => h name c hc, fun h name c hc => h c hc name⟩

/-- Nothing is left open after erasing. -/
theorem ground_erase (t : Ty) : t.erase.Ground := by
  induction t using children_induction with
  | h t ih =>
    refine ground_iff.2 ⟨fun name => ?_, fun c hc => ?_⟩
    · cases t <;> simp [erase]
    · rw [children_erase] at hc
      obtain ⟨child, hchild, rfl⟩ := List.mem_map.1 hc
      exact ih child hchild

end ScriptCheck.Ty
