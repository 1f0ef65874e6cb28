/-!
# Coupled computations

Two computations run side by side, each on a state of its own. They are coupled by a relation
between the states if they lead from related states to related states; a second relation says how
the values that they return belong together. Whatever is put together from coupled computations in
the same way is coupled again.
-/

namespace ScriptCheck

variable {σ τ α β γ δ : Type}

/-- From states that `R` relates, the computations lead to states that `R` relates, and they return
values that `Q` relates. -/
def Coupled (R : σ → τ → Prop) (Q : α → β → Prop) (m : StateM σ α) (m' : StateM τ β) : Prop :=
  ∀ ⦃s : σ⦄ ⦃t : τ⦄, R s t → Q (m.run s).1 (m'.run t).1 ∧ R (m.run s).2 (m'.run t).2

namespace Coupled

variable {R : σ → τ → Prop} {P : α → β → Prop} {Q : γ → δ → Prop}

theorem pure {a : α} {b : β} (h : P a b) : Coupled R P (pure a) (pure b) := fun _ _ hst => ⟨h, hst⟩

theorem bind {m : StateM σ α} {m' : StateM τ β} {k : α → StateM σ γ} {k' : β → StateM τ δ}
    (hm : Coupled R P m m') (hk : ∀ a b, P a b → Coupled R Q (k a) (k' b)) :
    Coupled R Q (m >>= k) (m' >>= k') := by
  intro s t hst
  obtain ⟨hvalue, hstate⟩ := hm hst
  exact hk _ _ hvalue hstate

/-- If both computations return the same value, they go on with it. -/
theorem bind_same {P : α → Prop} {m : StateM σ α} {m' : StateM τ α}
    {k : α → StateM σ γ} {k' : α → StateM τ δ} (hm : Coupled R (fun a b => b = a ∧ P a) m m')
    (hk : ∀ a, P a → Coupled R Q (k a) (k' a)) : Coupled R Q (m >>= k) (m' >>= k') := by
  refine bind hm ?_
  rintro a _ ⟨rfl, ha⟩
  exact hk _ ha

theorem mono {P' : α → β → Prop} {m : StateM σ α} {m' : StateM τ β} (hm : Coupled R P m m')
    (h : ∀ a b, P a b → P' a b) : Coupled R P' m m' :=
  fun _ _ hst => ⟨h _ _ (hm hst).1, (hm hst).2⟩

/-- Both computations read their states first. -/
theorem get {k : σ → StateM σ γ} {k' : τ → StateM τ δ}
    (hk : ∀ s t, R s t → Coupled R Q (k s) (k' t)) : Coupled R Q (get >>= k) (get >>= k') :=
  fun s t hst => hk s t hst hst

end Coupled

end ScriptCheck
