import ScriptCheck.Proofs.FadedTypes

/-!
# Fewer bindings

An argument of unknown type binds no generic parameters. Types that are filled with fewer bindings
have faded (`Ty.fades_fill`). A rigid signature has no generic parameters, so that its arguments
make no difference.
-/

namespace ScriptCheck

/-- The second bindings are some of the first. -/
def Bindings.Fewer (bound fewer : Bindings) : Prop :=
  ∀ name, fewer.get? name = none ∨ fewer.get? name = bound.get? name

namespace Bindings.Fewer

theorem refl (bound : Bindings) : bound.Fewer bound := fun _ => .inr rfl

theorem trans {bound fewer least : Bindings} (h : bound.Fewer fewer) (h' : fewer.Fewer least) :
    bound.Fewer least := by
  intro name
  rcases h' name with hname | hname
  · exact .inl hname
  · rw [hname]
    exact h name

theorem insertNew (bound : Bindings) (name : String) (t : Ty) :
    Fewer (bound.insertNew name t) bound := by
  intro other
  rw [Table.insertNew]
  split
  · exact .inr rfl
  · rename_i hcontains
    rw [Table.get?_insert]
    split
    · rename_i heq
      rw [Table.contains, Option.not_isSome_iff_eq_none] at hcontains
      exact .inl (heq ▸ hcontains)
    · exact .inr rfl

theorem contains {bound fewer : Bindings} (h : bound.Fewer fewer) {name : String}
    (hname : fewer.contains name = true) : bound.contains name = true := by
  rw [Table.contains] at hname ⊢
  rcases h name with hnone | heq
  · rw [hnone] at hname
    cases hname
  · rwa [← heq]

end Bindings.Fewer

namespace Ty

open Bindings

/-! ## Guessing -/

theorem guessItems_eq (bound : Bindings) : (as bs : List (String × Ty)) →
    guessItems bound as bs = guessList bound (as.map Prod.snd) (bs.map Prod.snd)
  | [], _ | _ :: _, [] => rfl
  | (_, a) :: as, (_, b) :: bs => guessItems_eq (guess bound a b) as bs

theorem guessParams_eq (bound : Bindings) : (ps qs : List (Param Ty)) →
    guessParams bound ps qs = guessList bound (ps.map Param.ty) (qs.map Param.ty)
  | [], _ | _ :: _, [] => rfl
  | p :: ps, q :: qs => guessParams_eq (guess bound p.ty q.ty) ps qs

/-- What is kept when a placeholder of the expected type is bound to a part of the actual one is
kept by guessing. -/
theorem guess_induction {I : Bindings → Prop} {A B : Ty → Prop}
    (hA : ∀ t, A t → ∀ c ∈ t.children, A c) (hB : ∀ t, B t → ∀ c ∈ t.children, B c)
    (hnew : ∀ {bound name t}, A (.placeholder name) → B t → I bound → I (bound.insertNew name t))
    {bound : Bindings} (h : I bound) {expected actual : Ty} (ha : A expected) (hb : B actual) :
    I (guess bound expected actual) := by
  induction expected using children_induction generalizing bound actual with
  | h expected ih =>
    have hchildren := hA expected ha
    have hlist {as : List Ty} (has : as ⊆ expected.children) : (bs : List Ty) → (∀ b ∈ bs, B b) →
        I (guessList bound as bs) := by
      induction as generalizing bound with
      | nil => exact fun _ _ => h
      | cons a as ihas =>
        rintro (_ | ⟨b, bs⟩) hbs
        · exact h
        · obtain ⟨ha, has⟩ := List.cons_subset.1 has
          obtain ⟨hb, hbs⟩ := List.forall_mem_cons.1 hbs
          exact ihas (ih a ha h (hchildren a ha) hb) has bs hbs
    cases expected with
    | placeholder name =>
      cases actual with
      | unknown | placeholder => exact h
      | _ => exact hnew ha hb h
    | record _ as =>
      cases actual with
      | record _ bs =>
        rw [guess, guessItems_eq]
        exact hlist (List.Subset.refl _) _ (hB _ hb)
      | _ => exact h
    | function f =>
      cases actual with
      | function g =>
        obtain ⟨hqs, hresult⟩ := List.forall_mem_append.1 (hB _ hb)
        have hmem : f.result ∈ (function f).children := by simp [children]
        rw [guess, guessParams_eq]
        exact ih f.result hmem (hlist (List.subset_append_left _ _) _ hqs) (hchildren _ hmem)
          (hresult _ List.mem_cons_self)
      | _ => exact h
    | array | option | result | tuple | unknown | named | applied =>
      cases actual <;> first | exact h | exact hlist (List.Subset.refl _) _ (hB _ hb)

/-- Guessing only adds. -/
theorem fewer_guess (bound : Bindings) (expected actual : Ty) :
    Bindings.Fewer (guess bound expected actual) bound :=
  guess_induction (I := fun b => Bindings.Fewer b bound) (A := fun _ => True) (B := fun _ => True)
    (by simp) (by simp) (fun _ _ h => (Bindings.Fewer.insertNew _ _ _).trans h) (.refl bound)
    trivial trivial

/-- An unknown type binds nothing. -/
theorem guess_unknown (bound : Bindings) (expected : Ty) :
    guess bound expected .unknown = bound := by
  cases expected <;> rfl

/-! ## Filling -/

/-- A type that is filled with fewer bindings has faded. -/
theorem fades_fill (r : Registry) {bound fewer : Bindings} (h : bound.Fewer fewer) (t : Ty) :
    (t.fill r bound).Fades isOpen (t.fill r fewer) := by
  have hopen (name : String) : Fades isOpen ((bound.get? name).getD (.placeholder name))
      ((fewer.get? name).getD (.placeholder name)) := by
    rcases h name with hnone | heq
    · rw [hnone]
      exact .of_hole rfl
    · rw [heq]
      exact .refl _ _
  induction t using children_induction with
  | h t ih =>
    have hchildren {α β : Type} {S : β → β → Prop} {f g : α → β} (xs : List α)
        (hfg : ∀ x ∈ xs, S (f x) (g x)) : List.Forall₂ S (xs.map f) (xs.map g) :=
      List.forall₂_map_left_iff.2 (List.forall₂_map_right_iff.2 (List.forall₂_same.2 hfg))
    cases t with
    | unknown => exact .refl _ _
    | placeholder name => exact hopen name
    | named q =>
      simp only [fill]
      by_cases hfewer : (genericNames r (.named q)).any fewer.contains = true
      · have hbound : (genericNames r (.named q)).any bound.contains = true := by
          obtain ⟨name, hmem, hname⟩ := List.any_eq_true.1 hfewer
          exact List.any_eq_true.2 ⟨name, hmem, h.contains hname⟩
        rw [if_pos hbound, if_pos hfewer]
        exact (Alike.applied q (hchildren _ fun name _ => hopen name)).fades
      · rw [if_neg hfewer]
        split
        · exact (Alike.bare q _).fades
        · exact .refl _ _
    | applied q args =>
      rw [fill, fill, fillList_eq_map, fillList_eq_map]
      exact (Alike.applied q (hchildren args ih)).fades
    | array => exact (Alike.array (ih _ (by simp [children]))).fades
    | option => exact (Alike.option (ih _ (by simp [children]))).fades
    | result => exact (Alike.result (ih _ (by simp [children])) (ih _ (by simp [children]))).fades
    | tuple items =>
      rw [fill, fill, fillList_eq_map, fillList_eq_map]
      exact (Alike.tuple (hchildren items ih)).fades
    | record name items =>
      rw [fill, fill, fillItems_eq_map, fillItems_eq_map]
      refine (Alike.record name ?_).fades
      exact hchildren items fun x hx => ⟨rfl, ih _ (List.mem_map_of_mem hx)⟩
    | function s =>
      rw [fill, fill, fillParams_eq_map, fillParams_eq_map]
      refine (Alike.function ?_ (ih _ (by simp [children]))).fades
      exact hchildren s.params fun p hp => ih _ (List.mem_append_left _ (List.mem_map_of_mem hp))

/-- Without bindings nothing is filled in. -/
theorem fill_empty (r : Registry) (t : Ty) : t.fill r {} = t := by
  have hmap {α : Type} {f : α → α} {xs : List α} (h : ∀ x ∈ xs, f x = x) : xs.map f = xs :=
    (List.map_congr_left h).trans (List.map_id xs)
  induction t using children_induction with
  | h t ih =>
    cases t with
    | unknown | placeholder => rfl
    | named q => simp [fill, Table.contains, Table.get?, Table.find?]
    | array | option | result => simp_all [fill, children]
    | applied q args => rw [fill, fillList_eq_map]; exact congrArg _ (hmap ih)
    | tuple items => rw [fill, fillList_eq_map]; exact congrArg _ (hmap ih)
    | record name items =>
      rw [fill, fillItems_eq_map, hmap fun x hx => by rw [ih x.2 (List.mem_map_of_mem hx)]]
    | function s =>
      have hparams : ∀ p ∈ s.params, (⟨p.name, p.ty.fill r {}, p.hasDefault⟩ : Param Ty) = p :=
        fun p hp => by rw [ih p.ty (List.mem_append_left _ (List.mem_map_of_mem hp))]
      rw [fill, fillParams_eq_map, hmap hparams, ih s.result (by simp [children])]
      simp [Table.contains, Table.get?, Table.find?]

/-! ## Rigid signatures -/

/-- A rigid type has nothing to bind. -/
theorem guess_of_rigid (bound : Bindings) (expected actual : Ty) (h : expected.Rigid) :
    guess bound expected actual = bound :=
  guess_induction (I := fun b => b = bound) (A := Rigid) (B := fun _ => True)
    (fun _ h => (rigid_iff.1 h).2.2) (by simp) (fun h _ _ => absurd rfl ((rigid_iff.1 h).1 _)) rfl h
    trivial

end Ty

end ScriptCheck
