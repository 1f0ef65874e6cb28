import ScriptCheck.Proofs.FewerBindings

/-!
# Substitution

Filling a type with bindings is a substitution for its placeholders, with two additions: a generic
library type that stands without arguments gets them as soon as one of its parameters is bound, and
a function type loses the generic parameters that are bound.

Filling reads the bindings of the names that `Ty.fillableNames` lists and of no others
(`Ty.fill_congr_on`). Filling twice is filling once, with bindings whose types were filled as well
(`Ty.fill_fill`). This holds without any condition on the bindings, since a placeholder is never
captured: function types declare generic parameters, but filling goes on below them.
-/

namespace ScriptCheck

namespace Ty

/-! ## The names that filling reads -/

/-- The names that filling reads at the outermost constructor. -/
def ownNames (r : Registry) : Ty → List String
  | .placeholder name => [name]
  | t => t.genericNames r

/-- The placeholders of a type, the generic parameters of its function types and those of the
library types in it that have no arguments. -/
def fillableNames (r : Registry) (t : Ty) : List String := t.parts.flatMap (ownNames r)

variable {r : Registry} {s u : Bindings} {t : Ty}

theorem mem_fillableNames {name : String} :
    name ∈ t.fillableNames r ↔
      name ∈ t.ownNames r ∨ ∃ c ∈ t.children, name ∈ c.fillableNames r := by
  simp only [fillableNames, parts_eq t, List.flatMap_cons, List.mem_append, List.flatMap_assoc,
    List.mem_flatMap (l := t.children)]

/-- Bindings that agree on the names that filling reads give the same type. -/
theorem fill_congr_on (h : ∀ name ∈ t.fillableNames r, s.get? name = u.get? name) :
    t.fill r s = t.fill r u := by
  induction t using children_induction with
  | h t ih =>
    have hown : ∀ name ∈ t.ownNames r, s.get? name = u.get? name :=
      fun name hname => h name (mem_fillableNames.2 (.inl hname))
    have hcontains : ∀ name ∈ t.ownNames r, s.contains name = u.contains name :=
      fun name hname => by rw [Table.contains, Table.contains, hown name hname]
    have ih : ∀ c ∈ t.children, c.fill r s = c.fill r u := fun c hc =>
      ih c hc fun name hname => h name (mem_fillableNames.2 (.inr ⟨c, hc, hname⟩))
    cases t with
    | unknown => rfl
    | placeholder name => rw [fill, fill, hown name List.mem_cons_self]
    | named q =>
      have hany : (genericNames r (.named q)).any s.contains =
          (genericNames r (.named q)).any u.contains := by
        rw [Bool.eq_iff_iff, List.any_eq_true, List.any_eq_true]
        exact exists_congr fun name => and_congr_right fun hname => by rw [hcontains name hname]
      simp only [fill, hany]
      rw [List.map_congr_left fun name hname => by rw [hown name hname]]
    | applied q args | tuple args =>
      rw [fill, fill, fillList_eq_map, fillList_eq_map]
      exact congrArg _ (List.map_congr_left ih)
    | array | option | result => simp_all [fill, children]
    | record name items =>
      rw [fill, fill, fillItems_eq_map, fillItems_eq_map]
      exact congrArg _ (List.map_congr_left fun x hx => by rw [ih x.2 (List.mem_map_of_mem hx)])
    | function f =>
      have hparams : ∀ p ∈ f.params, p.ty.fill r s = p.ty.fill r u :=
        fun p hp => ih p.ty (List.mem_append_left _ (List.mem_map_of_mem hp))
      rw [fill, fill, fillParams_eq_map, fillParams_eq_map, ih f.result (by simp [children]),
        List.map_congr_left fun p hp => by rw [hparams p hp],
        List.filter_congr fun name hname => by rw [hcontains name hname]]

/-- Bindings of other names leave a type as it is. -/
theorem fill_of_unbound (h : ∀ name ∈ t.fillableNames r, s.contains name = false) :
    t.fill r s = t := by
  have hagree : ∀ name ∈ t.fillableNames r, s.get? name = ({} : Bindings).get? name :=
    fun name hname => Option.not_isSome_iff_eq_none.1 (Bool.eq_false_iff.1 (h name hname))
  rw [fill_congr_on hagree, fill_empty]

end Ty

/-! ## One substitution after the other -/

namespace Bindings

/-- The first bindings, with their types filled with the second ones, and what only the second
bind. -/
def andThen (r : Registry) (s u : Bindings) : Bindings :=
  ⟨s.entries.map (fun entry => (entry.1, entry.2.fill r u)) ++
    u.entries.filter fun entry => !s.contains entry.1⟩

variable (r : Registry) (s u : Bindings)

theorem get?_andThen (name : String) :
    (s.andThen r u).get? name = ((s.get? name).map (Ty.fill r u)).or (u.get? name) := by
  have hnew : Table.find? name (u.entries.filter fun entry => !s.contains entry.1) =
      if !s.contains name then u.get? name else none :=
    Table.find?_filter name (fun key => !s.contains key) u.entries
  rw [andThen, Table.get?, Table.find?_append, Table.find?_map, hnew, Table.contains, ← Table.get?]
  cases s.get? name <;> simp

theorem contains_andThen (name : String) :
    (s.andThen r u).contains name = (s.contains name || u.contains name) := by
  rw [Table.contains, get?_andThen]
  cases hs : s.get? name <;> simp [Table.contains, hs]

end Bindings

namespace Ty

open Bindings

variable (r : Registry) (s u : Bindings)

/-- What is put in the place of a placeholder. -/
theorem fill_getD_placeholder (name : String) :
    ((s.get? name).getD (.placeholder name)).fill r u =
      ((s.andThen r u).get? name).getD (.placeholder name) := by
  rw [get?_andThen]
  cases s.get? name <;> simp [fill]

theorem fill_fill (t : Ty) : (t.fill r s).fill r u = t.fill r (s.andThen r u) := by
  induction t using children_induction with
  | h t ih =>
    cases t with
    | unknown => rfl
    | placeholder name => exact fill_getD_placeholder r s u name
    | named q =>
      by_cases hfirst : (genericNames r (.named q)).any s.contains = true
      -- The type gets its arguments from the first bindings. The second ones fill them, and take
      -- the place of the parameters that the first left open.
      · have hboth : (genericNames r (.named q)).any (s.andThen r u).contains = true := by
          obtain ⟨name, hmem, hname⟩ := List.any_eq_true.1 hfirst
          exact List.any_eq_true.2 ⟨name, hmem, by rw [contains_andThen, hname, Bool.true_or]⟩
        simp only [fill, if_pos hfirst, if_pos hboth, fillList_eq_map, List.map_map]
        exact congrArg _ (List.map_congr_left fun name _ => fill_getD_placeholder r s u name)
      -- The first bindings have none of its parameters, so that only the second ones matter.
      · have hnone : ∀ name ∈ genericNames r (.named q), s.get? name = none := by
          simpa [Table.contains] using hfirst
        have hleft : fill r s (.named q) = .named q := if_neg hfirst
        rw [hleft]
        refine fill_congr_on fun name hname => ?_
        rw [get?_andThen, hnone name (by simpa [fillableNames, parts, ownNames] using hname)]
        rfl
    | applied q args | tuple args =>
      rw [fill, fill, fill, fillList_eq_map, fillList_eq_map, fillList_eq_map, List.map_map]
      exact congrArg _ (List.map_congr_left ih)
    | array | option | result => simp_all [fill, children]
    | record name items =>
      rw [fill, fill, fill, fillItems_eq_map, fillItems_eq_map, fillItems_eq_map, List.map_map]
      refine congrArg _ (List.map_congr_left fun x hx => ?_)
      exact congrArg _ (ih x.2 (List.mem_map_of_mem hx))
    | function f =>
      have hgenerics : (f.generics.filter fun name => !s.contains name).filter
          (fun name => !u.contains name) =
            f.generics.filter fun name => !(s.andThen r u).contains name := by
        simp only [List.filter_filter, contains_andThen, Bool.not_or, Bool.and_comm]
      have hparams : ∀ p ∈ f.params, (p.ty.fill r s).fill r u = p.ty.fill r (s.andThen r u) :=
        fun p hp => ih p.ty (List.mem_append_left _ (List.mem_map_of_mem hp))
      have hresult := ih f.result (by simp [children])
      simp only [fill, fillParams_eq_map, List.map_map, hgenerics, hresult]
      rw [List.map_congr_left fun p hp => by rw [Function.comp_apply, hparams p hp]]

end Ty

open Ty Bindings in
/-- Filling twice is filling once, with bindings that have for each name what the first bind it to,
filled with the second, or else what the second bind it to. Bindings of names that a type does not
have leave it as it is. -/
theorem substitution_composes (r : Registry) (t : Ty) (s u : Bindings) :
    (∀ name, (s.andThen r u).get? name =
      match s.get? name with
      | some v => some (v.fill r u)
      | none => u.get? name) ∧
    (t.fill r s).fill r u = t.fill r (s.andThen r u) ∧
    ((∀ name ∈ t.fillableNames r, s.contains name = false) → t.fill r s = t) := by
  refine ⟨fun name => ?_, fill_fill r s u t, fill_of_unbound⟩
  rw [get?_andThen]
  cases s.get? name <;> rfl

namespace Pairing

/-- A library with a type of two generic parameters. -/
def library : Registry :=
  .ofModules [{ name := "lib", types := [{ name := "Pair", generics := ["T", "U"] }] }]

def pair : QName := ⟨"lib", "Pair"⟩

/-- A function `pairUp<T, U>(first : T) -> lib::Pair` beside a cell. -/
def pairUp : Ty :=
  .tuple [.prelude "Cell",
    .function
      { generics := ["T", "U"]
        params := [⟨"first", .placeholder "T", false⟩]
        result := .named pair }]

end Pairing

open Pairing in
/-- With `T` bound to an array of `U` and then `U` to `int`, the pair gets its first argument from
the first bindings and its second from the others. A binding of `V` changes nothing. -/
theorem substitution_composes_pairUp :
    (pairUp.fill library ⟨[("T", .array (.placeholder "U"))]⟩).fill library ⟨[("U", .int)]⟩ =
      .tuple [.applied ⟨"", "Cell"⟩ [.array .int],
        .function
          { params := [⟨"first", .array .int, false⟩]
            result := .applied pair [.array .int, .int] }] ∧
    (∀ name ∈ pairUp.fillableNames library,
      Table.contains (⟨[("V", .int)]⟩ : Bindings) name = false) ∧
    pairUp.fill library ⟨[("V", .int)]⟩ = pairUp := by
  have hcomposes := (substitution_composes library pairUp ⟨[("T", .array (.placeholder "U"))]⟩
    ⟨[("U", .int)]⟩).2.1
  have hunbound : ∀ name ∈ pairUp.fillableNames library,
      Table.contains (⟨[("V", .int)]⟩ : Bindings) name = false := by decide
  exact ⟨hcomposes.trans (by decide), hunbound,
    (substitution_composes library pairUp ⟨[("V", .int)]⟩ {}).2.2 hunbound⟩

end ScriptCheck
