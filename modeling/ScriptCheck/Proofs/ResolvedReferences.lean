import ScriptCheck.Proofs.CompleteLibraries
import ScriptCheck.Proofs.Substitution

/-!
# Resolving references and filling types

The generic parameters in a description are bound at two times. What a library type is applied to
is put in place while a reference is resolved; the generic parameters of a function or method stay
open then, and a call fills them later. Both come to the same: a reference that is resolved under
some bindings and then filled with others is resolved under the composed bindings
(`TypeRef.fill_resolve`), and a reference reads the bindings of the parameters that it mentions and
of no others (`TypeRef.resolve_congr_on`).

This leaves out references to a generic type without arguments. Resolving them gives the bare type,
whatever is bound, and filling gives arguments to it if its parameters happen to be bound.
-/

namespace ScriptCheck

namespace TypeRef

mutual
/-- The library types that a reference names without arguments. -/
def bareTypes : TypeRef → List QName
  | .builtin name => [⟨"", name⟩]
  | .generic _ => []
  | .standard module name args =>
    (if args.isEmpty then [⟨module, name⟩] else []) ++ bareTypesOfList args
  | .array param | .option param => param.bareTypes
  | .result ok err => ok.bareTypes ++ err.bareTypes
  | .tuple params | .record _ params => bareTypesOfList params
  | .function _ params ret => bareTypesOfList params ++ ret.bareTypes

/-- The library types that the references of a list name without arguments. -/
def bareTypesOfList : List TypeRef → List QName
  | [] => []
  | ref :: rest => ref.bareTypes ++ bareTypesOfList rest
end

variable {r : Registry} {s u : Bindings}

/-! ## The bindings that matter -/

/-- Bindings that agree on the generic parameters in a reference give the same type. -/
theorem resolve_congr_on (ref : TypeRef) (h : ∀ name ∈ ref.mentions, s.get? name = u.get? name) :
    ref.resolve r s = ref.resolve r u := by
  induction ref using names_induction with
  | builtin => rfl
  | generic name => rw [resolve, resolve, h name (List.mem_singleton_self name)]
  | standard module name args ih =>
    rw [resolve, resolve, resolveList_eq_map, resolveList_eq_map,
      List.map_congr_left fun arg harg =>
      ih arg harg fun name hname => h name (mentions_subset harg hname)]
  | composite ref href ih =>
    exact resolve_eq_of_children href fun c hc =>
      ih c hc fun name hname => h name (mentions_subset hc hname)

/-! ## Filling what was resolved -/

/-- A library type without generic parameters stays as it is. -/
theorem fill_bare {q : QName} (h : (Ty.named q).genericNames r = []) :
    (Ty.named q).fill r s = .named q := by
  simp [Ty.fill, h]

theorem fillParams_positional (ts : List Ty) (index : Nat) :
    Ty.fillParams r s (Ty.positional index ts) = Ty.positional index (ts.map (Ty.fill r s)) := by
  induction ts generalizing index with
  | nil => rfl
  | cons t rest ih => rw [Ty.positional, Ty.fillParams, ih, List.map_cons, Ty.positional]

mutual
/-- A reference under bindings that is filled with others is the reference under the composed
bindings, provided that the first bind all that it mentions. -/
theorem fill_resolve : (ref : TypeRef) →
    (∀ q ∈ ref.bareTypes, (Ty.named q).genericNames r = []) →
    (∀ name ∈ ref.mentions, u.contains name = true) →
    (ref.resolve r u).fill r s = ref.resolve r (u.andThen r s)
  | .builtin name, hbare, _ => by
    rw [resolve, resolve]
    split
    · exact fill_bare (hbare _ List.mem_cons_self)
    · rfl
  | .generic name, _, hbound => by
    obtain ⟨t, ht⟩ := Option.isSome_iff_exists.1 (hbound name (List.mem_singleton_self name))
    rw [resolve, resolve, Bindings.get?_andThen, ht]
    rfl
  | .standard module name args, hbare, hbound => by
    obtain ⟨hhead, hargs⟩ := List.forall_mem_append.1 hbare
    rw [resolve, resolve]
    split
    · rfl
    · split
      · rename_i hempty
        rw [if_pos hempty] at hhead
        exact fill_bare (hhead _ List.mem_cons_self)
      · rw [Ty.fill, Ty.fillList_eq_map, map_fill_resolveList args hargs hbound]
  | .array param, hbare, hbound | .option param, hbare, hbound => by
    rw [resolve, resolve, Ty.fill, fill_resolve param hbare hbound]
  | .result ok err, hbare, hbound => by
    obtain ⟨hok, herr⟩ := List.forall_mem_append.1 hbare
    obtain ⟨hok', herr'⟩ := List.forall_mem_append.1 hbound
    rw [resolve, resolve, Ty.fill, fill_resolve ok hok hok', fill_resolve err herr herr']
  | .tuple params, hbare, hbound => by
    rw [resolve, resolve, Ty.fill, Ty.fillList_eq_map, map_fill_resolveList params hbare hbound]
  | .record names params, hbare, hbound => by
    -- names and parameters are paired up before or after filling, as far as the shorter list goes
    rw [resolve, resolve, Ty.fill, Ty.fillItems_eq_map, ← map_fill_resolveList params hbare hbound,
      List.zip_map_right]
    rfl
  | .function isAsync params ret, hbare, hbound => by
    obtain ⟨hparams, hret⟩ := List.forall_mem_append.1 hbare
    obtain ⟨hparams', hret'⟩ := List.forall_mem_append.1 hbound
    rw [resolve, resolve, Ty.fill, fillParams_positional,
      map_fill_resolveList params hparams hparams', fill_resolve ret hret hret']
    rfl

theorem map_fill_resolveList : (refs : List TypeRef) →
    (∀ q ∈ bareTypesOfList refs, (Ty.named q).genericNames r = []) →
    (∀ name ∈ mentionsOfList refs, u.contains name = true) →
    (resolveList r u refs).map (Ty.fill r s) = resolveList r (u.andThen r s) refs
  | [], _, _ => rfl
  | ref :: rest, hbare, hbound => by
    obtain ⟨href, hrest⟩ := List.forall_mem_append.1 hbare
    obtain ⟨href', hrest'⟩ := List.forall_mem_append.1 hbound
    rw [resolveList, resolveList, List.map_cons, fill_resolve ref href href',
      map_fill_resolveList rest hrest hrest']
end

end TypeRef

/-- Resolving a reference under bindings is resolving it first, with its generic parameters left as
placeholders, and filling the type later. The bindings have to bind all generic parameters in the
reference, and no library type with generic parameters may stand in it without arguments. -/
theorem resolve_eq_fill_open (r : Registry) (ref : TypeRef) {s own : Bindings}
    (hbare : ∀ q ∈ ref.bareTypes, (Ty.named q).genericNames r = [])
    (hs : ∀ name ∈ ref.mentions, s.contains name = true)
    (hown : ∀ name ∈ ref.mentions, own.get? name = some (.placeholder name)) :
    ref.resolve r s = (ref.resolve r own).fill r s := by
  have hbound : ∀ name ∈ ref.mentions, own.contains name = true := by
    intro name hname
    rw [Table.contains, hown name hname]
    rfl
  rw [ref.fill_resolve hbare hbound]
  refine ref.resolve_congr_on fun name hname => ?_
  obtain ⟨t, ht⟩ := Option.isSome_iff_exists.1 (hs name hname)
  rw [Bindings.get?_andThen, hown name hname, Option.map_some, Ty.fill, ht]
  rfl

namespace Pairing

/-- The reference `fn(T, (x : lib::Pair<T, U[]>), lib::Gone<T>) -> int`. The record in it has a
parameter without a name. -/
def pairReader : TypeRef :=
  .function false
    [.generic "T",
      .record ["x"] [.standard "lib" "Pair" [.generic "T", .array (.generic "U")], .generic "U"],
      .standard "lib" "Gone" [.generic "T"]]
    (.builtin "int")

end Pairing

open Pairing in
/-- With `T` bound to `string` and `U` to a placeholder `T`, nothing is filled twice. -/
theorem resolve_eq_fill_open_pairReader :
    (∀ q ∈ pairReader.bareTypes, (Ty.named q).genericNames library = []) ∧
    (∀ name ∈ pairReader.mentions,
      Table.contains (⟨[("T", .string), ("U", .placeholder "T")]⟩ : Bindings) name = true) ∧
    (∀ name ∈ pairReader.mentions,
      (Registry.selfBindings ["T", "U"]).get? name = some (.placeholder name)) ∧
    (pairReader.resolve library (Registry.selfBindings ["T", "U"])).fill library
        ⟨[("T", .string), ("U", .placeholder "T")]⟩ =
      .fn [.string, .anonymous [("x", .applied pair [.string, .array (.placeholder "T")])],
        .unknown] .int := by
  have hbare : ∀ q ∈ pairReader.bareTypes, (Ty.named q).genericNames library = [] := by decide
  have hs : ∀ name ∈ pairReader.mentions,
      Table.contains (⟨[("T", .string), ("U", .placeholder "T")]⟩ : Bindings) name = true := by
    decide
  have hown : ∀ name ∈ pairReader.mentions,
      (Registry.selfBindings ["T", "U"]).get? name = some (.placeholder name) := by decide
  refine ⟨hbare, hs, hown, ?_⟩
  rw [← resolve_eq_fill_open library pairReader hbare hs hown]
  decide

end ScriptCheck
