import ScriptCheck.CommandLine
import ScriptCheck.Proofs.SettledSymbols

/-!
# Listings of types

A listing shows the fields of a type with the generic parameters of the type as placeholders. Its
methods are looked up on the bare type, for which these parameters are not bound, and are shown with
`<unknown>` in their place (`method_lines_iff_closed`). A method reads as the fields do exactly if
none of these parameters is left in its signature, other than those that the method has itself.
-/

namespace ScriptCheck

open Library

namespace Library.MethodInfo

/-- Types for the generic parameters of a type, and placeholders for those of the method, which hide
the others. -/
def opened (m : MethodInfo) (bound : Bindings) : Bindings :=
  m.generics.foldl (fun b g => b.insert g (.placeholder g)) bound

/-- The signature of a method under types for the generic parameters of its type. -/
def signature (m : MethodInfo) (r : Registry) (bound : Bindings) : Signature Ty :=
  { isAsync := m.isAsync
    generics := m.generics
    params := r.paramTypes (m.opened bound) m.params
    result := m.result.resolve r (m.opened bound) }

/-- A method of a bare type reads like a function of its module. -/
theorem closed_signature_bare (m : MethodInfo) (r : Registry) :
    (Ty.function (m.signature r {})).Closed := by
  have hfunction : Ty.function (m.signature r {}) = r.functionType
      { name := "", isAsync := m.isAsync, generics := m.generics, params := m.params,
        result := m.result } := by
    rw [Registry.functionType, Registry.selfBindings, Table.ofList, List.foldl_map]
    rfl
  rw [hfunction]
  exact r.closed_functionType _

end Library.MethodInfo

theorem TypeRef.free_resolve_of_isComposite {r : Registry} {bound : Bindings} {ref : TypeRef}
    (h : ref.isComposite = true) :
    (ref.resolve r bound).free = (ref.resolve r bound).children.flatMap Ty.free := by
  cases ref with
  | builtin | generic | standard => cases h
  | function => simp [resolve, Ty.free_function]
  | _ => exact Ty.free_eq_flatMap (by simp [resolve]) rfl

/-- Bindings that differ only in parameters with other placeholders give the same type, if none of
these placeholders is left in it. -/
theorem TypeRef.resolve_eq_of_free_subset {r : Registry} {b b' : Bindings} {names : List String}
    (hbound : ∀ name, b.get? name = b'.get? name ∨ ∃ t ∈ b.get? name, ¬ t.free ⊆ names)
    (ref : TypeRef) (h : (ref.resolve r b).free ⊆ names) : ref.resolve r b = ref.resolve r b' := by
  induction ref using names_induction with
  | builtin => rfl
  | generic name =>
    rcases hbound name with hsame | ⟨t, ht, hfree⟩
    · rw [resolve, resolve, hsame]
    · rw [resolve, Option.mem_def.1 ht] at h
      exact absurd h hfree
  | standard module name args ih =>
    rw [resolve] at h ⊢
    rw [resolve]
    split_ifs at h ⊢
    · rfl
    · rfl
    · rw [Ty.free, Ty.freeOfList_eq, resolveList_eq_map, List.flatMap_map] at h
      rw [resolveList_eq_map, resolveList_eq_map, List.map_congr_left fun arg harg =>
        ih arg harg fun name hname => h (List.mem_flatMap.2 ⟨arg, harg, hname⟩)]
  | composite ref href ih =>
    have hchildren : ∀ t ∈ (ref.resolve r b).children, t.free ⊆ names := by
      intro t ht name hname
      refine h ?_
      rw [free_resolve_of_isComposite href]
      exact List.mem_flatMap.2 ⟨t, ht, hname⟩
    cases ref with
    | record fields params =>
      -- only the parameters that have a name are in the type
      simp only [resolve, resolveList_eq_map, List.zip_map_right, Ty.children, List.map_map,
        List.forall_mem_map] at hchildren ⊢
      congr 1
      refine List.map_congr_left fun item hitem => Prod.ext rfl ?_
      exact ih item.2 (List.of_mem_zip hitem).2 (hchildren item hitem)
    | builtin | generic | standard => cases href
    | _ =>
      refine resolve_eq_of_children href fun c hc => ih c hc (hchildren _ ?_)
      simpa [resolve, children, Ty.children, resolveList_eq_map] using
        List.mem_map_of_mem (f := resolve r b) hc

namespace Library.MethodInfo

variable (m : MethodInfo) (r : Registry)

/-- Without bindings for its type, a method loses the parameters of the type that it does not
hide. -/
theorem get?_opened (generics : List String) (name : String) :
    (m.opened (Registry.selfBindings generics)).get? name = (m.opened {}).get? name ∨
      ∃ t ∈ (m.opened (Registry.selfBindings generics)).get? name, ¬ t.free ⊆ m.generics := by
  rw [opened, opened, get?_withPlaceholders, get?_withPlaceholders, get?_selfBindings]
  by_cases hown : name ∈ m.generics
  · simp [hown]
  · by_cases htype : name ∈ generics
    · exact .inr ⟨.placeholder name, by simp [hown, htype], by simpa [Ty.free] using hown⟩
    · rw [if_neg hown, if_neg hown, if_neg htype]
      exact .inl rfl

/-- A method of a bare type has the signature that it has under the parameters of the type if and
only if these are not left in it. -/
theorem signature_bare_eq_iff (generics : List String) :
    m.signature r {} = m.signature r (Registry.selfBindings generics) ↔
      (Ty.function (m.signature r (Registry.selfBindings generics))).Closed := by
  constructor
  · intro h
    rw [← h]
    exact m.closed_signature_bare r
  · intro hclosed
    have hfree : ∀ t ∈ (Ty.function (m.signature r (Registry.selfBindings generics))).children,
        t.free ⊆ m.generics := by
      intro t ht name hname
      rw [Ty.Closed, Ty.free_function, List.filter_eq_nil_iff] at hclosed
      exact not_not.1 (mt decide_eq_true (hclosed name (List.mem_flatMap.2 ⟨t, ht, hname⟩)))
    obtain ⟨hparams, hresult⟩ := List.forall_mem_append.1 hfree
    have hsame (ref : TypeRef) := ref.resolve_eq_of_free_subset (r := r) (m.get?_opened generics)
    have hsignature : r.paramTypes (m.opened {}) m.params =
        r.paramTypes (m.opened (Registry.selfBindings generics)) m.params := by
      refine List.map_congr_left fun p hp => ?_
      rw [hsame p.type (hparams _ (List.mem_map_of_mem (List.mem_map_of_mem hp)))]
    rw [signature, signature, hsignature, hsame m.result (hresult _ List.mem_cons_self)]

end Library.MethodInfo

theorem Symbols.method?_named (s : Symbols) (q : QName) (name : String) :
    s.method? (.named q) name =
      ((s.registry.type? q).bind fun found => found.methods.get? name).map fun m =>
        ⟨m.signature s.registry {}, m.description, none⟩ := by
  rw [Option.map_eq_bind, Option.bind_assoc]
  rfl

namespace CommandLine

/-- The line of a field. -/
def fieldLine (r : Registry) (bound : Bindings) (entry : String × FieldInfo) : String :=
  "    ." ++ entry.1 ++ ": " ++ (entry.2.type.resolve r bound).display ++
    (if entry.2.readOnly then " (read-only)" else "")

/-- The line of a method. -/
def methodLine (name : String) (signature : Signature Ty) : String :=
  "    ." ++ name ++ ": " ++ (Ty.function signature).display

end CommandLine

open CommandLine

/-- The listing of a type shows its fields under its generic parameters, and the methods that the
registry finds under its name without them: in no method line is a parameter of the type left as a
placeholder. A method has the signature that it has under the map of the fields, with placeholders
for its own parameters, if and only if nothing but these own parameters is open in that
signature. -/
theorem method_lines_iff_closed (r : Registry) (module : String) (info : TypeInfo) :
    (listType { registry := r, moduleName := module } module info).tail =
      info.fields.entries.map (fieldLine r (Registry.selfBindings info.generics)) ++
      (info.methods.keys.filterMap fun name =>
        ((r.type? ⟨module, info.name⟩).bind fun found => found.methods.get? name).map fun m =>
          methodLine name (m.signature r {})) ∧
    ∀ m : MethodInfo, (Ty.function (m.signature r {})).Closed ∧
      (m.signature r {} = m.signature r (Registry.selfBindings info.generics) ↔
        (Ty.function (m.signature r (Registry.selfBindings info.generics))).Closed) := by
  refine ⟨?_, fun m => ⟨m.closed_signature_bare r, m.signature_bare_eq_iff r info.generics⟩⟩
  rw [listType]
  dsimp only [List.cons_append, List.tail_cons]
  congr 1
  refine List.filterMap_congr fun name _ => ?_
  rw [Symbols.method?_named, Option.map_map]
  rfl

namespace Boxes

/-- A method that returns the content of a box. -/
def get : MethodInfo := { result := .generic "T" }

/-- The type `Box<T>` with its content as a field and behind a method. -/
def box : TypeInfo :=
  { name := "Box", generics := ["T"], fields := ⟨[("value", { type := .generic "T" })]⟩,
    methods := ⟨[("get", get)]⟩ }

/-- A module with boxes. -/
def library : Registry := .ofModules [{ name := "lib", types := [box] }]

end Boxes

open Boxes in
/-- The content of a box has the type `T` as a field and no known type behind the method. -/
theorem parameter_lost_in_method_line :
    listType { registry := library, moduleName := "lib" } "lib" box =
      ["  type lib::Box<T>", "    .value: T", "    .get: fn() -> <unknown>"] ∧
    methodLine "get" (get.signature library (Registry.selfBindings box.generics)) =
      "    .get: fn() -> T" := by
  decide

end ScriptCheck
