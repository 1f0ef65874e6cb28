import ScriptCheck.Proofs.ApartSymbols
import ScriptCheck.Proofs.RegimeItems

/-!
# Checks over an extended registry

A check is run twice, over a registry and over its extension by a module that nothing names. The two
states are the same but for the registry, and all types in them stand apart from the module. This is
a regime (`Registry.Extension.regime`): hence it is kept by the check of all expressions and items
that do not name the module, and both runs return the same.
-/

namespace ScriptCheck

open Check

variable {E : Registry.Extension}

/-! ## The two runs -/

/-- All types in the state of a check stand apart from the module. -/
structure Checker.Apart (E : Registry.Extension) (c : Checker) : Prop where
  view : c.view.Apart E
  scopes : c.scopes.Apart E.module

/-- The same state over the extended registry. -/
def Checker.extend (E : Registry.Extension) (c : Checker) : Checker :=
  { c with view := c.view.extend E }

/-- The states of the two runs. -/
def Checker.Beside (E : Registry.Extension) (c c' : Checker) : Prop := c' = c.extend E ∧ c.Apart E

/-- Imports find the same modules. -/
theorem Symbols.Apart.registered {s : Symbols} (hs : s.Apart E) {name : String}
    (h : name ≠ E.module) : (s.extend E).registry.module? name = s.registry.module? name := by
  rw [hs.registry]
  exact E.same _ h

/-! ## The regime -/

namespace Registry.Extension

/-- States that differ in the registry only, in which all types stand apart. -/
def terms (E : Registry.Extension) : Terms Unit where
  World := Unit
  rel _ := Checker.Beside E
  ids _ id id' := id' = id
  Like v v' := v' = v.extend E ∧ v.Apart E
  Good t := t.Apart E.module
  Hint t := t.Apart E.module
  Outside m := m ≠ E.module
  Known _ := True
  Twins _ _ := True
  Post _ _ _ _ := True

theorem scope_ne_of_outside {scope : Option String} (h : ∀ m ∈ scope, E.terms.Outside m) :
    scope ≠ some E.module :=
  fun hscope => h _ hscope rfl

theorem typeLaws (E : Registry.Extension) : TypeLaws E.terms where
  good_unknown := Ty.apart_unknown
  good_prelude name := Ty.apart_prelude name
  good_array := Ty.apart_array.2
  good_tuple := Ty.apart_tuple.symm
  good_record := Ty.apart_record.2
  good_function hparams hresult := Ty.apart_function.2 ⟨hparams, hresult⟩
  good_erase h := h.erase
  good_concrete h _ := h
  hint h := h
  hint_array := Ty.apart_array.1
  hint_tuple := Ty.apart_tuple.1
  hint_function := Ty.apart_function
  hint_guess t hbound h := h.guess hbound t
  like_fill {v v' bound t} h hbound ht := by
    obtain ⟨rfl, hv⟩ := h
    rw [hv.symbols.registry]
    exact fill hbound ht
  like_types name h := by rw [h.1]; rfl
  like_define range h := by rw [h.1]; rfl
  like_accepts h ht hu := by rw [h.1]; exact h.2.symbols.accepts ht hu
  like_describe h ht := by rw [h.1]; exact h.2.symbols.describe ht
  like_genericNames h ht := by
    rw [h.1, h.2.symbols.registry]
    exact genericNames ht
  like_module? h hname := by rw [h.1]; exact (h.2.symbols.module? hname).1
  like_type? name h hscope := by rw [h.1]; exact h.2.type? (scope_ne_of_outside hscope) name
  like_resolve h hspec := by
    rw [h.1]
    exact TypeSpec.resolve_apart h.2 _ fun hname => hspec _ hname rfl
  like_constant? h hscope _ := by
    rw [h.1]
    exact h.2.symbols.constant? (scope_ne_of_outside hscope) _
  like_function? name hint h hscope hhint := by
    obtain ⟨hsame, hapart⟩ := h.2.symbols.function? (scope_ne_of_outside hscope) name hhint
    rw [h.1]
    exact ⟨hsame, fun _ hfound => ⟨hapart _ hfound, fun _ => hapart _ hfound⟩⟩
  like_field? name h ht := by
    obtain ⟨hsame, hapart⟩ := h.2.symbols.field? ht name
    rw [h.1]
    exact ⟨hsame, fun _ hfound => ⟨hapart _ hfound, fun _ => hapart _ hfound⟩⟩
  like_method? name h ht := by rw [h.1]; exact h.2.symbols.method? ht name
  like_indexed? h ht := by
    rw [h.1]
    exact h.2.symbols.elementIn? ht fun _ _ => Library.TypeInfo.mem_refs_of_index
  like_iterated? h ht := by
    rw [h.1]
    exact h.2.symbols.elementIn? ht fun _ _ => Library.TypeInfo.mem_refs_of_forIn
  like_prefixOperator? op h ht hu := by rw [h.1]; exact h.2.symbols.prefixOperator? ht op hu
  like_suffixOperator? op h ht hu := by rw [h.1]; exact h.2.symbols.suffixOperator? ht op hu

theorem rel_note {w : E.terms.World} {c c' : Checker} (h : E.terms.rel w c c')
    (change : Report → Report) :
    E.terms.rel w ((note change).run c).2 ((note change).run c').2 := by
  obtain ⟨rfl, hc⟩ := h
  refine ⟨?_, view_note change c ▸ hc.view, scopes_note change c ▸ hc.scopes⟩
  by_cases hmuted : c.muted = 0 <;> simp [run_note, Checker.extend, hmuted]

theorem stateLaws (E : Registry.Extension) : StateLaws E.terms where
  like h := ⟨by rw [h.1]; rfl, h.2.view⟩
  rel_local? name h hid := by
    obtain ⟨rfl, hc⟩ := h
    subst hid
    exact ⟨rfl, fun _ hv => hc.scopes.locals.local? hv⟩
  rel_inLoop h hid := by rw [h.1, hid]; rfl
  rel_returnType? h hid := ⟨by rw [h.1, hid]; rfl, fun _ ht => h.2.scopes.returnType? ht⟩
  rel_write h _ := rel_note h _
  rel_declare name _ h hid hvalue _ := by
    subst hid
    exact ⟨by rw [h.1]; rfl, h.2.view, h.2.scopes.declare _ name hvalue⟩
  rel_redeclare {_ c c' id id'} name _ _ _ _ h hid d d' hd := by
    have hown : c'.scopes.own? id' name = c.scopes.own? id name := by rw [h.1, hid]; rfl
    rw [hown]
    split
    · exact ⟨rfl, rel_note hd _⟩
    · exact ⟨rfl, hd⟩
  rel_push h hid hkind := by
    obtain ⟨rfl, hc⟩ := h
    subst hid
    exact ⟨(), rfl, ⟨rfl, hc.view, hc.scopes.push _ hkind⟩, fun _ _ he => he⟩
  runs_infer _ := Terms.runs_infer_of_enters .any fun h hid => by
    obtain ⟨rfl, hc⟩ := h
    subst hid
    exact ⟨(), rfl, ⟨rfl, hc.view, hc.scopes.push _ nofun⟩, fun _ _ he =>
      ⟨by rw [he.1]; rfl, he.2.view, he.2.scopes.truncate _⟩⟩

/-- The two runs over the registry and its extension. -/
def regime (E : Registry.Extension) : Regime Unit where
  toTerms := E.terms
  toTypeLaws := E.typeLaws
  toStateLaws := E.stateLaws
  toEffectLaws := .any

theorem grounds (E : Registry.Extension) : E.regime.Grounds where
  known _ := trivial
  like_registered? name role h := by
    rw [h.1]
    cases role <;> rfl
  like_self h := ⟨by rw [h.1]; rfl, h.2.self⟩
  like_constants name h := by rw [h.1]; rfl
  like_functions name h := by rw [h.1]; rfl
  like_registry h hname := by rw [h.1]; exact h.2.symbols.registered hname
  rel_size h := by rw [h.1]; rfl
  rel_root h hkind := ⟨by rw [h.1]; rfl, h.2.view, h.2.scopes.push none hkind⟩

end Registry.Extension

namespace Check

variable {α : Type} {P : α → Prop}

/-- Both runs of the computation return the same value, of the given property, and go on in states
that differ in the registry only. -/
abbrev Unmoved (E : Registry.Extension) (P : α → Prop) (m : CheckM α) : Prop :=
  Coupled (Checker.Beside E) (Same P) m m

/-- As `Unmoved`, whatever is returned. -/
abbrev Follows (E : Registry.Extension) (m : CheckM α) : Prop := Unmoved E Any m

namespace Unmoved

theorem closeScopes : Follows E closeScopes :=
  fun _ _ h => ⟨⟨rfl, trivial⟩, by rw [h.1]; rfl, h.2.view, h.2.scopes.truncate 0⟩

end Unmoved

end Check

end ScriptCheck
