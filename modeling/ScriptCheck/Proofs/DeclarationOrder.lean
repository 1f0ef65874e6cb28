import Mathlib.Data.List.Nodup
import ScriptCheck.Proofs.DeclareSteps
import ScriptCheck.Proofs.Isolation

/-!
# The order of declarations

Items that are not tied to each other can be moved around in a script: the same diagnostics are
reported, but for their order (`diagnostics_reorder`). Two imports are tied, two constants, two
blocks of operators, and two types of which one mentions the other.

The last tie is needed (`diagnostics_depend_on_type_order`). Fields and aliases are resolved in the
order of the file. An alias that is declared later is not known yet, and what is unknown accepts
every value; a struct that is declared later has no fields yet, and so is no record.
-/

namespace ScriptCheck

/-! ## Ties between items -/

namespace Item

/-- The name that an item declares at module level. -/
def name? : Item → Option String
  | .const decl => some decl.name.name
  | .function decl => some decl.name.name
  | .struct decl => some decl.name.name
  | .typeAlias decl => some decl.name.name
  | .use _ | .methods _ | .operators _ => none

/-- The methods that an item declares, each with the struct that it belongs to. -/
def methodNames : Item → List (String × String)
  | .methods decl => decl.functions.map fun f => (decl.name.name, f.name.name)
  | _ => []

/-- The name of the type that an item declares. -/
def typeName? : Item → Option String
  | .struct decl => some decl.name.name
  | .typeAlias decl => some decl.name.name
  | _ => none

/-- The names that the annotations of a type declaration mention. -/
def typeMentions : Item → List String
  | .struct decl => Declare.fieldNames decl
  | .typeAlias decl => decl.type.names
  | _ => []

/-- Whether a type declaration mentions the type that another item declares. -/
def mentions (x y : Item) : Bool := y.typeName?.any fun name => x.typeMentions.contains name

/-- Whether two items have to keep their order: imports, constants, blocks of operators, and types
of which one mentions the other. -/
def tied : Item → Item → Bool
  | .use _, .use _ | .const _, .const _ | .operators _, .operators _ => true
  | x, y => x.mentions y || y.mentions x

/-- Two items that may be exchanged: they are not tied, and they declare different names. -/
structure Free (x y : Item) : Prop where
  untied : x.tied y = false
  names : ∀ name, x.name? = some name → y.name? ≠ some name
  methods : x.methodNames.Disjoint y.methodNames

theorem name?_of_typeName? {x : Item} {name : String} (h : x.typeName? = some name) :
    x.name? = some name := by
  cases x with
  | struct | typeAlias => exact h
  | use | const | function | methods | operators => cases h

theorem mentions_eq_true {x y : Item} {name : String} (hname : y.typeName? = some name)
    (hmention : name ∈ x.typeMentions) : x.mentions y = true := by
  simp [mentions, hname, hmention]

theorem Free.not_mentions {x y : Item} (h : x.Free y) :
    x.mentions y = false ∧ y.mentions x = false := by
  have huntied := h.untied
  unfold tied at huntied
  split at huntied
  · cases huntied
  · cases huntied
  · cases huntied
  · exact Bool.or_eq_false_iff.1 huntied

end Item

/-! ## The phases of the first pass -/

namespace Declare

variable {x y : Item}

/-- The cells of the type that an item declares. -/
def typeWrites (x : Item) : Set Cell := {cell | ∃ name ∈ x.typeName?, cell ∈ owned name}

/-- The cells that decide what type an item declares. -/
def typeReads (x : Item) : Set Cell := typeWrites x ∪ lookups {name | name ∈ x.typeMentions}

theorem owned_subset_typeWrites {x : Item} {name : String} (h : x.typeName? = some name) :
    owned name ⊆ typeWrites x :=
  fun _ hcell => ⟨name, h, hcell⟩

theorem footprint_structItem (x : Item) :
    Footprint Symbols.Registered (structItem x) (typeWrites x) (typeWrites x) := by
  cases x with
  | struct decl =>
    exact (footprint_register decl).mono (owned_subset_typeWrites rfl) (owned_subset_typeWrites rfl)
      subset_rfl
  | use | const | function | typeAlias | methods | operators =>
    exact Footprint.pure.mono (Set.empty_subset _) (Set.empty_subset _) subset_rfl

theorem footprint_typeItem (x : Item) :
    Footprint Symbols.Registered (typeItem x) (typeReads x) (typeWrites x) := by
  cases x with
  | struct decl =>
    exact (footprint_structFields decl).mono
      (Set.union_subset_union_left _ (owned_subset_typeWrites rfl)) (owned_subset_typeWrites rfl)
      Set.subset_union_left
  | typeAlias decl =>
    exact (footprint_typeAlias decl).mono
      (Set.union_subset_union_left _ (owned_subset_typeWrites rfl)) (owned_subset_typeWrites rfl)
      Set.subset_union_left
  | use | const | function | methods | operators =>
    exact Footprint.pure.mono (Set.empty_subset _) (Set.empty_subset _) Set.subset_union_left

/-- A type is not decided by one that it does not mention. -/
theorem disjoint_typeWrites_typeReads (hnames : ∀ name, x.name? = some name → y.name? ≠ some name)
    (hmentions : y.mentions x = false) : Disjoint (typeWrites x) (typeReads y) := by
  rw [Set.disjoint_left]
  rintro cell ⟨name, hname, hcell⟩ (⟨other, hother, hcell'⟩ | ⟨_, rfl⟩ | ⟨_, hmention, rfl⟩)
  · obtain rfl : name = other := Option.some.inj (hcell.symm.trans hcell')
    exact hnames name (Item.name?_of_typeName? hname) (Item.name?_of_typeName? hother)
  · cases hcell
  · obtain rfl := Option.some.inj hcell
    rw [Item.mentions_eq_true hname hmention] at hmentions
    cases hmentions

theorem disjoint_types (h : x.Free y) :
    Disjoint (typeWrites x) (typeReads y) ∧ Disjoint (typeWrites y) (typeReads x) := by
  obtain ⟨hmentions, hmentions'⟩ := h.not_mentions
  exact ⟨disjoint_typeWrites_typeReads h.names hmentions',
    disjoint_typeWrites_typeReads (fun name hy hx => h.names name hx hy) hmentions⟩

/-- The cells of the function, the methods or the operators that an item declares. -/
def functionWrites : Item → Set Cell
  | .function decl => {.function decl.name.name}
  | .methods decl => methodCells decl
  | .operators decl => {.operators decl.name.name}
  | .use _ | .const _ | .struct _ | .typeAlias _ => ∅

/-- The cells that decide what functions an item declares. -/
def functionReads (x : Item) : Set Cell := functionWrites x ∪ operandCells

theorem footprint_functionItem (x : Item) :
    Footprint Symbols.Registered (functionItem x) (functionReads x) (functionWrites x) := by
  have hlookups : lookups Set.univ ⊆ operandCells := Set.subset_union_left
  cases x with
  | function decl =>
    exact (footprint_function decl).mono (Set.union_subset_union_right _ hlookups) subset_rfl
      Set.subset_union_left
  | methods decl =>
    exact (footprint_methods decl).mono (Set.union_subset_union_right _ hlookups) subset_rfl
      Set.subset_union_left
  | operators decl => exact footprint_operators decl
  | use | const | struct | typeAlias =>
    exact Footprint.pure.mono (Set.empty_subset _) (Set.empty_subset _) Set.subset_union_left

theorem disjoint_functionWrites_operandCells (x : Item) :
    Disjoint (functionWrites x) operandCells := by
  rw [Set.disjoint_left]
  rintro cell hcell ((⟨_, rfl⟩ | ⟨_, -, rfl⟩) | ⟨_, rfl⟩) <;>
    cases x <;> simp [functionWrites, methodCells] at hcell

theorem disjoint_functionWrites (h : x.Free y) :
    Disjoint (functionWrites x) (functionWrites y) := by
  rw [Set.disjoint_left]
  intro cell hx hy
  cases x with
  | use | const | struct | typeAlias => exact hx
  | function decl =>
    obtain rfl := hx
    cases y with
    | function decl' => exact h.names _ rfl (congrArg some (Cell.function.inj hy).symm)
    | methods | operators | use | const | struct | typeAlias =>
      simp [functionWrites, methodCells] at hy
  | methods decl =>
    obtain ⟨f, hf, rfl⟩ := hx
    cases y with
    | methods decl' =>
      obtain ⟨f', hf', hcell⟩ := hy
      obtain ⟨hstruct, hmethod⟩ := Cell.method.inj hcell
      refine h.methods (List.mem_map_of_mem hf) ?_
      rw [hstruct, hmethod]
      exact List.mem_map_of_mem hf'
    | function | operators | use | const | struct | typeAlias => simp [functionWrites] at hy
  | operators decl =>
    obtain rfl := hx
    cases y with
    | operators decl' => exact Bool.noConfusion h.untied
    | function | methods | use | const | struct | typeAlias =>
      simp [functionWrites, methodCells] at hy

theorem disjoint_functions (h : x.Free y) :
    Disjoint (functionWrites x) (functionReads y) ∧ Disjoint (functionWrites y) (functionReads x) :=
  ⟨Set.disjoint_union_right.2
      ⟨disjoint_functionWrites h, disjoint_functionWrites_operandCells x⟩,
    Set.disjoint_union_right.2
      ⟨(disjoint_functionWrites h).symm, disjoint_functionWrites_operandCells y⟩⟩

/-- The cells that an item with a constant may look at and write to. -/
def constCells : Item → Set Cell
  | .const _ => Set.univ
  | .use _ | .function _ | .struct _ | .typeAlias _ | .methods _ | .operators _ => ∅

theorem constType_congr (decl : ConstDecl) {s s' : Symbols} (h : s.Agree s') :
    constType decl s = constType decl s' := by
  have hview : View.Agree { symbols := s } { symbols := s' } := ⟨h, rfl⟩
  unfold constType
  split
  · exact hview.similar.resolve _
  · exact inferred_congr h _

theorem footprint_const (decl : ConstDecl) :
    Footprint Symbols.Registered (const decl) Set.univ Set.univ := by
  refine .enterNew subset_rfl (fun s => ⟨rfl, rfl⟩) (fun s hs => hs)
    (fun s _ cell hcell => absurd trivial hcell) (fun s s' _ _ hscript hread => ?_)
  have hagree : s.Agree s' := .of_read hscript fun cell => hread cell trivial
  refine ⟨hagree.constants.contains _, fun cell _ => Symbols.Agree.read ?_ cell⟩
  refine { hagree with constants := ?_ }
  rw [constValue, constValue, constType_congr decl hagree, hagree.define]
  exact hagree.constants.insert _ _

theorem footprint_constItem (x : Item) :
    Footprint Symbols.Registered (constItem x) (constCells x) (constCells x) := by
  cases x with
  | const decl => exact footprint_const decl
  | use | function | struct | typeAlias | methods | operators => exact .pure

theorem disjoint_constCells (h : x.Free y) : Disjoint (constCells x) (constCells y) := by
  cases x with
  | const decl =>
    cases y with
    | const decl' => exact Bool.noConfusion h.untied
    | use | function | struct | typeAlias | methods | operators => exact Set.disjoint_empty _
  | use | function | struct | typeAlias | methods | operators => exact Set.empty_disjoint _

theorem importItem_eq_pure (h : x.Free y) : importItem x = pure () ∨ importItem y = pure () := by
  cases x with
  | use decl =>
    cases y with
    | use decl' => exact Bool.noConfusion h.untied
    | const | function | struct | typeAlias | methods | operators => exact Or.inr rfl
  | const | function | struct | typeAlias | methods | operators => exact Or.inl rfl

/-- The first pass gives every name the same meaning, and complains about the same. -/
theorem alike_items {xs ys : List Item} (h : Reordered Item.Free xs ys) {d : Declarations}
    (hd : d.symbols.Registered) :
    Alike Symbols.Registered (after (items xs) d) (after (items ys) d) := by
  have himports : Alike Symbols.Registered (after (each importItem xs) d)
      (after (each importItem ys) d) := by
    rw [each_eq_of_reordered (f := importItem) (fun _ _ => importItem_eq_pure) h]
    exact .of_inv (registered_afterPhase_imports ys hd)
  have hstructs := Footprint.each_reordered footprint_structItem (fun _ => subset_rfl)
    (fun x y hxy => ⟨(disjoint_types hxy).1.mono_right Set.subset_union_left,
      (disjoint_types hxy).2.mono_right Set.subset_union_left⟩) h himports
  have htypes := Footprint.each_reordered footprint_typeItem (fun _ => Set.subset_union_left)
    (fun x y => disjoint_types) h hstructs
  have hfunctions := Footprint.each_reordered footprint_functionItem
    (fun _ => Set.subset_union_left) (fun x y => disjoint_functions) h htypes
  exact Footprint.each_reordered footprint_constItem (fun _ => subset_rfl)
    (fun x y hxy => ⟨disjoint_constCells hxy, (disjoint_constCells hxy).symm⟩) h hfunctions

end Declare

/-! ## Reordering a script -/

/-- The same items in another order. -/
def Script.reorder (script : Script) (σ : Equiv.Perm (Fin script.items.length)) : Script :=
  { script with items := ScriptCheck.reorder script.items σ }

theorem Item.reordered_free {xs : List Item} (hnames : (xs.filterMap Item.name?).Nodup)
    (hmethods : (xs.flatMap Item.methodNames).Nodup) (σ : Equiv.Perm (Fin xs.length))
    (hσ : ∀ i j, i < j → (xs.get i).tied (xs.get j) → σ.symm i < σ.symm j) :
    Reordered Item.Free xs (reorder xs σ) := by
  refine .of_reorder xs σ fun i j hij hji => ⟨?_, ?_, ?_⟩
  · rw [Bool.eq_false_iff]
    intro htied
    have hkept := hσ _ _ hji htied
    rw [Equiv.symm_apply_apply, Equiv.symm_apply_apply] at hkept
    exact lt_asymm hij hkept
  · have hapart := List.pairwise_iff_get.1 (List.pairwise_filterMap.1 hnames) _ _ hji
    exact fun name hx hy => hapart name hx name hy rfl
  · exact List.pairwise_iff_get.1 (List.nodup_flatMap.1 hmethods).2 _ _ hji

/-- Items that are not tied to each other can be moved around in a script. If no name is declared
twice, this changes nothing about the diagnostics but their order. -/
theorem diagnostics_reorder (registry : Registry) (script : Script)
    (σ : Equiv.Perm (Fin script.items.length))
    (hnames : (script.items.filterMap Item.name?).Nodup)
    (hmethods : (script.items.flatMap Item.methodNames).Nodup)
    (hσ : ∀ i j, i < j → (script.items.get i).tied (script.items.get j) → σ.symm i < σ.symm j) :
    ((script.reorder σ).validate registry).report.diagnostics.Perm
      (script.validate registry).report.diagnostics := by
  have hfree := Item.reordered_free hnames hmethods σ hσ
  have hstart : Symbols.Registered { registry, moduleName := script.name } := by
    intro name found hfound
    cases hfound
  have hdeclared := Declare.alike_items hfree (d := ⟨_, []⟩) hstart
  have hitems : itemDiagnostics (script.declarations registry).symbols =
      itemDiagnostics ((script.reorder σ).declarations registry).symbols :=
    funext (itemDiagnostics_congr hdeclared.symbols)
  rw [Script.diagnostics_validate, Script.diagnostics_validate, ← hitems]
  exact (hdeclared.diagnostics.append (hfree.perm.flatMap_right _)).symm

/-- The script
`type Length = int`,
`struct Box ( width : Length )`,
`impl Box { fn depth(self) -> Length = "deep" }`,
`const limit : Length = "wide"`,
`fn most(box : Box) -> Length = limit`.
Two of its items hold a text where a length is asked for. -/
def boxes : Script :=
  .ofItems
    [.ofAlias "Length" "int", .ofStruct "Box" [("width", .plain "Length")],
      .methods (.ofFunctions "Box" [.ofBody "depth" [.self] "Length" (.string {} "deep")]),
      .const { ConstDecl.ofValue "limit" (.string {} "wide") with type := some (.plain "Length") },
      .function (.ofBody "most" [.ofType "box" (.plain "Box")] "Length" (.ofName "limit"))]

/-- The alias and the struct change places with the constant and the function. -/
def boxesSwapped : Equiv.Perm (Fin boxes.items.length) :=
  (Equiv.swap (0 : Fin 5) 3).trans (Equiv.swap 1 4)

/-- The constant, the function and the methods may stand before the types that they use. -/
theorem diagnostics_reorder_boxes :
    (boxes.items.filterMap Item.name?).Nodup ∧ (boxes.items.flatMap Item.methodNames).Nodup ∧
      (∀ i j, i < j → (boxes.items.get i).tied (boxes.items.get j) →
        boxesSwapped.symm i < boxesSwapped.symm j) ∧
      (boxes.validate .empty).report.diagnostics.length = 2 ∧
      ((boxes.reorder boxesSwapped).validate .empty).report.diagnostics.Perm
        (boxes.validate .empty).report.diagnostics := by
  have hnames : (boxes.items.filterMap Item.name?).Nodup := by decide
  have hmethods : (boxes.items.flatMap Item.methodNames).Nodup := by decide
  have hσ : ∀ i j, i < j → (boxes.items.get i).tied (boxes.items.get j) →
      boxesSwapped.symm i < boxesSwapped.symm j := by decide
  exact ⟨hnames, hmethods, hσ, by decide +kernel,
    diagnostics_reorder .empty boxes boxesSwapped hnames hmethods hσ⟩

/-! ## Types that mention each other -/

/-- The script `type A = B`, `type B = int`, `const c : A = "x"`. -/
def laterAlias : Script :=
  .ofItems
    [.ofAlias "A" "B", .ofAlias "B" "int",
      .const { ConstDecl.ofValue "c" (.string {} "x") with type := some (.plain "A") }]

/-- The script `struct S ( x : T )`, `struct T ( y : int )`, `const c : ( y : int ) = S(T(1)).x`. -/
def laterStruct : Script :=
  let value : Expr := .ofField (.ofCall "S" [.ofCall "T" [.int {} 1]]) "x"
  .ofItems
    [.ofStruct "S" [("x", .plain "T")], .ofStruct "T" [("y", .plain "int")],
      .const { ConstDecl.ofValue "c" value with type := some (.record {} [("y", .plain "int")]) }]

/-- The first two of three items change places. -/
def firstSwapped : Equiv.Perm (Fin 3) := Equiv.swap 0 1

/-- Two types that are tied to each other cannot be exchanged. The unknown `B` lets a text pass as
an `A`, and the `T` without fields in `S` is no record with a `y`. -/
theorem diagnostics_depend_on_type_order :
    (laterAlias.items.filterMap Item.name?).Nodup ∧ (laterStruct.items.filterMap Item.name?).Nodup ∧
      (laterAlias.validate .empty).report.diagnostics = [] ∧
      ¬((laterAlias.reorder firstSwapped).validate .empty).report.diagnostics.Perm
        (laterAlias.validate .empty).report.diagnostics ∧
      ((laterStruct.reorder firstSwapped).validate .empty).report.diagnostics = [] ∧
      ¬((laterStruct.reorder firstSwapped).validate .empty).report.diagnostics.Perm
        (laterStruct.validate .empty).report.diagnostics := by
  have hstruct : ((laterStruct.reorder firstSwapped).validate .empty).report.diagnostics = [] :=
    List.length_eq_zero_iff.1 (by decide +kernel)
  refine ⟨by decide, by decide, rfl, fun h => ?_, hstruct, fun h => ?_⟩
  · exact absurd h.length_eq (by decide)
  · exact absurd h.length_eq (by decide +kernel)

end ScriptCheck
