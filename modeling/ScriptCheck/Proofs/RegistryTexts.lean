import ScriptCheck.Proofs.LibraryCodec

/-!
# Registries survive writing and reading

A registry can be written as the list of its modules or as an object of modules under their names.
The text of the list is read as the registry of the modules, and if their names are distinct and not
empty, the object is read as a registry with the same answers, in whatever order its members stand
and whether or not the descriptions repeat the names (`registry_read_back`).

Both hold up to the depth to which texts may nest. Descriptions can refer to types that are built
deeper than that, and then neither text is accepted (`deep_registry_refused`).
-/

namespace ScriptCheck

open Decoder Library

/-! ## Tables with distinct keys -/

theorem Table.find?_eq_some_iff {κ α : Type} [DecidableEq κ] {key : κ} {v : α} :
    {entries : List (κ × α)} → (entries.map Prod.fst).Nodup →
      (find? key entries = some v ↔ (key, v) ∈ entries)
  | [], _ => by simp [find?]
  | (k, w) :: rest, h => by
    obtain ⟨hk, hrest⟩ := List.nodup_cons.1 h
    rw [find?]
    split_ifs with heq
    · subst heq
      have hmem : (k, v) ∉ rest := fun hmem => hk (List.mem_map.2 ⟨_, hmem, rfl⟩)
      simp [hmem, eq_comm]
    · rw [find?_eq_some_iff hrest]
      simp [Ne.symm heq]

/-- With distinct keys the order of the pairs does not matter to lookup. -/
theorem Table.agree_ofList {κ α : Type} [DecidableEq κ] {pairs pairs' : List (κ × α)}
    (hperm : pairs'.Perm pairs) (h : (pairs.map Prod.fst).Nodup) :
    (Table.ofList pairs').Agree (Table.ofList pairs) := by
  have h' : (pairs'.map Prod.fst).Nodup := (hperm.map Prod.fst).nodup_iff.2 h
  intro key
  ext v
  rw [get?, get?, entries_ofList h, entries_ofList h', find?_eq_some_iff h, find?_eq_some_iff h',
    hperm.mem_iff]

theorem Table.pairwise_sorted {α : Type} (t : Table String α) :
    (t.sorted.map Prod.fst).Pairwise (· ≤ ·) := by
  have hsorted : t.sorted.Pairwise fun a b => decide (a.1 ≤ b.1) = true := by
    refine List.pairwise_mergeSort (fun a b c hab hbc => ?_) (fun a b => ?_) t.entries
    · exact decide_eq_true (String.le_trans (of_decide_eq_true hab) (of_decide_eq_true hbc))
    · simpa using String.le_total a.1 b.1
  exact List.pairwise_map.2 (hsorted.imp of_decide_eq_true)

theorem Table.map_fst_sorted_ofList {α : Type} {pairs pairs' : List (String × α)}
    (hperm : pairs'.Perm pairs) (h : (pairs.map Prod.fst).Nodup) :
    (Table.ofList pairs').sorted.map Prod.fst = (Table.ofList pairs).sorted.map Prod.fst := by
  have h' : (pairs'.map Prod.fst).Nodup := (hperm.map Prod.fst).nodup_iff.2 h
  refine List.Perm.eq_of_pairwise (fun _ _ _ _ => String.le_antisymm) (pairwise_sorted _)
    (pairwise_sorted _) (List.Perm.map _ ?_)
  rw [sorted, sorted, entries_ofList h, entries_ofList h']
  exact (List.mergeSort_perm _ _).trans (hperm.trans (List.mergeSort_perm _ _).symm)

namespace Registry

/-! ## Lists of modules -/

theorem modulesOfJson?_list {ms : List ModuleInfo} (h : ∀ m ∈ ms, m.Ordered) :
    modulesOfJson? (.arr (ms.map ModuleInfo.toJson)) = some ms :=
  all_map fun m hm => ModuleInfo.ofJson?_toJsonWith (h m hm) .kept

theorem read?_list {ms : List ModuleInfo} (h : ∀ m ∈ ms, m.Ordered) :
    read? (Json.arr (ms.map ModuleInfo.toJson)).render =
      if (Json.arr (ms.map ModuleInfo.toJson)).depth ≤ Json.maxDepth then some (ofModules ms)
      else none := by
  have hnumbers : (Json.arr (ms.map ModuleInfo.toJson)).numberless :=
    Json.numberlessItems_map fun m _ => m.numberless_toJsonWith .kept
  rw [read?, Json.read?_render hnumbers]
  split_ifs
  · rw [Option.bind_some, ofJson?, modulesOfJson?_list h, Option.map_some]
  · rfl

/-! ## Objects of modules -/

/-- An object with a description under the name of each module. -/
def keyedJson (spelled : List (InnerName × ModuleInfo)) : Json :=
  .obj (spelled.map fun entry => (entry.2.name, entry.2.toJsonWith entry.1))

theorem nameByKey_eq {m : ModuleInfo} (h : m.name ≠ "") (inner : InnerName) :
    nameByKey (m.name, { m with name := inner.of m.name }) = m := by
  cases inner <;> simp [nameByKey, InnerName.of, h]

/-- The modules of an object are those whose descriptions it holds, under their own names. -/
theorem modulesOfJson?_keyedJson {spelled : List (InnerName × ModuleInfo)}
    (hordered : ∀ entry ∈ spelled, entry.2.Ordered)
    (hnodup : ((spelled.map Prod.snd).map ModuleInfo.name).Nodup)
    (hname : ∀ entry ∈ spelled, entry.2.name ≠ "") :
    ∃ ms, modulesOfJson? (keyedJson spelled) = some ms ∧ ms.Perm (spelled.map Prod.snd) := by
  let read (entry : InnerName × ModuleInfo) : ModuleInfo :=
    { entry.2 with name := entry.1.of entry.2.name }
  let entries := spelled.map fun entry => (entry.2.name, read entry)
  have hmembers : allMembers ModuleInfo.ofJson?
      (spelled.map fun entry => (entry.2.name, entry.2.toJsonWith entry.1)) = some entries :=
    allMembers_map fun entry hentry => ModuleInfo.ofJson?_toJsonWith (hordered entry hentry) entry.1
  have hentries : (Table.ofList entries).entries = entries :=
    Table.entries_ofList (by simpa [entries, Function.comp_def] using hnodup)
  refine ⟨(Table.ofList entries).sorted.map nameByKey, ?_, ?_⟩
  · rw [keyedJson, modulesOfJson?, table, hmembers]
    · rfl
    · exact fun _ h => by cases h
  · have hnames : entries.map nameByKey = spelled.map Prod.snd := by
      rw [List.map_map]
      exact List.map_congr_left fun entry hentry => nameByKey_eq (hname entry hentry) entry.1
    rw [Table.sorted, hentries, ← hnames]
    exact (List.mergeSort_perm _ _).map _

/-- Two registries with the same modules under the same names. -/
structure Alike (r r' : Registry) : Prop where
  moduleNames : r.moduleNames = r'.moduleNames
  type? : ∀ q, r.type? q = r'.type? q
  function? : ∀ module name,
    (r.module? module).bind (·.function? name) = (r'.module? module).bind (·.function? name)
  constant? : ∀ module name,
    (r.module? module).bind (·.constant? name) = (r'.module? module).bind (·.constant? name)

/-- With distinct names the order of the modules does not matter. -/
theorem alike_ofModules {ms ms' : List ModuleInfo} (hperm : ms'.Perm ms)
    (hnodup : (ms.map ModuleInfo.name).Nodup) : (ofModules ms').Alike (ofModules ms) := by
  have hpairs := hperm.map fun m => (m.name, m)
  have hkeys : ((ms.map fun m => (m.name, m)).map Prod.fst).Nodup := by
    simpa [Function.comp_def] using hnodup
  have hmodule (name : String) : (ofModules ms').module? name = (ofModules ms).module? name :=
    Table.agree_ofList hpairs hkeys name
  exact {
    moduleNames := Table.map_fst_sorted_ofList hpairs hkeys
    type? := fun q => by rw [type?, type?, hmodule]
    function? := fun module name => by rw [hmodule]
    constant? := fun module name => by rw [hmodule] }

theorem read?_keyedJson {ms : List ModuleInfo} (hordered : ∀ m ∈ ms, m.Ordered)
    (hnodup : (ms.map ModuleInfo.name).Nodup) (hname : ∀ m ∈ ms, m.name ≠ "")
    {spelled : List (InnerName × ModuleInfo)} (hperm : (spelled.map Prod.snd).Perm ms) :
    if (keyedJson spelled).depth ≤ Json.maxDepth then
      ∃ r, read? (keyedJson spelled).render = some r ∧ r.Alike (ofModules ms)
    else read? (keyedJson spelled).render = none := by
  have hmem {entry} (h : entry ∈ spelled) : entry.2 ∈ ms := hperm.mem_iff.1 (List.mem_map_of_mem h)
  obtain ⟨ms', hread, hperm'⟩ := modulesOfJson?_keyedJson
    (fun entry hentry => hordered entry.2 (hmem hentry))
    ((hperm.map _).nodup_iff.2 hnodup) (fun entry hentry => hname entry.2 (hmem hentry))
  have hnumbers : (keyedJson spelled).numberless :=
    Json.numberlessMembers_map fun entry _ => entry.2.numberless_toJsonWith entry.1
  rw [read?, Json.read?_render hnumbers]
  split_ifs
  · refine ⟨ofModules ms', ?_, alike_ofModules (hperm'.trans hperm) hnodup⟩
    rw [Option.bind_some, ofJson?, hread, Option.map_some]
  · rfl

end Registry

/-! ## The round trip -/

/-- The list of modules is read as their registry, and an object of modules with distinct names as a
registry with the same answers, unless the text nests too deep. -/
theorem registry_read_back {ms : List ModuleInfo} (hordered : ∀ m ∈ ms, m.Ordered) :
    Registry.read? (Json.arr (ms.map ModuleInfo.toJson)).render =
        (if (Json.arr (ms.map ModuleInfo.toJson)).depth ≤ Json.maxDepth then
          some (Registry.ofModules ms) else none) ∧
      ((ms.map ModuleInfo.name).Nodup → (∀ m ∈ ms, m.name ≠ "") →
        ∀ spelled : List (InnerName × ModuleInfo), (spelled.map Prod.snd).Perm ms →
          if (Registry.keyedJson spelled).depth ≤ Json.maxDepth then
            ∃ r, Registry.read? (Registry.keyedJson spelled).render = some r ∧
              r.Alike (Registry.ofModules ms)
          else Registry.read? (Registry.keyedJson spelled).render = none) :=
  ⟨Registry.read?_list hordered, fun hnodup hname _ hperm =>
    Registry.read?_keyedJson hordered hnodup hname hperm⟩

/-- A type with fields, a method and an operator, in the order of their names. -/
def vectorInfo : TypeInfo :=
  let float : TypeRef := .builtin "Float"
  let vector : TypeRef := .standard "vec" "Vec2" []
  { name := "Vec2"
    fields := ⟨[("x", { type := float }), ("y", { type := float, readOnly := true })]⟩
    methods := ⟨[("to", { params := [{ name := "other", type := vector }], result := float })]⟩
    suffixOperators := ⟨[("*", [⟨float, vector⟩, ⟨vector, float⟩]), ("+", [⟨vector, vector⟩])]⟩
    forInSource := some float }

/-- Two modules of which the first refers to the second. -/
def flightModules : List ModuleInfo :=
  [{ name := "ship"
     functions := [{ name := "turn", generics := ["T"], result := .option (.generic "T") }]
     constants := [{ name := "nose", type := .standard "vec" "Vec2" [] }] },
   { name := "vec", description := "Vectors in \"2d\"", types := [vectorInfo] }]

theorem registry_read_back_flight :
    Registry.read? (Json.arr (flightModules.map ModuleInfo.toJson)).render =
        some (Registry.ofModules flightModules) ∧
      ∃ r, Registry.read? (Registry.keyedJson
          [(.missing, flightModules[1]), (.empty, flightModules[0])]).render = some r ∧
        r.Alike (Registry.ofModules flightModules) := by
  have hvector : vectorInfo.Ordered := by constructor <;> decide +kernel
  have hordered : ∀ m ∈ flightModules, m.Ordered := by
    simp [flightModules, ModuleInfo.Ordered, hvector]
  obtain ⟨hlist, hkeyed⟩ := registry_read_back hordered
  refine ⟨hlist.trans (if_pos (by decide +kernel)), ?_⟩
  have hboth := hkeyed (by decide +kernel) (by decide +kernel)
    [(.missing, flightModules[1]), (.empty, flightModules[0])] (List.Perm.swap _ _ _)
  rwa [if_pos (by decide +kernel)] at hboth

/-! ## Where texts end -/

/-- A module with a constant whose type is built from as many arrays as given. -/
def arraysModule (count : Nat) : ModuleInfo :=
  { name := "deep"
    constants := [{ name := "table", type := Nat.repeat .array count (.builtin "Int") }] }

/-- A description can refer to a type that is built so deep that the list of modules is written and
not accepted again. With one array less it is. -/
theorem deep_registry_refused :
    Registry.read? (Json.arr ([arraysModule 123].map ModuleInfo.toJson)).render = none ∧
      Registry.read? (Json.arr ([arraysModule 122].map ModuleInfo.toJson)).render =
        some (Registry.ofModules [arraysModule 122]) := by
  have hordered (count) : ∀ m ∈ [arraysModule count], m.Ordered := by
    simp [arraysModule, ModuleInfo.Ordered]
  exact ⟨(Registry.read?_list (hordered 123)).trans (if_neg (by decide +kernel)),
    (Registry.read?_list (hordered 122)).trans (if_pos (by decide +kernel))⟩

end ScriptCheck
