import Mathlib.Data.List.Basic
import ScriptCheck.Table

/-!
# Lookup in tables

What is stored under a key is one of the entries, and tables can be compared by what their keys
stand for, whatever the order of the entries. `Table.All` says that a property holds of every entry.
-/

namespace ScriptCheck.Table

variable {κ α : Type} [DecidableEq κ]

theorem mem_of_find? {key : κ} {v : α} :
    {entries : List (κ × α)} → find? key entries = some v → (key, v) ∈ entries
  | [], h => by simp [find?] at h
  | (k, w) :: rest, h => by
    rw [find?] at h
    split at h
    · rename_i hk
      obtain rfl := Option.some.inj h
      exact hk ▸ List.mem_cons_self
    · exact List.mem_cons_of_mem _ (mem_of_find? h)

theorem mem_entries_of_get? {t : Table κ α} {key : κ} {v : α} (h : t.get? key = some v) :
    (key, v) ∈ t.entries :=
  mem_of_find? h

theorem get?_insert (t : Table κ α) (key other : κ) (v : α) :
    (t.insert key v).get? other = if other = key then some v else t.get? other := by
  split_ifs with h
  · rw [h, get?_insert_self]
  · exact get?_insert_of_ne t h v

/-- A new entry leaves the entries alone that are there. -/
theorem get?_insert_of_new {t : Table κ α} {key other : κ} {v w : α} (hnew : t.get? key = none)
    (h : t.get? other = some v) : (t.insert key w).get? other = some v := by
  rw [get?_insert_of_ne, h]
  rintro rfl
  cases hnew.symm.trans h

theorem contains_iff_mem_keys {t : Table κ α} {key : κ} : t.contains key = true ↔ key ∈ t.keys := by
  obtain ⟨entries⟩ := t
  rw [contains, get?, keys]
  induction entries with
  | nil => simp [find?]
  | cons entry rest ih =>
    rw [find?, List.map_cons, List.mem_cons, ← ih]
    by_cases h : entry.1 = key
    · simp [h]
    · simp [h, Ne.symm h]

theorem get?_of_free {t : Table κ α} {key : κ} (h : t.contains key = false) :
    t.get? key = none := by
  simpa [contains] using h

theorem contains_insertNew (t : Table κ α) (key other : κ) (v : α) :
    (t.insertNew key v).contains other = true ↔ t.contains other = true ∨ other = key := by
  rw [insertNew]
  split
  · rename_i hcontains
    refine ⟨.inl, fun h => h.elim id ?_⟩
    rintro rfl
    exact hcontains
  · rw [contains, get?_insert]
    split_ifs with heq
    · simp [heq]
    · simp [heq, contains]

/-! ## Lists of entries -/

theorem find?_append (key : κ) (entries others : List (κ × α)) :
    find? key (entries ++ others) = (find? key entries).or (find? key others) := by
  induction entries with
  | nil => rfl
  | cons entry rest ih => by_cases h : entry.1 = key <;> simp [find?, h, ih]

theorem find?_map {β : Type} (key : κ) (f : α → β) (entries : List (κ × α)) :
    find? key (entries.map fun entry => (entry.1, f entry.2)) = (find? key entries).map f := by
  induction entries with
  | nil => rfl
  | cons entry rest ih => by_cases h : entry.1 = key <;> simp [find?, h, ih]

theorem find?_filter (key : κ) (p : κ → Bool) (entries : List (κ × α)) :
    find? key (entries.filter fun entry => p entry.1) =
      if p key then find? key entries else none := by
  induction entries with
  | nil => simp [find?]
  | cons entry rest ih =>
    by_cases h : entry.1 = key
    · cases hp : p key <;> simp_all [find?]
    · cases hp : p entry.1 <;> simp_all [find?]

/-! ## Tables that agree -/

/-- Two tables in which every key stands for the same value. -/
def Agree (t u : Table κ α) : Prop := ∀ key, t.get? key = u.get? key

namespace Agree

variable {t u v : Table κ α}

theorem refl (t : Table κ α) : t.Agree t := fun _ => rfl

theorem trans (h : t.Agree u) (h' : u.Agree v) : t.Agree v := fun key => (h key).trans (h' key)

theorem contains (h : t.Agree u) (key : κ) : t.contains key = u.contains key := by
  rw [Table.contains, Table.contains, h key]

theorem insert (h : t.Agree u) (key : κ) (value : α) :
    (t.insert key value).Agree (u.insert key value) := by
  intro other
  rw [get?_insert, get?_insert, h other]

end Agree

/-! ## What holds of every entry -/

/-- All entries of a table have the property. -/
def All (P : κ → α → Prop) (t : Table κ α) : Prop := ∀ entry ∈ t.entries, P entry.1 entry.2

theorem mem_put {key : κ} {value : α} {entry : κ × α} :
    {entries : List (κ × α)} → entry ∈ put key value entries →
      entry = (key, value) ∨ entry ∈ entries
  | [], h => Or.inl (List.mem_singleton.1 h)
  | (k, v) :: rest, h => by
    rw [put] at h
    split at h
    · exact (List.mem_cons.1 h).imp_right (List.mem_cons_of_mem _)
    · rcases List.mem_cons.1 h with rfl | h
      · exact Or.inr List.mem_cons_self
      · exact (mem_put h).imp_right (List.mem_cons_of_mem _)

namespace All

variable {P : κ → α → Prop} {t : Table κ α}

omit [DecidableEq κ] in
theorem empty : All P ({} : Table κ α) := fun _ h => absurd h List.not_mem_nil

theorem get? (h : t.All P) {key : κ} {v : α} (hget : t.get? key = some v) : P key v :=
  h _ (mem_entries_of_get? hget)

theorem getD {P : α → Prop} {d : α} (h : t.All fun _ v => P v) (hd : P d) (key : κ) :
    P ((t.get? key).getD d) := by
  cases hkey : t.get? key with
  | none => exact hd
  | some v => exact h.get? hkey

theorem insert (h : t.All P) {key : κ} {v : α} (hv : P key v) : (t.insert key v).All P := by
  intro entry hentry
  rcases mem_put hentry with rfl | hold
  · exact hv
  · exact h entry hold

theorem insertNew (h : t.All P) {key : κ} {v : α} (hv : P key v) : (t.insertNew key v).All P := by
  unfold Table.insertNew
  split
  · exact h
  · exact h.insert hv

theorem ofList : {pairs : List (κ × α)} → (∀ p ∈ pairs, P p.1 p.2) → (ofList pairs).All P := by
  suffices hfold : ∀ (pairs : List (κ × α)) (t : Table κ α), t.All P →
      (∀ p ∈ pairs, P p.1 p.2) → (pairs.foldl (fun t p => t.insert p.1 p.2) t).All P from
    fun {pairs} h => hfold pairs Table.empty empty h
  intro pairs
  induction pairs with
  | nil => exact fun _ ht _ => ht
  | cons p rest ih =>
    intro t ht h
    obtain ⟨hp, hrest⟩ := List.forall_mem_cons.1 h
    exact ih _ (ht.insert hp) hrest

end All

end ScriptCheck.Table
