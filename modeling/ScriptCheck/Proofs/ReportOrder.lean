import Mathlib.Data.List.Destutter
import Mathlib.Data.List.MinMax
import Mathlib.Data.List.Perm.Subperm
import Mathlib.Data.Prod.Lex
import ScriptCheck.Proofs.RegistryTexts
import ScriptCheck.Report.Basic

/-!
# Order in reports

A query at an offset takes the least of the ranges around it, by length and then by start. Where
ranges that share an offset are nested, this is the range inside all others, so that the answer does
not depend on the order of the entries (`innermost_whatever_order`).

Finishing a report sorts its tokens and drops repeated neighbours (`finish_loses_nothing`). Sorting
is stable and keeps the tokens of one range and kind in their order; of these the first is never
dropped, since no token of that range and kind is kept before it.
-/

namespace ScriptCheck

/-! ## Queries -/

namespace Range

/-- The first range lies inside the second. -/
def Within (r s : Range) : Prop :=
  s.start.offset ≤ r.start.offset ∧ r.stop.offset ≤ s.stop.offset

/-- The key by which the ranges around an offset are compared. -/
def rank (r : Range) : ℕ ×ₗ ℕ := toLex (r.length, r.start.offset)

theorem contains_iff {r : Range} {offset : ℕ} :
    r.contains offset = true ↔ r.start.offset ≤ offset ∧ offset < r.stop.offset := by
  simp [contains]

/-- Of two nested ranges around an offset the one with the lesser rank is inside. -/
theorem within_of_rank_le {r s : Range} {offset : ℕ} (hr : r.contains offset = true)
    (hs : s.contains offset = true) (hnested : r.Within s ∨ s.Within r) (h : r.rank ≤ s.rank) :
    r.Within s := by
  rw [contains_iff] at hr hs
  rw [rank, rank, Prod.Lex.toLex_le_toLex] at h
  simp only [Within, length] at *
  omega

end Range

/-- The range is one of the given ones, lies around the offset and inside all others that do. -/
structure IsInnermost (keys : List Range) (offset : ℕ) (r : Range) : Prop where
  mem : r ∈ keys
  contains : r.contains offset = true
  within : ∀ s ∈ keys, s.contains offset = true → r.Within s

/-- Ranges with the same offsets are the same, and those that share an offset are nested. -/
structure Laminar (keys : List Range) : Prop where
  ext : ∀ r ∈ keys, ∀ s ∈ keys, r.start.offset = s.start.offset → r.stop.offset = s.stop.offset →
    r = s
  nested : ∀ r ∈ keys, ∀ s ∈ keys, ∀ offset, r.contains offset = true → s.contains offset = true →
    r.Within s ∨ s.Within r

theorem Laminar.isInnermost_unique {keys : List Range} (h : Laminar keys) {offset : ℕ} {r s : Range}
    (hr : IsInnermost keys offset r) (hs : IsInnermost keys offset s) : r = s := by
  have hrs := hr.within s hs.mem hs.contains
  have hsr := hs.within r hr.mem hr.contains
  exact h.ext r hr.mem s hs.mem (hsr.1.antisymm hrs.1) (hrs.2.antisymm hsr.2)

section

variable {α : Type} {entries : List (Range × α)} {offset : ℕ}

theorem innermost?_eq_argmin (entries : List (Range × α)) (offset : ℕ) :
    innermost? entries offset =
      ((entries.filter fun e => e.1.contains offset).argmin fun e => e.1.rank).map Prod.snd := by
  rw [innermost?, List.argmin]
  congr 2
  funext best e
  cases best with
  | none => rfl
  | some b =>
    have hsmaller : e.1.rank < b.1.rank ↔ (decide (e.1.length < b.1.length) ||
        (e.1.length == b.1.length && decide (e.1.start.offset < b.1.start.offset))) = true := by
      simp [Range.rank, Prod.Lex.toLex_lt_toLex]
    simp only [List.argAux, hsmaller]

theorem innermost?_eq_none_iff : innermost? entries offset = none ↔
    ∀ r ∈ entries.map Prod.fst, r.contains offset = false := by
  rw [innermost?_eq_argmin, Option.map_eq_none_iff, List.argmin_eq_none, List.filter_eq_nil_iff,
    List.forall_mem_map]
  simp

/-- What a query finds is the value of an innermost range. -/
theorem Laminar.exists_of_innermost? (h : Laminar (entries.map Prod.fst)) {v : α}
    (hv : innermost? entries offset = some v) :
    ∃ r, (r, v) ∈ entries ∧ IsInnermost (entries.map Prod.fst) offset r := by
  rw [innermost?_eq_argmin] at hv
  obtain ⟨e, hleast, rfl⟩ := Option.map_eq_some_iff.1 hv
  obtain ⟨hmem, he⟩ := List.mem_filter.1 (List.argmin_mem hleast)
  have hkey : e.1 ∈ entries.map Prod.fst := List.mem_map_of_mem hmem
  refine ⟨e.1, hmem, hkey, he, List.forall_mem_map.2 fun other hother hoffset => ?_⟩
  have hrank : e.1.rank ≤ other.1.rank :=
    List.le_of_mem_argmin (f := fun e => e.1.rank) (List.mem_filter.2 ⟨hother, hoffset⟩) hleast
  exact Range.within_of_rank_le he hoffset
    (h.nested e.1 hkey other.1 (List.mem_map_of_mem hother) offset he hoffset) hrank

end

/-- Over ranges that are nested where they meet, a query at an offset finds nothing if and only if
no range lies around it. Otherwise exactly one range around it lies inside all others, and the query
finds its value, in whatever order the entries of the table are visited. -/
theorem innermost_whatever_order {α : Type} (t : Table Range α) (hkeys : t.keys.Nodup)
    (hnested : Laminar t.keys) (offset : ℕ) {entries : List (Range × α)}
    (horder : entries.Perm t.entries) :
    (innermost? entries offset = none ↔ ∀ r ∈ t.keys, r.contains offset = false) ∧
    ((∃ r ∈ t.keys, r.contains offset = true) →
      ∃ r v, IsInnermost t.keys offset r ∧ (∀ s, IsInnermost t.keys offset s → s = r) ∧
        t.get? r = some v ∧ innermost? entries offset = some v) := by
  have hperm : (entries.map Prod.fst).Perm t.keys := horder.map Prod.fst
  have hnone : innermost? entries offset = none ↔ ∀ r ∈ t.keys, r.contains offset = false := by
    simp only [innermost?_eq_none_iff, hperm.mem_iff]
  refine ⟨hnone, fun hsome => ?_⟩
  obtain ⟨s, hs, hoffset⟩ := hsome
  cases hv : innermost? entries offset with
  | none => exact absurd (hnone.1 hv s hs) (by simp [hoffset])
  | some v =>
    have hnested' : Laminar (entries.map Prod.fst) := by
      constructor
      · simpa only [hperm.mem_iff] using hnested.ext
      · simpa only [hperm.mem_iff] using hnested.nested
    obtain ⟨r, hmem, hr⟩ := hnested'.exists_of_innermost? hv
    have hr' : IsInnermost t.keys offset r :=
      ⟨hperm.mem_iff.1 hr.mem, hr.contains, fun s hs => hr.within s (hperm.mem_iff.2 hs)⟩
    refine ⟨r, v, hr', fun s hs => hnested.isInnermost_unique hs hr', ?_, rfl⟩
    exact (Table.find?_eq_some_iff hkeys).2 (horder.mem_iff.1 hmem)

/-- The types in `1 + 2.5`: of the sum, which an operand shares its start with, and its operands. -/
def sumTypes : Table Range Ty :=
  ⟨[(⟨⟨0, 0, 0⟩, ⟨7, 0, 7⟩⟩, .float), (⟨⟨0, 0, 0⟩, ⟨1, 0, 1⟩⟩, .int),
    (⟨⟨4, 0, 4⟩, ⟨7, 0, 7⟩⟩, .float)]⟩

/-- At the first operand the type of the sum is visited last and does not count. -/
theorem innermost_whatever_order_sumTypes :
    sumTypes.keys.Nodup ∧ Laminar sumTypes.keys ∧
    sumTypes.entries.reverse.Perm sumTypes.entries ∧
    (∃ r ∈ sumTypes.keys, r.contains 0 = true) ∧
    ∃ r v, IsInnermost sumTypes.keys 0 r ∧ (∀ s, IsInnermost sumTypes.keys 0 s → s = r) ∧
      sumTypes.get? r = some v ∧ innermost? sumTypes.entries.reverse 0 = some v := by
  have hkeys : sumTypes.keys.Nodup := by decide
  have hnested : Laminar sumTypes.keys := by
    refine ⟨by decide, ?_⟩
    simp [sumTypes, Table.keys, Range.contains_iff, Range.Within]
    omega
  have horder := List.reverse_perm sumTypes.entries
  have haround : ∃ r ∈ sumTypes.keys, r.contains 0 = true := by decide
  exact ⟨hkeys, hnested, horder, haround,
    (innermost_whatever_order sumTypes hkeys hnested 0 horder).2 haround⟩

/-! ## Finishing -/

section

variable {α β : Type} [LinearOrder β] (key : α → β)

theorem pairwise_mergeSort_key (l : List α) :
    (l.mergeSort fun a b => decide (key a ≤ key b)).Pairwise fun a b =>
      decide (key a ≤ key b) = true :=
  List.pairwise_mergeSort (by simpa using fun a b c => le_trans) (by simp [le_total]) l

/-- Sorting keeps the order of elements that have the same key. -/
theorem filter_mergeSort_key {p : α → Bool}
    (hp : ∀ a b, p a = true → p b = true → key a = key b) (l : List α) :
    (l.mergeSort fun a b => decide (key a ≤ key b)).filter p = l.filter p := by
  have hpairwise : (l.filter p).Pairwise fun a b => decide (key a ≤ key b) = true :=
    List.pairwise_of_forall_mem_list fun a ha b hb =>
      decide_eq_true (hp a b (List.of_mem_filter ha) (List.of_mem_filter hb)).le
  have hsublist := (List.sublist_mergeSort (by simpa using fun a b c => le_trans)
    (by simp [le_total]) hpairwise List.filter_sublist).filter p
  simp only [List.filter_filter, Bool.and_self] at hsublist
  exact (hsublist.eq_of_length ((List.mergeSort_perm l _).filter p).length_eq.symm).symm

end

namespace Token

/-- The offsets by which tokens are sorted. -/
def offsets (t : Token) : ℕ ×ₗ ℕ := toLex (t.range.start.offset, t.range.stop.offset)

theorem before_eq : before = fun a b => decide (a.offsets ≤ b.offsets) := by
  funext a b
  rw [Bool.eq_iff_iff]
  simp [before, offsets, Prod.Lex.toLex_le_toLex]

/-- The tokens have different ranges or kinds. -/
def Differ (a b : Token) : Prop := ¬ (a.range = b.range ∧ a.kind = b.kind)

instance : DecidableRel Differ := fun _ _ => inferInstanceAs (Decidable (¬ _))

theorem cons_dedupAfter (last : Token) (ts : List Token) :
    last :: dedupAfter last ts = ts.destutter' Differ last := by
  induction ts generalizing last with
  | nil => rfl
  | cons t rest ih =>
    have hsame : t.same last = true ↔ ¬ Differ last t := by
      simp [same, Differ, @eq_comm _ last.range, @eq_comm _ last.kind]
    rw [dedupAfter, List.destutter'_cons]
    by_cases h : Differ last t
    · rw [if_pos h, if_neg (mt hsame.1 (not_not.2 h)), ih]
    · rw [if_neg h, if_pos (hsame.2 h), ih]

theorem dedup_eq_destutter (ts : List Token) : dedup ts = ts.destutter Differ := by
  cases ts with
  | nil => rfl
  | cons t rest => exact cons_dedupAfter t rest

/-- Of the tokens that have a property of ranges and kinds the first is never dropped. -/
theorem find?_dedup {p : Token → Bool} (hp : ∀ a b, ¬ Differ a b → p a = p b) (ts : List Token) :
    (dedup ts).find? p = ts.find? p := by
  rw [dedup_eq_destutter]
  cases ts with
  | nil => rfl
  | cons t rest =>
    rw [List.destutter_cons']
    induction rest generalizing t with
    | nil => rfl
    | cons u rest ih =>
      rw [List.destutter'_cons]
      split
      · rw [List.find?_cons, ih, @List.find?_cons _ t]
      · rename_i h
        -- `u` is dropped, and if it has the property then so has `t`
        rw [ih, List.find?_cons, List.find?_cons, List.find?_cons, ← hp t u h]
        cases p t <;> rfl

end Token

/-- A finished report differs in its tokens and hints only. Its tokens stand in the order of their
offsets. They are tokens of the report, for each range and kind the first stays the first, and no
two neighbours have the same range and kind. Its hints are those of the report in the order of their
offsets; hints at one offset keep their order. Finishing a second time changes nothing. -/
theorem finish_loses_nothing (r : Report) :
    r.finish = { r with tokens := r.finish.tokens, hints := r.finish.hints } ∧
    (r.finish.tokens.Pairwise fun a b => a.offsets ≤ b.offsets) ∧
    r.finish.tokens.Subperm r.tokens ∧
    (∀ range kind, r.finish.tokens.find? (fun t => t.range = range ∧ t.kind = kind) =
      r.tokens.find? fun t => t.range = range ∧ t.kind = kind) ∧
    (r.finish.tokens.IsChain fun a b => ¬ (a.range = b.range ∧ a.kind = b.kind)) ∧
    r.finish.hints.Perm r.hints ∧
    (r.finish.hints.Pairwise fun a b => a.position.offset ≤ b.position.offset) ∧
    (∀ offset, r.finish.hints.filter (fun hint => hint.position.offset = offset) =
      r.hints.filter fun hint => hint.position.offset = offset) ∧
    r.finish.finish = r.finish := by
  have hsublist : r.finish.tokens.Sublist (r.tokens.mergeSort Token.before) := by
    rw [Report.finish, Token.dedup_eq_destutter]
    exact List.destutter_sublist _ _
  have htokens : r.finish.tokens.Pairwise fun a b => decide (a.offsets ≤ b.offsets) = true := by
    rw [Token.before_eq] at hsublist
    exact (pairwise_mergeSort_key Token.offsets r.tokens).sublist hsublist
  have hchain : r.finish.tokens.IsChain Token.Differ := by
    rw [Report.finish, Token.dedup_eq_destutter]
    exact List.isChain_destutter _ _
  have hhints := pairwise_mergeSort_key (fun hint => hint.position.offset) r.hints
  refine ⟨rfl, htokens.imp of_decide_eq_true,
    hsublist.subperm.trans (List.mergeSort_perm _ _).subperm, fun range kind => ?_, hchain,
    List.mergeSort_perm _ _, hhints.imp of_decide_eq_true,
    fun offset => filter_mergeSort_key _ (by simp +contextual) r.hints, ?_⟩
  · rw [Report.finish, Token.find?_dedup, Token.before_eq, ← List.head?_filter,
      filter_mergeSort_key, List.head?_filter]
    · simp +contextual [Token.offsets]
    · intro a b h
      rw [(not_not.1 h).1, (not_not.1 h).2]
  · rw [Report.finish, Token.before_eq, List.mergeSort_of_pairwise htokens,
      Token.dedup_eq_destutter, List.destutter_of_isChain _ _ hchain]
    rw [Report.finish, List.mergeSort_of_pairwise hhints]

end ScriptCheck
