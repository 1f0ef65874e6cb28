import ScriptCheck.Proofs.Isolation

/-!
# Transcripts of items

A check only ever adds entries to the report, one after the other, and never looks at what is there.
The transcript of an item is the list of entries that its check adds. Two checks side by side that
began with different reports add the same entries (`transcription`), so that the second pass adds
for each item the transcript that the item has on its own, whatever was checked before
(`items_checked_in_isolation`).
-/

namespace ScriptCheck

open Check

/-! ## Adding entries -/

namespace Report

/-- The report with more entries. -/
def addAll (r : Report) (entries : List Entry) : Report := entries.foldl add r

theorem addAll_concat (r : Report) (entries : List Entry) (entry : Entry) :
    r.addAll (entries ++ [entry]) = (r.addAll entries).add entry := by
  simp [addAll]

/-- The tokens that an entry adds to a report. -/
def Entry.tokens : Entry → List Token
  | .token t => [t]
  | .diagnostic _ | .hint _ | .definition _ _ | .hover _ _ | .type _ _ => []

/-- The hints that an entry adds to a report. -/
def Entry.hints : Entry → List Hint
  | .hint h => [h]
  | .diagnostic _ | .token _ | .definition _ _ | .hover _ _ | .type _ _ => []

theorem tokens_add (r : Report) (entry : Entry) :
    (r.add entry).tokens = r.tokens ++ entry.tokens := by
  cases entry <;> first | rfl | exact (List.append_nil _).symm

theorem hints_add (r : Report) (entry : Entry) : (r.add entry).hints = r.hints ++ entry.hints := by
  cases entry <;> first | rfl | exact (List.append_nil _).symm

/-- A part of the report to which every entry appends something is at the end what it was at the
beginning and what it is when the entries are added to an empty report. -/
theorem appended_addAll {α : Type} {part : Report → List α} {added : Entry → List α}
    (hadd : ∀ r entry, part (r.add entry) = part r ++ added entry) (hempty : part {} = [])
    (r : Report) (entries : List Entry) :
    part (r.addAll entries) = part r ++ part (addAll {} entries) := by
  have hadded : ∀ (entries : List Entry) (r : Report),
      part (r.addAll entries) = part r ++ entries.flatMap added := by
    intro entries
    induction entries with
    | nil => exact fun r => (List.append_nil _).symm
    | cons entry rest ih =>
      intro r
      rw [List.flatMap_cons, ← List.append_assoc, ← hadd]
      exact ih (r.add entry)
  rw [hadded entries r, hadded entries {}, hempty, List.nil_append]

end Report

/-! ## Two checks with different reports -/

/-- Two checks side by side, with the reports that they began with. -/
structure Logged extends Course where
  report : Report := {}
  report' : Report := {}

/-- The states of two checks that have added the same entries so far. -/
structure Transcribed (w : Logged) (c c' : Checker) : Prop where
  abreast : Abreast w.toCourse c c'
  entries : ∃ entries, c.report = w.report.addAll entries ∧ c'.report = w.report'.addAll entries

namespace Transcribed

variable {w : Logged} {c c' : Checker}

theorem note (h : Transcribed w c c') (entry : Report.Entry) :
    Transcribed w ((Check.note (·.add entry)).run c).2 ((Check.note (·.add entry)).run c').2 := by
  refine ⟨h.abreast.note entry, ?_⟩
  obtain ⟨entries, hreport, hreport'⟩ := h.entries
  rw [run_note, run_note]
  dsimp only
  rw [h.abreast.muted, h.abreast.muted']
  split
  · refine ⟨entries ++ [entry], ?_, ?_⟩
    · rw [Report.addAll_concat, ← hreport]
    · rw [Report.addAll_concat, ← hreport']
  · exact ⟨entries, hreport, hreport'⟩

theorem lockstep : Lockstep Transcribed where
  scopes h := h.abreast.scopes
  note entry h := h.note entry
  change f h := ⟨Abreast.lockstep.change f h.abreast, h.entries⟩
  mute w := by
    obtain ⟨inner, hinner⟩ := Abreast.lockstep.mute w.toCourse
    exact ⟨{ w with toCourse := inner }, fun h => ⟨hinner.1 h.abreast, h.entries⟩, fun h =>
      ⟨hinner.2 h.abreast, h.entries⟩⟩

theorem setSelf (h : Transcribed w c c') (self : Option SelfType) :
    Transcribed { w with self } ((setSelf self).run c).2 ((setSelf self).run c').2 :=
  ⟨h.abreast.setSelf self, h.entries⟩

theorem closeScopes : Sim (Transcribed w) closeScopes closeScopes :=
  .modify fun _ _ h => lockstep.change (·.truncate 0) h

end Transcribed

/-- Two checks side by side add the same entries to their reports. -/
def transcription : Simulation :=
  Transcribed.lockstep.simulation fun h => parallel.view h.abreast

/-- Inside of a block for a struct, `Self` stands for the struct. -/
theorem Logged.level {w : Logged} (hw : w.self = none) : transcription.Level w where
  close := Transcribed.closeScopes
  block self {m m'} hm c c' h := by
    obtain ⟨-, hend⟩ := hm _ (Transcribed.closeScopes (w := { w with self })) (h.setSelf self)
    have hnone := hend.setSelf none
    rw [show ({ w with self := none } : Logged) = w by rw [← hw]] at hnone
    exact ⟨rfl, hnone⟩

/-! ## Items -/

/-- The state of a check that begins with an item. -/
def Checker.fresh (s : Symbols) : Checker := { view := { symbols := s } }

/-- Between two items, checking an item adds the entries that it adds to an empty report. -/
theorem Rooted.exists_entries {s : Symbols} {c : Checker} (h : Rooted s c) (x : Item) :
    ∃ entries, ((Check.item Expr.part x).run c).2.report = c.report.addAll entries ∧
      ((Check.item Expr.part x).run (.fresh s)).2.report = Report.addAll {} entries := by
  have hstart : Transcribed
      { Course.root (.refl s) with before := c.report.diagnostics, report := c.report } c
      (.fresh s) :=
    ⟨⟨h.view, rfl, h.muted, rfl, h.scopes, [], (List.append_nil _).symm, rfl⟩, [], rfl, rfl⟩
  exact (transcription.item (Logged.level rfl) x hstart).2.entries

/-- The second pass comes to an item with the report of the items before it. To its diagnostics,
tokens and hints it appends those that a fresh check of the item alone produces under the same
symbols, and goes on with the other items. In fact it makes the same entries, those of the other
tables of the report included. -/
theorem items_checked_in_isolation (registry : Registry) (script : Script)
    {earlier later : List Item} {x : Item} (hitems : script.items = earlier ++ x :: later) :
    let before := script.checker registry earlier
    let here := ((item Expr.part x).run before).2
    let alone := ((item Expr.part x).run (.fresh (script.declarations registry).symbols)).2
    (script.validate registry).report =
        ((items Expr.part later).run (closeScopes.run here).2).2.report.finish ∧
      here.report.diagnostics = before.report.diagnostics ++ alone.report.diagnostics ∧
      here.report.tokens = before.report.tokens ++ alone.report.tokens ∧
      here.report.hints = before.report.hints ++ alone.report.hints ∧
      ∃ entries, here.report = before.report.addAll entries ∧
        alone.report = Report.addAll {} entries := by
  intro before here alone
  obtain ⟨entries, hhere, halone⟩ :=
    (script.rooted_checker registry earlier).exists_entries x
  refine ⟨script.report_validate registry hitems, ?_, ?_, ?_, entries, hhere, halone⟩
  · rw [hhere, halone]
    exact Report.appended_addAll Report.diagnostics_add rfl _ _
  · rw [hhere, halone]
    exact Report.appended_addAll Report.tokens_add rfl _ _
  · rw [hhere, halone]
    exact Report.appended_addAll Report.hints_add rfl _ _

/-- The function `fn rest(bin : Self) -> Unit = { let count = 1 }`. There is no `Self` outside of
blocks. -/
def restOfBins : FunctionDecl :=
  .ofBody "rest" [.ofType "bin" (.plain "Self")] "Unit" (.block {} [.ofLet "count" (.int {} 1)])

/-- The script `struct Bin ()`, `impl Bin { fn whole(self) -> Self = missing }` with the function
`restOfBins` after the block. -/
def bins : Script :=
  .ofItems
    [.ofStruct "Bin" [],
      .methods (.ofFunctions "Bin" [.ofBody "whole" [.self] "Self" (.ofName "missing")]),
      .function restOfBins]

/-- The function has one complaint of its own, about `Self`, and one hint. The complaint of the
method before it stays alone in front of them. -/
theorem items_checked_in_isolation_bins :
    bins.items = bins.items.take 2 ++ .function restOfBins :: [] ∧
      let before := bins.checker .empty (bins.items.take 2)
      let here := ((item Expr.part (.function restOfBins)).run before).2
      let alone :=
        ((item Expr.part (.function restOfBins)).run (.fresh (bins.declarations .empty).symbols)).2
      before.report.diagnostics.length = 1 ∧ alone.report.diagnostics.length = 1 ∧
        alone.report.hints.length = 1 ∧
        here.report.diagnostics = before.report.diagnostics ++ alone.report.diagnostics ∧
        here.report.hints = before.report.hints ++ alone.report.hints := by
  have hitems : bins.items = bins.items.take 2 ++ .function restOfBins :: [] := rfl
  obtain ⟨-, hdiagnostics, -, hhints, -⟩ := items_checked_in_isolation .empty bins hitems
  exact ⟨hitems, by decide +kernel, by decide +kernel, by decide +kernel, hdiagnostics, hhints⟩

end ScriptCheck
