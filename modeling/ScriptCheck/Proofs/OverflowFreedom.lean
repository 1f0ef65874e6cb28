import ScriptCheck.Overflow
import ScriptCheck.Proofs.DeclareSteps
import ScriptCheck.Proofs.RegimeItems
import ScriptCheck.Proofs.ScriptRoundTrip

/-!
# Validation without overflow

Every diagnostic is placed at a range of the script, and every token at a range of the script or at
the name in front of type arguments. The sums that validation and the output of diagnostics form
therefore stay in the words if the positions in the script leave room for them
(`validation_stays_in_words`): no range starts on the last line or at the last character, and no
name in front of type arguments ends behind the last character. Offsets need no room, since a name
never ends behind the annotation that it stands in.
-/

namespace ScriptCheck

open Check

variable {W : Margins}

/-! ## The second pass -/

/-- All diagnostics and tokens are within the margins. -/
structure Report.Within (W : Margins) (r : Report) : Prop where
  diagnostics : ∀ d ∈ r.diagnostics, W.spots d.range
  tokens : ∀ t ∈ r.tokens, W.marks t.range

namespace Margins

/-- A run that stays within the margins, beside one in which other things may be muted. -/
def terms (W : Margins) : Terms Unit where
  margins := W
  World := Unit
  rel _ c c' := c'.view = c.view ∧ c'.scopes = c.scopes ∧ c'.report.Within W
  ids _ id id' := id' = id
  Like v v' := v' = v
  Good _ := True
  Hint _ := True
  Outside _ := True
  Known _ := True
  Twins _ _ := True
  Post _ _ _ _ := True

theorem rel_note {w : W.terms.World} {c c' : Checker} (h : W.terms.rel w c c')
    {entry : Report.Entry} {s : Symbols} (hentry : entry.Fits W.terms.Good W.terms.toDirectory s) :
    W.terms.rel w ((note (·.add entry)).run c).2 ((note (·.add entry)).run c').2 := by
  obtain ⟨hview, hscopes, hwithin⟩ := h
  refine ⟨by rw [view_note, view_note, hview], by rw [scopes_note, scopes_note, hscopes], ?_⟩
  obtain hc' | ⟨-, hc'⟩ := note_cases (·.add entry) c' <;> rw [hc']
  · exact hwithin
  · cases entry with
    | diagnostic d =>
      exact ⟨List.forall_mem_append.2 ⟨hwithin.diagnostics, List.forall_mem_singleton.2 hentry.2⟩,
        hwithin.tokens⟩
    | token t =>
      exact ⟨hwithin.diagnostics,
        List.forall_mem_append.2 ⟨hwithin.tokens, List.forall_mem_singleton.2 hentry⟩⟩
    | hint | definition | hover | type => exact ⟨hwithin.diagnostics, hwithin.tokens⟩

theorem stateLaws (W : Margins) : StateLaws W.terms where
  like h := h.1
  like_placed _ := .any
  rel_local? name h hid := ⟨by rw [h.2.1, hid], fun _ _ => trivial⟩
  rel_inLoop h hid := by rw [h.2.1, hid]
  rel_returnType? h hid := ⟨by rw [h.2.1, hid], fun _ _ => trivial⟩
  rel_write h hentry := rel_note h hentry
  rel_declare name value h hid _ _ := ⟨h.1, by rw [h.2.1, hid], h.2.2⟩
  rel_redeclare {_ c c' id id'} name problem range hproblem hspot h hid d d' hd := by
    have hown : c'.scopes.own? id' name = c.scopes.own? id name := by rw [h.2.1, hid]
    rw [hown]
    have hfits : (Report.Entry.diagnostic ⟨.error, problem, range⟩).Fits W.terms.Good
        W.terms.toDirectory d.view.symbols :=
      ⟨⟨Problem.justified_of_compares hproblem, nofun⟩, hspot⟩
    split
    · exact ⟨rfl, rel_note hd hfits⟩
    · exact ⟨rfl, hd⟩
  rel_push h hid _ :=
    ⟨(), by rw [h.2.1]; rfl, ⟨h.1, by rw [h.2.1, hid], h.2.2⟩, fun _ _ he => he⟩
  runs_infer _ := Terms.runs_infer_of_enters .any fun h hid => by
    refine ⟨(), by rw [h.2.1]; rfl, ⟨h.1, ?_, h.2.2⟩, fun _ _ he => ⟨he.1, ?_, he.2.2⟩⟩
    · rw [Checker.silenced, Checker.silenced, h.2.1, hid]
    · dsimp only
      rw [he.2.1, h.2.1]

/-- Checks that stay within the margins. -/
def regime (W : Margins) : Regime Unit where
  toTerms := W.terms
  toTypeLaws := .of_similar (fun _ => trivial) (fun _ => trivial)
    (fun hv => hv ▸ (View.Agree.refl _).similar) fun hv _ => by rw [hv]
  toStateLaws := W.stateLaws
  toEffectLaws := .any

theorem grounds (W : Margins) : W.regime.Grounds where
  known _ := trivial
  like_registered? _ _ hv := by rw [hv]
  like_self hv := ⟨by rw [hv], fun _ _ => trivial⟩
  like_constants _ hv := by rw [hv]
  like_functions _ hv := by rw [hv]
  like_registry hv _ := by rw [hv]
  rel_size h := by rw [h.2.1]; rfl
  rel_root h _ := ⟨h.1, by rw [h.2.1], h.2.2⟩

theorem closeScopes (W : Margins) :
    Coupled (W.regime.rel ()) (Same Any) closeScopes closeScopes :=
  fun _ _ h => ⟨⟨rfl, trivial⟩, h.1, congrArg (Scopes.truncate · 0) h.2.1, h.2.2⟩

theorem level (W : Margins) : W.regime.Level () where
  close := W.closeScopes
  block name m m' hm := by
    have hself (self : Option SelfType) :
        Coupled (W.regime.rel ()) (Same Any) (setSelf self) (setSelf self) :=
      fun c c' h => ⟨⟨rfl, trivial⟩, congrArg (fun v => { v with self }) h.1, h.2⟩
    refine Regime.topSymbols fun v v' hv => ?_
    rw [hv]
    exact (hself _).bind_same fun _ _ => (hm rfl () W.closeScopes).bind_same fun _ _ => hself none

/-- Nothing depends on what is muted. -/
theorem wraps_unmuted (W : Margins) : W.regime.Wraps (Part.observed Checker.unmuted) where
  range _ := rfl
  isLambda _ := rfl
  twins _ := trivial
  check h c c' hc := h c c'.unmuted hc

/-- The margins leave room for the check of an expression in them. -/
theorem admits {e : Expr} (h : W.Covers e) : W.regime.Admits e :=
  ⟨fun _ _ => trivial, fun _ _ => trivial, fun _ _ => trivial, fun _ _ => trivial, h⟩

theorem items {see : Expr → Part} (hsee : W.regime.Sees see) {xs : List Item}
    (h : ∀ x ∈ xs, W.CoversItem x) {c : Checker} (hc : c.report.Within W) :
    ((Check.items see xs).run c).2.report.Within W :=
  (W.grounds.items hsee W.level xs (fun x hx => .of_names (fun _ => trivial) (fun _ _ => trivial)
    (fun _ _ => trivial) (fun _ _ => trivial) (h x hx)) ⟨rfl, rfl, hc⟩).2.2.2

/-- What is passed over in silence is within the margins as well. -/
theorem sees_unmuted (W : Margins) : W.regime.Sees (Expr.observed Checker.unmuted) :=
  W.wraps_unmuted.expr _

end Margins

namespace Declare

theorem marks_inference (s : Symbols) {value : Expr} (h : W.Covers value) :
    ∀ t ∈ ((inference (value.observed Checker.unmuted)).run
      { view := { symbols := s } }).2.report.tokens, W.marks t.range := by
  have hrun : Coupled (W.regime.rel ()) (Same Any) (inference value.part)
      (inference (value.observed Checker.unmuted)) :=
    W.grounds.openRoot .block nofun fun id id' hid =>
      (Regime.infer (x := ⟨(), id, id', hid⟩) (W.sees_unmuted (Margins.admits h))
        Regime.hints_none).coupled
  let start : Checker := { view := { symbols := s } }
  have hstart : W.regime.rel () start start :=
    ⟨rfl, rfl, List.forall_mem_nil _, List.forall_mem_nil _⟩
  exact (hrun hstart).2.2.2.tokens

theorem marks_constTokens (s : Symbols) {x : Item} (h : W.CoversItem x) :
    ∀ t ∈ constTokens s x, W.marks t.range := by
  cases x with
  | const decl =>
    rw [constTokens]
    split
    · exact List.forall_mem_nil _
    · exact marks_inference s (h.expressions _ List.mem_cons_self)
  | _ => exact List.forall_mem_nil _

theorem marks_collect : {xs : List Item} → (∀ x ∈ xs, W.CoversItem x) → (d : Declarations) →
    ∀ t ∈ ((collect constTokens constItem xs).run d).1.flatten, W.marks t.range
  | [], _, _ => List.forall_mem_nil _
  | x :: rest, h, d => by
    obtain ⟨hx, hrest⟩ := List.forall_mem_cons.1 h
    exact List.forall_mem_append.2
      ⟨marks_constTokens d.symbols hx, marks_collect hrest ((constItem x).run d).2⟩

end Declare

/-! ## Both passes -/

namespace Script

variable {script : Script} (h : ∀ x ∈ script.items, W.CoversItem x) (registry : Registry)
include h

/-- The first pass complains at names of items only. -/
theorem spots_declarations :
    ∀ d ∈ (script.declarations registry).diagnostics, W.spots d.range := by
  refine Script.declarations_induction (I := fun d => ∀ x ∈ d.diagnostics, W.spots x.range)
    (List.forall_mem_nil _) fun hstep hd => ?_
  cases hstep with
  | entry => exact hd
  | complaint problem range _ hrange =>
    obtain ⟨name, hname, rfl⟩ := List.mem_map.1 hrange
    obtain ⟨x, hx, hname⟩ := List.mem_flatMap.1 hname
    exact List.forall_mem_append.2 ⟨hd, List.forall_mem_singleton.2 ((h x hx).idents name hname)⟩

/-- Validation complains within the margins in which the items stand. -/
theorem spots_diagnostics :
    ∀ d ∈ (script.validate registry).report.diagnostics, W.spots d.range := by
  have hend := Margins.items (W.regime.expr fun _ => trivial) h
    (c := { view := { symbols := (script.declarations registry).symbols }
            report := { diagnostics := (script.declarations registry).diagnostics } })
    ⟨script.spots_declarations h registry, List.forall_mem_nil _⟩
  exact hend.diagnostics

/-- All tokens are within the margins, also those that are passed over in silence. -/
theorem le_of_mem_sums
    (hmarks : ∀ r, W.marks r → r.stop.offset ≤ wordMax ∧ r.stop.character ≤ wordMax) :
    ∀ n ∈ script.sums registry, n ≤ wordMax := by
  have hloud := (Margins.items W.sees_unmuted h
    (c := { view := { symbols := (script.declarations registry).symbols } })
    ⟨List.forall_mem_nil _, List.forall_mem_nil _⟩).tokens
  have hsilent : ∀ t ∈ script.silentTokens registry, W.marks t.range :=
    Declare.marks_collect h _
  intro n hn
  obtain ⟨t, ht, hn⟩ := List.mem_flatMap.1 hn
  have ht : W.marks t.range := (List.mem_append.1 ht).elim (hsilent t) (hloud t)
  obtain ⟨hoffset, hcharacter⟩ := hmarks _ ht
  simp only [Token.ends, List.mem_cons, List.not_mem_nil, or_false] at hn
  obtain rfl | rfl := hn
  · exact hoffset
  · exact hcharacter

end Script

/-! ## Room for sums -/

namespace Margins

/-- Ranges that fit into the words and start neither on the last line nor at the last character, and
names that end within the words. -/
def roomy : Margins where
  spots r := r.Fits ∧ r.start.line < wordMax ∧ r.start.character < wordMax
  marks r := r.stop.character ≤ wordMax
  marks_of_spots h := Nat.le_of_lt_succ h.1.2.2.2

/-- The same, with the offsets at which names end. -/
def words : Margins where
  spots r := roomy.spots r
  marks r := r.stop.offset ≤ wordMax ∧ r.stop.character ≤ wordMax
  marks_of_spots h := ⟨Nat.le_of_lt_succ h.1.2.1, Nat.le_of_lt_succ h.1.2.2.2⟩

/-- The name in front of type arguments does not end behind them. -/
theorem offset_of_mem_head {spec : TypeSpec} (h : spec.range.Fits) :
    ∀ head ∈ spec.head, head.name.range.stop.offset ≤ wordMax := by
  obtain ⟨⟨hstart, -⟩, hstop, -⟩ := h
  cases spec with
  | named range scope name args =>
    cases scope with
    | some module => exact List.forall_mem_nil _
    | none =>
      intro head hhead
      obtain rfl := List.mem_singleton.1 hhead
      simp only [TypeSpec.range] at hstart hstop
      dsimp only
      split
      · exact Nat.le_of_lt_succ hstop
      · have hmin : Nat.min name.utf8ByteSize range.length ≤ range.length := Nat.min_le_right _ _
        simp only [Range.leading, Range.length, wordMax] at hmin ⊢
        omega
  | array | option | result | tuple | record | function => exact List.forall_mem_nil _

theorem words_coversSpec {spec : TypeSpec} (h : roomy.CoversSpec spec) : words.CoversSpec spec :=
  fun node hnode => ⟨(h node hnode).1, fun head hhead =>
    ⟨offset_of_mem_head (h node hnode).1.1 head hhead, (h node hnode).2 head hhead⟩⟩

theorem words_coversItem {x : Item} (h : roomy.CoversItem x) : words.CoversItem x where
  idents := h.idents
  annotations spec hspec := words_coversSpec (h.annotations spec hspec)
  expressions e he node hnode :=
    have hnode := h.expressions e he node hnode
    ⟨hnode.range, hnode.idents, fun spec hspec => words_coversSpec (hnode.annotations spec hspec)⟩

end Margins

namespace Overflow

variable {α : Type} {sums : List Nat} (value : α)

theorem guard_eq_ok (h : ∀ n ∈ sums, n ≤ wordMax) : guard sums value = .ok value := by
  rw [guard, if_pos (by simpa using h)]

theorem guard_eq_error {n : Nat} (hn : n ∈ sums) (h : wordMax < n) :
    guard sums value = .error .sum := by
  rw [guard, if_neg]
  intro hall
  exact absurd (of_decide_eq_true (List.all_eq_true.1 hall n hn)) (Nat.not_le_of_lt h)

end Overflow

/-- Validation does not break off, and neither does the output of a diagnostic on one line or for a
tool, if all positions in the script leave room for the sums. -/
theorem validation_stays_in_words (registry : Registry) (script : Script)
    (h : ∀ x ∈ script.items, Margins.roomy.CoversItem x) :
    script.validate? registry = .ok (script.validate registry) ∧
      ∀ d ∈ (script.validate registry).report.diagnostics,
        d.display? = .ok d.display ∧
          ∀ source fileName, d.toLine? source fileName = .ok (d.toLine source fileName) := by
  constructor
  · refine Overflow.guard_eq_ok _ (script.le_of_mem_sums (W := .words) ?_ registry fun _ h => h)
    exact fun x hx => Margins.words_coversItem (h x hx)
  · intro d hd
    obtain ⟨-, hline, hcharacter⟩ := Script.spots_diagnostics h registry d hd
    have hsums : ∀ n ∈ d.sums, n ≤ wordMax := by
      simpa [Diagnostic.sums] using ⟨hline, hcharacter⟩
    exact ⟨Overflow.guard_eq_ok _ hsums, fun _ _ => Overflow.guard_eq_ok _ hsums⟩

/-- The script `type A = Cell<int, int>`, with the annotation on the given line from the given
character on. -/
def aliasAt (line character : Nat) : Script :=
  { name := "main"
    items :=
      [.typeAlias
        { name := ⟨"A", {}⟩, range := {}
          type := .named ⟨⟨9, line, character⟩, ⟨23, 0, 0⟩⟩ none "Cell"
            [.named {} none "int" [], .named {} none "int" []] }] }

/-- The complaint about the annotation in `aliasAt`. -/
def aliasComplaint (line character : Nat) : Diagnostic :=
  ⟨.error, .count (.typeArguments "Cell") 1 2, ⟨⟨9, line, character⟩, ⟨23, 0, 0⟩⟩⟩

theorem fits_aliasAt {line character : Nat} (hline : line < 4294967296)
    (hcharacter : character < 4294967296) : (aliasAt line character).Fits := by
  refine List.forall_mem_singleton.2 ⟨?_, ?_, ?_⟩
  · simp [Ident.Fits, Range.Fits, Position.Fits]
  · simp [TypeSpec.Fits, TypeSpec.nodes, TypeSpec.nodesList, TypeSpec.range, Range.Fits,
      Position.Fits, hline, hcharacter]
  · simp [Range.Fits, Position.Fits]

/-- The complaint is on the last line but one, and the name ends at the last character. -/
theorem validation_stays_in_words_aliasAt :
    aliasComplaint 4294967294 4294967291 ∈
        ((aliasAt 4294967294 4294967291).validate .empty).report.diagnostics ∧
      (aliasComplaint 4294967294 4294967291).display? =
        .ok "4294967295:4294967292: type arguments for `Cell`: expected 1, found 2" := by
  have hmem : aliasComplaint 4294967294 4294967291 ∈
      ((aliasAt 4294967294 4294967291).validate .empty).report.diagnostics := by decide +kernel
  have hcovers : ∀ x ∈ (aliasAt 4294967294 4294967291).items, Margins.roomy.CoversItem x := by
    refine List.forall_mem_singleton.2 ⟨?_, ?_, List.forall_mem_nil _⟩
    · simp [Item.idents, Margins.roomy, Range.Fits, Position.Fits, wordMax]
    · simp [Item.annotations, Margins.CoversSpec, TypeSpec.nodes, TypeSpec.nodesList,
        TypeSpec.range, TypeSpec.head, Margins.roomy, Range.Fits, Position.Fits, Range.leading,
        Range.length, wordMax]
      decide
  exact ⟨hmem, ((validation_stays_in_words .empty _ hcovers).2 _ hmem).1⟩

/-- The numbers of all positions in a script may have 32 bits, and still sums leave the words: in
the check of an annotation, and in the output of a diagnostic. -/
theorem sums_leave_words :
    ((aliasAt 0 4294967292).Fits ∧ (aliasAt 0 4294967292).validate? .empty = .error .sum) ∧
      (aliasAt 4294967295 0).Fits ∧
        aliasComplaint 4294967295 0 ∈
          ((aliasAt 4294967295 0).validate .empty).report.diagnostics ∧
        (aliasComplaint 4294967295 0).display? = .error .sum ∧
        ∀ source fileName, (aliasComplaint 4294967295 0).toLine? source fileName = .error .sum := by
  have hsum : 4294967296 ∈ (aliasAt 0 4294967292).sums .empty := by decide +kernel
  have hline : 4294967296 ∈ (aliasComplaint 4294967295 0).sums := by decide
  have hlarge : wordMax < 4294967296 := by decide
  exact ⟨⟨fits_aliasAt (by decide) (by decide), Overflow.guard_eq_error _ hsum hlarge⟩,
    fits_aliasAt (by decide) (by decide), by decide +kernel,
    Overflow.guard_eq_error _ hline hlarge, fun _ _ => Overflow.guard_eq_error _ hline hlarge⟩

end ScriptCheck
