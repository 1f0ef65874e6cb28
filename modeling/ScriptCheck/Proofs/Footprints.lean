import Mathlib.Data.Set.Basic
import Mathlib.Order.CompletePartialOrder
import Mathlib.Tactic.Tauto
import ScriptCheck.Proofs.Agreement
import ScriptCheck.Proofs.Reordering

/-!
# Footprints of declarations

The symbol tables consist of cells, each of which holds what one name stands for. A declaration
looks at some cells, writes to some cells and complains about what it saw; the two sets are its
footprint. Declarations that write nothing the other one looks at can be made in either order: every
name ends up with the same meaning, and the complaints are the same but for their order
(`Footprint.comm`). Hence so can a list of declarations, as far as its members are free of each
other (`Footprint.each_reordered`).
-/

namespace ScriptCheck

/-! ## Cells -/

/-- A place of the symbol tables. A struct has one for its fields, one for its operators and one for
each of its methods. -/
inductive Cell where
  | constant (name : String)
  | function (name : String)
  | module (name : String)
  | type (name : String)
  | fields (struct : String)
  | operators (struct : String)
  | method (struct name : String)

/-- What a cell can hold. -/
inductive Cell.Content where
  | value (value : Option Value)
  | module (name : Option String)
  | type (type : Option TypeAlias)
  | fields (fields : Option (List (String × Ty) × Table String Definition × Table String String))
  | operators (tables : Option (Table Operator (List Overload) × Table Operator (List Overload)))

namespace Symbols

variable {s s' : Symbols}

/-- What a cell holds. -/
def read (s : Symbols) : Cell → Cell.Content
  | .constant name => .value (s.constants.get? name)
  | .function name => .value (s.functions.get? name)
  | .module name => .module (s.modules.get? name)
  | .type name => .type (s.types.get? name)
  | .fields struct => .fields ((s.structs.get? struct).map fun info =>
      (info.fields, info.fieldDefinitions, info.fieldDescriptions))
  | .operators struct => .operators ((s.structs.get? struct).map fun info =>
      (info.prefixOperators, info.suffixOperators))
  | .method struct name => .value ((s.structs.get? struct).bind fun info => info.methods.get? name)

/-- Symbols of scripts of the same name over the same library. -/
structure SameScript (s s' : Symbols) : Prop where
  registry : s.registry = s'.registry
  moduleName : s.moduleName = s'.moduleName

theorem SameScript.refl (s : Symbols) : s.SameScript s := ⟨rfl, rfl⟩

theorem SameScript.symm (h : s.SameScript s') : s'.SameScript s :=
  ⟨h.registry.symm, h.moduleName.symm⟩

theorem SameScript.trans {s s' s'' : Symbols} (h : s.SameScript s') (h' : s'.SameScript s'') :
    s.SameScript s'' :=
  ⟨h.registry.trans h'.registry, h.moduleName.trans h'.moduleName⟩

theorem Agree.sameScript (h : s.Agree s') : s.SameScript s' :=
  ⟨h.registry, h.moduleName⟩

/-- A struct has the same members in both if its cells hold the same. -/
theorem structs_rel_iff {name : String} :
    Option.Rel StructInfo.Agree (s.structs.get? name) (s'.structs.get? name) ↔
      s.read (.fields name) = s'.read (.fields name) ∧
        s.read (.operators name) = s'.read (.operators name) ∧
        ∀ method, s.read (.method name method) = s'.read (.method name method) := by
  simp only [read]
  generalize s.structs.get? name = info, s'.structs.get? name = info'
  constructor
  · rintro (h | _)
    · simp only [Option.map_some, Option.bind_some, h.fields, h.fieldDefinitions,
        h.fieldDescriptions, h.prefixOperators, h.suffixOperators, h.methods _, implies_true,
        and_self]
    · simp
  · rintro ⟨hfields, hoperators, hmethods⟩
    rcases info with _ | info <;> rcases info' with _ | info'
    · exact .none
    · simp at hfields
    · simp at hfields
    · simp only [Option.map_some, Cell.Content.fields.injEq, Cell.Content.operators.injEq,
        Option.some.injEq, Prod.mk.injEq] at hfields hoperators
      exact .some ⟨hfields.1, hfields.2.1, hfields.2.2,
        fun method => Cell.Content.value.inj (hmethods method), hoperators.1, hoperators.2⟩

theorem Agree.read (h : s.Agree s') (cell : Cell) : s.read cell = s'.read cell := by
  have hstruct := fun struct => structs_rel_iff.1 (h.structs struct)
  cases cell with
  | constant name => exact congrArg _ (h.constants name)
  | function name => exact congrArg _ (h.functions name)
  | module name => exact congrArg _ (h.modules name)
  | type name => exact congrArg _ (h.types name)
  | fields struct => exact (hstruct struct).1
  | operators struct => exact (hstruct struct).2.1
  | method struct name => exact (hstruct struct).2.2 name

/-- Symbols agree if all of their cells do. -/
theorem Agree.of_read (h : s.SameScript s') (hread : ∀ cell, s.read cell = s'.read cell) :
    s.Agree s' where
  registry := h.registry
  moduleName := h.moduleName
  constants name := Cell.Content.value.inj (hread (.constant name))
  functions name := Cell.Content.value.inj (hread (.function name))
  modules name := Cell.Content.module.inj (hread (.module name))
  types name := Cell.Content.type.inj (hread (.type name))
  structs _ := structs_rel_iff.2 ⟨hread _, hread _, fun _ => hread _⟩

end Symbols

/-! ## Footprints -/

namespace Declare

/-- The declarations after a computation. -/
def after (m : DeclareM Unit) (d : Declarations) : Declarations := (m.run d).2

theorem after_symbols (k : Symbols → DeclareM Unit) (d : Declarations) :
    after (symbols >>= k) d = after (k d.symbols) d :=
  rfl

theorem after_bind (m m' : DeclareM Unit) (d : Declarations) :
    after (m >>= fun _ => m') d = after m' (after m d) :=
  rfl

theorem after_each_append {α : Type} (f : α → DeclareM Unit) (ys : List α) :
    (xs : List α) → (d : Declarations) →
    after (each f (xs ++ ys)) d = after (each f ys) (after (each f xs) d)
  | [], _ => rfl
  | x :: xs, d => after_each_append f ys xs (after (f x) d)

theorem after_ite (c : Prop) [Decidable c] (m m' : DeclareM Unit) (d : Declarations) :
    after (if c then m else m') d = if c then after m d else after m' d := by
  split <;> rfl

theorem after_makeEntry (range : Option Range) (entry : Symbols → Except Problem Symbols)
    (d : Declarations) :
    after (makeEntry range entry) d =
      match entry d.symbols with
      | .ok s => { d with symbols := s }
      | .error problem =>
        { d with
          diagnostics := d.diagnostics ++ range.toList.map fun r => ⟨.error, problem, r⟩ } := by
  rw [makeEntry, after_symbols]
  cases entry d.symbols with
  | ok => rfl
  | error problem =>
    cases range with
    | none => exact congrArg (Declarations.mk d.symbols) (List.append_nil _).symm
    | some => rfl

theorem after_enterNew (kind : SymbolKind) (name : String) (range : Option Range)
    (taken : Symbols → Bool) (add : Symbols → Symbols) (d : Declarations) :
    after (enterNew kind name range taken add) d =
      if taken d.symbols then
        { d with
          diagnostics := d.diagnostics ++
            range.toList.map fun r => ⟨.error, .duplicate kind name, r⟩ }
      else { d with symbols := add d.symbols } := by
  rw [enterNew, after_makeEntry]
  cases taken d.symbols <;> rfl

/-- A function of the script is entered under its name. -/
theorem enterFunction_module (decl : FunctionDecl) :
    enterFunction .module decl =
      enterNew .function decl.name.name decl.name.range (·.functions.contains decl.name.name)
        fun s => { s with
          functions :=
            s.functions.insert decl.name.name (functionValue { symbols := s } decl false) } :=
  rfl

/-- A method with a receiver is entered under its name. -/
theorem enterFunction_method (self : SelfType) {decl : FunctionDecl}
    (hreceiver : hasReceiver decl = true) :
    enterFunction (.methods self) decl =
      enterNew .method decl.name.name decl.name.range
        (fun s => ((s.structs.get? self.name).getD {}).methods.contains decl.name.name)
        fun s => withInfo s self.name fun info =>
          { info with
            methods := info.methods.insert decl.name.name
              (functionValue { symbols := s, self } decl true) } := by
  unfold enterFunction withFunction
  simp only [hreceiver, if_true]
  rfl

/-- From symbols with the property `inv`, the computation looks at the cells `reads` only and
writes to the cells `writes` only. What it writes and what it complains about is decided by what it
looks at. -/
structure Footprint (inv : Symbols → Prop) (m : DeclareM Unit) (reads writes : Set Cell) :
    Prop where
  script : ∀ d, (after m d).symbols.SameScript d.symbols
  keeps : ∀ d, inv d.symbols → inv (after m d).symbols
  frame : ∀ d, inv d.symbols → ∀ cell ∉ writes,
    (after m d).symbols.read cell = d.symbols.read cell
  decided : ∀ d d', inv d.symbols → inv d'.symbols → d.symbols.SameScript d'.symbols →
    (∀ cell ∈ reads, d.symbols.read cell = d'.symbols.read cell) →
    (∀ cell ∈ writes, (after m d).symbols.read cell = (after m d').symbols.read cell) ∧
      ∃ added, (after m d).diagnostics = d.diagnostics ++ added ∧
        (after m d').diagnostics = d'.diagnostics ++ added

namespace Footprint

variable {inv : Symbols → Prop} {m m' : DeclareM Unit} {reads reads' writes writes' : Set Cell}

/-- A footprint may be taken larger. A cell that is added to those written has to be read, since it
keeps what it holds. -/
theorem mono (h : Footprint inv m reads writes) (hreads : reads ⊆ reads')
    (hwrites : writes ⊆ writes') (hsub : writes' ⊆ reads') : Footprint inv m reads' writes' where
  script := h.script
  keeps := h.keeps
  frame d hd cell hcell := h.frame d hd cell fun hmem => hcell (hwrites hmem)
  decided d d' hd hd' hscript hread := by
    obtain ⟨hwritten, hadded⟩ := h.decided d d' hd hd' hscript fun cell hcell =>
      hread cell (hreads hcell)
    refine ⟨fun cell hcell => ?_, hadded⟩
    by_cases hmem : cell ∈ writes
    · exact hwritten cell hmem
    · rw [h.frame d hd cell hmem, h.frame d' hd' cell hmem]
      exact hread cell (hsub hcell)

theorem pure : Footprint inv (pure ()) ∅ ∅ where
  script _ := .refl _
  keeps _ h := h
  frame _ _ _ _ := rfl
  decided _ _ _ _ _ _ := ⟨fun _ h => h.elim, [], (List.append_nil _).symm, (List.append_nil _).symm⟩

theorem bind (h : Footprint inv m reads writes) (h' : Footprint inv m' reads writes) :
    Footprint inv (m >>= fun _ => m') reads writes where
  script d := (h'.script (after m d)).trans (h.script d)
  keeps d hd := h'.keeps _ (h.keeps d hd)
  frame d hd cell hcell := (h'.frame _ (h.keeps d hd) cell hcell).trans (h.frame d hd cell hcell)
  decided d d' hd hd' hscript hread := by
    obtain ⟨hwritten, added, hadded, hadded'⟩ := h.decided d d' hd hd' hscript hread
    have hread' : ∀ cell ∈ reads,
        (after m d).symbols.read cell = (after m d').symbols.read cell := by
      intro cell hcell
      by_cases hmem : cell ∈ writes
      · exact hwritten cell hmem
      · rw [h.frame d hd cell hmem, h.frame d' hd' cell hmem]
        exact hread cell hcell
    obtain ⟨hwritten', more, hmore, hmore'⟩ := h'.decided (after m d) (after m d') (h.keeps d hd)
      (h.keeps d' hd') ((h.script d).trans (hscript.trans (h.script d').symm)) hread'
    refine ⟨hwritten', added ++ more, ?_, ?_⟩
    · rw [← List.append_assoc, ← hadded]
      exact hmore
    · rw [← List.append_assoc, ← hadded']
      exact hmore'

/-- A computation whose change of the symbols and whose complaints are functions of the symbols. -/
theorem of_effect (change : Symbols → Symbols) (complaints : Symbols → List Diagnostic)
    (hrun : ∀ d, after m d = ⟨change d.symbols, d.diagnostics ++ complaints d.symbols⟩)
    (hscript : ∀ s, (change s).SameScript s) (hkeeps : ∀ s, inv s → inv (change s))
    (hframe : ∀ s, inv s → ∀ cell ∉ writes, (change s).read cell = s.read cell)
    (hdecided : ∀ s s', inv s → inv s' → s.SameScript s' →
      (∀ cell ∈ reads, s.read cell = s'.read cell) →
      (∀ cell ∈ writes, (change s).read cell = (change s').read cell) ∧
        complaints s = complaints s') : Footprint inv m reads writes where
  script d := by
    rw [hrun]
    exact hscript d.symbols
  keeps d hd := by
    rw [hrun]
    exact hkeeps d.symbols hd
  frame d hd := by
    rw [hrun]
    exact hframe d.symbols hd
  decided d d' hd hd' hscript hread := by
    obtain ⟨hwritten, hcomplaints⟩ := hdecided d.symbols d'.symbols hd hd' hscript hread
    rw [hrun, hrun]
    exact ⟨hwritten, complaints d.symbols, rfl, by rw [hcomplaints]⟩

/-- An entry that is made, or complained about, in the same way wherever what it looks at is the
same. -/
theorem of_entry {range : Option Range} {entry : Symbols → Except Problem Symbols}
    (hsub : writes ⊆ reads)
    (hscript : ∀ {s t}, entry s = .ok t → t.SameScript s)
    (hkeeps : ∀ {s t}, entry s = .ok t → inv s → inv t)
    (hframe : ∀ {s t}, entry s = .ok t → inv s → ∀ cell ∉ writes, t.read cell = s.read cell)
    (hdecided : ∀ {s s'}, inv s → inv s' → s.SameScript s' →
      (∀ cell ∈ reads, s.read cell = s'.read cell) →
      (∃ problem, entry s = .error problem ∧ entry s' = .error problem) ∨
        ∃ t t', entry s = .ok t ∧ entry s' = .ok t' ∧
          ∀ cell ∈ writes, t.read cell = t'.read cell) :
    Footprint inv (makeEntry range entry) reads writes where
  script d := by
    rw [after_makeEntry]
    split
    · rename_i hok
      exact hscript hok
    · exact .refl _
  keeps d hd := by
    rw [after_makeEntry]
    split
    · rename_i hok
      exact hkeeps hok hd
    · exact hd
  frame d hd cell hcell := by
    rw [after_makeEntry]
    split
    · rename_i hok
      exact hframe hok hd cell hcell
    · rfl
  decided d d' hd hd' hscript hread := by
    rw [after_makeEntry, after_makeEntry]
    obtain ⟨problem, herror, herror'⟩ | ⟨t, t', hok, hok', hwritten⟩ :=
      hdecided hd hd' hscript hread
    · rw [herror, herror']
      exact ⟨fun cell hcell => hread cell (hsub hcell), _, rfl, rfl⟩
    · rw [hok, hok']
      exact ⟨hwritten, [], (List.append_nil _).symm, (List.append_nil _).symm⟩

/-- A name that is entered unless it is taken. -/
theorem enterNew {kind : SymbolKind} {name : String} {range : Option Range}
    {taken : Symbols → Bool} {add : Symbols → Symbols} (hsub : writes ⊆ reads)
    (hscript : ∀ s, (add s).SameScript s) (hkeeps : ∀ s, inv s → inv (add s))
    (hframe : ∀ s, inv s → ∀ cell ∉ writes, (add s).read cell = s.read cell)
    (hdecided : ∀ s s', inv s → inv s' → s.SameScript s' →
      (∀ cell ∈ reads, s.read cell = s'.read cell) → taken s = taken s' ∧
        ∀ cell ∈ writes, (add s).read cell = (add s').read cell) :
    Footprint inv (enterNew kind name range taken add) reads writes := by
  have hadded {s t : Symbols} (hok : (if taken s then Except.error (Problem.duplicate kind name)
      else .ok (add s)) = .ok t) : t = add s := by
    split at hok
    · cases hok
    · exact (Except.ok.inj hok).symm
  refine of_entry hsub (fun hok => hadded hok ▸ hscript _) (fun hok => hadded hok ▸ hkeeps _)
    (fun hok => hadded hok ▸ hframe _) fun {s s'} hs hs' hscript hread => ?_
  obtain ⟨htaken, hwritten⟩ := hdecided s s' hs hs' hscript hread
  rw [← htaken]
  cases taken s with
  | true => exact .inl ⟨_, rfl, rfl⟩
  | false => exact .inr ⟨_, _, rfl, rfl, hwritten⟩

theorem each {α : Type} {f : α → DeclareM Unit} : (xs : List α) →
    (∀ x ∈ xs, Footprint inv (f x) reads writes) → writes ⊆ reads →
    Footprint inv (each f xs) reads writes
  | [], _, hsub => pure.mono (Set.empty_subset _) (Set.empty_subset _) hsub
  | x :: xs, h, hsub =>
    (h x List.mem_cons_self).bind (each xs (fun y hy => h y (List.mem_cons_of_mem _ hy)) hsub)

end Footprint

/-! ## Exchanging declarations -/

/-- Every name stands for the same, and the complaints are the same but for their order. -/
structure Alike (inv : Symbols → Prop) (d d' : Declarations) : Prop where
  symbols : d.symbols.Agree d'.symbols
  left : inv d.symbols
  right : inv d'.symbols
  diagnostics : d.diagnostics.Perm d'.diagnostics

theorem Alike.of_inv {inv : Symbols → Prop} {d : Declarations} (h : inv d.symbols) :
    Alike inv d d :=
  ⟨.refl _, h, h, .refl _⟩

theorem Alike.trans {inv : Symbols → Prop} {d d' d'' : Declarations} (h : Alike inv d d')
    (h' : Alike inv d' d'') : Alike inv d d'' :=
  ⟨h.symbols.trans h'.symbols, h.left, h'.right, h.diagnostics.trans h'.diagnostics⟩

namespace Footprint

variable {inv : Symbols → Prop} {m m' : DeclareM Unit} {reads reads' writes writes' : Set Cell}
  {d d' : Declarations}

theorem alike (h : Footprint inv m reads writes) (hd : Alike inv d d') :
    Alike inv (after m d) (after m d') := by
  have hscript := hd.symbols.sameScript
  obtain ⟨hwritten, added, hadded, hadded'⟩ := h.decided d d' hd.left hd.right hscript
    fun cell _ => hd.symbols.read cell
  refine ⟨.of_read ?_ fun cell => ?_, h.keeps d hd.left, h.keeps d' hd.right, ?_⟩
  · exact (h.script d).trans (hscript.trans (h.script d').symm)
  · by_cases hmem : cell ∈ writes
    · exact hwritten cell hmem
    · rw [h.frame d hd.left cell hmem, h.frame d' hd.right cell hmem]
      exact hd.symbols.read cell
  · rw [hadded, hadded']
    exact hd.diagnostics.append_right added

/-- Neither of two computations is decided by what the other one writes, so they can be done in
either order. -/
theorem comm (h : Footprint inv m reads writes) (h' : Footprint inv m' reads' writes')
    (hsub : writes' ⊆ reads') (hdis : Disjoint writes reads') (hdis' : Disjoint writes' reads)
    (hd : inv d.symbols) : Alike inv (after m' (after m d)) (after m (after m' d)) := by
  have hread : ∀ cell ∈ reads, (after m' d).symbols.read cell = d.symbols.read cell :=
    fun cell hcell => h'.frame d hd cell fun hmem => Set.disjoint_left.1 hdis' hmem hcell
  have hread' : ∀ cell ∈ reads', (after m d).symbols.read cell = d.symbols.read cell :=
    fun cell hcell => h.frame d hd cell fun hmem => Set.disjoint_left.1 hdis hmem hcell
  obtain ⟨hwritten, added, hadded, hadded₀⟩ :=
    h.decided _ d (h'.keeps d hd) hd (h'.script d) hread
  obtain ⟨hwritten', more, hmore, hmore₀⟩ :=
    h'.decided _ d (h.keeps d hd) hd (h.script d) hread'
  refine ⟨.of_read ?_ fun cell => ?_, h'.keeps _ (h.keeps d hd), h.keeps _ (h'.keeps d hd), ?_⟩
  · exact ((h'.script _).trans (h.script d)).trans ((h.script _).trans (h'.script d)).symm
  · by_cases hmem : cell ∈ writes
    · have hmem' : cell ∉ writes' := fun hmem' => Set.disjoint_left.1 hdis hmem (hsub hmem')
      rw [h'.frame _ (h.keeps d hd) cell hmem', hwritten cell hmem]
    · rw [h.frame _ (h'.keeps d hd) cell hmem]
      by_cases hmem' : cell ∈ writes'
      · exact hwritten' cell hmem'
      · rw [h'.frame _ (h.keeps d hd) cell hmem', h.frame d hd cell hmem, h'.frame d hd cell hmem']
  · rw [hmore, hadded, hadded₀, hmore₀, List.append_assoc, List.append_assoc]
    exact List.perm_append_comm.append_left d.diagnostics

/-- A list of declarations can be reordered as far as its members write nothing that the others
look at. -/
theorem each_reordered {α : Type} {f : α → DeclareM Unit} {free : α → α → Prop}
    {reads writes : α → Set Cell} (hf : ∀ x, Footprint inv (f x) (reads x) (writes x))
    (hsub : ∀ x, writes x ⊆ reads x)
    (hfree : ∀ x y, free x y → Disjoint (writes x) (reads y) ∧ Disjoint (writes y) (reads x))
    {xs ys : List α} (h : Reordered free xs ys) :
    ∀ {d d'}, Alike inv d d' →
      Alike inv (after (Declare.each f xs) d) (after (Declare.each f ys) d') := by
  have hsame : ∀ (xs : List α) {d d'}, Alike inv d d' →
      Alike inv (after (Declare.each f xs) d) (after (Declare.each f xs) d') := by
    intro xs
    induction xs with
    | nil => exact fun hd => hd
    | cons x xs ih => exact fun hd => ih ((hf x).alike hd)
  induction h with
  | nil => exact fun hd => hd
  | cons x _ ih => exact fun hd => ih ((hf x).alike hd)
  | @swap x y hxy xs =>
    intro d d' hd
    obtain ⟨hdis, hdis'⟩ := hfree x y hxy
    have hexchanged := (hf x).comm (hf y) (hsub y) hdis hdis' hd.left
    exact hsame xs (hexchanged.trans ((hf x).alike ((hf y).alike hd)))
  | trans _ _ ih₁ ih₂ => exact fun hd => (ih₁ (.of_inv hd.left)).trans (ih₂ hd)

end Footprint

/-- If one of two declarations that are free of each other does nothing, reordering makes no
difference at all. -/
theorem each_eq_of_reordered {α : Type} {f : α → DeclareM Unit} {free : α → α → Prop}
    (hfree : ∀ x y, free x y → f x = pure () ∨ f y = pure ()) {xs ys : List α}
    (h : Reordered free xs ys) : each f xs = each f ys := by
  induction h with
  | nil => rfl
  | cons x _ ih => rw [each, each, ih]
  | @swap x y hxy xs =>
    simp only [each]
    rcases hfree x y hxy with hx | hy
    · rw [hx]
      rfl
    · rw [hy]
      rfl
  | trans _ _ ih₁ ih₂ => exact ih₁.trans ih₂

end Declare

end ScriptCheck
