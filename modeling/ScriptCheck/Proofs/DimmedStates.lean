import ScriptCheck.Proofs.Grades

/-!
# A check that sees faded types

The second of two checks is dimmed: it sees local variables with types that have faded as far as an
outlook allows, and has no error in its report that is not in the report of the first one
(`Dimmed`). The scopes in which the two checks stand may be numbered differently, since the second
one infers a lambda where the first one checks it.

Computations that only write to the report keep the states related as long as the second one adds
no error of its own (`Dim.write`), and so does everything that only the first check does and that
changes no scope which is open already (`Dim.left`).
-/

namespace ScriptCheck

open Check

/-! ## Errors -/

/-- The errors among diagnostics, by range and category. -/
def chargesOf (ds : List Diagnostic) : List (Range × Category) :=
  (ds.filter Diagnostic.isError).map fun d => (d.range, d.problem.category)

/-- The errors of a report, by range and category. -/
def Report.charges (r : Report) : List (Range × Category) := chargesOf r.diagnostics

@[simp]
theorem chargesOf_append (ds es : List Diagnostic) :
    chargesOf (ds ++ es) = chargesOf ds ++ chargesOf es := by
  simp [chargesOf]

/-! ## Scopes -/

/-- Two local variables of one name whose types differ no further than the grade says. -/
structure Local.Dims (grade : Option Grade) (v v' : Local) : Prop where
  isConst : v'.isConst = v.isConst
  isParam : v'.isParam = v.isParam
  ty : ∃ g, grade = some g ∧ g.Allows v.ty v'.ty

/-- Two scopes with the same names. -/
structure Scope.Dims (o : Outlook) (scope scope' : Scope) : Prop where
  kind : scope'.kind = scope.kind
  locals (name : String) :
    Option.Rel (Local.Dims (o.var? name)) (scope.locals.get? name) (scope'.locals.get? name)

/-- The scopes on two paths, pair by pair. -/
structure Scopes.Dims (o : Outlook) (s s' : Scopes) (path path' : List Nat) : Prop where
  isPath : s.Path path
  isPath' : s'.Path path'
  scopes : List.Forall₂
    (fun i i' => Option.Rel (Scope.Dims o) s.scopes[i]? s'.scopes[i']?) path path'

namespace Scopes.Dims

variable {o : Outlook} {s s' t : Scopes} {id id' : Nat} {rest rest' path path' : List Nat}

variable (h : Dims o s s' (id :: rest) (id' :: rest'))

include h

/-- The paths are left by one scope. -/
theorem tail : Dims o s s' rest rest' := by
  cases h.scopes with
  | cons _ hrest => exact ⟨h.isPath.2, h.isPath'.2, hrest⟩

theorem head : Option.Rel (Scope.Dims o) s.scopes[id]? s'.scopes[id']? := by
  cases h.scopes with
  | cons hhead _ => exact hhead

omit h in
/-- Scopes that are not on the paths do not matter. -/
theorem congr_left (h : Dims o s s' path path') (ht : ∀ i ∈ path, t.scopes[i]? = s.scopes[i]?) :
    Dims o t s' path path' := by
  refine ⟨h.isPath.congr fun i hi => by rw [ht i hi], h.isPath', ?_⟩
  simpa using forall₂_mapped (f := fun i => i) (g := fun i => i) h.scopes fun i hi i' _ hii' => by
    rw [ht i hi]
    exact hii'

omit h in
theorem congr_right (h : Dims o s s' path path') (ht : ∀ i ∈ path', t.scopes[i]? = s'.scopes[i]?) :
    Dims o s t path path' := by
  refine ⟨h.isPath, h.isPath'.congr fun i hi => by rw [ht i hi], ?_⟩
  simpa using forall₂_mapped (f := fun i => i) (g := fun i => i) h.scopes fun i _ i' hi' hii' => by
    rw [ht i' hi']
    exact hii'

omit h in
theorem push (h : Dims o s s' path path') (parent parent' : Option Nat) (kind : ScopeKind) :
    Dims o (s.push parent kind) (s'.push parent' kind) path path' := by
  refine (h.congr_left fun i hi => ?_).congr_right fun i hi => ?_
  · rw [scopes_push, if_pos (h.isPath.lt_size i hi)]
  · rw [scopes_push, if_pos (h.isPath'.lt_size i hi)]

theorem nested (kind : ScopeKind) :
    Dims o (s.push (some id) kind) (s'.push (some id') kind) (s.size :: id :: rest)
      (s'.size :: id' :: rest') := by
  have hold := h.push (some id) (some id') kind
  refine ⟨h.isPath.nested kind, h.isPath'.nested kind, .cons ?_ hold.scopes⟩
  rw [scopes_push, scopes_push, if_neg (Nat.lt_irrefl _), if_neg (Nat.lt_irrefl _), if_pos rfl,
    if_pos rfl]
  exact .some ⟨rfl, fun _ => .none⟩

theorem declare (name : String) {v v' : Local} (hv : v.Dims (o.var? name) v') :
    Dims o (s.declare id name v) (s'.declare id' name v') (id :: rest) (id' :: rest') := by
  have hother {s : Scopes} {id : Nat} {rest : List Nat} (hpath : s.Path (id :: rest)) (v : Local) :
      ∀ i ∈ rest, (s.declare id name v).scopes[i]? = s.scopes[i]? := by
    intro i hi
    have hne : id ≠ i := (hpath.lt_head i hi).ne'
    simp [scopes_declare, hne]
  have hrest := (h.tail.congr_left (hother h.isPath v)).congr_right (hother h.isPath' v')
  refine ⟨h.isPath.declare id name v, h.isPath'.declare id' name v', .cons ?_ hrest.scopes⟩
  rw [scopes_declare, scopes_declare]
  have hhead := h.head
  generalize s.scopes[id]? = scope, s'.scopes[id']? = scope' at hhead ⊢
  cases hhead with
  | none => exact .none
  | some hscope =>
    simp only [Option.map_some, if_true]
    refine .some ⟨hscope.kind, fun other => ?_⟩
    rw [Table.get?_insert, Table.get?_insert]
    split
    · rename_i heq
      exact .some (heq ▸ hv)
    · exact hscope.locals other

theorem enclosing : List.Forall₂ (Scope.Dims o) (s.enclosing id) (s'.enclosing id') := by
  rw [h.isPath.enclosing, h.isPath'.enclosing]
  exact List.rel_filterMap (fun _ _ hscope => hscope) h.scopes

theorem local? (name : String) :
    Option.Rel (Local.Dims (o.var? name)) (s.local? id name) (s'.local? id' name) := by
  have henclosing := h.enclosing
  unfold Scopes.local?
  generalize s.enclosing id = scopes at henclosing
  generalize s'.enclosing id' = scopes' at henclosing
  induction henclosing with
  | nil => exact .none
  | @cons scope scope' _ _ hscope _ ih =>
    rw [List.findSome?_cons, List.findSome?_cons]
    have hlocal := hscope.locals name
    generalize scope.locals.get? name = v, scope'.locals.get? name = v' at hlocal ⊢
    cases hlocal with
    | none => exact ih
    | some hv => exact .some hv

/-- The kinds of the scopes are the same. -/
theorem kinds_eq : (s'.enclosing id').map Scope.kind = (s.enclosing id).map Scope.kind := by
  have henclosing := h.enclosing
  generalize s.enclosing id = scopes at henclosing
  generalize s'.enclosing id' = scopes' at henclosing
  induction henclosing with
  | nil => rfl
  | cons hscope _ ih => rw [List.map_cons, List.map_cons, hscope.kind, ih]

theorem inLoop_eq : s'.inLoop id' = s.inLoop id := by
  have hkinds (s : Scopes) (id : Nat) : s.inLoop id =
      (((s.enclosing id).map Scope.kind).find? (· != .block)).any (· == .loop) := by
    rw [Scopes.inLoop, List.find?_map, Option.any_map]
    rfl
  rw [hkinds, hkinds, h.kinds_eq]

theorem returnType?_eq : s'.returnType? id' = s.returnType? id := by
  rw [Scopes.returnType?_eq_findSome?, Scopes.returnType?_eq_findSome?, h.kinds_eq]

theorem isSome_own?_eq (name : String) : (s'.own? id' name).isSome = (s.own? id name).isSome := by
  have hhead := h.head
  unfold Scopes.own?
  generalize s.scopes[id]? = scope, s'.scopes[id']? = scope' at hhead ⊢
  cases hhead with
  | none => rfl
  | @some scope scope' hscope =>
    have hlocal := hscope.locals name
    simp only [Option.bind_some]
    generalize scope.locals.get? name = v, scope'.locals.get? name = v' at hlocal ⊢
    cases hlocal <;> rfl

end Scopes.Dims

/-! ## Writing to the report -/

namespace Check

variable {α β : Type}

/-- The computation only writes to the report. -/
def Notes (m : CheckM α) : Prop := ∀ v, ∃ a added, Writes v m a added

namespace Notes

theorem pure (a : α) : Notes (pure a) := fun _ => ⟨a, [], .pure a⟩

theorem bind {m : CheckM α} {k : α → CheckM β} (hm : Notes m) (hk : ∀ a, Notes (k a)) :
    Notes (m >>= k) := by
  intro v
  obtain ⟨a, added, hwrites⟩ := hm v
  obtain ⟨b, more, hmore⟩ := hk a v
  exact ⟨b, added ++ more, hwrites.bind hmore⟩

theorem symbols {k : Symbols → CheckM α} (hk : ∀ s, Notes (k s)) : Notes (symbols >>= k) := by
  intro v
  obtain ⟨a, added, hwrites⟩ := hk v.symbols v
  exact ⟨a, added, .symbols hwrites⟩

theorem ask {expected found : Ty} {k : Bool → CheckM α} (hk : ∀ answer, Notes (k answer)) :
    Notes (Comparing.ask expected found >>= k) := by
  intro v
  obtain ⟨a, added, hwrites⟩ := hk (v.symbols.accepts expected found) v
  exact ⟨a, added, .symbols (k := fun s => k (s.accepts expected found)) hwrites⟩

theorem error (problem : Problem) (range : Range) : Notes (error problem range) :=
  fun _ => ⟨(), _, .error problem range⟩

theorem expect (expected found : Ty) (range : Range) : Notes (expect expected found range) := by
  refine ask fun _ => ?_
  split
  · exact pure ()
  · exact error _ _

end Notes

/-- The computation only writes to the report, and writes no errors. -/
def Hushed (m : CheckM α) : Prop :=
  ∀ v, ∃ a added, Writes v m a added ∧ chargesOf added = []

namespace Hushed

variable {m : CheckM α} {k : α → CheckM β}

theorem notes (h : Hushed m) : Notes m :=
  fun v => (h v).imp fun _ ha => ha.imp fun _ hadded => hadded.1

theorem bind (hm : Hushed m) (hk : ∀ a, Hushed (k a)) : Hushed (m >>= k) := by
  intro v
  obtain ⟨a, added, hwrites, hadded⟩ := hm v
  obtain ⟨b, more, hmore, hnone⟩ := hk a v
  exact ⟨b, added ++ more, hwrites.bind hmore, by rw [chargesOf_append, hadded, hnone]; rfl⟩

theorem pure (a : α) : Hushed (pure a) := fun _ => ⟨a, [], .pure a, rfl⟩

theorem ask {expected found : Ty} {k : Bool → CheckM α} (hk : ∀ answer, Hushed (k answer)) :
    Hushed (Comparing.ask expected found >>= k) := by
  intro v
  obtain ⟨a, added, hwrites, hadded⟩ := hk (v.symbols.accepts expected found) v
  exact ⟨a, added, .symbols (k := fun s => k (s.accepts expected found)) hwrites, hadded⟩

theorem note {change : Report → Report} {added : List Diagnostic}
    (h : ∀ r, (change r).diagnostics = r.diagnostics ++ added) (hadded : chargesOf added = []) :
    Hushed (note change) :=
  fun _ => ⟨(), added, .note h, hadded⟩

theorem token (range : Range) (kind : TokenKind) (modifiers : List TokenModifier) :
    Hushed (token range kind modifiers) :=
  fun _ => ⟨(), [], .token _ _ _, rfl⟩

theorem link (range : Range) (definition : Option Definition) : Hushed (link range definition) :=
  fun _ => ⟨(), [], .link _ _, rfl⟩

theorem hover (range : Range) (name : String) (ty : Ty) (description : String) :
    Hushed (hover range name ty description) :=
  fun _ => ⟨(), [], .hoverText _ _, rfl⟩

theorem inlay (range : Range) (ty : Ty) : Hushed (inlay range ty) :=
  note (fun _ => (List.append_nil _).symm) rfl

theorem setType (range : Range) (ty : Ty) : Hushed (setType range ty) :=
  note (fun _ => (List.append_nil _).symm) rfl

theorem warn (problem : Problem) (range : Range) : Hushed (warn problem range) :=
  note (fun _ => rfl) rfl

end Hushed

end Check

/-- From the first state to the second, no open scope was changed and errors were only added. -/
structure Checker.Grows (c d : Checker) : Prop where
  view : d.view = c.view
  muted : d.muted = c.muted
  size : c.scopes.size ≤ d.scopes.size
  scopes : ∀ i < c.scopes.size, d.scopes.scopes[i]? = c.scopes.scopes[i]?
  charges : c.report.charges ⊆ d.report.charges

namespace Check

variable {α β : Type}

/-- The computation changes no open scope and only adds errors. -/
def Grows (m : CheckM α) : Prop := ∀ c : Checker, c.Grows (m.run c).2

namespace Grows

variable {m : CheckM α} {k : α → CheckM β}

theorem pure (a : α) : Grows (pure a) :=
  fun _ => ⟨rfl, rfl, Nat.le_refl _, fun _ _ => rfl, List.Subset.refl _⟩

theorem bind (hm : Grows m) (hk : ∀ a, Grows (k a)) : Grows (m >>= k) := by
  intro c
  have hfirst := hm c
  have hsecond := hk (m.run c).1 (m.run c).2
  refine ⟨hsecond.view.trans hfirst.view, hsecond.muted.trans hfirst.muted,
    hfirst.size.trans hsecond.size, fun i hi => ?_,
    List.Subset.trans hfirst.charges hsecond.charges⟩
  exact (hsecond.scopes i (Nat.lt_of_lt_of_le hi hfirst.size)).trans (hfirst.scopes i hi)

/-- What is only written only adds. -/
theorem of_notes (h : Notes m) : Grows m := by
  intro c
  obtain ⟨a, added, hwrites⟩ := h c.view
  obtain ⟨-, hnoted⟩ := hwrites c rfl
  refine ⟨hnoted.view, hnoted.muted, hnoted.scopes ▸ Nat.le_refl _,
    fun i _ => by rw [hnoted.scopes], ?_⟩
  rw [Report.charges, Report.charges, hnoted.diagnostics, chargesOf_append]
  exact List.subset_append_left _ _

end Grows

end Check

/-! ## The states of both checks -/

/-- The second state is one of a check that sees what the outlook allows and has complained about
nothing that the first one has not complained about. -/
structure Dimmed (o : Outlook) (path path' : List Nat) (c c' : Checker) : Prop where
  symbols : c.view.symbols = o.symbols
  view : c'.view = c.view
  muted : c'.muted = c.muted
  charges : c'.report.charges ⊆ c.report.charges
  scopes : c.scopes.Dims o c'.scopes path path'

namespace Dimmed

variable {o : Outlook} {path path' : List Nat} {c c' d d' : Checker}

/-- Both checks write to their reports. -/
theorem noted (h : Dimmed o path path' c c') {added added' : List Diagnostic}
    (hd : Checker.Noted added c d) (hd' : Checker.Noted added' c' d')
    (hadded : chargesOf added' ⊆ chargesOf added) : Dimmed o path path' d d' := by
  refine ⟨by rw [hd.view, h.symbols], by rw [hd.view, hd'.view, h.view],
    by rw [hd.muted, hd'.muted, h.muted], ?_, by rw [hd.scopes, hd'.scopes]; exact h.scopes⟩
  rw [Report.charges, Report.charges, hd.diagnostics, hd'.diagnostics, h.muted, chargesOf_append,
    chargesOf_append]
  refine List.append_subset.2 ⟨List.Subset.trans h.charges (List.subset_append_left _ _), ?_⟩
  split
  · exact List.Subset.trans hadded (List.subset_append_right _ _)
  · exact List.nil_subset _

/-- The first check goes on alone. -/
theorem grows (h : Dimmed o path path' c c') (hd : c.Grows d) : Dimmed o path path' d c' := by
  refine ⟨by rw [hd.view, h.symbols], by rw [hd.view, h.view], by rw [hd.muted, h.muted],
    List.Subset.trans h.charges hd.charges, h.scopes.congr_left fun i hi => ?_⟩
  exact hd.scopes i (h.scopes.isPath.lt_size i hi)

end Dimmed

/-- The two computations lead to related states again. -/
def Dim {α β : Type} (o : Outlook) (path path' : List Nat) (Q : α → β → Prop) (m : CheckM α)
    (m' : CheckM β) : Prop :=
  Coupled (Dimmed o path path') Q m m'

namespace Dim

variable {o : Outlook} {path path' : List Nat} {α β γ δ : Type} {Q : α → β → Prop}
  {P : γ → δ → Prop} {m : CheckM α} {m' : CheckM β} {k : α → CheckM γ} {k' : β → CheckM δ}

theorem pure {a : α} {b : β} (h : Q a b) : Dim o path path' Q (pure a) (pure b) := Coupled.pure h

theorem bind (hm : Dim o path path' Q m m')
    (hk : ∀ a b, Q a b → Dim o path path' P (k a) (k' b)) :
    Dim o path path' P (m >>= k) (m' >>= k') :=
  Coupled.bind hm hk

theorem map {f : α → γ} {f' : β → δ} (hm : Dim o path path' Q m m')
    (hf : ∀ a b, Q a b → P (f a) (f' b)) : Dim o path path' P (f <$> m) (f' <$> m') :=
  hm.bind fun a b hab => pure (hf a b hab)

theorem mono {Q' : α → β → Prop} (hm : Dim o path path' Q m m') (h : ∀ a b, Q a b → Q' a b) :
    Dim o path path' Q' m m' :=
  Coupled.mono hm h

theorem returning {S : α → Prop} (hm : Dim o path path' Q m m') (hS : Returns S m) :
    Dim o path path' (fun a b => Q a b ∧ S a) m m' :=
  fun c _ hc => ⟨⟨(hm hc).1, hS c⟩, (hm hc).2⟩

theorem get {k : Checker → CheckM γ} {k' : Checker → CheckM δ}
    (hk : ∀ c c', Dimmed o path path' c c' → Dim o path path' P (k c) (k' c')) :
    Dim o path path' P (get >>= k) (get >>= k') :=
  Coupled.get hk

theorem symbols {k : Symbols → CheckM γ} {k' : Symbols → CheckM δ}
    (hk : Dim o path path' P (k o.symbols) (k' o.symbols)) :
    Dim o path path' P (symbols >>= k) (symbols >>= k') := by
  intro c c' h
  change P ((k c.view.symbols).run c).1 ((k' c'.view.symbols).run c').1 ∧
    Dimmed o path path' ((k c.view.symbols).run c).2 ((k' c'.view.symbols).run c').2
  rw [h.view, h.symbols]
  exact hk h

theorem ask {expected found expected' found' : Ty} {k : Bool → CheckM γ} {k' : Bool → CheckM δ}
    (hk : Dim o path path' P (k (o.symbols.accepts expected found))
      (k' (o.symbols.accepts expected' found'))) :
    Dim o path path' P (Comparing.ask expected found >>= k)
      (Comparing.ask expected' found' >>= k') := by
  intro c c' h
  rw [run_ask_bind, run_ask_bind, h.view, h.symbols]
  exact hk h

/-- Both checks write to their reports, the second one no more errors than the first one. -/
theorem write (h : ∀ v, v.symbols = o.symbols → ∃ a a' added added', Writes v m a added ∧
      Writes v m' a' added' ∧ Q a a' ∧ chargesOf added' ⊆ chargesOf added) :
    Dim o path path' Q m m' := by
  intro c c' hc
  obtain ⟨a, a', added, added', hwrites, hwrites', hQ, hadded⟩ := h c.view hc.symbols
  obtain ⟨hvalue, hnoted⟩ := hwrites c rfl
  obtain ⟨hvalue', hnoted'⟩ := hwrites' c' hc.view
  exact ⟨by rw [hvalue, hvalue']; exact hQ, hc.noted hnoted hnoted' hadded⟩

/-- Both checks write the same. -/
theorem same {m : CheckM α} (h : Notes m) :
    Dim o path path' (fun a b => b = a) m m :=
  write fun v _ => by
    obtain ⟨a, added, hwrites⟩ := h v
    exact ⟨a, a, added, added, hwrites, hwrites, rfl, List.Subset.refl _⟩

/-- Both checks write something that is no error. -/
theorem hushed (h : Hushed m) (h' : Hushed m') : Dim o path path' (fun _ _ => True) m m' :=
  write fun v _ => by
    obtain ⟨a, added, hwrites, -⟩ := h v
    obtain ⟨a', added', hwrites', hnone⟩ := h' v
    exact ⟨a, a', added, added', hwrites, hwrites', trivial, hnone ▸ List.nil_subset _⟩

/-- Only the first check does something. -/
theorem left {m' : CheckM δ} (h : Grows m) (hk : ∀ a, Dim o path path' P (k a) m') :
    Dim o path path' P (m >>= k) m' :=
  fun c _ hc => hk (m.run c).1 (hc.grows (h c))

theorem leftLast {b : β} (h : Grows m) (hQ : Returns (Q · b) m) :
    Dim o path path' Q m (Pure.pure b) :=
  fun c _ hc => ⟨hQ c, hc.grows (h c)⟩

/-- After both checks have done something, the first one does more. -/
theorem thenLeft (hm : Dim o path path' Q m m') (hk : ∀ a, Grows (k a)) :
    Dim o path path' (fun _ _ => True) (m >>= k) m' :=
  fun _ _ hc => ⟨trivial, (hm hc).2.grows (hk _ _)⟩

/-- The second check ends with a value of its own. -/
theorem thenRight {b : δ} {P : α → δ → Prop} (hm : Dim o path path' Q m m') (hP : ∀ a, P a b) :
    Dim o path path' P m (m' >>= fun _ => Pure.pure b) :=
  fun _ _ hc => ⟨hP _, (hm hc).2⟩

/-- Only the second check does something, and it writes no errors. -/
theorem right {m : CheckM γ} (h : Hushed m') (hk : ∀ b, Dim o path path' P m (k' b)) :
    Dim o path path' P m (m' >>= k') := by
  intro c c' hc
  obtain ⟨a', added', hwrites', hnone⟩ := h c'.view
  obtain ⟨hvalue', hnoted'⟩ := hwrites' c' rfl
  have hstay : Checker.Noted [] c c :=
    ⟨rfl, rfl, rfl, by simp only [ite_self, List.append_nil]⟩
  exact hk (m'.run c').1 (hc.noted hstay hnoted' (hnone ▸ List.nil_subset _))

/-- Both checks complain about the same. -/
theorem error {problem problem' : Problem} (h : problem'.category = problem.category)
    (range : Range) :
    Dim o path path' (fun _ _ => True) (error problem range) (error problem' range) :=
  write fun _ _ => ⟨(), (), _, _, .error problem range, .error problem' range, trivial, by
    simp [chargesOf, Diagnostic.isError, h]⟩

/-- The second comparison succeeds if the first one does. -/
theorem expect {expected found expected' found' : Ty} (range : Range)
    (h : o.symbols.accepts expected found = true → o.symbols.accepts expected' found' = true) :
    Dim o path path' (fun _ _ => True) (expect expected found range)
      (expect expected' found' range) := by
  refine ask ?_
  by_cases hfound : o.symbols.accepts expected found = true
  · rw [if_pos hfound, if_pos (h hfound)]
    exact pure trivial
  · rw [if_neg hfound]
    split
    · exact leftLast (.of_notes (.error _ _)) fun _ => trivial
    · exact error (by rfl) range

/-! ## Scopes -/

variable {id id' : Nat} {rest rest' : List Nat}

theorem enter (name : String) {v v' : Local} (h : v.Dims (o.var? name) v') :
    Dim o (id :: rest) (id' :: rest') (fun _ _ => True) (enter id name v) (enter id' name v') :=
  fun _ _ hc => ⟨trivial, hc.symbols, hc.view, hc.muted, hc.charges, hc.scopes.declare name h⟩

/-- The checks go on in scopes of their own and come back. -/
theorem nested {body body' : Nat → CheckM α} {k k' : Nat → α → CheckM γ} {R : α → α → Prop}
    {P : γ → γ → Prop} (kind : ScopeKind)
    (hbody : ∀ inner inner', Dim o (inner :: id :: rest) (inner' :: id' :: rest') R (body inner)
      (body' inner'))
    (hk : ∀ inner inner' a a', R a a' →
      Dim o (id :: rest) (id' :: rest') P (k inner a) (k' inner' a')) :
    Dim o (id :: rest) (id' :: rest') P
      (do let inner ← openScope (some id) kind; body inner >>= k inner)
      (do let inner ← openScope (some id') kind; body' inner >>= k' inner) := by
  intro c c' hc
  obtain ⟨hvalue, hend⟩ := hbody _ _
    (⟨hc.symbols, hc.view, hc.muted, hc.charges, hc.scopes.nested kind⟩ : Dimmed o
      (c.scopes.size :: id :: rest) (c'.scopes.size :: id' :: rest')
      { c with scopes := c.scopes.push (some id) kind }
      { c' with scopes := c'.scopes.push (some id') kind })
  exact hk _ _ _ _ hvalue ⟨hend.symbols, hend.view, hend.muted, hend.charges, hend.scopes.tail⟩

/-- The checks end in scopes of their own. -/
theorem nestedLast {body body' : Nat → CheckM α} {R : α → α → Prop} (kind : ScopeKind)
    (hbody : ∀ inner inner', Dim o (inner :: id :: rest) (inner' :: id' :: rest') R (body inner)
      (body' inner')) :
    Dim o (id :: rest) (id' :: rest') R (do let inner ← openScope (some id) kind; body inner)
      (do let inner ← openScope (some id') kind; body' inner) :=
  nested (k := fun _ a => Pure.pure a) kind hbody fun _ _ _ _ h => pure h

end Dim

end ScriptCheck
