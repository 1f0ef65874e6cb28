import ScriptCheck.Proofs.Substitution

/-!
# Instances of a type

A type with placeholders has an instance for each choice of bindings. Comparing it with an instance
finds the bindings again, except for placeholders that stand only inside arguments of library types,
which a comparison does not look into (`Ty.adopts_guess_fill`). The type that is filled with the
bindings found may thus have placeholders left where the instance has none, but either of them
accepts the other (`Symbols.interchange_of_fades`): what has faded goes with what it has faded from,
as long as no anonymous record lists a field name twice.
-/

namespace ScriptCheck

namespace Ty

/-! ## Records without repeated names -/

/-- An anonymous record lists no field name twice. -/
def ListsOnce : Ty → Prop
  | .record none items => (items.map Prod.fst).Nodup
  | _ => True

instance : DecidablePred ListsOnce
  | .record none items => inferInstanceAs (Decidable (items.map Prod.fst).Nodup)
  | .record (some _) _ | .unknown | .named _ | .applied _ _ | .array _ | .tuple _ | .option _
  | .result _ _ | .function _ | .placeholder _ => inferInstanceAs (Decidable True)

/-- No anonymous record inside the type lists a field name twice. -/
def Unambiguous (t : Ty) : Prop := ∀ part ∈ t.parts, part.ListsOnce

instance : DecidablePred Unambiguous :=
  fun t => inferInstanceAs (Decidable (∀ part ∈ t.parts, part.ListsOnce))

theorem unambiguous_iff {t : Ty} :
    t.Unambiguous ↔ t.ListsOnce ∧ ∀ c ∈ t.children, c.Unambiguous := by
  rw [Unambiguous, parts_eq, List.forall_mem_cons, List.forall_mem_flatMap]
  rfl

/-- Types of one form stay so under a weaker relation of the parts. -/
theorem Alike.imp {R S : Ty → Ty → Prop} {a b : Ty} (h : Alike R a b)
    (hRS : ∀ c ∈ a.children, ∀ d, R c d → S c d) : Alike S a b := by
  have hlist {α : Type} {P Q : α → α → Prop} {as bs : List α} (h : List.Forall₂ P as bs)
      (hPQ : ∀ x ∈ as, ∀ y, P x y → Q x y) : List.Forall₂ Q as bs := by
    simpa using forall₂_mapped (f := id) (g := id) h fun x hx y _ => hPQ x hx y
  cases h with
  | unknown => exact .unknown
  | placeholder name => exact .placeholder name
  | named q => exact .named q
  | bare q args => exact .bare q args
  | applied q h => exact .applied q (hlist h hRS)
  | array h => exact .array (hRS _ (by simp [children]) _ h)
  | option h => exact .option (hRS _ (by simp [children]) _ h)
  | result hok herr =>
    exact .result (hRS _ (by simp [children]) _ hok) (hRS _ (by simp [children]) _ herr)
  | tuple h => exact .tuple (hlist h hRS)
  | record name h =>
    exact .record name (hlist h fun x hx y hxy => ⟨hxy.1, hRS _ (List.mem_map_of_mem hx) _ hxy.2⟩)
  | function hparams hresult =>
    refine .function (hlist hparams fun p hp q hpq => hRS _ ?_ _ hpq)
      (hRS _ (by simp [children]) _ hresult)
    exact List.mem_append_left _ (List.mem_map_of_mem hp)

/-- Forms can be compared in either direction, unless arguments were lost. -/
theorem Alike.symm {R : Ty → Ty → Prop} (hsymm : ∀ a b, R a b → R b a) {a b : Ty}
    (h : Alike R a b) : Alike R b a ∨ ∃ q args, a = .applied q args ∧ b = .named q := by
  have hlist {α : Type} {S : α → α → Prop} (hS : ∀ x y, S x y → S y x) {xs ys : List α}
      (h : List.Forall₂ S xs ys) : List.Forall₂ S ys xs := h.flip.imp fun x y => hS y x
  cases h with
  | unknown => exact .inl .unknown
  | placeholder name => exact .inl (.placeholder name)
  | named q => exact .inl (.named q)
  | bare q args => exact .inr ⟨q, args, rfl, rfl⟩
  | applied q h => exact .inl (.applied q (hlist hsymm h))
  | array h => exact .inl (.array (hsymm _ _ h))
  | option h => exact .inl (.option (hsymm _ _ h))
  | result hok herr => exact .inl (.result (hsymm _ _ hok) (hsymm _ _ herr))
  | tuple h => exact .inl (.tuple (hlist hsymm h))
  | record name h =>
    exact .inl (.record name (hlist (fun x y hxy => ⟨hxy.1.symm, hsymm _ _ hxy.2⟩) h))
  | function hparams hresult =>
    exact .inl (.function (hlist (fun p q => hsymm p.ty q.ty) hparams) (hsymm _ _ hresult))

/-- Records of one form have the same names. -/
theorem Alike.listsOnce_iff {R : Ty → Ty → Prop} {a b : Ty} (h : Alike R a b) :
    b.ListsOnce ↔ a.ListsOnce := by
  cases h with
  | @record name as bs h =>
    cases name with
    | none =>
      have hnames : as.map Prod.fst = bs.map Prod.fst := by
        induction h with
        | nil => rfl
        | cons hxy _ ih => rw [List.map_cons, List.map_cons, hxy.1, ih]
      rw [ListsOnce, ListsOnce, hnames]
    | some q => exact Iff.rfl
  | _ => exact Iff.rfl

end Ty

/-! ## Accepting what has faded -/

namespace Inquiry

/-- All questions are about types that stand in the relation, and nothing else is in the way. -/
structure Affirmed (R : Ty → Ty → Prop) (i : Inquiry) : Prop where
  verdict : i.verdict = true
  questions : ∀ q ∈ i.questions, R q.1 q.2

variable {R : Ty → Ty → Prop}

theorem Affirmed.immediate : Affirmed R (immediate true) := ⟨rfl, nofun⟩

theorem Affirmed.pairs {as bs : List Ty} (h : List.Forall₂ R as bs) :
    Affirmed R ⟨as.zip bs, true⟩ :=
  ⟨rfl, fun _ hq => List.forall₂_zip h hq⟩

/-- A record covers fields that it has under the same names. -/
theorem Affirmed.covering {items : List (String × Ty)} : {fields : List (String × Ty)} →
    (∀ field ∈ fields, ∃ t, findItem? field.1 items = some t ∧ R field.2 t) →
    Affirmed R (covering items fields)
  | [], _ => immediate
  | (name, ty) :: rest, h => by
    obtain ⟨⟨t, ht, hR⟩, hrest⟩ := List.forall_mem_cons.1 h
    have hcovering := Affirmed.covering hrest
    rw [Inquiry.covering, ht]
    exact ⟨hcovering.verdict, List.forall_mem_cons.2 ⟨hR, hcovering.questions⟩⟩

/-- In a list that repeats no name, the item of a name is the one in the same place. -/
theorem exists_findItem? {items others : List (String × Ty)}
    (h : List.Forall₂ (fun x y => x.1 = y.1 ∧ R x.2 y.2) items others)
    (hnames : (items.map Prod.fst).Nodup) :
    ∀ item ∈ items, ∃ t, findItem? item.1 others = some t ∧ R item.2 t := by
  induction h with
  | nil => exact nofun
  | @cons x y items others hxy _ ih =>
    obtain ⟨hnew, hnames⟩ := List.nodup_cons.1 hnames
    refine List.forall_mem_cons.2 ⟨⟨y.2, ?_, hxy.2⟩, fun item hitem => ?_⟩
    · rw [findItem?, if_pos hxy.1.symm]
    · obtain ⟨t, ht, hR⟩ := ih hnames item hitem
      refine ⟨t, ?_, hR⟩
      rw [findItem?, if_neg, ht]
      rintro heq
      exact hnew (hxy.1.trans heq ▸ List.mem_map_of_mem hitem)

end Inquiry

namespace Symbols

open Ty Inquiry

variable {s : Symbols} {R : Ty → Ty → Prop} {a b : Ty}

/-- Comparing types of one form comes to compare their parts. -/
theorem affirmed_inquiry_of_alike (hsymm : ∀ a b, R a b → R b a) (h : Alike R a b)
    (hnames : a.ListsOnce) : Affirmed R (s.inquiry a b) := by
  unfold inquiry
  split
  · exact .immediate
  · rename_i hopen
    cases h with
    | unknown | placeholder => exact absurd rfl hopen
    | named q | bare q => exact ⟨beq_self_eq_true q, nofun⟩
    | applied q h =>
      dsimp only
      rw [if_pos ⟨rfl, h.length_eq⟩]
      exact .pairs h
    | array h | option h => exact .pairs (.cons h .nil)
    | result hok herr => exact .pairs (.cons hok (.cons herr .nil))
    | tuple h =>
      dsimp only
      rw [if_pos h.length_eq]
      exact .pairs h
    | record name h =>
      cases name with
      | none => exact .covering (exists_findItem? h hnames)
      | some q => exact ⟨beq_self_eq_true q, nofun⟩
    | @function f g hparams hresult =>
      have hzip : List.Forall₂ R (g.params.map Param.ty) (f.params.map Param.ty) := by
        simpa using hparams.flip.imp fun p q hpq => hsymm _ _ hpq
      dsimp only
      rw [if_pos hparams.length_eq]
      refine ⟨rfl, fun q hq => ?_⟩
      rcases List.mem_append.1 hq with hq | hq
      · exact List.forall₂_zip hzip hq
      · split at hq
        · cases hq
        · obtain rfl := List.mem_singleton.1 hq
          exact hresult

/-- A question is affirmed if its inquiry goes through. -/
theorem Answers.of_affirmed (h : Affirmed (fun c d => s.Answers (c, d) true) (s.inquiry a b)) :
    s.Answers (a, b) true := by
  -- the questions are finitely many, so that one bound serves all of them
  have hbound : ∀ qs : List Question, (∀ q ∈ qs, s.Answers q true) →
      ∃ n, ∀ q ∈ qs, s.accepts? n q.1 q.2 = some true := by
    intro qs
    induction qs with
    | nil => exact fun _ => ⟨0, nofun⟩
    | cons q rest ih =>
      intro hqs
      obtain ⟨⟨n, hn⟩, hrest⟩ := List.forall_mem_cons.1 hqs
      obtain ⟨m, hm⟩ := ih hrest
      refine ⟨max n m, List.forall_mem_cons.2 ⟨accepts?_mono (le_max_left n m) hn, ?_⟩⟩
      exact fun q hq => accepts?_mono (le_max_right n m) (hm q hq)
  obtain ⟨n, hn⟩ := hbound _ h.questions
  exact ⟨n + 1, (accepts?_succ ..).trans (settle_eq_true_iff.2 ⟨h.verdict, hn⟩)⟩

/-- Each of the two types accepts the other. -/
def Interchange (s : Symbols) (a b : Ty) : Prop := s.Answers (a, b) true ∧ s.Answers (b, a) true

theorem interchange_of_isOpen (hb : b.isOpen = true) : s.Interchange a b := by
  constructor
  · exact ⟨1, if_pos (by simp [hb])⟩
  · exact ⟨1, if_pos (by simp [hb])⟩

/-- A type goes with what it fades to, whatever the library accepts besides. -/
theorem interchange_of_fades {t : Ty} (ht : t.Unambiguous) (h : t.Fades isOpen a) :
    s.Interchange t a := by
  induction t using children_induction generalizing a with
  | h t ih =>
    obtain ⟨hnames, hchildren⟩ := unambiguous_iff.1 ht
    rcases fades_iff.1 h with hopen | halike
    · exact interchange_of_isOpen hopen
    · have halike : Alike s.Interchange t a :=
        halike.imp fun c hc d hcd => ih c hc (hchildren c hc) hcd
      have hsymm : ∀ c d, s.Interchange c d → s.Interchange d c := fun _ _ => And.symm
      have hyes {c d : Ty} (hcd : Affirmed s.Interchange (s.inquiry c d)) :
          s.Answers (c, d) true :=
        .of_affirmed ⟨hcd.verdict, fun q hq => (hcd.questions q hq).1⟩
      refine ⟨hyes (affirmed_inquiry_of_alike hsymm halike hnames), ?_⟩
      rcases halike.symm hsymm with hback | ⟨q, args, rfl, rfl⟩
      · exact hyes (affirmed_inquiry_of_alike hsymm hback (halike.listsOnce_iff.2 hnames))
      · refine hyes ?_
        unfold inquiry
        split
        · exact .immediate
        · exact ⟨beq_self_eq_true q, nofun⟩

end Symbols

/-! ## Finding the bindings of an instance -/

namespace Bindings

/-- The bindings of the names listed. -/
def restrict (s : Bindings) (names : List String) : Bindings :=
  ⟨s.entries.filter fun entry => entry.1 ∈ names⟩

theorem get?_restrict (s : Bindings) (names : List String) (name : String) :
    (s.restrict names).get? name = if name ∈ names then s.get? name else none := by
  simpa [restrict, Table.get?] using Table.find?_filter name (fun key => key ∈ names) s.entries

/-- The bindings `bound` with those that `s` has for the names listed. -/
def Adopts (s : Bindings) (names : List String) (bound more : Bindings) : Prop :=
  ∀ name, more.get? name = if name ∈ names then s.get? name else bound.get? name

namespace Adopts

variable {s bound more most : Bindings} {names others : List String}

theorem refl (s bound : Bindings) : s.Adopts [] bound bound := fun _ => by simp

theorem trans (h : s.Adopts names bound more) (h' : s.Adopts others more most) :
    s.Adopts (names ++ others) bound most := by
  intro name
  rw [h' name, h name]
  by_cases hother : name ∈ others <;> simp [hother]

/-- Bindings of `s` stay so. -/
theorem fewer (h : s.Adopts names bound more) (hbound : s.Fewer bound) : s.Fewer more := by
  intro name
  rw [h name]
  split
  · exact .inr rfl
  · exact hbound name

/-- These are the bindings of the names, and of the names that were bound before. -/
theorem agree_restrict_keys (h : s.Adopts names bound more) (hbound : s.Fewer bound) :
    more.Agree (s.restrict (bound.keys ++ names)) := by
  intro name
  have hkeys : name ∈ bound.keys ↔ (bound.get? name).isSome = true :=
    Table.contains_iff_mem_keys.symm
  simp only [h name, get?_restrict, List.mem_append, hkeys]
  by_cases hname : name ∈ names
  · simp [hname]
  · rcases hbound name with hnone | heq
    · simp [hname, hnone]
    · rw [← heq]
      cases bound.get? name <;> simp [hname]

/-- Without bindings to start from, these are the bindings of the names. -/
theorem agree_restrict (h : s.Adopts names {} more) : more.Agree (s.restrict names) :=
  h.agree_restrict_keys fun _ => .inl rfl

end Adopts

/-- The bindings give each name a type that is neither unknown nor a placeholder. -/
def Settles (s : Bindings) (names : List String) : Prop :=
  ∀ name ∈ names, ∃ t ∈ s.get? name, t.isOpen = false

instance (s : Bindings) (names : List String) : Decidable (s.Settles names) :=
  inferInstanceAs (Decidable (∀ name ∈ names, ∃ t ∈ s.get? name, t.isOpen = false))

theorem settles_append {s : Bindings} {names others : List String} :
    s.Settles (names ++ others) ↔ s.Settles names ∧ s.Settles others :=
  List.forall_mem_append

end Bindings

namespace Ty

open Bindings

mutual
/-- The placeholders of a type that a comparison with another type can bind: all but those inside
arguments of library types. -/
def exposed : Ty → List String
  | .placeholder name => [name]
  | .unknown | .named _ | .applied _ _ => []
  | .array element => element.exposed
  | .option inner => inner.exposed
  | .result ok err => ok.exposed ++ err.exposed
  | .tuple items => exposedOfList items
  | .record _ items => exposedOfItems items
  | .function s => exposedOfParams s.params ++ s.result.exposed

/-- The exposed placeholders of the types of a list. -/
def exposedOfList : List Ty → List String
  | [] => []
  | t :: rest => t.exposed ++ exposedOfList rest

/-- The exposed placeholders of record items. -/
def exposedOfItems : List (String × Ty) → List String
  | [] => []
  | (_, t) :: rest => t.exposed ++ exposedOfItems rest

/-- The exposed placeholders of parameters. -/
def exposedOfParams : List (Param Ty) → List String
  | [] => []
  | p :: rest => p.ty.exposed ++ exposedOfParams rest
end

variable {s bound : Bindings}

theorem adopts_insertNew (hbound : s.Fewer bound) {name : String} {t : Ty}
    (hname : s.get? name = some t) : s.Adopts [name] bound (bound.insertNew name t) := by
  intro other
  simp only [Table.insertNew, List.mem_singleton]
  split_ifs with hcontains heq heq
  · subst heq
    rw [Table.contains] at hcontains
    exact (hbound other).resolve_left fun hnone => by simp [hnone] at hcontains
  · rfl
  · rw [heq, Table.get?_insert_self, hname]
  · exact Table.get?_insert_of_ne bound heq t

mutual
/-- Comparing a type with an instance of it finds the bindings of its exposed placeholders. -/
theorem adopts_guess_fill (r : Registry) (bound : Bindings) (hbound : s.Fewer bound) : (t : Ty) →
    s.Settles t.exposed → s.Adopts t.exposed bound (guess bound t (t.fill r s))
  | .placeholder name, h => by
    obtain ⟨t, hname, hopen⟩ := h name List.mem_cons_self
    have hguess : guess bound (.placeholder name) t = bound.insertNew name t := by
      cases t <;> first | rfl | cases hopen
    rw [fill, hname, Option.getD_some, hguess]
    exact adopts_insertNew hbound hname
  | .unknown, _ => .refl s bound
  | .named q, _ => by
    have hguess : guess bound (.named q) (fill r s (.named q)) = bound := by
      simp only [fill]
      split <;> rfl
    rw [hguess]
    exact .refl s bound
  | .applied _ _, _ => .refl s bound
  | .array element, h => adopts_guess_fill r bound hbound element h
  | .option inner, h => adopts_guess_fill r bound hbound inner h
  | .result ok err, h => by
    have hok := adopts_guess_fill r bound hbound ok (settles_append.1 h).1
    exact hok.trans (adopts_guess_fill r _ (hok.fewer hbound) err (settles_append.1 h).2)
  | .tuple items, h => adopts_guessList_fill r bound hbound items h
  | .record _ items, h => adopts_guessItems_fill r bound hbound items h
  | .function f, h => by
    have hparams := adopts_guessParams_fill r bound hbound f.params (settles_append.1 h).1
    exact hparams.trans (adopts_guess_fill r _ (hparams.fewer hbound) f.result
      (settles_append.1 h).2)
termination_by structural t => t

theorem adopts_guessList_fill (r : Registry) (bound : Bindings) (hbound : s.Fewer bound) :
    (ts : List Ty) → s.Settles (exposedOfList ts) →
      s.Adopts (exposedOfList ts) bound (guessList bound ts (fillList r s ts))
  | [], _ => .refl s bound
  | t :: rest, h => by
    have ht := adopts_guess_fill r bound hbound t (settles_append.1 h).1
    exact ht.trans (adopts_guessList_fill r _ (ht.fewer hbound) rest (settles_append.1 h).2)
termination_by structural ts => ts

theorem adopts_guessItems_fill (r : Registry) (bound : Bindings) (hbound : s.Fewer bound) :
    (items : List (String × Ty)) → s.Settles (exposedOfItems items) →
      s.Adopts (exposedOfItems items) bound (guessItems bound items (fillItems r s items))
  | [], _ => .refl s bound
  | (_, t) :: rest, h => by
    have ht := adopts_guess_fill r bound hbound t (settles_append.1 h).1
    exact ht.trans (adopts_guessItems_fill r _ (ht.fewer hbound) rest (settles_append.1 h).2)
termination_by structural items => items

theorem adopts_guessParams_fill (r : Registry) (bound : Bindings) (hbound : s.Fewer bound) :
    (ps : List (Param Ty)) → s.Settles (exposedOfParams ps) →
      s.Adopts (exposedOfParams ps) bound (guessParams bound ps (fillParams r s ps))
  | [], _ => .refl s bound
  | p :: rest, h => by
    have hp := adopts_guess_fill r bound hbound p.ty (settles_append.1 h).1
    exact hp.trans (adopts_guessParams_fill r _ (hp.fewer hbound) rest (settles_append.1 h).2)
termination_by structural ps => ps
end

/-- Filling reads the bindings name by name. -/
theorem fill_congr (r : Registry) {bound bound' : Bindings} (h : bound.Agree bound') (t : Ty) :
    t.fill r bound = t.fill r bound' :=
  fill_congr_on fun name _ => h name

end Ty

/-- Guessing inverts filling. The type is compared with its instance under bindings `s`, starting
from some of these bindings. What is found is `s` on the names that were bound before and on the
placeholders that stand outside arguments of library types. -/
theorem guess_inverts_fill (r : Registry) (t : Ty) {s bound : Bindings}
    (hs : s.Settles t.exposed) (hbound : s.Fewer bound) :
    (Ty.guess bound t (t.fill r s)).Agree (s.restrict (bound.keys ++ t.exposed)) :=
  (Ty.adopts_guess_fill r bound hbound t hs).agree_restrict_keys hbound

namespace Pairing

/-- The type `(T, Cell<U>, fn(T, lib::Pair) -> Option<V>)`. -/
def nested : Ty :=
  .tuple [.placeholder "T", .applied ⟨"", "Cell"⟩ [.placeholder "U"],
    .function
      { generics := ["V"]
        params := [⟨"first", .placeholder "T", false⟩, ⟨"second", .named pair, false⟩]
        result := .option (.placeholder "V") }]

/-- Bindings for the placeholders of `nested` and for another name. -/
def choice : Bindings :=
  ⟨[("T", .array (.placeholder "U")), ("U", .int), ("V", .string), ("W", .bool)]⟩

end Pairing

open Pairing in
/-- `U` stands only in the argument of a cell and is not found. `W` was bound before. -/
theorem guess_inverts_fill_nested :
    choice.Settles nested.exposed ∧ Bindings.Fewer choice ⟨[("W", .bool)]⟩ ∧
    (Ty.guess ⟨[("W", .bool)]⟩ nested (nested.fill library choice)).get? "T" =
      some (.array (.placeholder "U")) ∧
    (Ty.guess ⟨[("W", .bool)]⟩ nested (nested.fill library choice)).get? "U" = none ∧
    (Ty.guess ⟨[("W", .bool)]⟩ nested (nested.fill library choice)).get? "V" = some .string ∧
    (Ty.guess ⟨[("W", .bool)]⟩ nested (nested.fill library choice)).get? "W" = some .bool := by
  have hs : choice.Settles nested.exposed := by decide
  have hbound : Bindings.Fewer choice ⟨[("W", .bool)]⟩ := by
    intro name
    by_cases hname : name = "W"
    · exact .inr (by rw [hname]; rfl)
    · exact .inl (by simp [Table.get?, Table.find?, Ne.symm hname])
  have hguess := guess_inverts_fill library nested hs hbound
  refine ⟨hs, hbound, ?_, ?_, ?_, ?_⟩
  all_goals
    rw [hguess]
    decide

end ScriptCheck
