import ScriptCheck.Proofs.FadedTypes

/-!
# Copies of struct fields

A record type that names a struct of the script carries a copy of the fields, which may be older
than the list that the symbols keep. Comparisons with an anonymous record take the fields of a
struct on the left from that list, but those of a struct on the right from the copy. So a struct
accepts the same types whatever its copy is, and the types that accept a struct whatever its copy is
are those other than anonymous records with fields (`copies_interchangeable`).

The same holds of copies inside of types. Types that are equal once the copies are left out
(`Ty.uncopied`) lead to the same comparisons, as long as these do not come to ask an anonymous
record with fields whether it accepts a struct (`Symbols.accepts?_of_sameUpToCopies`).
-/

namespace ScriptCheck

open Relation

/-! ## Leaving out copies -/

namespace Ty

mutual
/-- The type without the copies of fields that its records of structs of the script carry. -/
def uncopied (s : Symbols) : Ty → Ty
  | .unknown => .unknown
  | .named q => .named q
  | .placeholder name => .placeholder name
  | .applied q args => .applied q (uncopiedList s args)
  | .array element => .array (element.uncopied s)
  | .tuple items => .tuple (uncopiedList s items)
  | .record name items =>
    .record name (if (name.bind s.struct?).isSome then [] else uncopiedItems s items)
  | .option inner => .option (inner.uncopied s)
  | .result ok err => .result (ok.uncopied s) (err.uncopied s)
  | .function f =>
    .function
      { isAsync := f.isAsync
        generics := f.generics
        params := uncopiedParams s f.params
        result := f.result.uncopied s }

/-- `uncopied` on each type of a list. -/
def uncopiedList (s : Symbols) : List Ty → List Ty
  | [] => []
  | t :: rest => t.uncopied s :: uncopiedList s rest

/-- `uncopied` on each record item. -/
def uncopiedItems (s : Symbols) : List (String × Ty) → List (String × Ty)
  | [] => []
  | (name, t) :: rest => (name, t.uncopied s) :: uncopiedItems s rest

/-- `uncopied` on each parameter. -/
def uncopiedParams (s : Symbols) : List (Param Ty) → List (Param Ty)
  | [] => []
  | p :: rest => ⟨p.name, p.ty.uncopied s, p.hasDefault⟩ :: uncopiedParams s rest
end

theorem uncopiedList_eq_map (s : Symbols) (ts : List Ty) :
    uncopiedList s ts = ts.map (uncopied s) := by
  induction ts with
  | nil => rfl
  | cons t rest ih => simp [uncopiedList, ih]

theorem uncopiedItems_eq_map (s : Symbols) (items : List (String × Ty)) :
    uncopiedItems s items = items.map fun item => (item.1, item.2.uncopied s) := by
  induction items with
  | nil => rfl
  | cons item rest ih => simp [uncopiedItems, ih]

theorem uncopiedParams_eq_map (s : Symbols) (params : List (Param Ty)) :
    uncopiedParams s params = params.map fun p => ⟨p.name, p.ty.uncopied s, p.hasDefault⟩ := by
  induction params with
  | nil => rfl
  | cons p rest ih => simp [uncopiedParams, ih]

/-- The types differ in nothing but copies of fields. -/
def SameUpToCopies (s : Symbols) (a b : Ty) : Prop := a.uncopied s = b.uncopied s

instance (s : Symbols) (a b : Ty) : Decidable (SameUpToCopies s a b) :=
  inferInstanceAs (Decidable (_ = _))

/-- Record items that have the same names and differ in nothing but copies of fields. -/
abbrev SameItems (s : Symbols) : List (String × Ty) → List (String × Ty) → Prop :=
  List.Forall₂ fun x y => x.1 = y.1 ∧ SameUpToCopies s x.2 y.2

variable {s : Symbols} {a b : Ty}

/-- The types have the same form, and their parts differ in nothing but copies of fields. -/
inductive SameForm (s : Symbols) : Ty → Ty → Prop
  | unknown : SameForm s .unknown .unknown
  | placeholder (name : String) : SameForm s (.placeholder name) (.placeholder name)
  | named (q : QName) : SameForm s (.named q) (.named q)
  | applied (q : QName) {as bs : List Ty} (h : List.Forall₂ (SameUpToCopies s) as bs) :
    SameForm s (.applied q as) (.applied q bs)
  | array {a b : Ty} (h : SameUpToCopies s a b) : SameForm s (.array a) (.array b)
  | option {a b : Ty} (h : SameUpToCopies s a b) : SameForm s (.option a) (.option b)
  | result {a b c d : Ty} (hok : SameUpToCopies s a b) (herr : SameUpToCopies s c d) :
    SameForm s (.result a c) (.result b d)
  | tuple {as bs : List Ty} (h : List.Forall₂ (SameUpToCopies s) as bs) :
    SameForm s (.tuple as) (.tuple bs)
  | copy {name : QName} (h : (s.struct? name).isSome) (items others : List (String × Ty)) :
    SameForm s (.record (some name) items) (.record (some name) others)
  | record (name : Option QName) (hname : name.bind s.struct? = none)
    {as bs : List (String × Ty)} (h : SameItems s as bs) :
    SameForm s (.record name as) (.record name bs)
  | function {f g : Signature Ty}
    (hparams : List.Forall₂ (SameUpToCopies s) (f.params.map Param.ty) (g.params.map Param.ty))
    (hresult : SameUpToCopies s f.result g.result) : SameForm s (.function f) (.function g)

theorem forall₂_of_map_eq {α β : Type} {f : α → β} {xs ys : List α} (h : xs.map f = ys.map f) :
    List.Forall₂ (fun x y => f x = f y) xs ys := by
  have heq : List.Forall₂ Eq (xs.map f) (ys.map f) := by rw [List.forall₂_eq_eq_eq, h]
  exact List.forall₂_map_left_iff.1 (List.forall₂_map_right_iff.1 heq)

theorem SameUpToCopies.form (h : SameUpToCopies s a b) : SameForm s a b := by
  rw [SameUpToCopies] at h
  cases a <;> cases b <;> simp only [uncopied, reduceCtorEq] at h
  case unknown.unknown => exact .unknown
  case placeholder.placeholder => exact placeholder.inj h ▸ .placeholder _
  case named.named => exact named.inj h ▸ .named _
  case applied.applied =>
    obtain ⟨rfl, hargs⟩ := applied.inj h
    rw [uncopiedList_eq_map, uncopiedList_eq_map] at hargs
    exact .applied _ (forall₂_of_map_eq hargs)
  case array.array => exact .array (array.inj h)
  case option.option => exact .option (option.inj h)
  case result.result => exact .result (result.inj h).1 (result.inj h).2
  case tuple.tuple =>
    rw [uncopiedList_eq_map, uncopiedList_eq_map] at h
    exact .tuple (forall₂_of_map_eq (tuple.inj h))
  case record.record name items _ others =>
    obtain ⟨rfl, hitems⟩ := record.inj h
    cases hname : name.bind s.struct? with
    | some info =>
      obtain ⟨q, rfl, hq⟩ := Option.bind_eq_some_iff.1 hname
      exact .copy (Option.isSome_of_eq_some hq) items others
    | none =>
      rw [hname, uncopiedItems_eq_map, uncopiedItems_eq_map] at hitems
      exact .record name hname ((forall₂_of_map_eq hitems).imp fun _ _ => Prod.mk.inj)
  case function.function f g =>
    obtain ⟨-, -, hparams, hresult⟩ := Signature.mk.inj (function.inj h)
    rw [uncopiedParams_eq_map, uncopiedParams_eq_map] at hparams
    refine .function ?_ hresult
    rw [List.forall₂_map_left_iff, List.forall₂_map_right_iff]
    exact (forall₂_of_map_eq hparams).imp fun _ _ h => congrArg Param.ty h

theorem SameUpToCopies.isUnit_eq (h : SameUpToCopies s a b) : a.isUnit = b.isUnit := by
  cases h.form <;> rfl

/-! ## Types without structs -/

/-- No part of the type is a struct. -/
def Structless (t : Ty) : Prop := ∀ name items, .record (some name) items ∉ t.parts

theorem structless_iff {t : Ty} : t.Structless ↔
    (∀ name items, t ≠ .record (some name) items) ∧ ∀ c ∈ t.children, c.Structless := by
  simp only [Structless, parts_eq t, List.mem_cons, not_or, List.mem_flatMap, not_exists, not_and,
    forall_and, ne_comm]
  exact and_congr_right fun _ =>
    ⟨fun h c hc name items => h name items c hc, fun h name items c hc => h c hc name items⟩

theorem children_uncopied {t : Ty} (ht : ∀ name items, t ≠ .record (some name) items) :
    (t.uncopied s).children = t.children.map (uncopied s) := by
  cases t with
  | record name items =>
    cases name with
    | some name => exact absurd rfl (ht name items)
    | none => simp [uncopied, children, uncopiedItems_eq_map]
  | unknown | named | placeholder | array | option | result => rfl
  | applied q args => exact uncopiedList_eq_map s args
  | tuple items => exact uncopiedList_eq_map s items
  | function f => simp [uncopied, children, uncopiedParams_eq_map]

/-- Leaving out copies leaves no struct out. -/
theorem Structless.of_uncopied {t : Ty} (h : (t.uncopied s).Structless) : t.Structless := by
  induction t using children_induction with
  | h t ih =>
    obtain ⟨hstruct, hchildren⟩ := structless_iff.1 h
    have ht : ∀ name items, t ≠ .record (some name) items := by
      rintro name items rfl
      exact hstruct _ _ rfl
    rw [children_uncopied ht] at hchildren
    exact structless_iff.2 ⟨ht, fun c hc => ih c hc (hchildren _ (List.mem_map_of_mem hc))⟩

/-- A type without structs has no copies. -/
theorem Structless.uncopied_eq {t : Ty} (h : t.Structless) : t.uncopied s = t := by
  have hmap {α : Type} {f : α → α} {xs : List α} (h : ∀ x ∈ xs, f x = x) : xs.map f = xs :=
    (List.map_congr_left h).trans (List.map_id xs)
  induction t using children_induction with
  | h t ih =>
    obtain ⟨hstruct, hchildren⟩ := structless_iff.1 h
    have ih : ∀ c ∈ t.children, c.uncopied s = c := fun c hc => ih c hc (hchildren c hc)
    cases t with
    | unknown | named | placeholder => rfl
    | array | option | result => simp_all [uncopied, children]
    | applied q args => rw [uncopied, uncopiedList_eq_map]; exact congrArg _ (hmap ih)
    | tuple items => rw [uncopied, uncopiedList_eq_map]; exact congrArg _ (hmap ih)
    | record name items =>
      cases name with
      | some name => exact absurd rfl (hstruct name items)
      | none =>
        rw [uncopied, uncopiedItems_eq_map]
        exact congrArg _ (hmap fun x hx => by rw [ih x.2 (List.mem_map_of_mem hx)])
    | function f =>
      have hparams : ∀ p ∈ f.params, (⟨p.name, p.ty.uncopied s, p.hasDefault⟩ : Param Ty) = p :=
        fun p hp => by rw [ih p.ty (List.mem_append_left _ (List.mem_map_of_mem hp))]
      rw [uncopied, uncopiedParams_eq_map, hmap hparams, ih f.result (by simp [children])]

/-- A type without structs differs from no other in nothing but copies. -/
theorem SameUpToCopies.eq_of_structless (h : SameUpToCopies s a b) (ha : a.Structless) : a = b := by
  have hb : b.uncopied s = a := h.symm.trans ha.uncopied_eq
  rw [← hb] at ha ⊢
  exact ha.of_uncopied.uncopied_eq

end Ty

namespace TypeRef

open Ty

/-- Library descriptions refer to no struct. -/
theorem structless_resolve (r : Registry) (ref : TypeRef) : (ref.resolve r {}).Structless := by
  induction ref using names_induction with
  | builtin name =>
    rw [resolve]
    split <;> exact structless_iff.2 ⟨nofun, nofun⟩
  | generic name => exact structless_iff.2 ⟨nofun, nofun⟩
  | standard module name args ih =>
    rw [resolve]
    split
    · exact structless_iff.2 ⟨nofun, nofun⟩
    · split
      · exact structless_iff.2 ⟨nofun, nofun⟩
      · rw [resolveList_eq_map]
        exact structless_iff.2 ⟨nofun, List.forall_mem_map.2 ih⟩
  | composite ref href ih =>
    refine structless_iff.2 ⟨?_, forall_children_resolve href ih⟩
    cases ref with
    | builtin | generic | standard => cases href
    | _ => simp [resolve]

end TypeRef

/-! ## Comparing types with other copies -/

namespace Inquiry

open Ty

variable {s : Symbols}

/-- Two questions about types that differ in nothing but copies of fields. -/
abbrev SameQuestion (s : Symbols) (p q : Question) : Prop :=
  p.1.SameUpToCopies s q.1 ∧ p.2.SameUpToCopies s q.2

/-- The inquiries ask the same questions up to copies of fields. -/
def Matches (s : Symbols) (i j : Inquiry) : Prop :=
  i.verdict = j.verdict ∧ List.Forall₂ (SameQuestion s) i.questions j.questions

theorem Matches.refl (s : Symbols) (i : Inquiry) : Matches s i i :=
  ⟨rfl, List.forall₂_same.2 fun _ _ => ⟨rfl, rfl⟩⟩

theorem forall₂_zip {as as' bs bs' : List Ty} (ha : List.Forall₂ (SameUpToCopies s) as as')
    (hb : List.Forall₂ (SameUpToCopies s) bs bs') :
    List.Forall₂ (SameQuestion s) (as.zip bs) (as'.zip bs') := by
  induction ha generalizing bs bs' with
  | nil => exact .nil
  | cons ha _ ih =>
    cases hb with
    | nil => exact .nil
    | cons hb hbs => exact .cons ⟨ha, hb⟩ (ih hbs)

theorem rel_findItem? {items items' : List (String × Ty)} (h : SameItems s items items')
    (name : String) :
    Option.Rel (SameUpToCopies s) (findItem? name items) (findItem? name items') := by
  induction h with
  | nil => exact .none
  | @cons x y items items' hxy _ ih =>
    obtain ⟨m, a⟩ := x
    obtain ⟨n, b⟩ := y
    obtain ⟨rfl, hab⟩ := hxy
    rw [findItem?, findItem?]
    split
    · exact .some hab
    · exact ih

theorem Matches.covering {fields fields' items items' : List (String × Ty)}
    (hfields : SameItems s fields fields') (hitems : SameItems s items items') :
    Matches s (covering items fields) (covering items' fields') := by
  induction hfields with
  | nil => exact .refl s _
  | @cons x y fields fields' hxy _ ih =>
    obtain ⟨m, a⟩ := x
    obtain ⟨n, b⟩ := y
    obtain ⟨rfl, hab⟩ := hxy
    have hfound := rel_findItem? hitems m
    rw [Inquiry.covering, Inquiry.covering]
    generalize findItem? m items = found, findItem? m items' = found' at hfound
    cases hfound with
    | none => exact .refl s _
    | some h => exact ⟨ih.1, .cons ⟨hab, h⟩ ih.2⟩

/-- Fields are covered as far as there are items of their names. -/
theorem verdict_covering {items : List (String × Ty)} : {fields : List (String × Ty)} →
    ((covering items fields).verdict = true ↔
      ∀ field ∈ fields, field.1 ∈ items.map Prod.fst)
  | [] => by simp [Inquiry.covering, immediate]
  | (name, ty) :: rest => by
    rw [Inquiry.covering, List.forall_mem_cons, ← Symbols.isSome_findItem?, ← verdict_covering]
    cases findItem? name items <;> simp [immediate]

/-- Two inquiries come out the same if their questions have the same answers, one by one up to the
first that is denied. -/
theorem settle_congr {R : Question → Question → Prop} {ask : Ty → Ty → Option Bool} {verdict : Bool}
    {qs qs' : List Question} (h : List.Forall₂ R qs qs')
    (hask : ∀ pre q post q', qs = pre ++ q :: post → (∀ p ∈ pre, ask p.1 p.2 = some true) →
      R q q' → ask q.1 q.2 = ask q'.1 q'.2) :
    settle ask verdict qs = settle ask verdict qs' := by
  induction h with
  | nil => rfl
  | @cons q q' qs qs' hq _ ih =>
    have hsame := hask [] q qs q' rfl nofun hq
    rw [settle, settle, ← hsame]
    cases hfirst : ask q.1 q.2 with
    | none => rfl
    | some yes =>
      cases yes with
      | false => rfl
      | true =>
        refine ih fun pre p post p' hqs hpre => hask (q :: pre) p post p' ?_ ?_
        · rw [hqs, List.cons_append]
        · exact List.forall_mem_cons.2 ⟨hfirst, hpre⟩

end Inquiry

namespace Symbols

open Ty Inquiry

variable {s : Symbols} {a a' b b' : Ty}

/-- The question is whether an anonymous record with fields accepts a struct of the script. -/
def Exposes (s : Symbols) (q : Question) : Prop :=
  (∃ field rest, q.1 = .record none (field :: rest)) ∧ (s.structOf? q.2).isSome

theorem coerces_of_sameUpToCopies (ha : a.SameUpToCopies s a') (hb : b.SameUpToCopies s b') :
    s.coerces a b = s.coerces a' b' := by
  have hinfo : s.registry.infoOf? a = s.registry.infoOf? a' := by cases ha.form <;> rfl
  have hsource (source : TypeRef) :
      (source.resolve s.registry {} == b) = (source.resolve s.registry {} == b') := by
    have hplain := source.structless_resolve s.registry
    rw [Bool.eq_iff_iff, beq_iff_eq, beq_iff_eq]
    constructor
    · rintro h
      rw [h] at hplain ⊢
      exact hb.eq_of_structless hplain
    · rintro h
      rw [h] at hplain ⊢
      exact SameUpToCopies.eq_of_structless hb.symm hplain
  simp only [coerces, hinfo, hsource]

/-- The comparison of two types of the same form takes nothing from their copies, unless an
anonymous record with fields is compared with a struct. -/
theorem inquiry_of_sameForm (ha : SameForm s a a') (hb : SameForm s b b')
    (hopen : (a.isOpen || b.isOpen || s.coerces a b) = (a'.isOpen || b'.isOpen || s.coerces a' b'))
    (hab : ¬s.Exposes (a, b)) :
    Matches s (s.inquiry a b) (s.inquiry a' b') := by
  unfold inquiry
  rw [← hopen]
  split
  · exact .refl s _
  -- Types of different forms are refused at once.
  · clear * - ha hb hab
    cases ha <;> cases hb <;> try exact .refl s _
    case applied.applied hargs _ _ _ hothers =>
      dsimp only
      rw [← hargs.length_eq, ← hothers.length_eq]
      split
      · exact ⟨rfl, forall₂_zip hargs hothers⟩
      · exact .refl s _
    case tuple.tuple hargs _ _ hothers =>
      dsimp only
      rw [← hargs.length_eq, ← hothers.length_eq]
      split
      · exact ⟨rfl, forall₂_zip hargs hothers⟩
      · exact .refl s _
    case array.array ha _ _ hb | option.option ha _ _ hb => exact ⟨rfl, .cons ⟨ha, hb⟩ .nil⟩
    case result.result hok herr _ _ _ _ hok' herr' =>
      exact ⟨rfl, .cons ⟨hok, hok'⟩ (.cons ⟨herr, herr'⟩ .nil)⟩
    case function.function f f' hparams hresult g g' hothers hother =>
      dsimp only
      have hlength := hparams.length_eq
      have hlength' := hothers.length_eq
      rw [List.length_map, List.length_map] at hlength hlength'
      rw [← hlength, ← hlength', ← hresult.isUnit_eq]
      split
      · refine ⟨rfl, List.rel_append (forall₂_zip hothers hparams) ?_⟩
        split
        · exact .nil
        · exact .cons ⟨hresult, hother⟩ .nil
      · exact .refl s _
    case copy.record name hname items items' other hother others others' hothers =>
      cases other with
      | some other => exact .refl s _
      | none =>
        obtain ⟨info, hinfo⟩ := Option.isSome_iff_exists.1 hname
        simp only [fieldsOf, hinfo]
        exact .covering (List.forall₂_same.2 fun _ _ => ⟨rfl, rfl⟩) hothers
    case record.copy name hname items items' hitems other hother others others' =>
      cases name with
      | some name => exact .refl s _
      | none =>
        cases hitems with
        | nil => exact .refl s _
        | cons => exact absurd ⟨⟨_, _, rfl⟩, hother⟩ hab
    case record.record name hname items items' hitems other hother others others' hothers =>
      cases name with
      | none => exact .covering hitems hothers
      | some name =>
        cases other with
        | some other => exact .refl s _
        | none =>
          have hnone : s.struct? name = none := hname
          simp only [fieldsOf, hnone]
          exact .covering hitems hothers
    all_goals cases ‹Option QName› <;> exact .refl s _

/-- Types that differ in nothing but copies are compared in the same way, unless the comparison
comes to ask an anonymous record with fields whether it accepts a struct. -/
theorem accepts?_of_sameUpToCopies : (n : Nat) → {a a' b b' : Ty} → a.SameUpToCopies s a' →
    b.SameUpToCopies s b' → (∀ q, ReflTransGen s.Asks (a, b) q → ¬s.Exposes q) →
    s.accepts? n a b = s.accepts? n a' b'
  | 0, _, _, _, _, _, _, _ => rfl
  | n + 1, a, a', b, b', ha, hb, hab => by
    have hopen : a.isOpen = a'.isOpen ∧ b.isOpen = b'.isOpen :=
      ⟨by cases ha.form <;> rfl, by cases hb.form <;> rfl⟩
    obtain ⟨hverdict, hquestions⟩ := inquiry_of_sameForm ha.form hb.form
      (by rw [hopen.1, hopen.2, coerces_of_sameUpToCopies ha hb]) (hab _ .refl)
    rw [accepts?_succ, accepts?_succ, ← hverdict]
    refine settle_congr hquestions fun pre q post q' hqs hpre hq => ?_
    have hasks : s.Asks (a, b) q := ⟨pre, post, hqs, fun p hp => ⟨n, hpre p hp⟩⟩
    exact accepts?_of_sameUpToCopies n hq.1 hq.2 fun r hr => hab r (.head hasks hr)

/-- Types with the same answer at every bound are accepted alike. -/
theorem accepts_eq_of_accepts?_eq (h : ∀ n, s.accepts? n a b = s.accepts? n a' b') :
    s.accepts a b = s.accepts a' b' := by
  rw [Bool.eq_iff_iff, accepts_eq_true_iff, accepts_eq_true_iff]
  simp only [Answers, h]

theorem accepts_eq_of_inquiry_eq (h : s.inquiry a b = s.inquiry a' b') :
    s.accepts a b = s.accepts a' b' := by
  refine accepts_eq_of_accepts?_eq fun n => ?_
  cases n with
  | zero => rfl
  | succ n => rw [accepts?_succ, accepts?_succ, h]

/-! ## Structs and their copies -/

variable {name : QName}

/-- What a struct accepts does not depend on its copy. -/
theorem inquiry_struct_left (h : (s.struct? name).isSome) (items items' : List (String × Ty))
    (t : Ty) :
    s.inquiry (.record (some name) items) t = s.inquiry (.record (some name) items') t := by
  have hfields : s.fieldsOf name items = s.fieldsOf name items' := by
    obtain ⟨info, hinfo⟩ := Option.isSome_iff_exists.1 h
    rw [fieldsOf, fieldsOf, hinfo]
  unfold inquiry
  cases t with
  | record other others =>
    cases other with
    | some => rfl
    | none => exact congrArg (fun fields => ite _ _ (covering others fields)) hfields
  | _ => rfl

/-- What accepts a struct does not depend on its copy either, anonymous records with fields
excepted. -/
theorem inquiry_struct_right (h : (s.struct? name).isSome) (items items' : List (String × Ty))
    {t : Ty} (ht : ∀ field rest, t ≠ .record none (field :: rest)) :
    s.inquiry t (.record (some name) items) = s.inquiry t (.record (some name) items') := by
  have hsame : SameUpToCopies s (.record (some name) items) (.record (some name) items') := by
    simp [SameUpToCopies, uncopied, h]
  have hcoerces := coerces_of_sameUpToCopies (a := t) rfl hsame
  unfold inquiry
  rw [hcoerces]
  cases t with
  | record target fields =>
    cases target with
    | some => rfl
    | none =>
      cases fields with
      | nil => rfl
      | cons field rest => exact absurd rfl (ht field rest)
  | _ => rfl

/-- An anonymous record is compared with a struct by the copy. -/
theorem inquiry_anonymous_struct (fields : List (String × Ty)) (name : QName)
    (items : List (String × Ty)) :
    s.inquiry (.record none fields) (.record (some name) items) = covering items fields :=
  rfl

/-- An anonymous record accepts a struct whose copy has all of its fields with unknown types. -/
theorem accepts_anonymous_unknown (fields : List (String × Ty)) (name : QName) :
    s.accepts (.record none fields)
      (.record (some name) (fields.map fun field => (field.1, .unknown))) = true := by
  refine accepts_eq_true_iff.2 ⟨2, ?_⟩
  rw [accepts?_succ, inquiry_anonymous_struct, settle_eq_true_iff, verdict_covering]
  refine ⟨fun field hfield => ?_, fun q hq => ?_⟩
  · rw [List.map_map]
    exact List.mem_map_of_mem hfield
  · have hunknown : .unknown = q.2 := by
      have hmem := (mem_covering hq).2
      rw [List.map_map] at hmem
      obtain ⟨_, _, hunknown⟩ := List.mem_map.1 hmem
      exact hunknown
    unfold accepts?
    exact if_pos (by simp [← hunknown, isOpen])

/-- It accepts no struct whose copy is empty. -/
theorem accepts_anonymous_empty (field : String × Ty) (rest : List (String × Ty)) (name : QName) :
    s.accepts (.record none (field :: rest)) (.record (some name) []) = false := by
  rw [Bool.eq_false_iff, ne_eq, accepts_eq_true_iff]
  rintro ⟨n, hn⟩
  cases n with
  | zero => cases hn
  | succ n =>
    rw [accepts?_succ, inquiry_anonymous_struct, settle_eq_true_iff, verdict_covering] at hn
    exact absurd (hn.1 field List.mem_cons_self) List.not_mem_nil

end Symbols

open Ty Symbols in
/-- A struct of the script accepts the same types whatever copy of its fields it carries. A type
accepts the struct or refuses it whatever copy it carries, unless the type is an anonymous record
with fields. Types that differ in copies anywhere in them are interchangeable on both sides, unless
their comparison comes to ask an anonymous record with fields whether it accepts a struct. -/
theorem copies_interchangeable (s : Symbols) {name : String}
    (hname : (s.structs.get? name).isSome) :
    let struct (copy : List (String × Ty)) : Ty := .record (some (s.qualify name)) copy
    (∀ copy copy' t, s.accepts (struct copy) t = s.accepts (struct copy') t) ∧
    (∀ t, (∀ copy copy', s.accepts t (struct copy) = s.accepts t (struct copy')) ↔
      ∀ field rest, t ≠ .record none (field :: rest)) ∧
    ∀ a a' b b', a.SameUpToCopies s a' → b.SameUpToCopies s b' →
      (∀ q, ReflTransGen s.Asks (a, b) q → ¬s.Exposes q) → s.accepts a b = s.accepts a' b' := by
  intro struct
  have hstruct : (s.struct? (s.qualify name)).isSome := by
    simpa [struct?, qualify] using hname
  refine ⟨fun copy copy' t => ?_, fun t => ⟨?_, fun ht copy copy' => ?_⟩,
    fun a a' b b' ha hb hab => ?_⟩
  · exact accepts_eq_of_inquiry_eq (inquiry_struct_left hstruct copy copy' t)
  · rintro hsame field rest rfl
    have h := hsame ((field :: rest).map fun field => (field.1, .unknown)) []
    rw [accepts_anonymous_unknown, accepts_anonymous_empty] at h
    cases h
  · exact accepts_eq_of_inquiry_eq (inquiry_struct_right hstruct copy copy' ht)
  · exact accepts_eq_of_accepts?_eq fun n => accepts?_of_sameUpToCopies n ha hb hab

/-- The script `struct Orbit ( at : Point )`, `struct Point ( x : float )`: a field of a struct that
is declared later. -/
def orbits : Script :=
  .ofItems [.ofStruct "Orbit" [("at", .plain "Point")], .ofStruct "Point" [("x", .plain "float")]]

/-- The type of the points of `orbits` with a copy of the fields. -/
def orbitPoint (copy : List (String × Ty)) : Ty := .record (some ⟨"main", "Point"⟩) copy

/-- Points are compared with a record by their own fields, and arrays of points without any look at
the copies. -/
theorem copies_interchangeable_orbits :
    let s := (orbits.validate .empty).symbols
    (s.structs.get? "Point").isSome = true ∧
      s.accepts (orbitPoint []) (.anonymous [("x", .float)]) =
        s.accepts (orbitPoint [("x", .float)]) (.anonymous [("x", .float)]) ∧
      s.accepts (orbitPoint []) (.anonymous []) = false ∧
      s.accepts (.array (orbitPoint [])) (.array (orbitPoint [("x", .float)])) =
        s.accepts (.array (orbitPoint [("x", .float)])) (.array (orbitPoint [])) := by
  intro s
  have hname : (s.structs.get? "Point").isSome = true := by decide +kernel
  obtain ⟨hleft, -, hnested⟩ := copies_interchangeable s hname
  -- the arrays ask about the points, and these ask nothing
  have hexposes : ∀ q, ReflTransGen s.Asks
      (.array (orbitPoint []), .array (orbitPoint [("x", .float)])) q → ¬s.Exposes q := by
    intro q hq
    rcases hq.cases_head with rfl | ⟨r, ⟨pre, post, hquestions, -⟩, hr⟩
    · rintro ⟨⟨_, _, h⟩, -⟩
      cases h
    · replace hquestions : [(orbitPoint [], orbitPoint [("x", .float)])] = pre ++ r :: post :=
        hquestions
      have hmem : r ∈ [(orbitPoint [], orbitPoint [("x", .float)])] := by simp [hquestions]
      obtain rfl := List.mem_singleton.1 hmem
      rcases hr.cases_head with rfl | ⟨_, ⟨pre, _, hnone, -⟩, -⟩
      · rintro ⟨⟨_, _, h⟩, -⟩
        cases h
      · cases pre <;> cases hnone
  exact ⟨hname, hleft [] [("x", .float)] _, by decide +kernel,
    hnested _ _ _ _ (by decide +kernel) (by decide +kernel) hexposes⟩

/-- The field of an orbit is resolved before the fields of the points are known, so that its type
carries an empty copy. An anonymous record accepts the type of the points, but not that of the
field. -/
theorem anonymous_record_reads_copy :
    let s := (orbits.validate .empty).symbols
    (s.structs.get? "Orbit").map StructInfo.fields = some [("at", orbitPoint [])] ∧
      (s.types.get? "Point").map TypeAlias.ty = some (orbitPoint [("x", .float)]) ∧
      s.accepts (.anonymous [("x", .float)]) (orbitPoint []) = false ∧
      s.accepts (.anonymous [("x", .float)]) (orbitPoint [("x", .float)]) = true := by
  decide +kernel

end ScriptCheck
