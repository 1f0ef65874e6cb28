import ScriptCheck.Proofs.ClosedTypes

/-!
# Faded types

A type fades when parts of it are replaced by holes. Holes are `Ty.unknown` or, if the type is only
compared with others, also open placeholders; a library type may moreover have lost its arguments.

What a faded type is asked for is faded as well: its fields, its elements and what it is taken apart
into. A comparison that succeeds also succeeds after both types have faded (`accepts_of_fades`),
provided that the library accepts by description only types that cannot fade in part
(`Registry.flat`).
-/

namespace ScriptCheck

/-- Two lists are mapped to lists whose members stand in another relation. -/
theorem forall₂_mapped {α β γ δ : Type} {R : α → β → Prop} {S : γ → δ → Prop} {f : α → γ}
    {g : β → δ} {as : List α} {bs : List β} (h : List.Forall₂ R as bs)
    (hfg : ∀ a ∈ as, ∀ b ∈ bs, R a b → S (f a) (g b)) : List.Forall₂ S (as.map f) (bs.map g) := by
  induction h with
  | nil => exact .nil
  | cons hab _ ih =>
    refine .cons (hfg _ List.mem_cons_self _ List.mem_cons_self hab) (ih fun a ha b hb => ?_)
    exact hfg a (List.mem_cons_of_mem _ ha) b (List.mem_cons_of_mem _ hb)

namespace Ty

variable {R : Ty → Ty → Prop}

/-! ## Types of one form -/

/-- The types have the same form and their parts stand in the relation. A library type may have
lost its arguments. -/
inductive Alike (R : Ty → Ty → Prop) : Ty → Ty → Prop
  | unknown : Alike R .unknown .unknown
  | placeholder (name : String) : Alike R (.placeholder name) (.placeholder name)
  | named (q : QName) : Alike R (.named q) (.named q)
  | bare (q : QName) (args : List Ty) : Alike R (.applied q args) (.named q)
  | applied (q : QName) {as bs : List Ty} (h : List.Forall₂ R as bs) :
    Alike R (.applied q as) (.applied q bs)
  | array {a b : Ty} (h : R a b) : Alike R (.array a) (.array b)
  | option {a b : Ty} (h : R a b) : Alike R (.option a) (.option b)
  | result {a b c d : Ty} (hok : R a b) (herr : R c d) : Alike R (.result a c) (.result b d)
  | tuple {as bs : List Ty} (h : List.Forall₂ R as bs) : Alike R (.tuple as) (.tuple bs)
  | record (name : Option QName) {as bs : List (String × Ty)}
    (h : List.Forall₂ (fun x y => x.1 = y.1 ∧ R x.2 y.2) as bs) :
    Alike R (.record name as) (.record name bs)
  | function {f g : Signature Ty}
    (hparams : List.Forall₂ (fun p q => R p.ty q.ty) f.params g.params)
    (hresult : R f.result g.result) : Alike R (.function f) (.function g)

mutual
/-- Whether the second type is the first one with some of its parts replaced by holes. -/
def fades (hole : Ty → Bool) : Ty → Ty → Bool
  | .unknown, b => hole b || b.isUnknown
  | .placeholder name, b =>
    hole b || match b with
      | .placeholder other => name == other
      | _ => false
  | .named q, b =>
    hole b || match b with
      | .named p => q == p
      | _ => false
  | .applied q args, b =>
    hole b || match b with
      | .named p => q == p
      | .applied p others => q == p && fadesList hole args others
      | _ => false
  | .array element, b =>
    hole b || match b with
      | .array other => element.fades hole other
      | _ => false
  | .option inner, b =>
    hole b || match b with
      | .option other => inner.fades hole other
      | _ => false
  | .result ok err, b =>
    hole b || match b with
      | .result ok' err' => ok.fades hole ok' && err.fades hole err'
      | _ => false
  | .tuple items, b =>
    hole b || match b with
      | .tuple others => fadesList hole items others
      | _ => false
  | .record name items, b =>
    hole b || match b with
      | .record other others => name == other && fadesItems hole items others
      | _ => false
  | .function s, b =>
    hole b || match b with
      | .function other =>
        fadesParams hole s.params other.params && s.result.fades hole other.result
      | _ => false
termination_by structural a => a

/-- `fades` on the types of two lists of the same length, pair by pair. -/
def fadesList (hole : Ty → Bool) : List Ty → List Ty → Bool
  | [], [] => true
  | a :: as, b :: bs => a.fades hole b && fadesList hole as bs
  | _, _ => false
termination_by structural as => as

/-- `fades` on record items with the same names. -/
def fadesItems (hole : Ty → Bool) : List (String × Ty) → List (String × Ty) → Bool
  | [], [] => true
  | (m, a) :: as, (n, b) :: bs => m == n && a.fades hole b && fadesItems hole as bs
  | _, _ => false
termination_by structural as => as

/-- `fades` on the types of parameters. -/
def fadesParams (hole : Ty → Bool) : List (Param Ty) → List (Param Ty) → Bool
  | [], [] => true
  | p :: ps, q :: qs => p.ty.fades hole q.ty && fadesParams hole ps qs
  | _, _ => false
termination_by structural ps => ps
end

/-- The second type is the first one with holes. -/
def Fades (hole : Ty → Bool) (a b : Ty) : Prop := a.fades hole b = true

instance (hole : Ty → Bool) (a b : Ty) : Decidable (Fades hole a b) :=
  inferInstanceAs (Decidable (_ = _))

variable {hole : Ty → Bool} {a b : Ty}

theorem fadesList_iff : {as bs : List Ty} →
    (fadesList hole as bs = true ↔ List.Forall₂ (Fades hole) as bs)
  | [], [] => by simp [fadesList]
  | [], _ :: _ => by simp [fadesList]
  | _ :: _, [] => by simp [fadesList]
  | a :: as, b :: bs => by simp [fadesList, fadesList_iff, Fades]

theorem fadesItems_iff : {as bs : List (String × Ty)} →
    (fadesItems hole as bs = true ↔
      List.Forall₂ (fun x y => x.1 = y.1 ∧ Fades hole x.2 y.2) as bs)
  | [], [] => by simp [fadesItems]
  | [], _ :: _ => by simp [fadesItems]
  | _ :: _, [] => by simp [fadesItems]
  | (m, a) :: as, (n, b) :: bs => by simp [fadesItems, fadesItems_iff, Fades]

theorem fadesParams_iff : {ps qs : List (Param Ty)} →
    (fadesParams hole ps qs = true ↔ List.Forall₂ (fun p q => Fades hole p.ty q.ty) ps qs)
  | [], [] => by simp [fadesParams]
  | [], _ :: _ => by simp [fadesParams]
  | _ :: _, [] => by simp [fadesParams]
  | p :: ps, q :: qs => by simp [fadesParams, fadesParams_iff, Fades]

theorem Fades.of_hole (h : hole b = true) : Fades hole a b := by
  cases a <;> simp [Fades, fades, h]

theorem Alike.fades (h : Alike (Fades hole) a b) : Fades hole a b := by
  cases h with
  | unknown => simp [Fades, Ty.fades, isUnknown]
  | placeholder | named | bare => simp [Fades, Ty.fades]
  | array h | option h => simpa [Fades, Ty.fades] using Or.inr h
  | result hok herr => simpa [Fades, Ty.fades] using Or.inr ⟨hok, herr⟩
  | applied _ h | tuple h => simp [Fades, Ty.fades, fadesList_iff.2 h]
  | record _ h => simp [Fades, Ty.fades, fadesItems_iff.2 h]
  | function hparams hresult =>
    simpa [Fades, Ty.fades, fadesParams_iff.2 hparams] using Or.inr hresult

/-- A type fades to a hole, or to a type of the same form whose parts are faded. -/
theorem fades_iff : Fades hole a b ↔ hole b = true ∨ Alike (Fades hole) a b := by
  refine ⟨fun h => or_iff_not_imp_left.2 fun hb => ?_, fun h => h.elim .of_hole Alike.fades⟩
  rw [Fades] at h
  rw [Bool.not_eq_true] at hb
  cases a <;> cases b <;> simp only [fades, hb, Bool.false_or, isUnknown, Bool.and_eq_true,
    Bool.false_eq_true, beq_iff_eq] at h
  case unknown.unknown => exact .unknown
  case placeholder.placeholder => exact h ▸ .placeholder _
  case named.named => exact h ▸ .named _
  case applied.named => exact h ▸ .bare _ _
  case applied.applied => exact h.1 ▸ .applied _ (fadesList_iff.1 h.2)
  case array.array => exact .array h
  case option.option => exact .option h
  case result.result => exact .result h.1 h.2
  case tuple.tuple => exact .tuple (fadesList_iff.1 h)
  case record.record => exact h.1 ▸ .record _ (fadesItems_iff.1 h.2)
  case function.function => exact .function (fadesParams_iff.1 h.1) h.2

/-- A type is of the same form as itself. -/
theorem Alike.of_children (h : ∀ c ∈ a.children, R c c) : Alike R a a := by
  have hlist {α : Type} {S : α → α → Prop} (xs : List α) (hxs : ∀ x ∈ xs, S x x) :
      List.Forall₂ S xs xs := List.forall₂_same.2 hxs
  cases a with
  | unknown => exact .unknown
  | placeholder name => exact .placeholder name
  | named q => exact .named q
  | applied q args => exact .applied q (hlist args h)
  | array element => exact .array (h element (by simp [children]))
  | option inner => exact .option (h inner (by simp [children]))
  | result ok err => exact .result (h ok (by simp [children])) (h err (by simp [children]))
  | tuple items => exact .tuple (hlist items h)
  | record name items =>
    exact .record name (hlist items fun x hx => ⟨rfl, h _ (List.mem_map_of_mem hx)⟩)
  | function s =>
    refine .function (hlist s.params fun p hp => h _ ?_) (h _ (by simp [children]))
    exact List.mem_append_left _ (List.mem_map_of_mem hp)

theorem Fades.refl (hole : Ty → Bool) (a : Ty) : Fades hole a a := by
  induction a using children_induction with
  | h a ih => exact (Alike.of_children ih).fades

theorem Alike.erase {R S : Ty → Ty → Prop} (h : Alike R a b)
    (hRS : ∀ c ∈ a.children, ∀ d, R c d → S c.erase d.erase) : Alike S a.erase b.erase := by
  cases h with
  | unknown | placeholder => exact .unknown
  | named q => exact .named q
  | bare q args => exact .bare q _
  | applied q h =>
    rw [Ty.erase, Ty.erase, eraseList_eq_map, eraseList_eq_map]
    exact .applied q (forall₂_mapped h fun c hc d _ => hRS c hc d)
  | array h => exact .array (hRS _ (by simp [children]) _ h)
  | option h => exact .option (hRS _ (by simp [children]) _ h)
  | result hok herr =>
    exact .result (hRS _ (by simp [children]) _ hok) (hRS _ (by simp [children]) _ herr)
  | tuple h =>
    rw [Ty.erase, Ty.erase, eraseList_eq_map, eraseList_eq_map]
    exact .tuple (forall₂_mapped h fun c hc d _ => hRS c hc d)
  | record name h =>
    rw [Ty.erase, Ty.erase, eraseItems_eq_map, eraseItems_eq_map]
    exact .record name (forall₂_mapped h fun x hx y _ hxy =>
      ⟨hxy.1, hRS _ (List.mem_map_of_mem hx) _ hxy.2⟩)
  | function hparams hresult =>
    rw [Ty.erase, Ty.erase, eraseParams_eq_map, eraseParams_eq_map]
    exact .function (forall₂_mapped hparams fun p hp q _ hpq =>
      hRS _ (List.mem_append_left _ (List.mem_map_of_mem hp)) _ hpq)
      (hRS _ (by simp [children]) _ hresult)

/-- Erasing turns holes of both kinds into `Ty.unknown`. -/
theorem Fades.erase (h : a.Fades isOpen b) : a.erase.Fades isUnknown b.erase := by
  induction a using children_induction generalizing b with
  | h a ih =>
    rcases fades_iff.1 h with hopen | halike
    · refine .of_hole ?_
      cases b <;> first | rfl | cases hopen
    · exact (halike.erase fun c hc d hcd => ih c hc hcd).fades

theorem isOpen_of_isUnknown (h : a.isUnknown = true) : a.isOpen = true := by
  cases a <;> first | rfl | cases h

theorem Alike.isOpen_eq (h : Alike R a b) : b.isOpen = a.isOpen := by
  cases h <;> rfl

theorem Alike.isUnit (h : Alike R a b) (ha : a.isUnit = true) : b.isUnit = true := by
  obtain rfl : a = unit := beq_iff_eq.1 ha
  cases h with
  | named => rfl

/-- Types of one form have the same description. -/
theorem Alike.infoOf?_eq (h : Alike R a b) (r : Registry) : r.infoOf? b = r.infoOf? a := by
  cases h <;> rfl

end Ty

/-! ## Comparing faded types -/

/-- The library accepts by description only types that are plain names. -/
def Registry.Flat (r : Registry) : Prop :=
  ∀ t info, r.infoOf? t = some info → ∀ source ∈ info.assignableFrom,
    ∃ q, source.resolve r {} = .named q

namespace Inquiry

theorem settle_eq_true_iff {ask : Ty → Ty → Option Bool} {verdict : Bool} : {qs : List Question} →
    (settle ask verdict qs = some true ↔ verdict = true ∧ ∀ q ∈ qs, ask q.1 q.2 = some true)
  | [] => by simp [settle]
  | q :: rest => by
    cases h : ask q.1 q.2 with
    | none => simp [settle, h]
    | some yes => cases yes <;> simp [settle, h, settle_eq_true_iff]

end Inquiry

/-! ### Items of faded records -/

/-- Record items with the same names, whose types have faded. -/
abbrev FadedItems (hole : Ty → Bool) : List (String × Ty) → List (String × Ty) → Prop :=
  List.Forall₂ fun x y => x.1 = y.1 ∧ Ty.Fades hole x.2 y.2

theorem FadedItems.findItem? {hole : Ty → Bool} {items items' : List (String × Ty)}
    (h : FadedItems hole items items') (name : String) :
    Option.Rel (Ty.Fades hole) (findItem? name items) (findItem? name items') := by
  induction h with
  | nil => exact .none
  | @cons x y items items' hxy _ ih =>
    obtain ⟨m, a⟩ := x
    obtain ⟨n, b⟩ := y
    obtain ⟨rfl, hab⟩ := hxy
    rw [ScriptCheck.findItem?, ScriptCheck.findItem?]
    split
    · exact .some hab
    · exact ih

namespace Inquiry

/-- If all goes well in the first inquiry, then the second asks about types that have faded from
those that the first asks about, or about holes. -/
def Fades (hole : Ty → Bool) (i j : Inquiry) : Prop :=
  i.verdict = true → j.verdict = true ∧
    ∀ q' ∈ j.questions, hole q'.1 = true ∨
      ∃ q ∈ i.questions, q.1.Fades hole q'.1 ∧ q.2.Fades hole q'.2

variable {hole : Ty → Bool}

theorem Fades.immediate {i : Inquiry} {verdict : Bool} (h : i.verdict = true → verdict = true) :
    Fades hole i (immediate verdict) :=
  fun hi => ⟨h hi, nofun⟩

theorem exists_mem_zip {R : Ty → Ty → Prop} {as as' bs bs' : List Ty} (ha : List.Forall₂ R as as')
    (hb : List.Forall₂ R bs bs') :
    ∀ q' ∈ as'.zip bs', ∃ q ∈ as.zip bs, R q.1 q'.1 ∧ R q.2 q'.2 := by
  induction ha generalizing bs bs' with
  | nil => simp
  | @cons a a' as as' haa' _ ih =>
    cases hb with
    | nil => simp
    | @cons b b' bs bs' hbb' hbs =>
      intro q' hq'
      rw [List.zip_cons_cons, List.mem_cons] at hq'
      rcases hq' with rfl | hq'
      · exact ⟨(a, b), by simp, haa', hbb'⟩
      · obtain ⟨q, hq, hfades⟩ := ih hbs q' hq'
        exact ⟨q, by simp [hq], hfades⟩

theorem Fades.pairs {as as' bs bs' : List Ty} (ha : List.Forall₂ (Ty.Fades hole) as as')
    (hb : List.Forall₂ (Ty.Fades hole) bs bs') :
    Fades hole ⟨as.zip bs, true⟩ ⟨as'.zip bs', true⟩ :=
  fun _ => ⟨rfl, fun q' hq' => .inr (exists_mem_zip ha hb q' hq')⟩

theorem Fades.covering {fields fields' items items' : List (String × Ty)}
    (hfields : FadedItems hole fields fields') (hitems : FadedItems hole items items') :
    Fades hole (covering items fields) (covering items' fields') := by
  induction hfields with
  | nil => exact .immediate fun _ => rfl
  | @cons x y fields fields' hxy _ ih =>
    obtain ⟨m, a⟩ := x
    obtain ⟨n, b⟩ := y
    obtain ⟨rfl, hab⟩ := hxy
    have hfound := hitems.findItem? m
    rw [Inquiry.covering, Inquiry.covering]
    cases hitem : ScriptCheck.findItem? m items with
    | none =>
      intro h
      cases h
    | some t =>
      rw [hitem] at hfound
      obtain ⟨t', ht', htt'⟩ :
          ∃ t', ScriptCheck.findItem? m items' = some t' ∧ t.Fades hole t' := by
        cases hitem' : ScriptCheck.findItem? m items' with
        | none => rw [hitem'] at hfound; cases hfound
        | some t' =>
          rw [hitem'] at hfound
          cases hfound with
          | some h => exact ⟨t', rfl, h⟩
      rw [ht']
      intro hverdict
      obtain ⟨hverdict', hquestions⟩ := ih hverdict
      refine ⟨hverdict', List.forall_mem_cons.2
        ⟨.inr ⟨(a, t), List.mem_cons_self, hab, htt'⟩, fun q' hq' => ?_⟩⟩
      refine (hquestions q' hq').imp_right ?_
      rintro ⟨q, hq, hfades⟩
      exact ⟨q, List.mem_cons_of_mem _ hq, hfades⟩

end Inquiry

namespace Symbols

open Ty Inquiry

variable {s : Symbols} {hole : Ty → Bool} {a a' b b' : Ty}

theorem coerces_of_alike (hflat : s.registry.Flat) {R : Ty → Ty → Prop} (ha : Alike R a a')
    (hb : Alike R b b') (h : s.coerces a b = true) : s.coerces a' b' = true := by
  unfold coerces at h ⊢
  rw [ha.infoOf?_eq]
  cases hinfo : s.registry.infoOf? a with
  | none => simp [hinfo] at h
  | some info =>
    simp only [hinfo, Bool.or_eq_true, List.any_eq_true, beq_iff_eq] at h ⊢
    refine h.imp_right fun ⟨source, hsource, hresolve⟩ => ⟨source, hsource, ?_⟩
    obtain ⟨q, hq⟩ := hflat a info hinfo source hsource
    rw [hq] at hresolve ⊢
    subst hresolve
    cases hb with
    | named => rfl

theorem fadedItems_fieldsOf (name : QName) {items items' : List (String × Ty)}
    (h : FadedItems hole items items') :
    FadedItems hole (s.fieldsOf name items) (s.fieldsOf name items') := by
  unfold fieldsOf
  split
  · exact List.forall₂_same.2 fun x _ => ⟨rfl, .refl hole x.2⟩
  · exact h

/-- Two types of the form of two others, none of them open, lead to the same inquiry about faded
parts, unless the library answers. -/
theorem inquiry_of_alike (ha : Alike (Fades hole) a a') (hb : Alike (Fades hole) b b')
    (hopen : (a.isOpen || b.isOpen || s.coerces a b) = false)
    (hopen' : (a'.isOpen || b'.isOpen || s.coerces a' b') = false) :
    Inquiry.Fades hole (s.inquiry a b) (s.inquiry a' b') := by
  unfold inquiry
  rw [hopen, hopen', if_neg Bool.false_ne_true, if_neg Bool.false_ne_true]
  -- Types of different forms are refused at once.
  cases ha <;> cases hb <;> try exact fun h => absurd h Bool.false_ne_true
  case named.named | named.bare | named.applied | bare.named | applied.named =>
    exact .immediate id
  case bare.bare | bare.applied | applied.bare =>
    dsimp only
    split
    · rename_i heq
      exact .immediate fun _ => beq_iff_eq.2 heq.1
    · exact fun h => absurd h Bool.false_ne_true
  case applied.applied hargs _ _ _ hothers =>
    dsimp only
    rw [hargs.length_eq, hothers.length_eq]
    split
    · exact .pairs hargs hothers
    · exact fun h => absurd h Bool.false_ne_true
  case array.array ha _ _ hb | option.option ha _ _ hb =>
    exact .pairs (.cons ha .nil) (.cons hb .nil)
  case result.result hok herr _ _ _ _ hok' herr' =>
    exact .pairs (.cons hok (.cons herr .nil)) (.cons hok' (.cons herr' .nil))
  case tuple.tuple hargs _ _ hothers =>
    dsimp only
    rw [hargs.length_eq, hothers.length_eq]
    split
    · exact .pairs hargs hothers
    · exact fun h => absurd h Bool.false_ne_true
  case record.record name _ _ hitems other _ _ hothers =>
    cases name with
    | none => exact .covering hitems hothers
    | some name =>
      cases other with
      | none => exact .covering (fadedItems_fieldsOf name hitems) hothers
      | some other => exact .immediate id
  case function.function f f' hparams hresult g g' hothers hother =>
    dsimp only
    rw [hparams.length_eq, hothers.length_eq]
    split
    · refine fun _ => ⟨rfl, fun q' hq' => ?_⟩
      rcases List.mem_append.1 hq' with hq' | hq'
      · have hparams :
            List.Forall₂ (Ty.Fades hole) (f.params.map Param.ty) (f'.params.map Param.ty) :=
          by simpa using hparams
        have hothers :
            List.Forall₂ (Ty.Fades hole) (g.params.map Param.ty) (g'.params.map Param.ty) :=
          by simpa using hothers
        obtain ⟨q, hq, hfades⟩ := exists_mem_zip hothers hparams q' hq'
        exact .inr ⟨q, List.mem_append_left _ hq, hfades⟩
      -- The result of the second target may be a hole where that of the first one is `Unit`.
      · split at hq'
        · cases hq'
        · rename_i hunit
          obtain rfl := List.mem_singleton.1 hq'
          refine (fades_iff.1 hresult).imp_right fun halike => ?_
          rw [if_neg fun h => hunit (halike.isUnit h)]
          exact ⟨_, List.mem_append_right _ List.mem_cons_self, hresult, hother⟩
    · exact fun h => absurd h Bool.false_ne_true
  all_goals cases ‹Option QName› <;> exact fun h => absurd h Bool.false_ne_true

theorem inquiry_of_fades (hhole : ∀ t, hole t = true → t.isOpen = true) (hflat : s.registry.Flat)
    (ha : a.Fades hole a') (hb : b.Fades hole b') :
    Inquiry.Fades hole (s.inquiry a b) (s.inquiry a' b') := by
  by_cases hopen' : (a'.isOpen || b'.isOpen || s.coerces a' b') = true
  · have hyes : s.inquiry a' b' = Inquiry.immediate true := by
      unfold inquiry
      exact if_pos hopen'
    exact hyes ▸ .immediate fun _ => rfl
  · simp only [Bool.or_eq_true, not_or] at hopen'
    have ha := (fades_iff.1 ha).resolve_left fun h => hopen'.1.1 (hhole _ h)
    have hb := (fades_iff.1 hb).resolve_left fun h => hopen'.1.2 (hhole _ h)
    have hopen : ¬(a.isOpen || b.isOpen || s.coerces a b) = true := by
      rw [← ha.isOpen_eq, ← hb.isOpen_eq]
      simp only [Bool.or_eq_true, not_or]
      exact ⟨hopen'.1, mt (coerces_of_alike hflat ha hb) hopen'.2⟩
    exact inquiry_of_alike ha hb (by simpa using hopen) (by simpa [and_assoc] using hopen')

/-- Faded types may need one more nested question: about a hole in the place of `Unit`. -/
theorem accepts?_of_fades (hhole : ∀ t, hole t = true → t.isOpen = true)
    (hflat : s.registry.Flat) : {n : Nat} → {a b a' b' : Ty} → a.Fades hole a' → b.Fades hole b' →
    s.accepts? n a b = some true → s.accepts? (n + 1) a' b' = some true
  | 0, _, _, _, _, _, _, h => nomatch h
  | n + 1, a, b, a', b', ha, hb, h => by
    rw [accepts?_succ, settle_eq_true_iff] at h ⊢
    obtain ⟨hverdict, hquestions⟩ := inquiry_of_fades hhole hflat ha hb h.1
    refine ⟨hverdict, fun q' hq' => ?_⟩
    rcases hquestions q' hq' with hq' | ⟨q, hq, hfirst, hsecond⟩
    · unfold accepts?
      exact if_pos (by simp [hhole _ hq'])
    · exact accepts?_of_fades hhole hflat hfirst hsecond (h.2 q hq)

/-- What a type accepts, it also accepts after both have faded. -/
theorem accepts_of_fades (hhole : ∀ t, hole t = true → t.isOpen = true) (hflat : s.registry.Flat)
    (ha : a.Fades hole a') (hb : b.Fades hole b') (h : s.accepts a b = true) :
    s.accepts a' b' = true := by
  obtain ⟨n, hn⟩ := accepts_eq_true_iff.1 h
  exact accepts_eq_true_iff.2 ⟨n + 1, accepts?_of_fades hhole hflat ha hb hn⟩

end Symbols

/-! ## Members of faded types -/

/-- Tables with the same keys, whose values stand in the relation. -/
theorem Table.get?_ofList_rel {κ α : Type} [DecidableEq κ] {R : α → α → Prop}
    {pairs pairs' : List (κ × α)} (h : List.Forall₂ (fun p q => p.1 = q.1 ∧ R p.2 q.2) pairs pairs')
    (key : κ) : Option.Rel R ((ofList pairs).get? key) ((ofList pairs').get? key) := by
  suffices hfold : ∀ t t' : Table κ α, (∀ key, Option.Rel R (t.get? key) (t'.get? key)) →
      ∀ key, Option.Rel R ((pairs.foldl (fun t p => t.insert p.1 p.2) t).get? key)
        ((pairs'.foldl (fun t p => t.insert p.1 p.2) t').get? key) from
    hfold _ _ (fun _ => .none) key
  induction h with
  | nil => exact fun _ _ ht => ht
  | cons hpq _ ih =>
    refine fun t t' ht => ih _ _ fun key => ?_
    rw [get?_insert, get?_insert, hpq.1]
    split
    · exact .some hpq.2
    · exact ht key

theorem forall₂_zip_left {α : Type} {R : Ty → Ty → Prop} {as bs : List Ty} (names : List α)
    (h : List.Forall₂ R as bs) :
    List.Forall₂ (fun x y => x.1 = y.1 ∧ R x.2 y.2) (names.zip as) (names.zip bs) := by
  induction names generalizing as bs with
  | nil => exact .nil
  | cons name names ih =>
    cases h with
    | nil => exact .nil
    | cons hab hrest => exact .cons ⟨rfl, hab⟩ (ih hrest)

open Ty

/-- What a generic parameter is bound to has faded, or is forgotten. -/
def FadedBindings (bound bound' : Bindings) : Prop :=
  ∀ name, ((bound.get? name).getD .unknown).Fades isUnknown ((bound'.get? name).getD .unknown)

namespace TypeRef

mutual
/-- A reference under faded types is a faded type. -/
theorem fades_resolve {r : Registry} {bound bound' : Bindings} (h : FadedBindings bound bound') :
    (ref : TypeRef) → (ref.resolve r bound).Fades isUnknown (ref.resolve r bound')
  | .builtin _ => .refl _ _
  | .generic name => h name
  | .standard module name args => by
    rw [resolve, resolve]
    split
    · exact .refl _ _
    · split
      · exact .refl _ _
      · exact (Alike.applied _ (fades_resolveList h args)).fades
  | .array param => (Alike.array (fades_resolve h param)).fades
  | .option param => (Alike.option (fades_resolve h param)).fades
  | .result ok err => (Alike.result (fades_resolve h ok) (fades_resolve h err)).fades
  | .tuple params => (Alike.tuple (fades_resolveList h params)).fades
  | .record names params =>
    (Alike.record none (forall₂_zip_left names (fades_resolveList h params))).fades
  | .function isAsync params ret => by
    refine (Alike.function ?_ (fades_resolve h ret)).fades
    refine List.forall₂_map_left_iff.1 (List.forall₂_map_right_iff.1 ?_)
    rw [map_ty_positional, map_ty_positional]
    exact fades_resolveList h params

theorem fades_resolveList {r : Registry} {bound bound' : Bindings}
    (h : FadedBindings bound bound') :
    (refs : List TypeRef) →
    List.Forall₂ (Fades isUnknown) (resolveList r bound refs) (resolveList r bound' refs)
  | [] => .nil
  | ref :: rest => .cons (fades_resolve h ref) (fades_resolveList h rest)
end

end TypeRef

theorem getElem?_rel {R : Ty → Ty → Prop} {as bs : List Ty} (h : List.Forall₂ R as bs) (i : Nat) :
    Option.Rel R as[i]? bs[i]? := by
  induction h generalizing i with
  | nil => exact .none
  | cons hab _ ih =>
    cases i with
    | zero => exact .some hab
    | succ i => exact ih i

theorem relOption_refl {α : Type} {R : α → α → Prop} (h : ∀ x, R x x) (o : Option α) :
    Option.Rel R o o := by
  cases o with
  | none => exact .none
  | some x => exact .some (h x)

theorem relOption_mono {α β : Type} {R S : α → β → Prop} (h : ∀ x y, R x y → S x y) {o : Option α}
    {p : Option β} (hop : Option.Rel R o p) : Option.Rel S o p := by
  cases hop with
  | none => exact .none
  | some hxy => exact .some (h _ _ hxy)

/-- A field whose type has faded. -/
def FieldType.Fades (f g : FieldType) : Prop :=
  f.ty.Fades isUnknown g.ty ∧ g.readOnly = f.readOnly

theorem FieldType.Fades.refl (f : FieldType) : f.Fades f := ⟨.refl _ _, rfl⟩

namespace Symbols

variable {s : Symbols} {a b : Ty}

theorem fadedBindings_typeBindings (h : Alike (Fades isUnknown) a b) :
    FadedBindings (s.typeBindings a) (s.typeBindings b) := by
  intro name
  cases h with
  | applied q hargs =>
    rw [typeBindings, typeBindings]
    split
    · rename_i info _
      have hrel := Table.get?_ofList_rel (forall₂_zip_left info.generics hargs) name
      revert hrel
      generalize (Table.ofList _).get? name = found
      generalize (Table.ofList _).get? name = found'
      intro hrel
      cases hrel with
      | none => exact .refl _ _
      | some h => exact h
    · exact .refl _ _
  | bare => exact .of_hole rfl
  | _ => exact .refl _ _

theorem libraryField?_of_alike (h : Alike (Fades isUnknown) a b) (name : String) :
    Option.Rel FieldType.Fades (s.libraryField? a name) (s.libraryField? b name) := by
  unfold libraryField?
  rw [h.infoOf?_eq]
  cases s.registry.infoOf? a with
  | none => exact .none
  | some info =>
    simp only [Option.bind_eq_bind, Option.bind_some]
    cases info.fields.get? name with
    | none => exact .none
    | some field =>
      exact .some ⟨field.type.fades_resolve (fadedBindings_typeBindings h), rfl⟩

/-- The fields of a faded type are faded. -/
theorem field?_of_alike (h : Alike (Fades isUnknown) a b) (name : String) :
    Option.Rel FieldType.Fades (s.field? a name) (s.field? b name) := by
  have hrefl := relOption_refl FieldType.Fades.refl
  have hplain {t t' : Option Ty} (h : Option.Rel (Fades isUnknown) t t') :
      Option.Rel FieldType.Fades (t.map fun ty => (⟨ty, false, "", none⟩ : FieldType))
        (t'.map fun ty => ⟨ty, false, "", none⟩) := by
    cases h with
    | none => exact .none
    | some h => exact .some ⟨h, rfl⟩
  cases h with
  | unknown | placeholder | function => exact .none
  | named | array => exact hrefl _
  | bare q args => exact libraryField?_of_alike (.bare q args) name
  | applied q h => exact libraryField?_of_alike (.applied q h) name
  | option h =>
    simp only [field?, optionField?]
    split_ifs
    · exact hrefl _
    · exact .some ⟨h, rfl⟩
    · exact .none
  | result hok herr =>
    simp only [field?, resultField?]
    split_ifs
    · exact hrefl _
    · exact .some ⟨hok, rfl⟩
    · exact .some ⟨herr, rfl⟩
    · exact .none
  | tuple h =>
    refine hplain ?_
    unfold tupleItem?
    split
    · split
      · exact getElem?_rel h _
      · exact .none
    · exact .none
  | record structName h =>
    have hitem := hplain (FadedItems.findItem? h name)
    cases structName with
    | none => exact hitem
    | some q =>
      simp only [field?, structOf?]
      cases s.struct? q with
      | none => exact hitem
      | some info => exact hrefl _

/-- The elements of a faded type are faded. -/
theorem elementIn?_of_alike (source : Library.TypeInfo → Option TypeRef)
    (h : Alike (Fades isUnknown) a b) :
    Option.Rel (Fades isUnknown) (s.elementIn? source a) (s.elementIn? source b) := by
  have hdescribed : Option.Rel (Fades isUnknown)
      (do let ref ← source (← s.registry.infoOf? a)
          return ref.resolve s.registry (s.typeBindings a))
      (do let ref ← source (← s.registry.infoOf? b)
          return ref.resolve s.registry (s.typeBindings b)) := by
    rw [h.infoOf?_eq]
    cases s.registry.infoOf? a with
    | none => exact .none
    | some info =>
      simp only [Option.bind_eq_bind, Option.bind_some]
      cases source info with
      | none => exact .none
      | some ref => exact .some (ref.fades_resolve (fadedBindings_typeBindings h))
  cases h with
  | array h => exact .some h
  | _ => exact hdescribed

end Symbols

end ScriptCheck
