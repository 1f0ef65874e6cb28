import ScriptCheck.Proofs.FewerBindings

/-!
# Settled types

A type is saturated if every library type in it has as many arguments as it has generic parameters.
It is tame if moreover it has neither placeholders nor generic parameters, and settled if it has no
unknown parts either. All three are cases of `Ty.Sound`, which says of the parts of a type that they
leave no more open than a `Slack` admits.

Substituting, guessing and resolving keep types sound. What ties the generic parameters of a callee
to its arguments are the pins of a parameter type, `Ty.pins`: the placeholders that every settled
type binds which the parameter accepts (`Ty.contains_guess_of_mem_pins`).
-/

namespace ScriptCheck

/-- Names that are bound by position stand for the values. -/
theorem Table.exists_mem_get?_ofList_zip {κ α : Type} [DecidableEq κ] {names : List κ}
    {values : List α} (hlength : names.length ≤ values.length) {name : κ} (hname : name ∈ names) :
    ∃ value ∈ values, (ofList (names.zip values)).get? name = some value := by
  have hkey : name ∈ (names.zip values).map Prod.fst := by rwa [List.map_fst_zip hlength]
  obtain ⟨value, hvalue⟩ := Option.isSome_iff_exists.1 (isSome_get?_ofList hkey)
  have hall : (ofList (names.zip values)).All fun _ value => value ∈ values :=
    .ofList fun p hp => (List.of_mem_zip hp).2
  exact ⟨value, hall.get? hvalue, hvalue⟩

/-! ## Slack -/

/-- What a type may leave open. -/
inductive Slack where
  /-- Unknown parts, placeholders and generic parameters. -/
  | anything
  /-- Unknown parts. -/
  | unknown
  /-- Placeholders with these names. -/
  | only (names : List String)

namespace Slack

/-- Whether function types may be generic. -/
def generics : Slack → Bool
  | .anything => true
  | .unknown | .only _ => false

/-- Whether parts may be unknown. -/
def unknowns : Slack → Bool
  | .anything | .unknown => true
  | .only _ => false

/-- Whether a placeholder of this name may be open. -/
def admits : Slack → String → Bool
  | .anything, _ => true
  | .unknown, _ => false
  | .only names, name => names.contains name

/-- The second slack admits the unknown parts and generic parameters that the first does. -/
structure Covers (b a : Slack) : Prop where
  generics : a.generics = true → b.generics = true
  unknowns : a.unknowns = true → b.unknowns = true

/-- The second slack admits what the first does. -/
structure Le (a b : Slack) : Prop extends b.Covers a where
  admits : ∀ name, a.admits name = true → b.admits name = true

theorem covers_only (names : List String) (b : Slack) : b.Covers (only names) := ⟨nofun, nofun⟩

theorem le_anything (a : Slack) : a.Le anything := ⟨⟨fun _ => rfl, fun _ => rfl⟩, fun _ _ => rfl⟩

theorem only_nil_le (a : Slack) : (only []).Le a := ⟨covers_only [] a, nofun⟩

end Slack

namespace Ty

/-! ## Sound types -/

/-- Whether a type, apart from the types below it, leaves open no more than the slack admits. -/
def headSound (r : Registry) (slack : Slack) : Ty → Bool
  | .unknown => slack.unknowns
  | .placeholder name => slack.admits name
  | .named q => (genericNames r (.named q)).isEmpty
  | .applied base args => (genericNames r (.named base)).length == args.length
  | .function s => slack.generics || s.generics.isEmpty
  | .array _ | .tuple _ | .record _ _ | .option _ | .result _ _ => true

/-- Every part of the type leaves open no more than the slack admits. -/
def Sound (r : Registry) (slack : Slack) (t : Ty) : Prop :=
  ∀ u ∈ t.parts, u.headSound r slack = true

instance (r : Registry) (slack : Slack) (t : Ty) : Decidable (t.Sound r slack) :=
  inferInstanceAs (Decidable (∀ u ∈ t.parts, _ = _))

/-- Every library type in the type has the right number of arguments. -/
abbrev Saturated (r : Registry) (t : Ty) : Prop := t.Sound r .anything

/-- Nothing in the type is open but what could not be resolved. -/
abbrev Tame (r : Registry) (t : Ty) : Prop := t.Sound r .unknown

/-- Nothing in the type is open. -/
abbrev Settled (r : Registry) (t : Ty) : Prop := t.Sound r (.only [])

variable {r : Registry} {a b slack : Slack} {t : Ty}

theorem sound_iff :
    t.Sound r slack ↔ t.headSound r slack = true ∧ ∀ c ∈ t.children, c.Sound r slack := by
  rw [Sound, parts_eq, List.forall_mem_cons]
  simp only [Sound, List.mem_flatMap, forall_exists_index, and_imp]
  exact and_congr_right fun _ => ⟨fun h c hc u hu => h u c hc hu, fun h u c hc hu => h c hc u hu⟩

theorem Sound.child (h : t.Sound r slack) {c : Ty} (hc : c ∈ t.children) : c.Sound r slack :=
  (sound_iff.1 h).2 c hc

theorem Sound.mono (h : t.Sound r a) (hle : a.Le b) : t.Sound r b := by
  intro u hu
  have hhead := h u hu
  cases u with
  | unknown => exact hle.unknowns hhead
  | placeholder name => exact hle.admits name hhead
  | function s =>
    rw [headSound, Bool.or_eq_true] at hhead ⊢
    exact hhead.imp_left hle.generics
  | named | applied | array | tuple | record | option | result => exact hhead

theorem Sound.saturated (h : t.Sound r a) : t.Saturated r := h.mono a.le_anything

theorem Sound.loosen (h : t.Settled r) : t.Sound r slack := h.mono slack.only_nil_le

theorem saturated_unknown : Ty.unknown.Saturated r := sound_iff.2 ⟨rfl, nofun⟩

theorem settled_named {q : QName} (h : genericNames r (.named q) = []) : (Ty.named q).Settled r :=
  sound_iff.2 ⟨List.isEmpty_iff.2 h, nofun⟩

theorem sound_array {t : Ty} : (Ty.array t).Sound r slack ↔ t.Sound r slack := by
  rw [sound_iff]
  simp [headSound, children]

theorem sound_option {t : Ty} : (Ty.option t).Sound r slack ↔ t.Sound r slack := by
  rw [sound_iff]
  simp [headSound, children]

theorem sound_result {ok err : Ty} :
    (Ty.result ok err).Sound r slack ↔ ok.Sound r slack ∧ err.Sound r slack := by
  rw [sound_iff]
  simp [headSound, children]

theorem sound_tuple {items : List Ty} :
    (Ty.tuple items).Sound r slack ↔ ∀ t ∈ items, t.Sound r slack := by
  rw [sound_iff]
  simp [headSound, children]

theorem sound_record {name : Option QName} {items : List (String × Ty)} :
    (Ty.record name items).Sound r slack ↔ ∀ item ∈ items, item.2.Sound r slack := by
  rw [sound_iff]
  simp only [headSound, children, List.forall_mem_map, true_and]

theorem sound_applied {base : QName} {args : List Ty} : (Ty.applied base args).Sound r slack ↔
    (genericNames r (.named base)).length = args.length ∧ ∀ t ∈ args, t.Sound r slack := by
  rw [sound_iff]
  simp [headSound, children]

theorem sound_function {s : Signature Ty} : (Ty.function s).Sound r slack ↔
    (slack.generics = true ∨ s.generics = []) ∧ (∀ p ∈ s.params, p.ty.Sound r slack) ∧
      s.result.Sound r slack := by
  rw [sound_iff]
  simp only [headSound, Bool.or_eq_true, List.isEmpty_iff, children, List.forall_mem_append,
    List.forall_mem_map, List.forall_mem_singleton]

/-- A type of the prelude that is not generic is settled in every registry. -/
theorem settled_prelude {name : String}
    (h : ((Library.Prelude.type? name).map Library.TypeInfo.generics).getD [] = []) :
    (prelude name).Settled r :=
  settled_named h

theorem settled_int : int.Settled r := settled_prelude (by decide)
theorem settled_float : float.Settled r := settled_prelude (by decide)
theorem settled_bool : bool.Settled r := settled_prelude (by decide)
theorem settled_string : string.Settled r := settled_prelude (by decide)
theorem settled_unit : unit.Settled r := settled_prelude (by decide)
theorem settled_range : range.Settled r := settled_prelude (by decide)

theorem Sound.isOpen_eq_false (h : t.Settled r) : t.isOpen = false := by
  have hhead := (sound_iff.1 h).1
  cases t with
  | unknown | placeholder => cases hhead
  | _ => rfl

theorem Sound.isUnknown_eq_false (h : t.Settled r) : t.isUnknown = false := by
  have hopen := h.isOpen_eq_false
  cases t with
  | unknown => cases hopen
  | _ => rfl

/-- A tame type without unknown parts is settled. -/
theorem Sound.settled_of_known (h : t.Tame r) (hknown : t.Known) : t.Settled r := by
  intro u hu
  have hhead := h u hu
  cases u with
  | unknown => exact absurd hu hknown
  | placeholder => cases hhead
  | named | applied | array | tuple | record | option | result | function => exact hhead

theorem Sound.known (h : t.Settled r) : t.Known := fun hunknown => nomatch h _ hunknown

/-- A saturated type that is concrete is settled. -/
theorem Sound.settled_of_isConcrete (h : t.Saturated r) (hconcrete : t.isConcrete = true) :
    t.Settled r := by
  induction t using children_induction with
  | h t ih =>
    obtain ⟨hhead, hchildren⟩ := sound_iff.1 h
    refine sound_iff.2 ⟨?_, fun c hc =>
      ih c hc (hchildren c hc) (isConcrete_of_mem_children hconcrete hc)⟩
    cases t with
    | unknown | placeholder => cases hconcrete
    | function s =>
      simp only [isConcrete, Bool.and_eq_true] at hconcrete
      exact hconcrete.1.1
    | named | applied | array | tuple | record | option | result => exact hhead

/-! ## Substituting and erasing -/

theorem headSound_fill {bound : Bindings} (hcovers : b.Covers a)
    (hnamed : ∀ q, t ≠ .named q) (hplaceholder : ∀ name, t ≠ .placeholder name)
    (h : t.headSound r a = true) : (t.fill r bound).headSound r b = true := by
  cases t with
  | unknown => exact hcovers.unknowns h
  | placeholder name => exact absurd rfl (hplaceholder name)
  | named q => exact absurd rfl (hnamed q)
  | applied => simpa [Ty.fill, headSound, fillList_eq_map] using h
  | function s =>
    simp only [Ty.fill, headSound, Bool.or_eq_true, List.isEmpty_iff] at h ⊢
    exact h.imp hcovers.generics fun hgenerics => by rw [hgenerics, List.filter_nil]
  | array | tuple | record | option | result => rfl

theorem Sound.fill {bound : Bindings} (hcovers : b.Covers a)
    (hbound : ∀ name, a.admits name = true →
      ((bound.get? name).getD (.placeholder name)).Sound r b)
    (h : t.Sound r a) : (t.fill r bound).Sound r b := by
  induction t using children_induction with
  | h t ih =>
    obtain ⟨hhead, hchildren⟩ := sound_iff.1 h
    cases t with
    | unknown => exact sound_iff.2 ⟨hcovers.unknowns hhead, List.forall_mem_nil _⟩
    | placeholder name => exact hbound name hhead
    | named q =>
      have hnone : genericNames r (.named q) = [] := List.isEmpty_iff.1 hhead
      rw [Ty.fill, hnone]
      exact sound_iff.2 ⟨hhead, List.forall_mem_nil _⟩
    | applied | array | tuple | record | option | result | function =>
      refine sound_iff.2 ⟨?_, fun c hc => ?_⟩
      · exact headSound_fill hcovers (by simp) (by simp) hhead
      · rw [children_fill] at hc
        case hnamed | hplaceholder => simp
        obtain ⟨child, hchild, rfl⟩ := List.mem_map.1 hc
        exact ih child hchild (hchildren child hchild)

/-- Saturated types for placeholders keep a type saturated. -/
theorem Sound.fill_saturated {bound : Bindings} (hbound : bound.All fun _ u => u.Saturated r)
    (h : t.Saturated r) : (t.fill r bound).Saturated r := by
  refine h.fill ⟨id, id⟩ fun name _ => ?_
  cases hname : bound.get? name with
  | none => exact sound_iff.2 ⟨rfl, nofun⟩
  | some u => exact hbound.get? hname

/-- A name with as many arguments as it takes leaves no more open than its arguments. -/
theorem sound_fillPositional (hslack : slack.generics = false) {args : List Ty}
    (hargs : ∀ u ∈ args, u.Sound r slack) (ht : t.Sound r slack ∨ ∃ q, t = .named q)
    (hlength : (t.genericNames r).length = args.length) :
    (t.fillPositional r args).Sound r slack := by
  rw [fillPositional]
  split
  · rename_i hnames
    obtain ht | ⟨q, rfl⟩ := ht
    · exact ht
    · exact (settled_named (List.isEmpty_iff.1 hnames)).loosen
  · rename_i hnames
    obtain ⟨q, rfl⟩ : ∃ q, t = .named q := by
      refine ht.elim (fun ht => ?_) id
      cases t with
      | named q => exact ⟨q, rfl⟩
      | function s =>
        have hgenerics := (sound_function.1 ht).1.resolve_left (by simp [hslack])
        simp [genericNames, hgenerics] at hnames
      | _ => simp [genericNames] at hnames
    have hget {name : String} (hname : name ∈ (named q).genericNames r) :=
      Table.exists_mem_get?_ofList_zip hlength.le hname
    simp only [Ty.fill]
    split
    · refine sound_applied.2 ⟨(List.length_map _).symm, fun u hu => ?_⟩
      obtain ⟨name, hname, rfl⟩ := List.mem_map.1 hu
      obtain ⟨arg, harg, hbound⟩ := hget hname
      rw [hbound]
      exact hargs arg harg
    · rename_i hnone
      obtain ⟨name, hname⟩ := List.exists_mem_of_ne_nil _ (mt List.isEmpty_iff.2 hnames)
      obtain ⟨arg, -, hbound⟩ := hget hname
      exact absurd (List.any_eq_true.2 ⟨name, hname, Option.isSome_of_eq_some hbound⟩) hnone

theorem Sound.erase (h : t.Saturated r) : t.erase.Saturated r := by
  induction t using children_induction with
  | h t ih =>
    obtain ⟨hhead, hchildren⟩ := sound_iff.1 h
    refine sound_iff.2 ⟨?_, fun c hc => ?_⟩
    · cases t with
      | applied => simpa [Ty.erase, headSound, eraseList_eq_map] using hhead
      | _ => simp_all [Ty.erase, headSound, Slack.generics, Slack.unknowns]
    · rw [children_erase] at hc
      obtain ⟨child, hchild, rfl⟩ := List.mem_map.1 hc
      exact ih child hchild (hchildren child hchild)

theorem Sound.rigid (h : t.Settled r) : t.Rigid := by
  induction t using children_induction with
  | h t ih =>
    obtain ⟨hhead, hchildren⟩ := sound_iff.1 h
    refine rigid_iff.2 ⟨?_, ?_, fun c hc => ih c hc (hchildren c hc)⟩
    · rintro name rfl
      cases hhead
    · rintro s rfl
      exact (sound_function.1 h).1.resolve_left nofun

/-! ## Guessing -/

/-- Guesses are parts of the observed type. -/
theorem all_guess {P : Ty → Prop} (hP : ∀ t, P t → ∀ c ∈ t.children, P c) {bound : Bindings}
    (h : bound.All fun _ u => P u) (expected found : Ty) (hfound : P found) :
    (guess bound expected found).All fun _ u => P u :=
  guess_induction (I := fun b => b.All fun _ u => P u) (A := fun _ => True) (by simp) hP
    (fun _ ht h => h.insertNew ht) h trivial hfound

theorem Sound.guess {bound : Bindings} (hbound : bound.All fun _ u => u.Sound r slack)
    (expected : Ty) (h : t.Sound r slack) :
    (guess bound expected t).All fun _ u => u.Sound r slack :=
  all_guess (fun _ h _ hc => h.child hc) hbound expected t h

/-! ## Pins -/

/-- The placeholders that an accepted argument of settled type binds. -/
def pins : Ty → List String
  | .placeholder name => [name]
  | .array element => element.pins
  | .option inner => inner.pins
  | .result ok err => ok.pins ++ err.pins
  | .function s => s.result.pins
  | .unknown | .named _ | .applied _ _ | .tuple _ | .record _ _ => []

end Ty

theorem Symbols.Answers.affirmed {s : Symbols} {a b : Ty} (h : s.Answers (a, b) true) :
    (s.inquiry a b).verdict = true ∧ ∀ q ∈ (s.inquiry a b).questions, s.Answers q true := by
  obtain ⟨n, hn⟩ := h
  cases n with
  | zero => cases hn
  | succ n =>
    rw [accepts?_succ, Inquiry.settle_eq_true_iff] at hn
    exact ⟨hn.1, fun q hq => ⟨n, hn.2 q hq⟩⟩

namespace Ty

theorem contains_guess_of_contains {bound : Bindings} {name : String}
    (h : bound.contains name = true) (expected found : Ty) :
    (guess bound expected found).contains name = true :=
  (fewer_guess bound expected found).contains h

theorem contains_guess_placeholder {r : Registry} {found : Ty} (hfound : found.Settled r)
    (bound : Bindings) (name : String) :
    (guess bound (.placeholder name) found).contains name = true := by
  have hopen := hfound.isOpen_eq_false
  cases found with
  | unknown | placeholder => cases hopen
  | _ => exact (Table.contains_insertNew _ _ _ _).2 (.inr rfl)

/-- Only a placeholder becomes the unit type when it is filled and has pins. -/
theorem eq_placeholder_of_isUnit_fill {r : Registry} {bound : Bindings} {t : Ty} {name : String}
    (h : (t.fill r bound).isUnit = true) (hpin : name ∈ t.pins) : t = .placeholder name := by
  cases t with
  | placeholder other => rw [List.mem_singleton.1 hpin]
  | unknown | named | applied | tuple | record => cases hpin
  | array | option | result | function => simp [Ty.fill, isUnit, unit, prelude] at h

/-- Where a parameter accepts a settled type, the type binds the pins of the parameter. -/
theorem contains_guess_of_mem_pins {r : Registry} {s : Symbols} {filled : Bindings}
    {name : String} : (expected found : Ty) → (bound : Bindings) → found.Settled r →
    s.Answers (expected.fill r filled, found) true → name ∈ expected.pins →
    (guess bound expected found).contains name = true
  | .placeholder _, found, bound, hfound, _, hpin => by
    obtain rfl := List.mem_singleton.1 hpin
    exact contains_guess_placeholder hfound bound _
  | .array a, found, bound, hfound, hyes, hpin => by
    obtain ⟨hverdict, hquestions⟩ := hyes.affirmed
    cases found with
    | array b =>
      exact contains_guess_of_mem_pins a b bound (sound_array.1 hfound)
        (hquestions _ List.mem_cons_self) hpin
    | unknown | placeholder => cases hfound.isOpen_eq_false
    | named | applied | tuple | record | option | result | function => cases hverdict
  | .option a, found, bound, hfound, hyes, hpin => by
    obtain ⟨hverdict, hquestions⟩ := hyes.affirmed
    cases found with
    | option b =>
      exact contains_guess_of_mem_pins a b bound (sound_option.1 hfound)
        (hquestions _ List.mem_cons_self) hpin
    | unknown | placeholder => cases hfound.isOpen_eq_false
    | named | applied | tuple | record | array | result | function => cases hverdict
  | .result a c, found, bound, hfound, hyes, hpin => by
    obtain ⟨hverdict, hquestions⟩ := hyes.affirmed
    cases found with
    | result b d =>
      obtain ⟨hb, hd⟩ := sound_result.1 hfound
      rcases List.mem_append.1 hpin with hpin | hpin
      · refine contains_guess_of_contains ?_ c d
        exact contains_guess_of_mem_pins a b bound hb (hquestions _ List.mem_cons_self) hpin
      · exact contains_guess_of_mem_pins c d _ hd
          (hquestions _ (List.mem_cons_of_mem _ List.mem_cons_self)) hpin
    | unknown | placeholder => cases hfound.isOpen_eq_false
    | named | applied | tuple | record | array | option | function => cases hverdict
  | .function f, found, bound, hfound, hyes, hpin => by
    obtain ⟨hverdict, hquestions⟩ := hyes.affirmed
    cases found with
    | function g =>
      have hresult := (sound_function.1 hfound).2.2
      by_cases hunit : (f.result.fill r filled).isUnit = true
      · change (guess (guessParams bound f.params g.params) f.result g.result).contains name = true
        rw [eq_placeholder_of_isUnit_fill hunit hpin]
        exact contains_guess_placeholder hresult _ name
      · have hlength : (fillParams r filled f.params).length = g.params.length := by
          by_contra hlength
          simp [Symbols.inquiry, Symbols.coerces, Registry.infoOf?, isOpen, Ty.fill, hlength,
            Inquiry.immediate] at hverdict
        have hasked : s.Answers (f.result.fill r filled, g.result) true := hquestions _ (by
          simp [Symbols.inquiry, Symbols.coerces, Registry.infoOf?, isOpen, Ty.fill, hlength,
            hunit])
        exact contains_guess_of_mem_pins f.result g.result _ hresult hasked hpin
    | unknown | placeholder => cases hfound.isOpen_eq_false
    | named | applied | tuple | record | array | option | result => cases hverdict
  | .unknown, _, _, _, _, hpin | .named _, _, _, _, _, hpin | .applied _ _, _, _, _, _, hpin
  | .tuple _, _, _, _, _, hpin | .record _ _, _, _, _, _, hpin => absurd hpin List.not_mem_nil

end Ty

end ScriptCheck
