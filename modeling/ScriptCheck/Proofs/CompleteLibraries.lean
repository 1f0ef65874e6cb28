import ScriptCheck.Proofs.SettledTypes

/-!
# Complete libraries

A library is complete if every type reference in it names a known type with the right number of
arguments, members of a type mention the generic parameters of that type only, and a call of a
method binds whatever else its result mentions. The prelude is complete.

A sound reference is resolved to a sound type, provided that its generic parameters are bound to
such (`TypeRef.sound_resolve`).
-/

namespace ScriptCheck

open Library

/-! ## Type references -/

namespace TypeRef

mutual
/-- The generic parameters in a reference. -/
def mentions : TypeRef → List String
  | .builtin _ => []
  | .generic name => [name]
  | .standard _ _ args => mentionsOfList args
  | .array param | .option param => param.mentions
  | .result ok err => ok.mentions ++ err.mentions
  | .tuple params | .record _ params => mentionsOfList params
  | .function _ params ret => mentionsOfList params ++ ret.mentions

/-- The generic parameters in the references of a list. -/
def mentionsOfList : List TypeRef → List String
  | [] => []
  | ref :: rest => ref.mentions ++ mentionsOfList rest
end

mutual
/-- Whether all names in a reference are those of types with the right number of arguments. -/
def sound (r : Registry) : TypeRef → Bool
  | .builtin name => (Prelude.type? name).any fun info => info.generics.isEmpty
  | .generic _ => true
  | .standard module name args =>
    (r.type? ⟨module, name⟩).any (fun info => info.generics.length == args.length) &&
      soundList r args
  | .array param | .option param => param.sound r
  | .result ok err => ok.sound r && err.sound r
  | .tuple params | .record _ params => soundList r params
  | .function _ params ret => soundList r params && ret.sound r

/-- Whether all references of a list are sound. -/
def soundList (r : Registry) : List TypeRef → Bool
  | [] => true
  | ref :: rest => ref.sound r && soundList r rest
end

theorem mentionsOfList_eq (refs : List TypeRef) : mentionsOfList refs = refs.flatMap mentions := by
  induction refs with
  | nil => rfl
  | cons ref rest ih => rw [mentionsOfList, ih, List.flatMap_cons]

theorem mentions_subset {ref c : TypeRef} (h : c ∈ ref.children) : c.mentions ⊆ ref.mentions := by
  intro name hname
  cases ref <;> simp only [children, mentions, mentionsOfList_eq, List.mem_append,
    List.mem_flatMap] at h ⊢ <;> grind

theorem soundList_eq (r : Registry) (refs : List TypeRef) :
    soundList r refs = refs.all (sound r) := by
  induction refs with
  | nil => rfl
  | cons ref rest ih => rw [soundList, ih, List.all_cons]

theorem sound_child {r : Registry} {ref c : TypeRef} (h : ref.sound r = true)
    (hc : c ∈ ref.children) : c.sound r = true := by
  cases ref <;> simp_all [sound, children, soundList_eq] <;> grind

/-- A sound reference is resolved to a sound type if what it mentions is bound to such. -/
theorem sound_resolve {r : Registry} {slack : Slack} {bound : Bindings} (ref : TypeRef)
    (href : ref.sound r = true)
    (hbound : ∀ name ∈ ref.mentions, ((bound.get? name).getD .unknown).Sound r slack) :
    (ref.resolve r bound).Sound r slack := by
  induction ref using names_induction with
  | builtin name =>
    obtain ⟨info, hinfo, hgenerics⟩ := (Option.any_eq_true _ _).1 href
    rw [resolve, if_pos (Option.isSome_of_eq_some hinfo)]
    refine Ty.Sound.loosen (Ty.settled_prelude ?_)
    rw [hinfo]
    exact List.isEmpty_iff.1 hgenerics
  | generic name => exact hbound name List.mem_cons_self
  | standard module name args ih =>
    have hargs : ∀ t ∈ args.map (resolve r bound), t.Sound r slack :=
      List.forall_mem_map.2 fun arg harg =>
        ih arg harg (sound_child href harg) fun name hname =>
          hbound name (mentions_subset harg hname)
    rw [sound, Bool.and_eq_true] at href
    obtain ⟨info, hinfo, hcount⟩ := (Option.any_eq_true _ _).1 href.1
    have hnames : (Ty.named ⟨module, name⟩).genericNames r = info.generics := by
      simp [Ty.genericNames, hinfo]
    have hcount : info.generics.length = args.length := beq_iff_eq.1 hcount
    rw [resolve, if_neg (by simp [hinfo]), resolveList_eq_map]
    split
    · rename_i hempty
      rw [List.isEmpty_iff.1 hempty] at hcount
      exact Ty.Sound.loosen
        (Ty.settled_named (hnames.trans (List.length_eq_zero_iff.1 hcount)))
    · exact Ty.sound_applied.2 ⟨by rw [hnames, hcount, List.length_map], hargs⟩
  | composite ref hcomposite ih =>
    refine Ty.sound_iff.2 ⟨?_, forall_children_resolve hcomposite fun c hc =>
      ih c hc (sound_child href hc) fun name hname => hbound name (mentions_subset hc hname)⟩
    cases ref with
    | builtin | generic | standard => cases hcomposite
    | function => simp [resolve, Ty.headSound]
    | array | option | result | tuple | record => rfl

/-- A sound reference under saturated types is saturated, whatever is bound. -/
theorem saturated_resolve {r : Registry} {bound : Bindings} {ref : TypeRef}
    (href : ref.sound r = true) (hbound : ∀ name t, bound.get? name = some t → t.Saturated r) :
    (ref.resolve r bound).Saturated r := by
  refine ref.sound_resolve href fun name _ => ?_
  cases hname : bound.get? name with
  | none => exact Ty.saturated_unknown
  | some t => exact hbound name t hname

/-- The generic parameters that an accepted argument of settled type binds. -/
def pins : TypeRef → List String
  | .generic name => [name]
  | .array param | .option param => param.pins
  | .result ok err => ok.pins ++ err.pins
  | .function _ _ ret => ret.pins
  | .builtin _ | .standard _ _ _ | .tuple _ | .record _ _ => []

theorem mem_pins_resolve {r : Registry} {bound : Bindings} {name : String}
    (hbound : bound.get? name = some (.placeholder name)) : (ref : TypeRef) → name ∈ ref.pins →
    name ∈ (ref.resolve r bound).pins
  | .generic other, h => by
    obtain rfl := List.mem_singleton.1 h
    rw [resolve, hbound]
    exact List.mem_cons_self
  | .array param, h => mem_pins_resolve hbound param h
  | .option param, h => mem_pins_resolve hbound param h
  | .result ok err, h => by
    rcases List.mem_append.1 h with h | h
    · exact List.mem_append_left _ (mem_pins_resolve hbound ok h)
    · exact List.mem_append_right _ (mem_pins_resolve hbound err h)
  | .function _ _ ret, h => mem_pins_resolve hbound ret h
  | .builtin _, h | .standard _ _ _, h | .tuple _, h | .record _ _, h => absurd h List.not_mem_nil

/-- Whether a reference is sound and mentions no generic parameters but these. -/
def settles (r : Registry) (generics : List String) (ref : TypeRef) : Bool :=
  ref.sound r && ref.mentions.all generics.contains

theorem settles_iff {r : Registry} {generics : List String} {ref : TypeRef} :
    ref.settles r generics = true ↔ ref.sound r = true ∧ ref.mentions ⊆ generics := by
  simp [settles, List.subset_def]

end TypeRef

/-! ## Complete libraries -/

namespace Library

/-- The generic parameters that every call binds which gives the arguments without defaults. -/
def pinned (params : List ParameterInfo) : List String :=
  (params.take (params.filter fun p => !p.hasDefault).length).flatMap fun p => p.type.pins

/-- Whether all parameters have sound types and the result mentions nothing but the generic
parameters. -/
def FunctionInfo.complete (r : Registry) (f : FunctionInfo) : Bool :=
  f.params.all (fun p => p.type.sound r) && f.result.settles r f.generics

/-- Whether all parameters have sound types and the result mentions nothing but the generic
parameters of the type, unless a call binds it. -/
def MethodInfo.complete (r : Registry) (generics : List String) (m : MethodInfo) : Bool :=
  m.params.all (fun p => p.type.sound r) && m.result.sound r &&
    m.result.mentions.all fun name =>
      if m.generics.contains name then (pinned m.params).contains name else generics.contains name

/-- Whether the members of a type mention nothing but its generic parameters. -/
def TypeInfo.complete (r : Registry) (info : TypeInfo) : Bool :=
  let settles (ref : TypeRef) := ref.settles r info.generics
  info.fields.entries.all (fun entry => settles entry.2.type) &&
    info.methods.entries.all (fun entry => entry.2.complete r info.generics) &&
    info.prefixOperators.entries.all (fun entry => entry.2.all fun o => settles o.result) &&
    info.suffixOperators.entries.all (fun entry => entry.2.all fun o => settles o.result) &&
    info.forInSource.all settles && info.indexAccess.all settles

/-- The members of a complete type, each on its own. -/
structure TypeInfo.Complete (r : Registry) (info : TypeInfo) : Prop where
  fields : info.fields.All fun _ f => f.type.settles r info.generics = true
  methods : info.methods.All fun _ m => m.complete r info.generics = true
  prefixOperators : info.prefixOperators.All fun _ os =>
    ∀ o ∈ os, o.result.settles r info.generics = true
  suffixOperators : info.suffixOperators.All fun _ os =>
    ∀ o ∈ os, o.result.settles r info.generics = true
  forInSource : ∀ ref ∈ info.forInSource, ref.settles r info.generics = true
  indexAccess : ∀ ref ∈ info.indexAccess, ref.settles r info.generics = true

theorem TypeInfo.Complete.of_complete {r : Registry} {info : TypeInfo}
    (h : info.complete r = true) : info.Complete r := by
  simp only [complete, Bool.and_eq_true, List.all_eq_true, Option.all_eq_true] at h
  obtain ⟨⟨⟨⟨⟨hfields, hmethods⟩, hprefix⟩, hsuffix⟩, hforIn⟩, hindex⟩ := h
  exact ⟨hfields, hmethods, hprefix, hsuffix, hforIn, hindex⟩

/-- Whether everything that a module exports is complete. -/
def ModuleInfo.complete (r : Registry) (m : ModuleInfo) : Bool :=
  m.constants.all (fun c => c.type.settles r []) && m.functions.all (fun f => f.complete r) &&
    m.types.all fun info => info.complete r

/-- The prelude is complete in every registry. -/
theorem complete_prelude (r : Registry) : Prelude.types.all (fun info => info.complete r) = true :=
  rfl

theorem mem_of_findLast? {α : Type} {nameOf : α → String} {name : String} {exports : List α} {a : α}
    (h : findLast? nameOf name exports = some a) : a ∈ exports :=
  List.mem_reverse.1 (List.mem_of_find?_eq_some h)

end Library

namespace Registry

/-- Whether all modules are complete. -/
def complete (r : Registry) : Bool := r.modules.entries.all fun entry => entry.2.complete r

variable {r : Registry}

theorem complete_module? (h : r.complete = true) {name : String} {m : ModuleInfo}
    (hm : r.module? name = some m) : m.complete r = true :=
  List.all_eq_true.1 h _ (Table.mem_entries_of_get? hm)

theorem complete_infoOf? (h : r.complete = true) {t : Ty} {info : TypeInfo}
    (hinfo : r.infoOf? t = some info) : info.Complete r := by
  have htype {q : QName} (hq : r.type? q = some info) : info.Complete r := by
    refine .of_complete ?_
    unfold type? at hq
    split at hq
    · exact List.all_eq_true.1 (complete_prelude r) info (List.mem_of_find?_eq_some hq)
    · obtain ⟨m, hm, htype⟩ := Option.bind_eq_some_iff.1 hq
      have hcomplete := complete_module? h hm
      simp only [ModuleInfo.complete, Bool.and_eq_true, List.all_eq_true] at hcomplete
      exact hcomplete.2 info (mem_of_findLast? htype)
  cases t with
  | named => exact htype hinfo
  | applied => exact htype hinfo
  | _ => cases hinfo

end Registry

end ScriptCheck
