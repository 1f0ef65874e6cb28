import Mathlib.Data.List.Basic
import ScriptCheck.Json.Decoder

/-!
# What decoders read back, and what they can give

Arrays and members that may be missing are read back if their values are (`list_map`,
`nullable_opt`), and a tree is read back level by level, since what stands in a container nests less
deep than the container.

`Yields` says that everything a decoder accepts has some property. It follows the way in which
decoders are put together, up to the knot of a tree (`Yields.tree`).
-/

namespace ScriptCheck

/-! ## Depth -/

namespace Json

theorem depth_le_depthItems {item : Json} : {items : List Json} → item ∈ items →
    item.depth ≤ depthItems items
  | first :: items, h => by
    rw [depthItems]
    rcases List.mem_cons.1 h with rfl | h
    · omega
    · have := depth_le_depthItems h
      omega

theorem depth_le_depthMembers {key : String} {value : Json} : {members : List (String × Json)} →
    (key, value) ∈ members → value.depth ≤ depthMembers members
  | first :: members, h => by
    rw [depthMembers]
    rcases List.mem_cons.1 h with rfl | h
    · exact Nat.le_max_left _ _
    · have := depth_le_depthMembers h
      omega

/-- A value in a member nests less deep than the object. -/
theorem depth_lt_of_mem {key : String} {value : Json} {members : List (String × Json)}
    (h : (key, value) ∈ members) : value.depth < (Json.obj members).depth := by
  have := depth_le_depthMembers h
  rw [depth]
  omega

/-! ## Members -/

@[simp] theorem find?_nil (key : String) : find? key [] = none := by
  rw [find?]

@[simp] theorem find?_cons (key name : String) (value : Json) (rest : List (String × Json)) :
    find? key ((name, value) :: rest) = if name = key then some value else find? key rest := by
  rw [find?]

@[simp] theorem findOnce?_nil (key : String) : findOnce? key [] = some none := by
  rw [findOnce?]

@[simp] theorem findOnce?_cons (key name : String) (value : Json) (rest : List (String × Json)) :
    findOnce? key ((name, value) :: rest) =
      if name = key then if (find? key rest).isNone then some (some value) else none
      else findOnce? key rest := by
  rw [findOnce?]

end Json

namespace Decoder

variable {α β : Type}

/-! ## Single values -/

@[simp] theorem string_str (s : String) : string (.str s) = some s := rfl

@[simp] theorem bool_bool (b : Bool) : bool (.bool b) = some b := rfl

@[simp] theorem formName_str (kinds : List String) (s : String) :
    formName kinds (.str s) = if kinds.contains s then some s else none :=
  rfl

@[simp] theorem formIndex_str (kinds : List String) (s : String) :
    formIndex kinds (.str s) = formName kinds (.str s) :=
  rfl

@[simp] theorem member_obj (key : String) (decode : Decoder α) (members : List (String × Json)) :
    member key decode (.obj members) =
      match Json.findOnce? key members with
      | some (some value) => decode value
      | _ => none := by
  unfold member
  rfl

@[simp] theorem memberD_obj (key : String) (decode : Decoder α) (default : α)
    (members : List (String × Json)) :
    memberD key decode default (.obj members) =
      match Json.findOnce? key members with
      | some (some value) => decode value
      | some none => some default
      | none => none := by
  unfold memberD
  rfl

@[simp] theorem member?_obj (key : String) (decode : Decoder α) (members : List (String × Json)) :
    member? key decode (.obj members) =
      match Json.findOnce? key members with
      | some (some value) => nullable decode value
      | some none => some none
      | none => none := by
  unfold member? memberD
  rfl

/-! ## Reading back -/

theorem all_map {decode : Decoder α} {write : α → Json} {as : List α}
    (h : ∀ a ∈ as, decode (write a) = some a) : all decode (as.map write) = some as := by
  induction as with
  | nil => rfl
  | cons a as ih =>
    obtain ⟨ha, has⟩ := List.forall_mem_cons.1 h
    rw [List.map_cons, all, ha, ih has]
    rfl

theorem list_map {decode : Decoder α} {write : α → Json} {as : List α}
    (h : ∀ a ∈ as, decode (write a) = some a) : list decode (.arr (as.map write)) = some as :=
  all_map h

theorem nullable_opt {decode : Decoder α} {write : α → Json} {a? : Option α}
    (h : ∀ a ∈ a?, decode (write a) = some a) (hnull : ∀ a ∈ a?, write a ≠ .null) :
    nullable decode (.opt write a?) = some a? := by
  cases a? with
  | none => rfl
  | some a =>
    have hread : nullable decode (write a) = (decode (write a)).map some := by
      rw [nullable]
      exact hnull a rfl
    rw [Json.opt, hread, h a rfl, Option.map_some]

/-! ## What can be accepted -/

/-- What is given, if anything is, has the property. -/
def Gives (a? : Option α) (P : α → Prop) : Prop := ∀ a, a? = some a → P a

namespace Gives

variable {P : α → Prop} {Q : β → Prop}

theorem none : Gives Option.none P := nofun

theorem pure {a : α} (h : P a) : Gives (Pure.pure a) P := by
  rintro _ ⟨⟩
  exact h

theorem bind {a? : Option α} {f : α → Option β} (h : Gives a? P) (hf : ∀ a, P a → Gives (f a) Q) :
    Gives (a? >>= f) Q := by
  intro b hb
  obtain ⟨a, ha, hfa⟩ := Option.bind_eq_some_iff.1 hb
  exact hf a (h a ha) b hfa

/-- Nothing need be known of what is read on the way. -/
theorem skip {a? : Option α} {f : α → Option β} (hf : ∀ a, Gives (f a) Q) : Gives (a? >>= f) Q :=
  bind (fun _ _ => trivial) fun a _ => hf a

end Gives

/-- All that the decoder accepts has the property. -/
def Yields (decode : Decoder α) (P : α → Prop) : Prop := ∀ json, Gives (decode json) P

namespace Yields

variable {decode : Decoder α} {P : α → Prop}

theorem list (h : Yields decode P) : Yields (Decoder.list decode) fun as => ∀ a ∈ as, P a
  | .arr items => by
    induction items with
    | nil => exact .pure fun _ ha => nomatch ha
    | cons item items ih =>
      exact (h item).bind fun a ha => Gives.bind ih fun as has =>
        .pure (List.forall_mem_cons.2 ⟨ha, has⟩)
  | .null | .bool _ | .int _ | .real _ | .str _ | .obj _ => .none

theorem member (h : Yields decode P) (key : String) : Yields (Decoder.member key decode) P
  | .obj members => by
    rw [Decoder.member]
    split
    · exact h _
    · exact .none
  | .null | .bool _ | .int _ | .real _ | .str _ | .arr _ => .none

theorem memberD (h : Yields decode P) (key : String) {default : α} (hdefault : P default) :
    Yields (Decoder.memberD key decode default) P
  | .obj members => by
    rw [Decoder.memberD]
    split
    · exact h _
    · exact .pure hdefault
    · exact .none
  | .null | .bool _ | .int _ | .real _ | .str _ | .arr _ => .none

theorem nullable (h : Yields decode P) :
    Yields (Decoder.nullable decode) fun a? => ∀ a ∈ a?, P a := by
  intro json
  rw [Decoder.nullable.eq_def]
  split
  · exact .pure nofun
  · rintro _ ha?
    obtain ⟨a, ha, rfl⟩ := Option.map_eq_some_iff.1 ha?
    rintro _ ⟨⟩
    exact h json a ha

theorem member? (h : Yields decode P) (key : String) :
    Yields (Decoder.member? key decode) fun a? => ∀ a ∈ a?, P a :=
  h.nullable.memberD key nofun

theorem keyed (h : Yields decode P) (keys : List String) :
    Yields (Decoder.keyed keys decode) P := by
  intro json
  rw [Decoder.keyed.eq_def]
  split
  · split
    · exact h _
    · exact .none
  · exact h _

theorem nested {level : Decoder α → Decoder α}
    (h : ∀ decode, Yields decode P → Yields (level decode) P) :
    (depth : Nat) → Yields (Decoder.nested level depth) P
  | 0 => fun _ => .none
  | depth + 1 => h _ (nested h depth)

theorem tree {level : Decoder α → Decoder α}
    (h : ∀ decode, Yields decode P → Yields (level decode) P) :
    Yields (Decoder.tree level) P :=
  fun json => nested h json.depth json

end Yields

end Decoder

end ScriptCheck
