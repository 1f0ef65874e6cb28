import Mathlib.Logic.Basic
import Mathlib.Tactic.SplitIfs
import ScriptCheck.Json.Reader
import ScriptCheck.Json.Writer

/-!
# Reading what was written

The text of a value that holds no numbers is read back as that value, as long as it nests no deeper
than a text may; a value that nests deeper is written all the same, and its text is refused
(`read?_render`).

The reader takes a text character by character. So what it makes of the text of a value is said of a
reader that stands before the value, with any containers open and any text to come: it goes on with
the value in the innermost container (`ReadsBack`).
-/

namespace ScriptCheck.Json

/-! ## Values without numbers -/

mutual
/-- Whether there are no numbers in a value. -/
def numberless : Json → Bool
  | .null | .bool _ | .str _ => true
  | .int _ | .real _ => false
  | .arr items => numberlessItems items
  | .obj members => numberlessMembers members

/-- Whether there are no numbers in the items of an array. -/
def numberlessItems : List Json → Bool
  | [] => true
  | item :: rest => item.numberless && numberlessItems rest

/-- Whether there are no numbers in the values of an object. -/
def numberlessMembers : List (String × Json) → Bool
  | [] => true
  | (_, value) :: rest => value.numberless && numberlessMembers rest
end

/-! ## The reader in the middle of a text -/

/-- What is read when `rest` is all that is to come. -/
def readFrom? (plan : Plan) (state : State) (rest : List Char) : Option Json :=
  (run plan state rest).bind finish

theorem readFrom?_cons (plan : Plan) (state : State) (c : Char) (rest : List Char) :
    readFrom? plan state (c :: rest) =
      (step plan state c).bind fun next => readFrom? plan next rest := by
  simp only [readFrom?, run]
  cases step plan state c <;> rfl

/-- Of the reader that completes a value, only whether it passes over text matters. -/
theorem State.complete_mk (mode : Mode) (held stack : List Frame) (json : Json) :
    State.complete ⟨mode, held, false⟩ stack json = State.complete {} stack json := by
  unfold State.complete
  cases stack with
  | nil => rfl
  | cons frame stack => cases frame <;> rfl

/-- Behind a complete value, a blank or a character that ends the container comes next. -/
theorem step_of_complete {stack : List Frame} {json : Json} {next : State} (plan : Plan)
    (h : State.complete {} stack json = some next) (c : Char) :
    step plan next c = next.afterValue c := by
  unfold State.complete at h
  split at h <;> simp at h <;> subst h <;> rfl

/-! ## Texts in quotes -/

theorem hexValue?_hexDigit : ∀ d < 16, hexValue? (hexDigit d) = some d := by
  decide

/-- A digit of a four digit escape that is not the last one. -/
theorem readFrom?_hex {plan : Plan} {stack : List Frame} {isName : Bool} {read : List Char}
    {value digit count : Nat} {c : Char} {rest : List Char} (hdigit : hexValue? c = some digit)
    (hcount : count ≠ 3) :
    readFrom? plan ⟨.hex isName read none value count, stack, false⟩ (c :: rest) =
      readFrom? plan ⟨.hex isName read none (value * 16 + digit) (count + 1), stack, false⟩
        rest := by
  simp only [readFrom?_cons, step, hdigit, if_neg hcount, State.become, Option.bind_some]

/-- The last digit of a four digit escape of a character outside the surrogates. -/
theorem readFrom?_lastHex {plan : Plan} {stack : List Frame} {isName : Bool} {read : List Char}
    {value digit : Nat} {c d : Char} {rest : List Char} (hdigit : hexValue? d = some digit)
    (hvalue : value * 16 + digit = c.toNat) (hc : c.toNat < 0xD800) :
    readFrom? plan ⟨.hex isName read none value 3, stack, false⟩ (d :: rest) =
      readFrom? plan ⟨.text isName (c :: read), stack, false⟩ rest := by
  have hlow : ¬(0xDC00 ≤ c.toNat ∧ c.toNat ≤ 0xDFFF) := by omega
  have hhigh : ¬(0xD800 ≤ c.toNat ∧ c.toNat ≤ 0xDBFF) := by omega
  simp only [readFrom?_cons, step, hdigit, hvalue, if_true, State.closeEscape, if_neg hlow,
    if_neg hhigh, State.become, Char.ofNat_toNat, Bool.false_eq_true, if_false, Option.bind_some]

/-- A character is read back from the way it is written in a text. -/
theorem readFrom?_escapeChar (plan : Plan) (stack : List Frame) (isName : Bool)
    (read : List Char) (c : Char) (rest : List Char) :
    readFrom? plan ⟨.text isName read, stack, false⟩ (escapeChar c ++ rest) =
      readFrom? plan ⟨.text isName (c :: read), stack, false⟩ rest := by
  by_cases hquote : c = '"'
  · subst hquote
    rfl
  by_cases hbackslash : c = '\\'
  · subst hbackslash
    rfl
  by_cases hnewline : c = '\n'
  · subst hnewline
    rfl
  by_cases hreturn : c = '\r'
  · subst hreturn
    rfl
  by_cases htab : c = '\t'
  · subst htab
    rfl
  by_cases hback : c.toNat = 8
  · rw [← Char.ofNat_toNat c, hback]
    rfl
  by_cases hfeed : c.toNat = 12
  · rw [← Char.ofNat_toNat c, hfeed]
    rfl
  rw [escapeChar, if_neg hquote, if_neg hbackslash, if_neg hnewline, if_neg hreturn, if_neg htab,
    if_neg hback, if_neg hfeed]
  split
  case isTrue hcontrol =>
    have hzero : hexValue? '0' = some 0 := rfl
    have hhigh := hexValue?_hexDigit (c.toNat / 16) (by omega)
    have hlow := hexValue?_hexDigit (c.toNat % 16) (by omega)
    have hvalue : (((0 * 16 + 0) * 16 + 0) * 16 + c.toNat / 16) * 16 + c.toNat % 16 = c.toNat := by
      omega
    have hopen (rest : List Char) :
        readFrom? plan ⟨.text isName read, stack, false⟩ ('\\' :: 'u' :: rest) =
          readFrom? plan ⟨.hex isName read none 0 0, stack, false⟩ rest := rfl
    simp only [List.cons_append, List.nil_append]
    rw [hopen, readFrom?_hex hzero (by decide), readFrom?_hex hzero (by decide),
      readFrom?_hex hhigh (by decide), readFrom?_lastHex hlow hvalue (by omega)]
  case isFalse hcontrol =>
    have hstep : step plan ⟨.text isName read, stack, false⟩ c =
        some ⟨.text isName (c :: read), stack, false⟩ := by
      simp only [step, if_neg hquote, if_neg hbackslash, if_neg hcontrol, State.become]
    rw [List.singleton_append, readFrom?_cons, hstep, Option.bind_some]

theorem readFrom?_escaped (plan : Plan) (stack : List Frame) (isName : Bool)
    (cs read rest : List Char) :
    readFrom? plan ⟨.text isName read, stack, false⟩ (cs.flatMap escapeChar ++ rest) =
      readFrom? plan ⟨.text isName (cs.reverse ++ read), stack, false⟩ rest := by
  induction cs generalizing read with
  | nil => rfl
  | cons c cs ih =>
    rw [List.flatMap_cons, List.append_assoc, readFrom?_escapeChar, ih]
    simp

/-- Behind the quote that opens it, a text is read up to the quote that closes it. -/
theorem readFrom?_text (plan : Plan) (stack : List Frame) (isName : Bool) (text : String)
    (rest : List Char) :
    readFrom? plan ⟨.text isName [], stack, false⟩ (text.toList.flatMap escapeChar ++ '"' :: rest) =
      if isName then readFrom? plan ⟨.colon text, stack, false⟩ rest
      else (State.complete {} stack (.str text)).bind fun next => readFrom? plan next rest := by
  rw [readFrom?_escaped, readFrom?_cons, List.append_nil]
  have hstep : step plan ⟨.text isName text.toList.reverse, stack, false⟩ '"' =
      State.closeText ⟨.text isName text.toList.reverse, stack, false⟩ isName
        text.toList.reverse := rfl
  rw [hstep, State.closeText, List.reverse_reverse, String.ofList_toList, State.complete_mk]
  cases isName <;> rfl

/-! ## Values -/

/-- Whether a value may come next. -/
def Mode.awaitsValue : Mode → Bool
  | .value | .firstItem => true
  | _ => false

/-- The first character of a value opens it, whether or not the value could be missing. -/
theorem step_of_awaitsValue {mode : Mode} (plan : Plan) (stack : List Frame) {c : Char}
    (hmode : mode.awaitsValue) (hblank : isBlank c = false) (hclose : c ≠ ']') :
    step plan ⟨mode, stack, false⟩ c = State.openValue plan.limit ⟨mode, stack, false⟩ c := by
  cases mode <;> simp_all [Mode.awaitsValue, step]

theorem toList_quote (text : String) :
    (quote text).toList = '"' :: (text.toList.flatMap escapeChar ++ ['"']) := by
  simp [quote]

/-- Whether a literal name that stands before `rest` ends there. -/
def endsName (rest : List Char) : Bool := rest.head?.all fun c => !c.isAlpha

/-- A literal name that has been read up to its end is complete, be it by the next character or by
the end of the text. -/
theorem readFrom?_literal {read : List Char} {json : Json} (plan : Plan) (stack : List Frame)
    {rest : List Char} (hread : literal? (String.ofList read.reverse) = some json)
    (hrest : endsName rest) :
    readFrom? plan ⟨.literal read, stack, false⟩ rest =
      (State.complete {} stack json).bind fun next => readFrom? plan next rest := by
  cases rest with
  | nil =>
    cases stack with
    | nil => exact hread
    | cons frame stack => cases frame <;> rfl
  | cons c rest =>
    have hc : c.isAlpha = false := by simpa [endsName] using hrest
    have hstep : step plan ⟨.literal read, stack, false⟩ c =
        (State.complete {} stack json).bind fun next => next.afterValue c := by
      simp [step, hc, State.closeLiteral, hread, State.complete_mk]
    rw [readFrom?_cons, hstep]
    cases hnext : State.complete {} stack json with
    | none => rfl
    | some next =>
      simp only [Option.bind_some, readFrom?_cons]
      rw [step_of_complete plan hnext]

/-- The text of `json` is read back by a reader that awaits a value and has no more than `limit`
containers open, in front of anything that does not prolong a literal name, unless the containers in
`json` are too many. -/
def ReadsBack (limit : Nat) (json : Json) : Prop :=
  ∀ mode stack rest, mode.awaitsValue → stack.length ≤ limit → endsName rest →
    readFrom? { limit := limit } ⟨mode, stack, false⟩ (json.render.toList ++ rest) =
      if stack.length + json.depth ≤ limit then
        (State.complete {} stack json).bind fun next => readFrom? { limit := limit } next rest
      else none

theorem readsBack_literal {limit : Nat} {json : Json} (hdepth : json.depth = 0)
    (hjson : literal? json.render = some json)
    (hletters : ∀ mode stack rest, mode.awaitsValue →
      readFrom? { limit := limit } ⟨mode, stack, false⟩ (json.render.toList ++ rest) =
        readFrom? { limit := limit } ⟨.literal json.render.toList.reverse, stack, false⟩ rest) :
    ReadsBack limit json := by
  intro mode stack rest hmode hstack hrest
  rw [hletters mode stack rest hmode, hdepth, Nat.add_zero, if_pos hstack]
  exact readFrom?_literal _ stack (by simpa using hjson) hrest

theorem readsBack_null (limit : Nat) : ReadsBack limit .null :=
  readsBack_literal rfl rfl fun mode stack rest hmode => by
    cases mode with
    | value | firstItem => simp [render]; rfl
    | _ => cases hmode

theorem readsBack_bool (limit : Nat) (value : Bool) : ReadsBack limit (.bool value) :=
  readsBack_literal rfl (by cases value <;> rfl) fun mode stack rest hmode => by
    cases mode with
    | value | firstItem => cases value <;> simp [render] <;> rfl
    | _ => cases hmode

theorem readsBack_str (limit : Nat) (text : String) : ReadsBack limit (.str text) := by
  intro mode stack rest hmode hstack _
  rw [depth, Nat.add_zero, if_pos hstack, render, toList_quote, List.cons_append,
    List.append_assoc, List.singleton_append, readFrom?_cons,
    step_of_awaitsValue _ _ hmode rfl (by decide)]
  · exact readFrom?_text _ stack false text rest
  all_goals simp

/-! ## Containers -/

/-- Whether the name of a member may come next. -/
def Mode.awaitsName : Mode → Bool
  | .name | .firstName => true
  | _ => false

/-- A name and the colon behind it: the member is open and its value is awaited. -/
theorem readFrom?_key {mode : Mode} (limit : Nat) (read : List (String × Json))
    (outer : List Frame) (key : String) (rest : List Char) (hmode : mode.awaitsName) :
    readFrom? { limit := limit } ⟨mode, .members read :: outer, false⟩
        ((quote key).toList ++ ':' :: rest) =
      readFrom? { limit := limit } ⟨.value, .member read key :: outer, false⟩ rest := by
  have hquote : step { limit := limit } ⟨mode, .members read :: outer, false⟩ '"' =
      some ⟨.text true [], .members read :: outer, false⟩ := by
    cases mode with
    | name | firstName => rfl
    | _ => cases hmode
  rw [toList_quote, List.cons_append, List.append_assoc, List.singleton_append, readFrom?_cons,
    hquote, Option.bind_some, readFrom?_text, if_pos rfl, readFrom?_cons]
  simp [step, isBlank, State.openMember]

/-- How the parts of a container are written and read, be they the items of an array or the members
of an object. -/
structure Container (limit : Nat) (α : Type) where
  value : α → Json
  frame : List α → Frame
  whole : List α → Json
  renderParts : List α → String
  /-- The text of one part. -/
  text : α → List Char
  opening : Char
  closing : Char
  /-- The modes in front of the first part and in front of a later one. -/
  first : Mode
  later : Mode
  text_whole (parts : List α) :
    (whole parts).render.toList = opening :: ((renderParts parts).toList ++ [closing])
  text_nil : (renderParts []).toList = [] := by rfl
  text_single (a : α) : (renderParts [a]).toList = text a
  text_cons (a b : α) (parts : List α) :
    (renderParts (a :: b :: parts)).toList = text a ++ ',' :: (renderParts (b :: parts)).toList
  depth_nil : (whole []).depth = 1 := by rfl
  depth_cons (a : α) (parts : List α) :
    (whole (a :: parts)).depth = max (1 + (value a).depth) (whole parts).depth
  isAlpha_closing : closing.isAlpha = false := by rfl
  step_opening {mode : Mode} (stack : List Frame) (hmode : mode.awaitsValue) :
    step { limit := limit } ⟨mode, stack, false⟩ opening =
        if stack.length < limit then some ⟨first, frame [] :: stack, false⟩ else none := by
    intro mode stack hmode
    rw [step_of_awaitsValue _ _ hmode rfl (by decide)]
    simp [State.openValue, State.mayOpen, State.enter]
  step_comma (read : List α) (outer : List Frame) :
    step { limit := limit } ⟨.next, frame read :: outer, false⟩ ',' =
      some ⟨later, frame read :: outer, false⟩ := by intros; rfl
  step_closing {mode : Mode} (read : List α) (outer : List Frame) :
    mode = .next ∨ mode = first →
      step { limit := limit } ⟨mode, frame read :: outer, false⟩ closing =
        State.complete {} outer (whole read.reverse) := by
    rintro _ read outer (rfl | rfl) <;>
      simp [step, State.afterValue, isBlank, State.close, State.complete_mk]
  reads {a : α} {mode : Mode} {outer : List Frame} {rest : List Char} (read : List α) :
    ReadsBack limit (value a) → mode = first ∨ mode = later → outer.length < limit →
    endsName rest →
    readFrom? { limit := limit } ⟨mode, frame read :: outer, false⟩ (text a ++ rest) =
      if outer.length + 1 + (value a).depth ≤ limit then
        readFrom? { limit := limit } ⟨.next, frame (a :: read) :: outer, false⟩ rest
      else none

namespace Container

variable {limit : Nat} {α : Type} (C : Container limit α)

/-- The parts are read back up to the end of their container. -/
theorem readFrom?_parts {parts : List α} (hparts : ∀ a ∈ parts, ReadsBack limit (C.value a))
    (hne : parts ≠ []) {mode : Mode} (hmode : mode = C.first ∨ mode = C.later) (read : List α)
    {outer : List Frame} (rest : List Char) (houter : outer.length < limit) :
    readFrom? { limit := limit } ⟨mode, C.frame read :: outer, false⟩
        ((C.renderParts parts).toList ++ C.closing :: rest) =
      if outer.length + (C.whole parts).depth ≤ limit then
        (State.complete {} outer (C.whole (read.reverse ++ parts))).bind fun next =>
          readFrom? { limit := limit } next rest
      else none := by
  induction parts generalizing read mode with
  | nil => contradiction
  | cons a parts ih =>
    have ha := hparts a List.mem_cons_self
    rw [C.depth_cons]
    cases parts with
    | nil =>
      rw [C.text_single, C.reads read ha hmode houter (by simp [endsName, C.isAlpha_closing]),
        readFrom?_cons, C.step_closing _ _ (.inl rfl), List.reverse_cons, C.depth_nil]
      exact if_congr (by omega) rfl rfl
    | cons b parts =>
      have hrest := ih (fun c hc => hparts c (List.mem_cons_of_mem a hc)) (by simp) (.inr rfl)
        (a :: read)
      rw [C.text_cons, List.append_assoc, C.reads read ha hmode houter rfl, List.cons_append,
        readFrom?_cons, C.step_comma, Option.bind_some, hrest, List.reverse_cons,
        List.append_assoc, List.singleton_append, ← ite_and]
      exact if_congr (by omega) rfl rfl

theorem readsBack {parts : List α} (hparts : ∀ a ∈ parts, ReadsBack limit (C.value a)) :
    ReadsBack limit (C.whole parts) := by
  intro mode stack rest hmode hstack _
  rw [C.text_whole, List.cons_append, List.append_assoc, List.singleton_append, readFrom?_cons,
    C.step_opening stack hmode]
  split
  · rename_i hopen
    rw [Option.bind_some]
    cases parts with
    | nil =>
      rw [C.text_nil, List.nil_append, readFrom?_cons, C.step_closing [] stack (.inr rfl),
        C.depth_nil]
      exact (if_pos hopen).symm
    | cons a parts => exact C.readFrom?_parts hparts (by simp) (.inl rfl) [] rest hopen
  · have hdepth : 0 < (C.whole parts).depth := by
      cases parts with
      | nil => exact C.depth_nil ▸ Nat.one_pos
      | cons a parts => exact C.depth_cons a parts ▸ by omega
    rw [if_neg (by omega)]
    rfl

/-- The items of an array. -/
def items (limit : Nat) : Container limit Json where
  value item := item
  frame := .items
  whole := .arr
  renderParts := renderItems
  text item := item.render.toList
  opening := '['
  closing := ']'
  first := .firstItem
  later := .value
  text_whole _ := by simp [render]
  text_single _ := rfl
  text_cons _ _ _ := by rw [renderItems] <;> simp
  depth_cons item items := by simp only [depth, depthItems]; omega
  reads read hitem hmode houter hrest :=
    hitem _ (.items read :: _) _ (by obtain rfl | rfl := hmode <;> rfl) houter hrest

/-- The members of an object. -/
def members (limit : Nat) : Container limit (String × Json) where
  value := Prod.snd
  frame := .members
  whole := .obj
  renderParts := renderMembers
  text member := (quote member.1).toList ++ ':' :: member.2.render.toList
  opening := '\x7b'
  closing := '\x7d'
  first := .firstName
  later := .name
  text_whole _ := by simp [render]
  text_single _ := by simp [renderMembers]
  text_cons _ _ _ := by rw [renderMembers] <;> simp
  depth_cons member members := by simp only [depth, depthMembers]; omega
  reads read hvalue hmode houter hrest := by
    rw [List.append_assoc, List.cons_append,
      readFrom?_key _ _ _ _ _ (by obtain rfl | rfl := hmode <;> rfl)]
    exact hvalue _ (.member read _ :: _) _ rfl houter hrest

end Container

/-! ## Whole texts -/

mutual
theorem readsBack {limit : Nat} : ∀ (json : Json), json.numberless → ReadsBack limit json
  | .null, _ => readsBack_null limit
  | .bool value, _ => readsBack_bool limit value
  | .str text, _ => readsBack_str limit text
  | .arr items, h => (Container.items limit).readsBack (readsBack_items items h)
  | .obj members, h => (Container.members limit).readsBack (readsBack_members members h)

theorem readsBack_items {limit : Nat} : ∀ (items : List Json), numberlessItems items →
    ∀ item ∈ items, ReadsBack limit item
  | first :: items, h, item, hitem => by
    simp only [numberlessItems, Bool.and_eq_true] at h
    rcases List.mem_cons.1 hitem with heq | hitem
    · rw [heq]
      exact readsBack first h.1
    · exact readsBack_items items h.2 item hitem

theorem readsBack_members {limit : Nat} : ∀ (members : List (String × Json)),
    numberlessMembers members → ∀ member ∈ members, ReadsBack limit member.2
  | (_, value) :: members, h, member, hmember => by
    simp only [numberlessMembers, Bool.and_eq_true] at h
    rcases List.mem_cons.1 hmember with heq | hmember
    · rw [heq]
      exact readsBack value h.1
    · exact readsBack_members members h.2 member hmember
end

/-- The text of a value is read back, unless it nests too deep. -/
theorem read?_render {json : Json} (h : json.numberless) :
    read? json.render = if json.depth ≤ maxDepth then some json else none := by
  have hread : _ = _ := @readsBack maxDepth json h .value [] [] rfl (Nat.zero_le _) rfl
  simpa [State.complete, readFrom?, run, finish, read?, readWithin?, readBy?] using hread

end ScriptCheck.Json
