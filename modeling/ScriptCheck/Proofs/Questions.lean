import Mathlib.Data.Finset.Card
import Mathlib.Data.Finset.Prod
import Mathlib.Data.Nat.SuccPred
import Mathlib.Order.SuccPred.Relation
import Mathlib.Tactic.TFAE
import Mathlib.Tactic.WLOG
import ScriptCheck.Proofs.MemberSources
import ScriptCheck.Proofs.PlainScripts
import ScriptCheck.Validate

/-!
# The questions of a comparison

Comparing two types asks whether other types go together, one question after the other, and stops
at the first that is denied. `Symbols.inquiry` lists these questions and the answer that remains
when all of them are affirmed, and `Symbols.accepts?_succ` says that `accepts?` is that procedure.

A struct that meets an anonymous record is replaced by its fields, so that a question need not be
smaller than the one it is nested in. `Symbols.Asks` is the nesting of questions. All questions are
about parts of the two types and of the struct fields, of which there are finitely many. Hence a
comparison has an answer exactly if no question nested in it is nested in itself, and it has it
within `questionBound` nested questions (`Symbols.answered_tfae`). A question that is nested in
itself is one between two parts of struct fields (`Symbols.mem_fieldParts_of_recurs`).
-/

namespace ScriptCheck

/-- Whether the first type accepts the second. -/
abbrev Question := Ty × Ty

/-- The questions that a comparison asks, and its answer if all of them are affirmed. -/
structure Inquiry where
  questions : List Question
  verdict : Bool

namespace Inquiry

/-- An answer that needs no question. -/
def immediate (verdict : Bool) : Inquiry := ⟨[], verdict⟩

/-- The questions of `Ty.covers`. -/
def covering (items : List (String × Ty)) : List (String × Ty) → Inquiry
  | [] => immediate true
  | (name, ty) :: rest =>
    match findItem? name items with
    | none => immediate false
    | some actual =>
      let others := covering items rest
      ⟨(ty, actual) :: others.questions, others.verdict⟩

/-- Asks the questions in order, up to the first that is denied. -/
def settle (ask : Ty → Ty → Option Bool) (verdict : Bool) : List Question → Option Bool
  | [] => some verdict
  | q :: rest => do if ← ask q.1 q.2 then settle ask verdict rest else return false

theorem settle_singleton (ask : Ty → Ty → Option Bool) (q : Question) :
    settle ask true [q] = ask q.1 q.2 := by
  cases h : ask q.1 q.2 with
  | none => simp [settle, h]
  | some yes => cases yes <;> simp [settle, h]

theorem settle_append (ask : Ty → Ty → Option Bool) (verdict : Bool) (qs rest : List Question) :
    settle ask verdict (qs ++ rest) =
      (settle ask true qs).bind fun yes => if yes then settle ask verdict rest else some false := by
  induction qs with
  | nil => simp [settle]
  | cons q qs ih =>
    cases h : ask q.1 q.2 with
    | none => simp [settle, h]
    | some yes => cases yes <;> simp [settle, h, ih]

theorem allPairs_eq_settle (ask : Ty → Ty → Option Bool) :
    (as bs : List Ty) → Ty.allPairs ask as bs = settle ask true (as.zip bs)
  | [], _ => by simp [Ty.allPairs, settle]
  | _ :: _, [] => by simp [Ty.allPairs, settle]
  | a :: as, b :: bs => by simp [Ty.allPairs, settle, allPairs_eq_settle ask as bs]

theorem covers_eq_settle (ask : Ty → Ty → Option Bool) (items : List (String × Ty)) :
    (fields : List (String × Ty)) →
      Ty.covers ask items fields = settle ask (covering items fields).verdict
        (covering items fields).questions
  | [] => rfl
  | (name, ty) :: rest => by
    cases h : findItem? name items with
    | none => simp [Ty.covers, covering, h, settle, immediate]
    | some actual => simp [Ty.covers, covering, h, settle, covers_eq_settle ask items rest]

/-- No answer means that some question, after affirmed ones, has none. -/
theorem settle_eq_none {ask : Ty → Ty → Option Bool} {verdict : Bool} :
    {qs : List Question} → settle ask verdict qs = none →
      ∃ pre q post, qs = pre ++ q :: post ∧ (∀ p ∈ pre, ask p.1 p.2 = some true) ∧
        ask q.1 q.2 = none
  | [], h => by simp [settle] at h
  | q :: rest, h => by
    cases hq : ask q.1 q.2 with
    | none => exact ⟨[], q, rest, rfl, by simp, hq⟩
    | some yes =>
      cases yes with
      | false => simp [settle, hq] at h
      | true =>
        have h' : settle ask verdict rest = none := by simpa [settle, hq] using h
        obtain ⟨pre, p, post, rfl, hpre, hp⟩ := settle_eq_none h'
        refine ⟨q :: pre, p, post, rfl, ?_, hp⟩
        rintro r (_ | ⟨_, hr⟩)
        · exact hq
        · exact hpre r hr

/-- A question after affirmed ones has an answer if the inquiry has. -/
theorem exists_answer_of_settle {ask : Ty → Ty → Option Bool} {verdict v : Bool}
    {pre : List Question} {q : Question} {post : List Question}
    (hpre : ∀ p ∈ pre, ask p.1 p.2 ≠ some false)
    (h : settle ask verdict (pre ++ q :: post) = some v) : ∃ w, ask q.1 q.2 = some w := by
  induction pre with
  | nil =>
    cases hq : ask q.1 q.2 with
    | none => simp [settle, hq] at h
    | some w => exact ⟨w, rfl⟩
  | cons p pre ih =>
    cases hp : ask p.1 p.2 with
    | none => simp [settle, hp] at h
    | some yes =>
      obtain rfl : yes = true := by
        by_contra hno
        exact hpre p List.mem_cons_self (by simpa [hp] using hno)
      exact ih (fun r hr => hpre r (List.mem_cons_of_mem p hr)) (by simpa [settle, hp] using h)

/-- An answer stays if more questions have answers. -/
theorem settle_mono {ask more : Ty → Ty → Option Bool} {verdict : Bool}
    (hmore : ∀ a b v, ask a b = some v → more a b = some v) :
    {qs : List Question} → {v : Bool} → settle ask verdict qs = some v →
      settle more verdict qs = some v
  | [], v, h => h
  | q :: rest, v, h => by
    cases hq : ask q.1 q.2 with
    | none => simp [settle, hq] at h
    | some yes =>
      cases yes with
      | false => simpa [settle, hq, hmore _ _ _ hq] using h
      | true =>
        have h' : settle ask verdict rest = some v := by simpa [settle, hq] using h
        simpa [settle, hmore _ _ _ hq] using settle_mono hmore h'

end Inquiry

namespace Symbols

open Inquiry

variable {s : Symbols}

/-- What `accepts?` asks when it compares two types. -/
def inquiry (s : Symbols) (target other : Ty) : Inquiry :=
  if target.isOpen || other.isOpen || s.coerces target other then immediate true
  else
    match target, other with
    | .named a, .named b => immediate (a == b)
    | .named a, .applied b _ => immediate (a == b)
    | .applied a _, .named b => immediate (a == b)
    | .applied a as, .applied b bs =>
      if a = b ∧ as.length = bs.length then ⟨as.zip bs, true⟩ else immediate false
    | .array a, .array b => ⟨[(a, b)], true⟩
    | .option a, .option b => ⟨[(a, b)], true⟩
    | .result a c, .result b d => ⟨[(a, b), (c, d)], true⟩
    | .tuple as, .tuple bs =>
      if as.length = bs.length then ⟨as.zip bs, true⟩ else immediate false
    | .record (some a) _, .record (some b) _ => immediate (a == b)
    | .record (some a) items, .record none others => covering others (s.fieldsOf a items)
    | .record none items, .record _ others => covering others items
    | .function f, .function g =>
      if f.params.length = g.params.length then
        ⟨(g.params.map Param.ty).zip (f.params.map Param.ty) ++
          (if f.result.isUnit then [] else [(f.result, g.result)]), true⟩
      else immediate false
    | _, _ => immediate false

/-- A comparison answers its inquiry. -/
theorem accepts?_succ (s : Symbols) (n : ℕ) (target other : Ty) :
    s.accepts? (n + 1) target other =
      settle (s.accepts? n) (s.inquiry target other).verdict
        (s.inquiry target other).questions := by
  unfold accepts? inquiry
  split
  · rfl
  -- Types of different shapes are compared without a question.
  · cases target <;> cases other <;> try rfl
    case applied.applied =>
      dsimp only
      split
      · exact allPairs_eq_settle _ _ _
      · rfl
    case array.array | option.option => exact (settle_singleton _ (_, _)).symm
    case tuple.tuple =>
      dsimp only
      split
      · exact allPairs_eq_settle _ _ _
      · rfl
    case result.result =>
      dsimp only
      rw [settle, settle_singleton]
    case record.record name _ other _ _ =>
      cases name with
      | none => exact covers_eq_settle _ _ _
      | some a =>
        cases other with
        | none => exact covers_eq_settle _ _ _
        | some b => rfl
    case function.function =>
      dsimp only
      split
      · rw [settle_append, allPairs_eq_settle]
        split
        · simp [settle]
        · simp only [settle_singleton]
          rfl
      · rfl
    all_goals cases ‹Option QName› <;> rfl

/-! ## Answers -/

/-- A question is answered if its comparison comes to an end with this answer. -/
def Answers (s : Symbols) (q : Question) (answer : Bool) : Prop :=
  ∃ n, s.accepts? n q.1 q.2 = some answer

/-- A question has an answer if its comparison comes to an end. -/
def Answered (s : Symbols) (q : Question) : Prop := ∃ n, (s.accepts? n q.1 q.2).isSome

/-- A higher bound keeps an answer. -/
theorem accepts?_succ_of_some :
    {n : ℕ} → {a b : Ty} → {v : Bool} → s.accepts? n a b = some v →
      s.accepts? (n + 1) a b = some v
  | 0, _, _, _, h => by simp [accepts?] at h
  | n + 1, a, b, v, h => by
    rw [accepts?_succ] at h ⊢
    exact settle_mono (fun _ _ _ => accepts?_succ_of_some) h

theorem accepts?_mono {n m : ℕ} (hnm : n ≤ m) {a b : Ty} {v : Bool}
    (h : s.accepts? n a b = some v) : s.accepts? m a b = some v := by
  induction hnm with
  | refl => exact h
  | step _ ih => exact accepts?_succ_of_some ih

variable {q : Question}

/-- A question has one answer. -/
theorem Answers.unique {v w : Bool} (hv : s.Answers q v) (hw : s.Answers q w) : v = w := by
  obtain ⟨n, hn⟩ := hv
  obtain ⟨m, hm⟩ := hw
  have h := accepts?_mono (Nat.le_max_left n m) hn
  rw [accepts?_mono (Nat.le_max_right n m) hm] at h
  exact (Option.some.inj h).symm

theorem answered_iff_exists_answer : s.Answered q ↔ ∃ v, s.Answers q v := by
  simp only [Answered, Answers, Option.isSome_iff_exists]
  exact exists_comm

/-! ## Nested questions -/

/-- Comparing the types of `p` leads to the question `q`: it is one of those that the comparison
asks, and those before it are affirmed. -/
def Asks (s : Symbols) (p q : Question) : Prop :=
  ∃ pre post, (s.inquiry p.1 p.2).questions = pre ++ q :: post ∧ ∀ r ∈ pre, s.Answers r true

/-- A question that is nested in an answered one is answered, within a smaller bound. -/
theorem exists_answer_of_asks {p q : Question} {n : ℕ} {v : Bool}
    (hp : s.accepts? n p.1 p.2 = some v) (hpq : s.Asks p q) :
    ∃ m w, m < n ∧ s.accepts? m q.1 q.2 = some w := by
  obtain ⟨pre, post, hqs, hpre⟩ := hpq
  cases n with
  | zero => simp [accepts?] at hp
  | succ n =>
    rw [accepts?_succ, hqs] at hp
    obtain ⟨w, hw⟩ := exists_answer_of_settle
      (fun r hr hno => Bool.noConfusion ((hpre r hr).unique ⟨n, hno⟩)) hp
    exact ⟨n, w, Nat.lt_succ_self n, hw⟩

/-- A comparison that finds no answer is held up by a question that has none. -/
theorem exists_asks_of_none {p : Question} {n : ℕ} (hp : s.accepts? (n + 1) p.1 p.2 = none) :
    ∃ q, s.Asks p q ∧ s.accepts? n q.1 q.2 = none := by
  rw [accepts?_succ] at hp
  obtain ⟨pre, q, post, hqs, hpre, hq⟩ := settle_eq_none hp
  exact ⟨q, ⟨pre, post, hqs, fun r hr => ⟨n, hpre r hr⟩⟩, hq⟩

theorem exists_answer_of_transGen {p q : Question} (hpq : Relation.TransGen s.Asks p q) :
    ∀ {n : ℕ} {v : Bool}, s.accepts? n p.1 p.2 = some v →
      ∃ m w, m < n ∧ s.accepts? m q.1 q.2 = some w := by
  induction hpq with
  | single h => exact fun hp => exists_answer_of_asks hp h
  | tail _ h ih =>
    intro n v hp
    obtain ⟨m, w, hm, hw⟩ := ih hp
    obtain ⟨k, u, hk, hu⟩ := exists_answer_of_asks hw h
    exact ⟨k, u, hk.trans hm, hu⟩

/-- A question that is nested in itself. -/
def Recurs (s : Symbols) (q : Question) : Prop := Relation.TransGen s.Asks q q

/-- A question that is nested in itself has no answer. -/
theorem Recurs.accepts?_eq_none (hq : s.Recurs q) (n : ℕ) : s.accepts? n q.1 q.2 = none := by
  induction n using Nat.strong_induction_on with
  | _ n ih =>
    cases h : s.accepts? n q.1 q.2 with
    | none => rfl
    | some v =>
      obtain ⟨m, w, hm, hw⟩ := exists_answer_of_transGen hq h
      rw [ih m hm] at hw
      exact absurd hw (by simp)

/-- Neither has one that leads to such a question. -/
theorem accepts?_eq_none_of_recurs {p q : Question} (hpq : Relation.ReflTransGen s.Asks p q)
    (hq : s.Recurs q) (n : ℕ) : s.accepts? n p.1 p.2 = none := by
  cases h : s.accepts? n p.1 p.2 with
  | none => rfl
  | some v =>
    rcases Relation.reflTransGen_iff_eq_or_transGen.1 hpq with rfl | hpq
    · rw [hq.accepts?_eq_none] at h
      exact absurd h (by simp)
    · obtain ⟨m, w, -, hw⟩ := exists_answer_of_transGen hpq h
      rw [hq.accepts?_eq_none] at hw
      exact absurd hw (by simp)

/-! ## Parts of struct fields -/

/-- The types of all struct fields. -/
def fieldTypes (s : Symbols) : List Ty :=
  s.structs.entries.flatMap fun e => e.2.fields.map Prod.snd

/-- All types inside struct fields. -/
def fieldParts (s : Symbols) : List Ty := s.fieldTypes.flatMap Ty.parts

theorem length_fieldParts (s : Symbols) : s.fieldParts.length = s.fieldSize := by
  unfold fieldParts fieldTypes fieldSize
  induction s.structs.entries with
  | nil => rfl
  | cons e rest ih =>
    obtain ⟨name, info⟩ := e
    rw [List.flatMap_cons, List.flatMap_append, List.length_append, ih, List.foldr_cons]
    dsimp only
    rw [Ty.sizeItems_eq, Ty.length_flatMap_parts _ fun t _ => t.length_parts]

theorem mem_fieldParts_of_mem_fieldTypes {t : Ty} (h : t ∈ s.fieldTypes) : t ∈ s.fieldParts :=
  List.mem_flatMap.2 ⟨t, h, t.mem_parts_self⟩

theorem mem_fieldParts_of_mem_children {t c : Ty} (ht : t ∈ s.fieldParts) (hc : c ∈ t.children) :
    c ∈ s.fieldParts := by
  obtain ⟨f, hf, ht⟩ := List.mem_flatMap.1 ht
  exact List.mem_flatMap.2 ⟨f, hf, Ty.mem_parts_of_mem_children ht hc⟩

/-- The fields of a struct are those of the symbol tables, or else those that its type lists. -/
theorem mem_fieldsOf {name : QName} {items : List (String × Ty)} {t : Ty}
    (h : t ∈ (s.fieldsOf name items).map Prod.snd) : t ∈ s.fieldTypes ∨ t ∈ items.map Prod.snd := by
  unfold fieldsOf struct? at h
  split at h
  · rename_i info hinfo
    split at hinfo
    · exact Or.inl (List.mem_flatMap.2 ⟨_, Table.mem_entries_of_get? hinfo, h⟩)
    · simp at hinfo
  · exact Or.inr h

theorem mem_covering {items : List (String × Ty)} :
    {fields : List (String × Ty)} → q ∈ (covering items fields).questions →
      q.1 ∈ fields.map Prod.snd ∧ q.2 ∈ items.map Prod.snd
  | [], h => by simp [covering, immediate] at h
  | (name, ty) :: rest, h => by
    rw [covering] at h
    split at h
    · simp [immediate] at h
    · rename_i actual hactual
      rcases List.mem_cons.1 h with rfl | h
      · exact ⟨List.mem_cons_self, mem_of_findItem? hactual⟩
      · exact ⟨List.mem_cons_of_mem _ (mem_covering h).1, (mem_covering h).2⟩

/-- A comparison asks about children of the two types, or about a struct field in place of a child
of the first. The parameters of functions change sides. -/
theorem mem_inquiry {a b : Ty} (h : q ∈ (s.inquiry a b).questions) :
    ((q.1 ∈ a.children ∨ q.1 ∈ s.fieldTypes) ∧ q.2 ∈ b.children) ∨
      (q.1 ∈ b.children ∧ q.2 ∈ a.children) := by
  unfold inquiry at h
  split at h
  · simp [immediate] at h
  · split at h <;> try (simp [immediate] at h; done)
    case h_4 | h_8 =>
      split at h
      · have := List.of_mem_zip h
        exact Or.inl ⟨Or.inl this.1, this.2⟩
      · simp [immediate] at h
    case h_5 | h_6 =>
      obtain rfl := List.mem_singleton.1 h
      exact Or.inl ⟨Or.inl List.mem_cons_self, List.mem_cons_self⟩
    case h_7 =>
      left
      simp only [List.mem_cons, List.not_mem_nil, or_false] at h
      rcases h with rfl | rfl <;> simp [Ty.children]
    case h_10 =>
      obtain ⟨h₁, h₂⟩ := mem_covering h
      exact Or.inl ⟨(mem_fieldsOf h₁).symm, h₂⟩
    case h_11 =>
      obtain ⟨h₁, h₂⟩ := mem_covering h
      exact Or.inl ⟨Or.inl h₁, h₂⟩
    case h_12 f g =>
      split at h
      · rcases List.mem_append.1 h with h | h
        · have := List.of_mem_zip h
          exact Or.inr ⟨List.mem_append_left _ this.1, List.mem_append_left _ this.2⟩
        · split at h
          · simp at h
          · obtain rfl := List.mem_singleton.1 h
            exact Or.inl ⟨Or.inl (by simp [Ty.children]), by simp [Ty.children]⟩
      · simp [immediate] at h

/-! ## Finitely many questions -/

/-- The types that a comparison can come to: the parts of the two types and of struct fields. -/
def reach (s : Symbols) (q : Question) : List Ty := q.1.parts ++ q.2.parts ++ s.fieldParts

theorem mem_reach_of_mem_children {p : Question} {t c : Ty} (ht : t ∈ s.reach p)
    (hc : c ∈ t.children) : c ∈ s.reach p := by
  simp only [reach, List.mem_append] at ht ⊢
  rcases ht with (ht | ht) | ht
  · exact Or.inl (Or.inl (Ty.mem_parts_of_mem_children ht hc))
  · exact Or.inl (Or.inr (Ty.mem_parts_of_mem_children ht hc))
  · exact Or.inr (mem_fieldParts_of_mem_children ht hc)

theorem mem_reach_of_asks {p q r : Question} (hq : q.1 ∈ s.reach p ∧ q.2 ∈ s.reach p)
    (hqr : s.Asks q r) : r.1 ∈ s.reach p ∧ r.2 ∈ s.reach p := by
  obtain ⟨pre, post, hqs, -⟩ := hqr
  have hr : r ∈ (s.inquiry q.1 q.2).questions := by simp [hqs]
  rcases mem_inquiry hr with ⟨h₁ | h₁, h₂⟩ | ⟨h₁, h₂⟩
  · exact ⟨mem_reach_of_mem_children hq.1 h₁, mem_reach_of_mem_children hq.2 h₂⟩
  · exact ⟨List.mem_append_right _ (mem_fieldParts_of_mem_fieldTypes h₁),
      mem_reach_of_mem_children hq.2 h₂⟩
  · exact ⟨mem_reach_of_mem_children hq.2 h₁, mem_reach_of_mem_children hq.1 h₂⟩

/-- A comparison without an answer up to a bound has that many questions nested in each other. -/
theorem exists_chain_of_none :
    (n : ℕ) → {p : Question} → s.accepts? n p.1 p.2 = none →
      ∃ f : ℕ → Question, f 0 = p ∧ ∀ i < n, s.Asks (f i) (f (i + 1))
  | 0, p, _ => ⟨fun _ => p, rfl, by simp⟩
  | n + 1, p, hp => by
    obtain ⟨q, hpq, hq⟩ := exists_asks_of_none hp
    obtain ⟨f, hf, hasks⟩ := exists_chain_of_none n hq
    refine ⟨fun i => Nat.casesOn i p f, rfl, fun i hi => ?_⟩
    cases i with
    | zero =>
      rw [← hf] at hpq
      exact hpq
    | succ i => exact hasks i (by omega)

/-- More nested questions than pairs of types: one is nested in itself. -/
theorem exists_recurs_of_none {p : Question}
    (hp : s.accepts? (s.questionBound p.1 p.2) p.1 p.2 = none) :
    ∃ q, Relation.ReflTransGen s.Asks p q ∧ s.Recurs q := by
  obtain ⟨f, hf, hasks⟩ := exists_chain_of_none _ hp
  have hmem : ∀ i, i ≤ s.questionBound p.1 p.2 → (f i).1 ∈ s.reach p ∧ (f i).2 ∈ s.reach p := by
    intro i
    induction i with
    | zero => simp [hf, reach, Ty.mem_parts_self]
    | succ i ih => exact fun hi => mem_reach_of_asks (ih (by omega)) (hasks i (by omega))
  have hcard : ((s.reach p).toFinset ×ˢ (s.reach p).toFinset).card <
      (Finset.range (s.questionBound p.1 p.2)).card := by
    have hlen : (s.reach p).length = p.1.size + p.2.size + s.fieldSize := by
      simp [reach, length_fieldParts, Nat.add_assoc]
    rw [Finset.card_product, Finset.card_range, questionBound, ← hlen]
    exact Nat.lt_succ_of_le
      (Nat.mul_le_mul (List.toFinset_card_le _) (List.toFinset_card_le _))
  obtain ⟨i, hi, j, hj, hij, heq⟩ := Finset.exists_ne_map_eq_of_card_lt_of_maps_to hcard
    (f := f) fun i hi => by
      have := hmem i (Finset.mem_range.1 hi).le
      simpa using this
  wlog hlt : i < j generalizing i j
  · exact this j hj i hi (Ne.symm hij) heq.symm (by omega)
  have hsteps : ∀ k m, k ≤ m → m ≤ j → Relation.ReflTransGen s.Asks (f k) (f m) := by
    intro k m hkm hm
    refine (reflTransGen_of_succ_of_le (fun i j => s.Asks (f i) (f j)) (fun i hi => ?_) hkm).lift
      f fun _ _ h => h
    exact hasks i (by simp only [Set.mem_Ico, Finset.mem_range] at hi hj; omega)
  refine ⟨f i, hf ▸ hsteps 0 i (Nat.zero_le i) hlt.le, ?_⟩
  have hloop := Relation.TransGen.head' (hasks i (Finset.mem_range.1 hi))
    (hsteps (i + 1) j hlt le_rfl)
  rwa [← heq] at hloop

/-- Comparisons come to an end within the bound or not at all, and they do unless they lead to a
question that is nested in itself. -/
theorem answered_tfae (s : Symbols) (q : Question) :
    [s.Answered q, (s.verdict? q.1 q.2).isSome,
      ¬∃ r, Relation.ReflTransGen s.Asks q r ∧ s.Recurs r].TFAE := by
  tfae_have 2 → 1 := fun h => ⟨_, h⟩
  tfae_have 1 → 3 := by
    rintro ⟨n, hn⟩ ⟨r, hqr, hr⟩
    simp [accepts?_eq_none_of_recurs hqr hr] at hn
  tfae_have 3 → 2 := by
    intro h
    by_contra hnone
    exact h (exists_recurs_of_none (Option.not_isSome_iff_eq_none.1 hnone))
  tfae_finish

/-- Where a comparison comes to an end, `accepts` is its answer. -/
theorem Answered.answers_accepts (h : s.Answered q) : s.Answers q (s.accepts q.1 q.2) := by
  obtain ⟨v, hv⟩ := Option.isSome_iff_exists.1 (((s.answered_tfae q).out 0 1).1 h)
  rw [accepts, hv, Option.getD_some]
  exact ⟨s.questionBound q.1 q.2, hv⟩

/-- Where it does not, `accepts` refuses. -/
theorem accepts_eq_false_of_not_answered (h : ¬s.Answered q) : s.accepts q.1 q.2 = false := by
  have hnone := mt ((s.answered_tfae q).out 0 1).2 h
  rw [Option.not_isSome_iff_eq_none] at hnone
  rw [accepts, hnone, Option.getD_none]

/-- `accepts` affirms the questions whose answer is yes. -/
theorem accepts_eq_true_iff {a b : Ty} : s.accepts a b = true ↔ s.Answers (a, b) true := by
  constructor
  · intro h
    by_cases hq : s.Answered (a, b)
    · rw [← h]
      exact hq.answers_accepts
    · rw [accepts_eq_false_of_not_answered hq] at h
      exact absurd h (by simp)
  · intro h
    exact (h.unique (answered_iff_exists_answer.2 ⟨_, h⟩).answers_accepts).symm

/-- Types that are open go with everything. -/
theorem accepts_of_isOpen {a b : Ty} (h : a.isOpen = true ∨ b.isOpen = true) :
    s.accepts a b = true := by
  refine accepts_eq_true_iff.2 ⟨1, ?_⟩
  unfold accepts?
  exact if_pos (by simpa using Or.inl h)

/-! ## Where questions recur -/

open Classical in
/-- The size of a type that is not part of a struct field. -/
noncomputable def ownSize (s : Symbols) (t : Ty) : ℕ := if t ∈ s.fieldParts then 0 else t.size

theorem ownSize_eq_zero {t : Ty} : s.ownSize t = 0 ↔ t ∈ s.fieldParts := by
  unfold ownSize
  split_ifs with h
  · simp [h]
  · simpa [h] using t.size_pos.ne'

/-- Going to a child, the own size shrinks unless there is none. -/
theorem ownSize_child {t c : Ty} (hc : c ∈ t.children) :
    s.ownSize c < s.ownSize t ∨ (s.ownSize t = 0 ∧ s.ownSize c = 0) := by
  by_cases ht : t ∈ s.fieldParts
  · exact Or.inr ⟨ownSize_eq_zero.2 ht, ownSize_eq_zero.2 (mem_fieldParts_of_mem_children ht hc)⟩
  · left
    have := Ty.size_lt_of_mem_children hc
    unfold ownSize
    split_ifs <;> omega

theorem ownSize_asks {p q : Question} (h : s.Asks p q) :
    s.ownSize q.1 + s.ownSize q.2 < s.ownSize p.1 + s.ownSize p.2 ∨
      (s.ownSize p.1 + s.ownSize p.2 = 0 ∧ s.ownSize q.1 + s.ownSize q.2 = 0) := by
  obtain ⟨pre, post, hqs, -⟩ := h
  have hq : q ∈ (s.inquiry p.1 p.2).questions := by simp [hqs]
  rcases mem_inquiry hq with ⟨h₁ | h₁, h₂⟩ | ⟨h₁, h₂⟩
  · have := ownSize_child (s := s) h₁
    have := ownSize_child (s := s) h₂
    omega
  · have := ownSize_eq_zero.2 (mem_fieldParts_of_mem_fieldTypes h₁)
    have := ownSize_child (s := s) h₂
    omega
  · have := ownSize_child (s := s) h₁
    have := ownSize_child (s := s) h₂
    omega

/-- A question that is nested in itself is one between parts of struct fields. -/
theorem mem_fieldParts_of_recurs (hq : s.Recurs q) : q.1 ∈ s.fieldParts ∧ q.2 ∈ s.fieldParts := by
  have hsteps : ∀ p, Relation.TransGen s.Asks q p →
      s.ownSize p.1 + s.ownSize p.2 < s.ownSize q.1 + s.ownSize q.2 ∨
        (s.ownSize q.1 + s.ownSize q.2 = 0 ∧ s.ownSize p.1 + s.ownSize p.2 = 0) := by
    intro p hp
    induction hp with
    | single h => exact ownSize_asks h
    | tail _ h ih =>
      have := ownSize_asks h
      omega
  have h := hsteps q hq
  exact ⟨ownSize_eq_zero.1 (by omega), ownSize_eq_zero.1 (by omega)⟩

/-- Two types can be compared exactly if no question nested in theirs is nested in itself, and
`accepts` is then the answer. All types can be compared exactly if no question between two parts
of struct fields is nested in itself. -/
theorem comparison_ends_iff (s : Symbols) :
    (∀ q, s.Answered q ↔ ¬∃ r, Relation.ReflTransGen s.Asks q r ∧ s.Recurs r) ∧
      (∀ q, s.Answered q → s.Answers q (s.accepts q.1 q.2)) ∧
      ((∀ q, s.Answered q) ↔
        ∀ a ∈ s.fieldParts, ∀ b ∈ s.fieldParts, ¬s.Recurs (a, b)) := by
  have hends := fun q => (s.answered_tfae q).out 0 2
  refine ⟨hends, fun q h => h.answers_accepts, ?_, ?_⟩
  · intro h a _ b _ hrec
    exact (hends (a, b)).1 (h (a, b)) ⟨(a, b), .refl, hrec⟩
  · intro h q
    rw [hends]
    rintro ⟨r, -, hr⟩
    obtain ⟨ha, hb⟩ := mem_fieldParts_of_recurs hr
    exact h r.1 ha r.2 hb hr

end Symbols

/-! ## A struct that covers its own argument -/

/-- The script `struct S ( f : fn(( f : fn(S) -> Unit )) -> Unit )`: a field that is a function of
anonymous records which mention the struct again. -/
def selfCovering : Script :=
  let argument : TypeSpec :=
    .record {} [("f", .function {} false [.plain "S"] (.plain "Unit"))]
  .ofItems [.ofStruct "S" [("f", .function {} false [argument] (.plain "Unit"))]]

/-- The struct of `selfCovering`. -/
def selfCoveringStruct : Ty := .record (some ⟨"main", "S"⟩) []

/-- The argument of its field. -/
def selfCoveringArgument : Ty := Ty.anonymous [("f", Ty.fn [selfCoveringStruct] Ty.unit)]

/-- Whether the struct accepts such an argument depends on itself: the fields are functions, whose
parameters change sides, and these are the argument and the struct. -/
theorem comparison_without_end :
    ¬(selfCovering.declarations Registry.empty).symbols.Answered
      (selfCoveringStruct, selfCoveringArgument) := by
  have hrec : (selfCovering.declarations Registry.empty).symbols.Recurs
      (selfCoveringStruct, selfCoveringArgument) := by
    refine .tail (.single
      (b := (Ty.fn [selfCoveringArgument] Ty.unit, Ty.fn [selfCoveringStruct] Ty.unit)) ?_) ?_
    · exact ⟨[], [], rfl, by simp⟩
    · exact ⟨[], [], rfl, by simp⟩
  rintro ⟨n, hn⟩
  simp [hrec.accepts?_eq_none n] at hn

end ScriptCheck
