import Mathlib.Data.List.DropRight
import ScriptCheck.Source.LineIndex

/-!
# Positions by scanning

A line index looks up positions in its table of line starts. What it finds is what a scan of the
text from its start finds (`LineIndex.position_eq_scan`): the line is the number of newline bytes in
front of the offset, and the character the number of UTF-16 units behind the last of them. The
lookup stops at the starts that the text in front of the offset has (`LineIndex.takeWhile_starts`).

The first bytes of a range are counted as characters by `Range.leading`. The range that the index
gives for them is the same exactly if they are ASCII (`LineIndex.leading_eq_range_iff`).
-/

namespace ScriptCheck

/-! ## Sizes of texts -/

theorem sizeBy_append (size : Char → Nat) (text rest : List Char) :
    sizeBy size (text ++ rest) = sizeBy size text + sizeBy size rest := by
  induction text with
  | nil => simp [sizeBy]
  | cons c text ih => simp [sizeBy, ih, Nat.add_assoc]

theorem sizeBy_utf8Size (text : String) : sizeBy Char.utf8Size text.toList = text.utf8ByteSize := by
  induction text using String.push_induction with
  | empty => rfl
  | push text c ih => simp [sizeBy_append, sizeBy, ih]

theorem dropBytes_append (text rest : List Char) :
    dropBytes (sizeBy Char.utf8Size text) (text ++ rest) = rest := by
  induction text with
  | nil => cases rest <;> rfl
  | cons c text ih =>
    have hpos := c.utf8Size_pos
    rw [sizeBy, List.cons_append, dropBytes]
    · rw [Nat.add_sub_cancel_left, ih]
    · omega

theorem takeBytes?_append (text rest : List Char) :
    takeBytes? (sizeBy Char.utf8Size text) (text ++ rest) = some text := by
  induction text with
  | nil => cases rest <;> rfl
  | cons c text ih =>
    have hpos := c.utf8Size_pos
    rw [sizeBy, List.cons_append, takeBytes?]
    · rw [if_pos (by omega), Nat.add_sub_cancel_left, ih]
      rfl
    · omega

theorem utf16Size_le (c : Char) :
    utf16Size c ≤ c.utf8Size ∧ (utf16Size c = c.utf8Size ↔ c.toNat < 128) := by
  have hnat : c.toNat = c.val.toNat := rfl
  rw [utf16Size, Char.utf8Size, hnat]
  simp only [UInt32.le_iff_toNat_le, UInt32.toNat_ofNatLT]
  split_ifs <;> omega

/-- A text has at most as many UTF-16 units as bytes, and as many exactly if it is ASCII. -/
theorem sizeBy_utf16Size_le (text : List Char) :
    sizeBy utf16Size text ≤ sizeBy Char.utf8Size text ∧
      (sizeBy utf16Size text = sizeBy Char.utf8Size text ↔ ∀ c ∈ text, c.toNat < 128) := by
  induction text with
  | nil => simp [sizeBy]
  | cons c text ih =>
    have hc := utf16Size_le c
    rw [List.forall_mem_cons, ← ih.2, ← hc.2, sizeBy, sizeBy]
    omega

/-! ## Newlines -/

/-- The number of newlines among the bytes of a text. -/
def newlines (text : String) : Nat := text.toByteArray.data.count 10

/-- The text behind the last newline. -/
def lastLine (text : String) : List Char := text.toList.rtakeWhile (· ≠ '\n')

/-- The text up to the last newline. -/
def fullLines (text : String) : List Char := text.toList.rdropWhile (· ≠ '\n')

/-- A newline byte stands for a newline: the bytes of longer encodings are 128 or more. -/
theorem count_utf8EncodeChar (c : Char) :
    (String.utf8EncodeChar c).count 10 = if c = '\n' then 1 else 0 := by
  split_ifs with hc
  · subst hc
    rfl
  · have hval : c.val.toNat ≠ 10 := fun h => hc (Char.ext (UInt32.toNat_inj.1 h))
    refine List.count_eq_zero.2 fun hbyte => ?_
    unfold String.utf8EncodeChar at hbyte
    dsimp only at hbyte
    split_ifs at hbyte <;>
      simp only [List.mem_cons, List.not_mem_nil, or_false, ← UInt8.toNat_inj, UInt8.toNat_ofNat',
        UInt8.reduceToNat] at hbyte <;> omega

theorem newlines_eq (text : String) : newlines text = text.toList.count '\n' := by
  rw [newlines, ← text.ofList_toList, String.toByteArray_ofList, List.utf8Encode,
    List.data_toByteArray, String.toList_ofList, List.count_toArray]
  induction text.toList with
  | nil => rfl
  | cons c rest ih =>
    rw [List.flatMap_cons, List.count_append, count_utf8EncodeChar, ih, List.count_cons]
    simp [Nat.add_comm]

/-- A text goes on in its last line until the next newline. -/
theorem lastLine_append (text : String) {rest : String} (h : '\n' ∉ rest.toList) :
    lastLine (text ++ rest) = lastLine text ++ rest.toList := by
  rw [lastLine, String.toList_append, List.rtakeWhile, List.reverse_append,
    List.takeWhile_append_of_pos]
  · simp [lastLine, List.rtakeWhile]
  · intro c hc
    have hne : c ≠ '\n' := fun heq => h (heq ▸ List.mem_reverse.1 hc)
    simpa using hne

/-! ## Line starts -/

theorem lineStartsFrom_append (offset : Nat) (text rest : List Char) :
    lineStartsFrom offset (text ++ rest) =
      lineStartsFrom offset text ++ lineStartsFrom (offset + sizeBy Char.utf8Size text) rest := by
  induction text generalizing offset with
  | nil => rfl
  | cons c text ih =>
    simp only [List.cons_append, lineStartsFrom, sizeBy, ih, Nat.add_assoc]
    split <;> rfl

theorem mem_lineStartsFrom {offset start : Nat} {text : List Char}
    (h : start ∈ lineStartsFrom offset text) :
    offset < start ∧ start ≤ offset + sizeBy Char.utf8Size text := by
  induction text generalizing offset with
  | nil => cases h
  | cons c text ih =>
    have hpos := c.utf8Size_pos
    have hrest (h : start ∈ lineStartsFrom (offset + c.utf8Size) text) := ih h
    simp only [lineStartsFrom, sizeBy] at h ⊢
    split at h
    · rcases List.mem_cons.1 h with rfl | h <;> grind
    · grind

theorem length_lineStartsFrom (offset : Nat) (text : List Char) :
    (lineStartsFrom offset text).length = text.count '\n' := by
  induction text generalizing offset with
  | nil => rfl
  | cons c text ih =>
    simp only [lineStartsFrom, List.count_cons, beq_iff_eq]
    split <;> simp [ih]

/-- The last line that a text starts begins behind its full lines. -/
theorem getLastD_lineStartsFrom (text : List Char) :
    (lineStartsFrom 0 text).getLastD 0 =
      sizeBy Char.utf8Size (text.rdropWhile (· ≠ '\n')) := by
  induction text using List.reverseRecOn with
  | nil => rfl
  | append_singleton text c ih =>
    rw [lineStartsFrom_append, List.rdropWhile_concat]
    by_cases hc : c = '\n'
    · simp [hc, lineStartsFrom, sizeBy_append, sizeBy]
    · simpa [hc, lineStartsFrom] using ih

namespace LineIndex

variable (before after : String)

/-- The lines that start up to an offset are those that start in the text in front of it. -/
theorem takeWhile_starts :
    (ofString (before ++ after)).starts.takeWhile (· ≤ before.utf8ByteSize) =
      0 :: lineStartsFrom 0 before.toList := by
  have hbefore : ∀ start ∈ 0 :: lineStartsFrom 0 before.toList,
      decide (start ≤ before.utf8ByteSize) = true := by
    refine List.forall_mem_cons.2 ⟨by simp, fun start hstart => ?_⟩
    simpa [sizeBy_utf8Size] using (mem_lineStartsFrom hstart).2
  have hafter : (lineStartsFrom (0 + before.utf8ByteSize) after.toList).takeWhile
      (· ≤ before.utf8ByteSize) = [] := by
    refine List.takeWhile_eq_nil_iff.2 fun hlength => ?_
    have hlt := (mem_lineStartsFrom (List.get_mem _ ⟨0, hlength⟩)).1
    simpa using hlt
  rw [ofString, String.toList_append, lineStartsFrom_append, sizeBy_utf8Size, ← List.cons_append,
    List.takeWhile_append_of_pos hbefore, hafter, List.append_nil]

theorem lineOf_size :
    (ofString (before ++ after)).lineOf before.utf8ByteSize = newlines before := by
  rw [lineOf, takeWhile_starts, List.length_cons, length_lineStartsFrom, Nat.add_sub_cancel,
    newlines_eq]

theorem getD_starts :
    (ofString (before ++ after)).starts.getD (newlines before) 0 =
      sizeBy Char.utf8Size (fullLines before) := by
  rw [fullLines, ← getLastD_lineStartsFrom, newlines_eq, ← length_lineStartsFrom 0, ofString,
    String.toList_append, lineStartsFrom_append]
  rcases (lineStartsFrom 0 before.toList).eq_nil_or_concat with h | ⟨starts, start, h⟩
  · simp [h]
  · rw [h]
    simp

theorem byteLength_ofString (text : String) : (ofString text).byteLength = text.utf8ByteSize :=
  sizeBy_utf8Size text

/-- The position of an offset is that of the end of the text in front of it. -/
theorem position_eq {offset : Nat}
    (h : before.utf8ByteSize = min offset (before ++ after).utf8ByteSize) :
    (ofString (before ++ after)).position offset =
      ⟨before.utf8ByteSize, newlines before, sizeBy utf16Size (lastLine before)⟩ := by
  have hlines : before.toList = fullLines before ++ lastLine before :=
    List.rdropWhile_append_rtakeWhile.symm
  have hsource : (ofString (before ++ after)).source =
      fullLines before ++ (lastLine before ++ after.toList) := by
    rw [← List.append_assoc, ← hlines]
    exact String.toList_append
  have hline : before.utf8ByteSize - sizeBy Char.utf8Size (fullLines before) =
      sizeBy Char.utf8Size (lastLine before) := by
    rw [← sizeBy_utf8Size, hlines, sizeBy_append, Nat.add_sub_cancel_left]
  rw [position, byteLength_ofString, ← h, lineOf_size, getD_starts, hsource, dropBytes_append,
    hline, takeBytes?_append]

theorem position_size : (ofString (before ++ after)).position before.utf8ByteSize =
    ⟨before.utf8ByteSize, newlines before, sizeBy utf16Size (lastLine before)⟩ := by
  refine position_eq before after ?_
  rw [String.utf8ByteSize_append]
  omega

/-- The position of an offset between two characters, or at or behind the end of the text, is found
by scanning the text in front of it. A range between two offsets is refused exactly if they are in
the wrong order after both have been moved back to the end. -/
theorem position_eq_scan (text : String) {offset : Nat}
    (h : text.utf8ByteSize ≤ offset ∨ String.Pos.Raw.IsValid text ⟨offset⟩) :
    (∃ before after, text = before ++ after ∧
        before.utf8ByteSize = min offset text.utf8ByteSize ∧
        (ofString text).position offset = ⟨min offset text.utf8ByteSize, newlines before,
          sizeBy utf16Size (lastLine before)⟩) ∧
      ∀ start stop, (∃ e, (ofString text).range start stop = .error e) ↔
        min stop text.utf8ByteSize < min start text.utf8ByteSize := by
  constructor
  · obtain ⟨before, after, rfl, hsize⟩ : ∃ before after, text = before ++ after ∧
        before.utf8ByteSize = min offset text.utf8ByteSize := by
      rcases h with hend | hvalid
      · exact ⟨text, "", by simp, (min_eq_right hend).symm⟩
      · obtain ⟨before, after, rfl, hoffset⟩ := String.Pos.Raw.isValid_iff_exists_append.1 hvalid
        refine ⟨before, after, rfl, ?_⟩
        rw [show offset = before.utf8ByteSize from congrArg String.Pos.Raw.byteIdx hoffset,
          String.utf8ByteSize_append, min_eq_left (Nat.le_add_right _ _)]
    exact ⟨before, after, rfl, hsize, hsize ▸ position_eq before after hsize⟩
  · intro start stop
    simp only [range, Range.make, position, byteLength_ofString]
    split <;> simp <;> omega

/-- A text whose last line starts with a character of two UTF-16 units. -/
def clefs : String := "ä = 1\n\n𝄞ü"

/-- The offset between the last two characters is found by a scan. -/
theorem position_eq_scan_clefs :
    String.Pos.Raw.IsValid clefs ⟨12⟩ ∧
      (∃ before after, clefs = before ++ after ∧ before.utf8ByteSize = min 12 clefs.utf8ByteSize ∧
        (ofString clefs).position 12 =
          ⟨min 12 clefs.utf8ByteSize, newlines before, sizeBy utf16Size (lastLine before)⟩) ∧
      ∃ e, (ofString clefs).range 14 12 = .error e :=
  have hvalid : String.Pos.Raw.IsValid clefs ⟨12⟩ :=
    String.Pos.Raw.isValid_iff_exists_append.2 ⟨"ä = 1\n\n𝄞", "ü", by decide, by decide⟩
  have h := position_eq_scan clefs (.inr hvalid)
  ⟨hvalid, h.1, (h.2 14 12).2 (by decide)⟩

example : (ofString clefs).position 12 = ⟨12, 2, 2⟩ := by decide

/-! ## Leading bytes -/

theorem range_of_le (index : LineIndex) {start stop : Nat} (h : start ≤ stop) :
    index.range start stop = .ok ⟨index.position start, index.position stop⟩ :=
  if_pos (Nat.le_min.2 ⟨(Nat.min_le_left ..).trans h, Nat.min_le_right ..⟩)

/-- The first bytes of a range, without a newline among them, are the range that the index gives for
them exactly if they are ASCII. -/
theorem leading_eq_range_iff (front name rest behind : String) (hname : '\n' ∉ name.toList) :
    let index := ofString (front ++ name ++ rest ++ behind)
    ∃ whole part,
      index.range front.utf8ByteSize (front ++ name ++ rest).utf8ByteSize = .ok whole ∧
      index.range front.utf8ByteSize (front ++ name).utf8ByteSize = .ok part ∧
      (whole.leading name.utf8ByteSize = part ↔ ∀ c ∈ name.toList, c.toNat < 128) := by
  intro index
  have hstart := position_size front (name ++ rest ++ behind)
  have hpart := position_size (front ++ name) (rest ++ behind)
  have hwhole := position_size (front ++ name ++ rest) behind
  simp only [← String.append_assoc] at hstart hpart
  have hlines : newlines (front ++ name) = newlines front := by
    rw [newlines_eq, newlines_eq, String.toList_append, List.count_append,
      List.count_eq_zero_of_not_mem hname, Nat.add_zero]
  have hsize : sizeBy utf16Size name.toList = name.utf8ByteSize ↔
      ∀ c ∈ name.toList, c.toNat < 128 :=
    sizeBy_utf8Size name ▸ (sizeBy_utf16Size_le name.toList).2
  refine ⟨_, _, range_of_le index ?_, range_of_le index ?_, ?_⟩
  · simp only [String.utf8ByteSize_append]
    omega
  · simp only [String.utf8ByteSize_append]
    omega
  · have hcount : Nat.min name.utf8ByteSize (Range.length ⟨index.position front.utf8ByteSize,
        index.position (front ++ name ++ rest).utf8ByteSize⟩) = name.utf8ByteSize := by
      rw [Range.length, hwhole, hstart]
      simp only [String.utf8ByteSize_append]
      exact Nat.min_eq_left (by omega)
    rw [← hsize, Range.leading, hcount, hstart, hpart, hlines, lastLine_append front hname,
      sizeBy_append]
    simp [eq_comm]

/-- The name in front of its argument, behind a character of two bytes. -/
theorem leading_eq_range_iff_cell :
    '\n' ∉ "Cell".toList ∧ ∃ whole part,
      (ofString ("ä: " ++ "Cell" ++ "<int>" ++ "\n")).range 4 13 = .ok whole ∧
      (ofString ("ä: " ++ "Cell" ++ "<int>" ++ "\n")).range 4 8 = .ok part ∧
      whole.leading 4 = part := by
  obtain ⟨whole, part, hwhole, hpart, h⟩ :=
    leading_eq_range_iff "ä: " "Cell" "<int>" "\n" (by decide)
  exact ⟨by decide, whole, part, hwhole, hpart, h.2 (List.forall_iff_forall_mem.1 (by decide))⟩

/-- The first seven bytes of this text are five characters. -/
theorem leading_ne_range :
    ∃ whole part, (ofString "Größe<int>").range 0 12 = .ok whole ∧
      (ofString "Größe<int>").range 0 7 = .ok part ∧ whole.leading 7 ≠ part :=
  ⟨_, _, rfl, rfl, by decide⟩

end LineIndex

end ScriptCheck
