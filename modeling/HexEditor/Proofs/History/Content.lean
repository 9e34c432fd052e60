/-
The bytes of a log file. A log is a header of sixteen bytes and behind it slots of
sixteen bytes; the records below a position are spelled by the bytes between the
header and that position and by nothing else, and whether a file opens, and where, is
spelled by its header and its length. So what a write does to a log is told by the
part of the file that it reaches.
-/

import HexEditor.History.Log

namespace HexEditor

/-! ### Cutting and writing -/

/-- Content that agrees up to some length agrees up to every smaller one. -/
theorem take_of_take {fewer count : Nat} {left right : List UInt8} (le : fewer ≤ count)
    (same : left.take count = right.take count) : left.take fewer = right.take fewer := by
  have shorter := congrArg (List.take fewer) same
  rwa [List.take_take, List.take_take, Nat.min_eq_left le] at shorter

theorem length_cutTo (length : Nat) (content : List UInt8) :
    (cutTo length content).length = length := by
  rw [cutTo, List.length_append, List.length_take, List.length_replicate]
  omega

theorem cutTo_of_le {length : Nat} {content : List UInt8} (enough : length ≤ content.length) :
    cutTo length content = content.take length := by
  rw [cutTo, Nat.sub_eq_zero_of_le enough, List.replicate_zero, List.append_nil]

theorem cutTo_length (content : List UInt8) : cutTo content.length content = content := by
  rw [cutTo_of_le (Nat.le_refl _), List.take_length]

/-- Content that agrees with some bytes up to an offset reaches that far. -/
theorem le_length_of_take {offset : Nat} {left right : List UInt8}
    (same : left.take offset = right.take offset) (inside : offset ≤ right.length) :
    offset ≤ left.length := by
  have width := congrArg List.length same
  rw [List.length_take, List.length_take, Nat.min_eq_left inside] at width
  omega

/-- Filling up or cutting leaves the bytes below the new length and the old one alone. -/
theorem take_cutTo {count length : Nat} {content : List UInt8} (below : count ≤ length)
    (inside : count ≤ content.length) : (cutTo length content).take count = content.take count := by
  rw [cutTo, List.take_append_of_le_length, List.take_take, Nat.min_eq_left below]
  rw [List.length_take]
  exact Nat.le_min.2 ⟨below, inside⟩

/-- A write inside the content or at its end replaces the bytes that it covers. -/
theorem writeAt_of_le {offset : Nat} {bytes content : List UInt8}
    (inside : offset ≤ content.length) :
    writeAt offset bytes content =
      content.take offset ++ bytes ++ content.drop (offset + bytes.length) := by
  rw [writeAt, cutTo_of_le inside]

/-- Nothing is changed by writing nothing inside the content or at its end. -/
theorem writeAt_nil {offset : Nat} {content : List UInt8} (inside : offset ≤ content.length) :
    writeAt offset [] content = content := by
  rw [writeAt_of_le inside, List.append_nil]
  exact List.take_append_drop offset content

/-- A write makes the content no shorter, and as long as the write reaches. -/
theorem length_writeAt {offset : Nat} {bytes content : List UInt8}
    (inside : offset ≤ content.length) :
    (writeAt offset bytes content).length = max content.length (offset + bytes.length) := by
  rw [writeAt_of_le inside, List.length_append, List.length_append, List.length_take,
    List.length_drop]
  omega

theorem take_writeAt {count offset : Nat} {bytes content : List UInt8} (before : count ≤ offset)
    (inside : count ≤ content.length) :
    (writeAt offset bytes content).take count = content.take count := by
  rw [writeAt, List.append_assoc, List.take_append_of_le_length, take_cutTo before inside]
  rw [length_cutTo]
  exact before

/-- A write leaves the bytes behind it alone. -/
theorem drop_writeAt {count offset : Nat} {bytes content : List UInt8}
    (behind : offset + bytes.length ≤ count) (inside : offset ≤ content.length) :
    (writeAt offset bytes content).drop count = content.drop count := by
  have front : (content.take offset ++ bytes).length = offset + bytes.length := by
    rw [List.length_append, List.length_take, Nat.min_eq_left inside]
  rw [writeAt_of_le inside, List.drop_append, front,
    List.drop_eq_nil_of_le (Nat.le_trans (Nat.le_of_eq front) behind), List.nil_append,
    List.drop_drop]
  congr 1
  omega

theorem take_drop_writeAt {offset : Nat} {bytes content : List UInt8}
    (inside : offset ≤ content.length) :
    ((writeAt offset bytes content).drop offset).take bytes.length = bytes := by
  have front : (content.take offset).length = offset := by
    rw [List.length_take, Nat.min_eq_left inside]
  rw [writeAt_of_le inside, List.append_assoc,
    List.drop_append_of_le_length (Nat.le_of_eq front.symm),
    List.drop_eq_nil_of_le (Nat.le_of_eq front), List.nil_append, List.take_left]

/-- Writing and then cutting behind the written bytes leaves them as the last ones. -/
theorem cutTo_writeAt {offset : Nat} {bytes content : List UInt8}
    (inside : offset ≤ content.length) :
    cutTo (offset + bytes.length) (writeAt offset bytes content) =
      content.take offset ++ bytes := by
  have front : (content.take offset ++ bytes).length = offset + bytes.length := by
    rw [List.length_append, List.length_take, Nat.min_eq_left inside]
  rw [cutTo_of_le (by rw [length_writeAt inside]; exact Nat.le_max_right _ _),
    writeAt_of_le inside, ← front, List.take_left]

/-! ### Slots and records -/

theorem EditRecord.decode_encode (record : EditRecord) : decode record.encode = record := by
  obtain ⟨address, old, new⟩ := record
  have width := length_wordBytes address
  have front : (EditRecord.encode ⟨address, old, new⟩).take 8 = wordBytes address := by
    rw [EditRecord.encode, List.take_append_of_le_length (Nat.le_of_eq width.symm),
      List.take_of_length_le (Nat.le_of_eq width)]
  rw [decode, front, littleEndian_wordBytes, UInt64.ofNat_toNat]
  simp [EditRecord.encode, width]

namespace EditLog

/-- The bytes of the slot with a number. -/
def slotAt (content : List UInt8) (number : Nat) : List UInt8 :=
  (content.drop (16 + 16 * number)).take slotSize

/-- The records in the first slots. -/
def recordsIn (content : List UInt8) (count : Nat) : List EditRecord :=
  (List.range count).map fun number => EditRecord.decode (slotAt content number)

/-- The bytes of the slots below a position. -/
def slotBytes (content : List UInt8) (position : Nat) : List UInt8 :=
  (content.take position).drop 16

theorem length_recordsIn (content : List UInt8) (count : Nat) :
    (recordsIn content count).length = count := by
  rw [recordsIn, List.length_map, List.length_range]

theorem recordsIn_succ (content : List UInt8) (count : Nat) :
    recordsIn content (count + 1) =
      recordsIn content count ++ [EditRecord.decode (slotAt content count)] := by
  rw [recordsIn, List.range_succ, List.map_append, ← recordsIn]
  rfl

/-- The first records of more are the records in fewer slots. -/
theorem take_recordsIn (content : List UInt8) {fewer count : Nat} (le : fewer ≤ count) :
    (recordsIn content count).take fewer = recordsIn content fewer := by
  rw [recordsIn, ← List.map_take, List.take_range, Nat.min_eq_left le, recordsIn]

/-- The last record of some slots is the one in the last slot. -/
theorem getElem?_recordsIn (content : List UInt8) {number count : Nat} (lt : number < count) :
    (recordsIn content count)[number]? = some (EditRecord.decode (slotAt content number)) := by
  rw [recordsIn, List.getElem?_map, List.getElem?_range lt, Option.map_some]

/-- A slot that ends below a position is spelled by the bytes below that position. -/
theorem slotAt_eq (content : List UInt8) {number position : Nat}
    (below : 32 + 16 * number ≤ position) :
    slotAt content number = ((slotBytes content position).drop (16 * number)).take slotSize := by
  have inside : slotSize ≤ position - (16 + 16 * number) := by
    rw [slotSize]
    omega
  rw [slotBytes, List.drop_drop, List.drop_take, List.take_take, Nat.min_eq_left inside, slotAt]

/-- The records below a position depend on no other bytes than those of their slots. -/
theorem recordsIn_congr {left right : List UInt8} {count position : Nat}
    (same : slotBytes left position = slotBytes right position)
    (below : 16 + 16 * count ≤ position) : recordsIn left count = recordsIn right count := by
  refine List.map_congr_left fun number member => ?_
  have lt := List.mem_range.1 member
  have slotBelow : 32 + 16 * number ≤ position := by omega
  rw [slotAt_eq left slotBelow, slotAt_eq right slotBelow, same]

/-! ### The header -/

/-- Whether a file has a header depends on its first eight bytes, once it is long enough. -/
theorem headerFault?_congr {left right : List UInt8} (same : left.take 8 = right.take 8)
    (leftLong : 16 ≤ left.length) (rightLong : 16 ≤ right.length) :
    headerFault? left = headerFault? right := by
  have mark : left.take 4 = right.take 4 := take_of_take (by decide) same
  have version : left.getD 4 0 = right.getD 4 0 := by
    have here := congrArg (fun bytes : List UInt8 => bytes[4]?) same
    simp only [List.getElem?_take] at here
    rw [List.getD_eq_getElem?_getD, List.getD_eq_getElem?_getD]
    exact congrArg (fun byte : Option UInt8 => byte.getD 0) here
  rw [headerFault?, headerFault?, if_neg (Nat.not_lt.2 leftLong), if_neg (Nat.not_lt.2 rightLong),
    mark, version]

/-- The header of a file is its first sixteen bytes. -/
theorem headerFault?_eq_of_take {left right : List UInt8} (same : left.take 16 = right.take 16)
    (long : 16 ≤ right.length) : headerFault? left = headerFault? right :=
  headerFault?_congr (take_of_take (by decide) same) (le_length_of_take same long) long

/-- The position in a header depends on its last eight bytes. -/
theorem headerPosition_congr {left right : List UInt8}
    (same : (left.drop 8).take 8 = (right.drop 8).take 8) :
    headerPosition left = headerPosition right := by
  rw [headerPosition, headerPosition, positionOffset, same]

/-- A file with a header is at least as long as the header. -/
theorem le_length_of_header {content : List UInt8} (header : headerFault? content = none) :
    16 ≤ content.length := by
  by_cases short : content.length < 16
  · rw [headerFault?, if_pos short] at header
    cases header
  · exact Nat.not_lt.1 short

theorem headerFault?_logHeader (position : Nat) : headerFault? (logHeader position) = none := by
  rw [headerFault?, length_logHeader]
  simp [logHeader, logMark, slotSize]

theorem headerPosition_logHeader {position : Nat} (small : position ≤ wordLimit) :
    headerPosition (logHeader position) = position := by
  have room : Nat.pow 256 8 = 2 ^ 64 := by decide
  have bytes : ((logHeader position).drop 8).take 8 = littleEndianBytes 8 position := by
    have width := length_littleEndianBytes 8 position
    exact List.take_of_length_le (Nat.le_of_eq width)
  rw [headerPosition, positionOffset, bytes, littleEndian_littleEndianBytes, room,
    Nat.mod_eq_of_lt (Nat.lt_of_le_of_lt small (by decide))]

/-- Rounding up to whole slots adds less than a slot. -/
theorem slotsUp_bounds (length : Nat) :
    length ≤ slotsUp length ∧ slotsUp length < length + 16 ∧ slotsUp length % 16 = 0 := by
  rw [slotsUp]
  omega

theorem slotsUp_slotsUp (length : Nat) : slotsUp (slotsUp length) = slotsUp length := by
  obtain ⟨-, -, slots⟩ := slotsUp_bounds length
  obtain ⟨above, below, aligned⟩ := slotsUp_bounds (slotsUp length)
  omega

/-- A file with a header opens if the position in it is that of a slot and does not lie past the
file when its last slot is filled up. -/
theorem openContent_of_header {content : List UInt8} {position : Nat}
    (header : headerFault? content = none) (held : headerPosition content = position)
    (aligned : position % 16 = 0) (first : 16 ≤ position)
    (inside : position ≤ slotsUp content.length) :
    openContent content =
      (.ok ⟨{ content := cutTo (slotsUp content.length) content }, position,
        slotsUp content.length⟩, cutTo (slotsUp content.length) content) := by
  have nonempty : content.isEmpty = false := by
    have long := le_length_of_header header
    cases content with
    | nil => cases long
    | cons byte rest => rfl
  have usable : ¬ (position % 16 ≠ 0 ∨ position < 16 ∨ slotsUp content.length < position) := by
    omega
  simp only [openContent, nonempty, header, held, length_cutTo, Bool.false_eq_true, if_false]
  rw [if_neg usable]

/-- A file that opens is empty and becomes a log without records, or it has a header whose position
is that of a slot of the file when its last slot is filled up. -/
theorem openContent_eq_ok {content left : List UInt8} {log : EditLog}
    (opened : openContent content = (.ok log, left)) :
    (content = [] ∧ log = ⟨{ content := logHeader 16 }, 16, 16⟩ ∧ left = logHeader 16) ∨
      (headerFault? content = none ∧
        log = ⟨{ content := left }, headerPosition content, slotsUp content.length⟩ ∧
        left = cutTo (slotsUp content.length) content ∧
        log.position % 16 = 0 ∧ 16 ≤ log.position ∧ log.position ≤ log.stop) := by
  unfold openContent at opened
  split at opened
  · next empty =>
    cases opened
    exact .inl ⟨List.isEmpty_iff.1 empty, rfl, rfl⟩
  · split at opened
    · cases opened
    · next header =>
      by_cases bad : headerPosition content % 16 ≠ 0 ∨ headerPosition content < 16 ∨
          (cutTo (slotsUp content.length) content).length < headerPosition content
      · rw [if_pos bad] at opened
        cases opened
      · rw [if_neg bad, length_cutTo] at opened
        rw [length_cutTo] at bad
        cases opened
        refine .inr ⟨header, rfl, rfl, ?_⟩
        show headerPosition content % 16 = 0 ∧ 16 ≤ headerPosition content ∧
          headerPosition content ≤ slotsUp content.length
        omega

/-- The position in a header is none of a slot of the file, not even when its last slot is filled
up. -/
def Misplaced (content : List UInt8) : Prop :=
  headerPosition content % 16 ≠ 0 ∨ headerPosition content < 16 ∨
    slotsUp content.length < headerPosition content

/-- A file is refused for its header, and then it is left alone, or for the position in it, and then
its last slot is filled up. -/
theorem openContent_eq_error_iff {content left : List UInt8} {corruption : LogCorruption} :
    openContent content = (.error corruption, left) ↔
      (content ≠ [] ∧ headerFault? content = some corruption ∧ left = content) ∨
        (headerFault? content = none ∧ Misplaced content ∧
          corruption = .position (headerPosition content) ∧
          left = cutTo (slotsUp content.length) content) := by
  unfold openContent
  split
  · next empty =>
    obtain rfl := List.isEmpty_iff.1 empty
    constructor
    · exact nofun
    · rintro (⟨some, -⟩ | ⟨header, -⟩)
      · exact absurd rfl some
      · cases header
  · next nonempty =>
    have some : content ≠ [] := fun empty => nonempty (List.isEmpty_iff.2 empty)
    split
    · next fault header =>
      rw [header, Prod.mk.injEq, Except.error.injEq, Option.some.injEq]
      constructor
      · rintro ⟨reason, same⟩
        exact .inl ⟨some, reason, same.symm⟩
      · rintro (⟨-, reason, same⟩ | ⟨none, -⟩)
        · exact ⟨reason, same.symm⟩
        · cases none
    · next header =>
      dsimp only
      rw [length_cutTo]
      split
      · next misplaced =>
        rw [Prod.mk.injEq, Except.error.injEq]
        constructor
        · rintro ⟨reason, same⟩
          exact .inr ⟨header, misplaced, reason.symm, same.symm⟩
        · rintro (⟨-, fault, -⟩ | ⟨-, -, reason, same⟩)
          · exact absurd (header.symm.trans fault) nofun
          · exact ⟨reason.symm, same.symm⟩
      · next placed =>
        constructor
        · exact nofun
        · rintro (⟨-, fault, -⟩ | ⟨-, misplaced, -⟩)
          · exact absurd (header.symm.trans fault) nofun
          · exact absurd misplaced placed

/-- The position in a header is spelled by the first sixteen bytes. -/
theorem headerPosition_eq_of_take {left right : List UInt8} (same : left.take 16 = right.take 16) :
    headerPosition left = headerPosition right := by
  have behind := congrArg (List.drop 8) same
  rw [List.drop_take, List.drop_take] at behind
  exact headerPosition_congr behind

end EditLog

end HexEditor
