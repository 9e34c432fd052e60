/-
An instruction that is written is read back. Where the bytes of an instruction stand in
a program, the instruction is fetched, and the position behind it is that behind its
bytes. A text constant names its length in a word, which is enough for every text in a
program whose size is a word.
-/

import HexEditor.Program.Instruction
import HexEditor.Proofs.Text.Utf8

namespace HexEditor

/-- The width of a load is the number of bytes that it was asked for. -/
theorem LoadWidth.bytes_of_ofBytes? {bytes : Int} {width : LoadWidth}
    (wide : LoadWidth.ofBytes? bytes = some width) : (width.bytes : Int) = bytes := by
  unfold LoadWidth.ofBytes? at wide
  split at wide
  · next one =>
    cases wide
    exact one.symm
  split at wide
  · next two =>
    cases wide
    exact two.symm
  split at wide
  · next four =>
    cases wide
    exact four.symm
  split at wide
  · next eight =>
    cases wide
    exact eight.symm
  · cases wide

/-! ### Bytes that stand in a program -/

/-- Some bytes stand at a position of a program. -/
def Stands (code : Array UInt8) (position : Nat) (bytes : List UInt8) : Prop :=
  (ByteSupply.ofArray code).Supplies position bytes

namespace Stands

variable {code : Array UInt8} {position : Nat} {byte : UInt8} {bytes rest : List UInt8}

theorem head (stands : Stands code position (byte :: rest)) : code[position]? = some byte := by
  have taken := stands.1
  dsimp only [ByteSupply.ofArray] at taken
  split at taken
  · next found =>
    cases taken
    exact found
  · cases taken

theorem getElem?_eq (stands : Stands code position bytes) {index : Nat}
    (inside : index < bytes.length) : code[position + index]? = bytes[index]? := by
  induction bytes generalizing position index with
  | nil => cases inside
  | cons byte rest inductionHypothesis =>
    cases index with
    | zero => exact stands.head
    | succ index =>
      rw [List.getElem?_cons_succ, ← inductionHypothesis stands.2 (Nat.lt_of_succ_lt_succ inside),
        Nat.add_assoc, Nat.add_comm 1]

theorem le_size (stands : Stands code position bytes) (positive : 0 < bytes.length) :
    position + bytes.length ≤ code.size := by
  have last : bytes.length - 1 < bytes.length := Nat.sub_lt positive Nat.one_pos
  have there := stands.getElem?_eq last
  rw [List.getElem?_eq_getElem last] at there
  have inside : position + (bytes.length - 1) < code.size := by
    refine Nat.not_le.1 fun outside => ?_
    rw [Array.getElem?_eq_none outside] at there
    cases there
  omega

theorem extract_eq (stands : Stands code position bytes) :
    (code.extract position (position + bytes.length)).toList = bytes := by
  refine List.ext_getElem? fun index => ?_
  rw [Array.toList_extract, List.extract_eq_take_drop, Nat.add_sub_cancel_left, List.getElem?_take]
  by_cases inside : index < bytes.length
  · rw [if_pos inside, List.getElem?_drop, Array.getElem?_toList, stands.getElem?_eq inside]
  · rw [if_neg inside, List.getElem?_eq_none (Nat.not_lt.1 inside)]

/-- Bytes that are found at a position one behind the other stand there. -/
theorem of_getElem?
    (found : ∀ index, index < bytes.length → code[position + index]? = bytes[index]?) :
    Stands code position bytes := by
  induction bytes generalizing position with
  | nil => trivial
  | cons byte rest inductionHypothesis =>
    have first : code[position]? = some byte := found 0 (Nat.succ_pos _)
    refine ⟨?_, inductionHypothesis fun index inside => ?_⟩
    · dsimp only [ByteSupply.ofArray]
      rw [first]
    · rw [Nat.add_assoc, Nat.add_comm 1]
      exact found (index + 1) (Nat.succ_lt_succ inside)

theorem of_toArray (bytes : List UInt8) : Stands bytes.toArray 0 bytes :=
  of_getElem? fun index _ => by rw [Nat.zero_add, List.getElem?_toArray]

/-! ### Fetching -/

theorem fetchByte_eq (stands : Stands code position (byte :: rest)) :
    fetchByte code position = ⟨.ok byte, position + 1⟩ := by
  rw [fetchByte, stands.head]

theorem fetchWord_eq {value : UInt64} (stands : Stands code position (wordBytes value)) :
    fetchWord code position = ⟨.ok value, position + 8⟩ := by
  have width := length_wordBytes value
  have bytes := stands.extract_eq
  rw [width] at bytes
  have inside : position + 8 ≤ code.size := by
    rw [← width]
    exact stands.le_size (by rw [width]; decide)
  rw [fetchWord, if_pos inside, bytes, littleEndian_wordBytes, UInt64.ofNat_toNat]

theorem length_le_utf8Bytes (text : List Char) : text.length ≤ (utf8Bytes text).length := by
  induction text with
  | nil => exact Nat.le_refl _
  | cons character rest inductionHypothesis =>
    have one : 1 ≤ (utf8Char character).length := by
      dsimp only [utf8Char]
      split
      · exact Nat.le_refl _
      split
      · exact Nat.le_succ _
      split
      · exact Nat.le_add_left 1 2
      · exact Nat.le_add_left 1 3
    have parts : utf8Bytes (character :: rest) = utf8Char character ++ utf8Bytes rest := rfl
    rw [parts, List.length_append, List.length_cons]
    omega

theorem fetchText_eq {text : String} (stands : Stands code position (utf8Bytes text.toList))
    (room : text.length ≤ wordLimit) :
    fetchText code (UInt64.ofNat text.length) position =
      ⟨.ok text, position + (utf8Bytes text.toList).length⟩ := by
  have count : (UInt64.ofNat text.length).toNat = text.toList.length := by
    rw [toNat_ofNat_of_le room, String.length_toList]
  rw [fetchText, ByteSupply.textAt, count, ByteSupply.readText_utf8Bytes stands]
  simp

/-- A byte that chooses a form is fetched as what it stands for. -/
theorem fetchForm_eq {Item : Type} {opcode form : UInt8} {meaning : UInt8 → Option Item}
    {item : Item} (stands : Stands code position (form :: rest))
    (known : meaning form = some item) :
    fetchForm code opcode meaning position = ⟨.ok item, position + 1⟩ := by
  rw [fetchForm, stands.fetchByte_eq, Fetched.andThen]
  dsimp only
  rw [known]

end Stands

/-- Where an instruction stands in a program whose size is a word, it is fetched. -/
theorem fetch_eq_of_stands {code : Array UInt8} {position : Nat} {instruction : Instruction}
    (stands : Stands code position instruction.encode) (room : code.size ≤ wordLimit) :
    fetch code position = ⟨.ok instruction, position + instruction.encode.length⟩ := by
  have opcode := Stands.fetchByte_eq (show Stands code position (_ :: _) from stands)
  have operands : Stands code (position + 1) instruction.operands := stands.2
  have behind : position + instruction.encode.length =
      position + 1 + instruction.operands.length := by
    rw [Instruction.encode, List.length_cons]
    omega
  rw [fetch, opcode, Fetched.andThen, behind]
  dsimp only
  cases instruction with
  | setOrder order =>
    cases order with
    | little => exact operands.fetchForm_eq rfl
    | big => exact operands.fetchForm_eq rfl
  | pushInteger value =>
    show (fetchWord code (position + 1)).andThen _ = _
    rw [operands.fetchWord_eq, Fetched.andThen, Instruction.operands, length_wordBytes]
  | pushText text =>
    obtain ⟨count, characters⟩ := ByteSupply.supplies_append operands
    rw [length_wordBytes] at characters
    have small : text.length ≤ wordLimit := by
      have longer := Stands.length_le_utf8Bytes text.toList
      rw [String.length_toList] at longer
      have inside := operands.le_size
      rw [Instruction.operands, List.length_append, length_wordBytes] at inside
      omega
    show (fetchWord code (position + 1)).andThen (fun count next =>
      (fetchText code count next).andThen fun text next =>
        ⟨.ok (Instruction.pushText text), next⟩) = _
    rw [Stands.fetchWord_eq count, Fetched.andThen]
    dsimp only
    rw [Stands.fetchText_eq characters small, Fetched.andThen, Instruction.operands,
      List.length_append, length_wordBytes, Nat.add_assoc]
  | loadInteger width signed =>
    cases width with
    | one =>
      cases signed with
      | false => exact operands.fetchForm_eq rfl
      | true => exact operands.fetchForm_eq rfl
    | two =>
      cases signed with
      | false => exact operands.fetchForm_eq rfl
      | true => exact operands.fetchForm_eq rfl
    | four =>
      cases signed with
      | false => exact operands.fetchForm_eq rfl
      | true => exact operands.fetchForm_eq rfl
    | eight =>
      cases signed with
      | false => exact operands.fetchForm_eq rfl
      | true => exact operands.fetchForm_eq rfl
  | loadText asciiOnly sized =>
    cases asciiOnly with
    | false =>
      cases sized with
      | false => exact operands.fetchForm_eq rfl
      | true => exact operands.fetchForm_eq rfl
    | true =>
      cases sized with
      | false => exact operands.fetchForm_eq rfl
      | true => exact operands.fetchForm_eq rfl
  | showInteger form base =>
    show (fetchByte code (position + 1)).andThen (fun form next =>
      (fetchByte code next).andThen fun base next =>
        ⟨.ok (Instruction.showInteger form base), next⟩) = _
    rw [operands.fetchByte_eq, Fetched.andThen]
    dsimp only
    rw [Stands.fetchByte_eq operands.2, Fetched.andThen]
    rfl
  | showText form =>
    show (fetchByte code (position + 1)).andThen _ = _
    rw [operands.fetchByte_eq, Fetched.andThen]
    rfl
  | showHeader level =>
    show (fetchByte code (position + 1)).andThen _ = _
    rw [operands.fetchByte_eq, Fetched.andThen]
    rfl
  | jump condition distance =>
    have jump : fetchJump code condition (position + 1) =
        ⟨.ok (.jump condition distance), position + 1 + 8⟩ := by
      rw [fetchJump, Stands.fetchWord_eq operands, Fetched.andThen]
    cases condition with
    | always => exact jump
    | zero => exact jump
    | nonzero => exact jump
    | nonnegative => exact jump
  | _ => rfl

/-- There are no more instructions than bytes. -/
theorem length_le_encodeAll (code : List Instruction) : code.length ≤ (encodeAll code).length := by
  induction code with
  | nil => exact Nat.le_refl _
  | cons instruction rest inductionHypothesis =>
    have parts : encodeAll (instruction :: rest) = instruction.encode ++ encodeAll rest := rfl
    have one : 1 ≤ instruction.encode.length := Nat.succ_pos _
    rw [parts, List.length_append, List.length_cons]
    omega

end HexEditor
