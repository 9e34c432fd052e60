/-
Bytes that can be read at any offset. A read hands out exactly the bytes asked for
or fails, and there is an extent past which no byte can be read, so that a search
through the bytes comes to an end. This is all that annotations may do with a file.
-/

import HexEditor.Storage.Failure
import HexEditor.Text.Utf8

namespace HexEditor

/-- The first offset that no file has. -/
def offsetLimit : Nat := 0x8000000000000000

/-- A source of bytes to read from. -/
structure ByteReader where
  /-- Reads as many bytes as the second argument says from the offset in the first. -/
  read : Nat → Nat → Except StorageFailure (List UInt8)
  extent : Nat
  length_read : ∀ {offset count : Nat} {bytes : List UInt8},
    read offset count = .ok bytes → bytes.length = count
  read_le_extent : ∀ {offset count : Nat} {bytes : List UInt8},
    read offset count = .ok bytes → 0 < count → offset + count ≤ extent

namespace ByteReader

def byteAt (reader : ByteReader) (offset : Nat) : Except StorageFailure UInt8 :=
  match reader.read offset 1 with
  | .ok (byte :: _) => .ok byte
  | .ok [] => .error (.shortRead offset)
  | .error failure => .error failure

theorem lt_extent_of_byteAt {reader : ByteReader} {offset : Nat} {byte : UInt8}
    (taken : reader.byteAt offset = .ok byte) : offset < reader.extent := by
  unfold byteAt at taken
  split at taken
  · next found => exact reader.read_le_extent found Nat.one_pos
  · contradiction
  · contradiction

def supply (reader : ByteReader) : ByteSupply StorageFailure where
  byteAt := reader.byteAt
  extent := reader.extent
  lt_extent := lt_extent_of_byteAt

/-- Why a text could not be read. -/
inductive TextFailure where
  /-- The bytes are not in the encoding asked for. -/
  | encoding (asciiOnly : Bool)
  | storage (failure : StorageFailure)
  deriving DecidableEq, Repr

def TextFailure.message : TextFailure → String
  | .encoding true => "Invalid ASCII string"
  | .encoding false => "Invalid utf-8 string"
  | .storage failure => failure.message

/-- The text of `count` characters, or up to a NUL, that begins at an offset. -/
def text (reader : ByteReader) (asciiOnly : Bool) (count : Option Nat) (offset : Nat) :
    Except TextFailure String :=
  match reader.supply.textAt asciiOnly count offset with
  | .text characters _ => .ok (String.ofList characters)
  | .refused _ => .error (.encoding asciiOnly)
  | .failed failure _ => .error (.storage failure)

/-- A reader that gives nothing, for a reason that the offset may tell. -/
def failing (cause : Nat → StorageFailure) : ByteReader where
  read offset _ := .error (cause offset)
  extent := 0
  length_read := by intro _ _ _ taken; contradiction
  read_le_extent := by intro _ _ _ taken; contradiction

/-- A reader that refuses everything. -/
def refusing : ByteReader := failing fun _ => .refused .read

/-- A reader that cannot get at the device, because something is held back that the device
refuses. -/
def stuck : ByteReader :=
  failing fun offset => if offsetLimit ≤ offset then .offsetTooLarge else .refused .flush

/-- Reads bytes of an array, none of which has an offset that no file has. -/
def readArray (content : Array UInt8) (offset count : Nat) : Except StorageFailure (List UInt8) :=
  if offsetLimit ≤ offset then .error .offsetTooLarge
  else if count = 0 then .ok []
  else if offset + count ≤ content.size then .ok (content.extract offset (offset + count)).toList
  else .error (.shortRead offset)

def ofArray (content : Array UInt8) : ByteReader where
  read := readArray content
  extent := content.size
  length_read := by
    intro offset count bytes taken
    unfold readArray at taken
    split at taken
    · contradiction
    split at taken
    · next none => cases taken; exact none.symm
    split at taken
    · cases taken; simp; omega
    · contradiction
  read_le_extent := by
    intro offset count bytes taken positive
    unfold readArray at taken
    split at taken
    · contradiction
    split at taken
    · omega
    split at taken
    · assumption
    · contradiction

end ByteReader

end HexEditor
