/-
The file being edited. Its bytes can be read anywhere and overwritten one at a
time; its length never changes. It is opened for reading only and becomes writable
with the first byte that is written. Rows of sixteen bytes are read for the screen,
the last one filled up with zeros.

A byte that is written is refused by the file, or it is taken and handed to the
device. If it is the device that refuses the byte then writing fails as well, but the
file has taken it: the byte is held back, it is among the bytes that the file gives,
and every access begins by handing it over. As long as the device refuses it again,
the file gives nothing and takes nothing else.
-/

import HexEditor.Storage.Reader

namespace HexEditor

def rowBytes : Nat := 16

/-- A number of bytes that there is no room for. -/
def roomLimit : Nat := 0x10000000000

/-- The first length that no string of bytes has; a little of the largest size is not for bytes. -/
def lengthLimit : Nat := offsetLimit - 33

/-- Why there is no string of some length, if there is none. -/
def lengthFailure? (length limit : Nat) : Option StorageFailure :=
  if limit ≤ length then some .lengthTooLarge
  else if roomLimit ≤ length then some .noRoom
  else none

/-- A file that is open for editing. -/
structure EditedFile where
  /-- The bytes that the file gives. -/
  content : Array UInt8
  writable : Bool := false
  closed : Bool := false
  /-- Whether bytes are refused before anything is read. -/
  refusesRead : Bool := false
  /-- Whether a byte is refused before the file takes it, as where the file cannot be opened for
  writing. -/
  refusesWrite : Bool := false
  /-- Whether the device refuses what the file has taken. -/
  refusesFlush : Bool := false
  /-- The place of a byte that is held back, with the byte that the device has there. -/
  heldBack : Option (Nat × UInt8) := none

namespace EditedFile

def size (file : EditedFile) : Nat := file.content.size

/-- The bytes that the device has. -/
def stored (file : EditedFile) : Array UInt8 :=
  match file.heldBack with
  | some (place, byte) => file.content.setIfInBounds place byte
  | none => file.content

/-- Hands a byte that is held back to the device, which may refuse it again. -/
def flush (file : EditedFile) : EditedFile :=
  if file.refusesFlush then file else { file with heldBack := none }

/-- Whether a byte is held back and cannot be handed over. -/
def stuck (file : EditedFile) : Bool := file.refusesFlush && file.heldBack.isSome

/-- The bytes that are left on the device when the file is closed. -/
def leftBehind (file : EditedFile) : Array UInt8 := file.flush.stored

def length (file : EditedFile) : Except StorageFailure Nat :=
  if file.closed then .error .closed
  else if file.stuck then .error (.refused .flush)
  else .ok file.size

/-- Why a read is no access to the file, if it is none. -/
def accessFailure? (file : EditedFile) (offset count : Int) : Option StorageFailure :=
  if file.refusesRead then some (.refused .read)
  else if offset < 0 ∨ count < 0 then some (.invalidRead count offset)
  else if file.closed then some .closed
  else if (offsetLimit : Int) ≤ offset then some .offsetTooLarge
  else none

def read (file : EditedFile) (offset count : Int) : Except StorageFailure (List UInt8) :=
  match file.accessFailure? offset count with
  | some failure => .error failure
  | none =>
    if file.stuck then .error (.refused .flush)
    else
      match lengthFailure? count.toNat lengthLimit with
      | some failure => .error failure
      | none => ByteReader.readArray file.content offset.toNat count.toNat

/-- The file behind a read. -/
def behindRead (file : EditedFile) (offset count : Int) : EditedFile :=
  if (file.accessFailure? offset count).isSome then file else file.flush

def byteAt (file : EditedFile) (offset : Int) : Except StorageFailure UInt8 :=
  match file.read offset 1 with
  | .ok (byte :: _) => .ok byte
  | .ok [] => .error (.shortRead offset)
  | .error failure => .error failure

/-- What annotations see of the file. -/
def reader (file : EditedFile) : ByteReader :=
  if file.refusesRead then .refusing
  else if file.stuck then .stuck
  else .ofArray file.content

/-- Bytes cut into rows, the last one filled up with zeros. -/
def rowsOf (bytes : List UInt8) : List (List UInt8) :=
  if bytes.isEmpty then []
  else
    let row := bytes.take rowBytes
    (row ++ List.replicate (rowBytes - row.length) 0) :: rowsOf (bytes.drop rowBytes)
termination_by bytes.length
decreasing_by
  next nonempty =>
    have : bytes ≠ [] := by simpa using nonempty
    have := List.length_pos_iff.2 this
    simp [rowBytes]; omega

/-- The rows of the bytes from `start` up to `stop`. There has to be room for whole rows before
anything is read, and nothing is read if there are none. -/
def readRows (file : EditedFile) (start stop : Int) : Except StorageFailure (List (List UInt8)) :=
  if stop ≤ start then
    .ok []
  else
    let room := ((stop - start).toNat + rowBytes - 1) / rowBytes * rowBytes
    match lengthFailure? room offsetLimit with
    | some failure => .error failure
    | none => (file.read start (stop - start)).map rowsOf

/-- Takes a byte for a place, and hands it to the device or holds it back. -/
def put (file : EditedFile) (place : Nat) (byte : UInt8) :
    Except StorageFailure Unit × EditedFile :=
  let taken := { file with content := file.content.setIfInBounds place byte, writable := true }
  if file.refusesFlush then
    (.error (.refused .flush),
      { taken with heldBack := file.content[place]?.map fun old => (place, old) })
  else
    (.ok (), { taken with heldBack := none })

/-- Writes a byte. The length of the file is looked up first, which is an access. -/
def writeByte (file : EditedFile) (offset value : Int) : Except StorageFailure Unit × EditedFile :=
  if file.refusesWrite then (.error (.refused .write), file)
  else if value < 0 ∨ 0xFF < value then (.error (.notByte value), file)
  else if file.closed then (.error .closed, file)
  else if file.stuck then (.error (.refused .flush), file)
  else if offset < 0 ∨ (file.size : Int) ≤ offset then (.error (.outsideFile offset), file.flush)
  else file.put offset.toNat (UInt8.ofNat value.toNat)

end EditedFile

end HexEditor
