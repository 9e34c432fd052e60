/-
Records of edits. An edit replaces one byte at an address; its record takes a slot of
sixteen bytes: the address, the old byte, the new one, and zeros.
-/

import HexEditor.Number.Word

namespace HexEditor

def slotSize : Nat := 16

/-- One edit of one byte. -/
structure EditRecord where
  address : UInt64
  old : UInt8
  new : UInt8
  deriving DecidableEq, Repr

namespace EditRecord

/-- The record of an edit, if its parts fit into a slot. -/
def ofInts? (address old new : Int) : Option EditRecord :=
  match word? address, byte? old, byte? new with
  | some address, some old, some new => some ⟨address, old, new⟩
  | _, _, _ => none

def encode (record : EditRecord) : List UInt8 :=
  wordBytes record.address ++ [record.old, record.new, 0, 0, 0, 0, 0, 0]

/-- The record in a slot; its reserved bytes are not looked at. -/
def decode (slot : List UInt8) : EditRecord where
  address := UInt64.ofNat (littleEndian (slot.take 8))
  old := slot.getD 8 0
  new := slot.getD 9 0

/-- The record at the start of some bytes, if they fill a slot. -/
def ofBytes? (bytes : List UInt8) : Option EditRecord :=
  if bytes.length < slotSize then none else some (decode bytes)

end EditRecord

end HexEditor
