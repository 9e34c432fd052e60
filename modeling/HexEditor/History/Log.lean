/-
The edit log: a file that keeps the history of edits across crashes. It begins with a
header of one slot that holds a mark, a version and a position; the other slots are
records. Those before the position can be undone, those behind it can be redone. A new
edit is written at the position and everything behind it is cut off. The position in
the header follows only when the log is settled, in a single write, which is the
moment at which an operation lasts.
-/

import HexEditor.History.Device
import HexEditor.History.Record

namespace HexEditor

/-- The bytes that every log begins with. -/
def logMark : List UInt8 := [0x75, 0x6E, 0x64, 0x6F]

def positionOffset : Nat := 8

def logHeader (position : Nat) : List UInt8 :=
  logMark ++ [0, 0, 0, 0] ++ littleEndianBytes 8 position

/-- Why a file is no log. -/
inductive LogCorruption where
  | truncatedHeader
  | wrongMark
  | version (version : Nat)
  | position (position : Nat)
  deriving DecidableEq, Repr

def LogCorruption.message : LogCorruption → String
  | .truncatedHeader => "Truncated header"
  | .wrongMark => "Not an undo file"
  | .version found => "Unsupported version " ++ decimalText found
  | .position found => "Invalid position " ++ hexText found

/-- Why an operation on a log failed. -/
inductive LogFailure where
  | notEntered (cause : StorageFailure)
  /-- A record was not read, and nothing has changed. -/
  | notRead (cause : StorageFailure)
  | notSettled (cause : StorageFailure)
  /-- An edit does not fit into a record, or a position into the header. -/
  | noRecord
  deriving DecidableEq, Repr

def LogFailure.message : LogFailure → String
  | .notEntered cause => cause.message ++ " (redo may be garbage)"
  | .notRead cause => cause.message ++ " (log is unchanged)"
  | .notSettled cause => cause.message ++ " - the log is inconsistent now, proceed with care!"
  | .noRecord => "edit out of range"

/-- An open log. -/
structure EditLog where
  file : DeviceFile
  /-- The offset of the slot that is redone next. -/
  position : Nat
  /-- The offset behind the last record. -/
  stop : Nat
  deriving DecidableEq, Repr

namespace EditLog

/-! ### Opening -/

/-- A number rounded up to whole slots. -/
def slotsUp (length : Nat) : Nat := (length + 15) / 16 * 16

/-- Why the header at the start of some content is none, looking at its mark and version. -/
def headerFault? (content : List UInt8) : Option LogCorruption :=
  if content.length < 16 then some .truncatedHeader
  else if content.take 4 ≠ logMark then some .wrongMark
  else
    let version := (content.getD 4 0).toNat
    if version ≠ 0 then some (.version version) else none

def headerPosition (content : List UInt8) : Nat :=
  littleEndian ((content.drop positionOffset).take 8)

/-- Opens a file as a log. An empty file becomes a log without records, and an incomplete last slot
is filled up with zeros; the content that is left in the file is given in either case. -/
def openContent (content : List UInt8) : Except LogCorruption EditLog × List UInt8 :=
  if content.isEmpty then
    let fresh := logHeader 16
    (.ok ⟨{ content := fresh }, 16, 16⟩, fresh)
  else
    match headerFault? content with
    | some corruption => (.error corruption, content)
    | none =>
      let whole := cutTo (slotsUp content.length) content
      let position := headerPosition content
      if position % 16 ≠ 0 ∨ position < 16 ∨ whole.length < position then
        (.error (.position position), whole)
      else
        (.ok ⟨{ content := whole }, position, whole.length⟩, whole)

/-! ### Records -/

def count (log : EditLog) : Nat := (log.stop - 16) / 16

/-- The number of records that can be undone. -/
def index (log : EditLog) : Nat := (log.position - 16) / 16

def canUndo (log : EditLog) : Bool := 16 < log.position

def canRedo (log : EditLog) : Bool := log.position < log.stop

def recordAt (log : EditLog) (slot : Nat) : Except StorageFailure EditRecord :=
  (log.file.read slot slotSize).map EditRecord.decode

/-- Reads all records, those that can be redone included. -/
def records (log : EditLog) : Except StorageFailure (List EditRecord) :=
  (List.range log.count).mapM fun number => log.recordAt (16 + 16 * number)

/-! ### Operations -/

abbrev Action := EStateM LogFailure EditLog

def perform (cause : StorageFailure → LogFailure) (steps : List FileStep) : Action Unit :=
  fun log =>
    match log.file.performAll steps with
    | (.ok _, file) => .ok () { log with file }
    | (.error failure, file) => .error (cause failure) { log with file }

def recordStep (position : Nat) (record : EditRecord) : FileStep :=
  .write position record.encode true

def positionStep (position : UInt64) : FileStep :=
  .write positionOffset (wordBytes position) false

/-- Enters an edit at the position, and forgets the records behind it. -/
def enter (address old new : Int) : Action Unit := do
  perform .notEntered [.seek]
  match EditRecord.ofInts? address old new with
  | none => throw .noRecord
  | some record =>
    let position := (← get).position
    perform .notEntered [recordStep position record]
    modify fun log => { log with position := position + slotSize, stop := position + slotSize }
    perform .notEntered [.truncate (position + slotSize)]

/-- Makes the position last. -/
def settle : Action Unit := do
  perform .notSettled [.seek]
  match word? (← get).position with
  | none => throw .noRecord
  | some position => perform .notSettled [positionStep position, .flush, .sync]

def readRecord (slot : Nat) : Action EditRecord := fun log =>
  match log.recordAt slot with
  | .ok record => .ok record log
  | .error failure => .error (.notRead failure) log

/-- Steps back over a record, if there is one, and gives its address and old byte. -/
def undo : Action (Option (UInt64 × UInt8)) := do
  let log ← get
  if log.canUndo then
    let slot := log.position - slotSize
    let record ← readRecord slot
    modify fun log => { log with position := slot }
    return some (record.address, record.old)
  else
    return none

/-- Steps forward over a record, if there is one, and gives its address and new byte. -/
def redo : Action (Option (UInt64 × UInt8)) := do
  let log ← get
  if log.canRedo then
    let record ← readRecord log.position
    modify fun log => { log with position := log.position + slotSize }
    return some (record.address, record.new)
  else
    return none

/-! ### Records and slots -/

theorem length_encode (record : EditRecord) : record.encode.length = slotSize := by
  simp [EditRecord.encode, wordBytes, length_littleEndianBytes, slotSize]

theorem length_logHeader (position : Nat) : (logHeader position).length = slotSize := by
  simp [logHeader, logMark, length_littleEndianBytes, slotSize]

end EditLog

end HexEditor
