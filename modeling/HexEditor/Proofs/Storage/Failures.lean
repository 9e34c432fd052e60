/-
Which failures of stored bytes are foreseen. Where the editor reads and writes on its own it is
prepared for errors of the operating system; where it computes rows to show beside the bytes it
is prepared for values besides that nothing can be done with, such as an offset that no file has.
Nobody is prepared for bytes that there is no room for. An open file fails with errors of the
system only, unless it is asked for such a value.
-/

import HexEditor.Proofs.Program.Endings
import HexEditor.Storage.EditedFile

namespace HexEditor

/-! ### Foreseen failures -/

namespace StorageFailure

/-- Whether a failure is an error of the operating system. -/
def isSystemError : StorageFailure → Bool
  | refused _ => true
  | invalidRead _ _ => true
  | shortRead _ => true
  | incompleteRead _ => true
  | shortWrite => true
  | outsideFile _ => true
  | _ => false

/-- Whether a failure is due to a value that nothing can be done with. -/
def isValueError : StorageFailure → Bool
  | notByte _ => true
  | offsetTooLarge => true
  | closed => true
  | _ => false

/-- Whether rows can do without the bytes that failed so. -/
def isForeseen (failure : StorageFailure) : Bool := failure.isSystemError || failure.isValueError

end StorageFailure

def ByteReader.TextFailure.isForeseen : TextFailure → Bool
  | encoding _ => true
  | storage failure => failure.isForeseen

/-! ### Bytes -/

namespace ByteReader

/-- All reads that fail do so as foreseen. -/
def Foreseen (reader : ByteReader) : Prop :=
  ∀ {offset count : Nat} {cause : StorageFailure},
    reader.read offset count = .error cause → cause.isForeseen = true

variable {reader : ByteReader}

theorem Foreseen.byteAt (foreseen : reader.Foreseen) {offset : Nat} {cause : StorageFailure}
    (failed : reader.byteAt offset = .error cause) : cause.isForeseen = true := by
  unfold ByteReader.byteAt at failed
  split at failed
  · cases failed
  · cases failed
    rfl
  · next refused =>
    cases failed
    exact foreseen refused

theorem Foreseen.text (foreseen : reader.Foreseen) {asciiOnly : Bool} {count : Option Nat}
    {offset : Nat} {cause : TextFailure}
    (failed : reader.text asciiOnly count offset = .error cause) : cause.isForeseen = true := by
  unfold ByteReader.text at failed
  split at failed
  · cases failed
  · cases failed
    rfl
  · next failure position reached =>
    cases failed
    exact foreseen.byteAt (ByteSupply.byteAt_of_failed reached)

theorem foreseen_refusing : refusing.Foreseen := by
  intro offset count cause failed
  cases failed
  rfl

theorem foreseen_stuck : stuck.Foreseen := by
  intro offset count cause failed
  replace failed : Except.error (if offsetLimit ≤ offset then .offsetTooLarge else .refused .flush) =
      Except.error cause := failed
  split at failed
  · cases failed
    rfl
  · cases failed
    rfl

theorem foreseen_ofArray (content : Array UInt8) : (ofArray content).Foreseen := by
  intro offset count cause failed
  replace failed : readArray content offset count = .error cause := failed
  unfold readArray at failed
  split at failed
  · cases failed
    rfl
  split at failed
  · cases failed
  split at failed
  · cases failed
  · cases failed
    rfl

end ByteReader

/-- What annotations see of a file fails as foreseen. -/
theorem EditedFile.foreseen_reader (file : EditedFile) : file.reader.Foreseen := by
  unfold reader
  split
  · exact ByteReader.foreseen_refusing
  split
  · exact ByteReader.foreseen_stuck
  · exact ByteReader.foreseen_ofArray _

/-! ### The edited file -/

namespace EditedFile

variable {file : EditedFile} {cause : StorageFailure}

/-- An open file that does not take a byte, or holds it back, says so with an error of the system. -/
theorem systemError_of_writeByte (opened : file.closed = false) {address : Int} {value : UInt8}
    {next : EditedFile} (refused : file.writeByte address value.toNat = (.error cause, next)) :
    cause.isSystemError = true := by
  rw [writeByte] at refused
  split at refused
  · cases refused
    rfl
  split at refused
  · have := value.toNat_lt
    omega
  rw [if_neg (ne_true_of_eq_false opened)] at refused
  split at refused
  · cases refused
    rfl
  split at refused
  · cases refused
    rfl
  rw [put] at refused
  split at refused
  · cases refused
    rfl
  · cases refused

/-- An open file that does not give a byte at a possible offset says so with an error of the
system. -/
theorem systemError_of_byteAt (opened : file.closed = false) {offset : Int}
    (possible : offset < offsetLimit) (refused : file.byteAt offset = .error cause) :
    cause.isSystemError = true := by
  unfold byteAt at refused
  split at refused
  · cases refused
  · cases refused
    rfl
  next failed =>
  cases refused
  unfold read at failed
  split at failed
  · next noAccess =>
    cases failed
    unfold accessFailure? at noAccess
    rw [if_neg (ne_true_of_eq_false opened), if_neg (Int.not_le.2 possible)] at noAccess
    split at noAccess
    · cases noAccess
      rfl
    split at noAccess
    · cases noAccess
      rfl
    · cases noAccess
  split at failed
  · cases failed
    rfl
  have single : lengthFailure? (1 : Int).toNat lengthLimit = none := rfl
  rw [single] at failed
  replace failed : ByteReader.readArray file.content offset.toNat 1 = .error cause := failed
  have positive : 0 < offsetLimit := by decide
  unfold ByteReader.readArray at failed
  rw [if_neg (by omega : ¬ offsetLimit ≤ offset.toNat), if_neg Nat.one_ne_zero] at failed
  split at failed
  · cases failed
  · cases failed
    rfl

end EditedFile

end HexEditor
