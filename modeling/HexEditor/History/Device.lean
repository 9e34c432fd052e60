/-
A plain file on a device that may refuse operations. Every change to the file is a
list of elementary steps, carried out one after the other until one is refused; what
earlier steps have written stays written. A device may also lose the last byte of
what it reads, or write only the first of the bytes that it is given and report that
it has not written them all. No device lets a file reach an offset that no file has.

The file keeps account of the changes that are made to its content. Nothing is decided
by the account; it tells what there was at every moment of the work on the file.
-/

import HexEditor.Storage.Reader

namespace HexEditor

/-- What is wrong with a device. -/
structure DeviceFaults where
  refused : List FileOperation := []
  shortRead : Bool := false
  /-- If no write is done as a whole, the largest number of bytes that is written. -/
  shortWrite : Option Nat := none
  deriving DecidableEq, Repr

/-- An elementary change to a file. -/
inductive FileStep where
  | seek
  /-- Writes bytes at an offset; `whole` says that writing fewer is a failure. -/
  | write (offset : Nat) (bytes : List UInt8) (whole : Bool)
  | truncate (length : Nat)
  | flush
  | sync
  deriving DecidableEq, Repr

def FileStep.operation : FileStep → FileOperation
  | seek => .seek
  | write .. => .write
  | truncate _ => .truncate
  | flush => .flush
  | sync => .sync

/-- The offset behind the last byte that a file has to have for a step. -/
def FileStep.reach : FileStep → Nat
  | write offset bytes _ => offset + bytes.length
  | truncate length => length
  | _ => 0

/-- Content cut or filled up with zeros to a length. -/
def cutTo (length : Nat) (content : List UInt8) : List UInt8 :=
  content.take length ++ List.replicate (length - content.length) 0

def writeAt (offset : Nat) (bytes content : List UInt8) : List UInt8 :=
  cutTo offset content ++ bytes ++ content.drop (offset + bytes.length)

/-- What a step makes of the content of a file on a device without faults. -/
def FileStep.effect (content : List UInt8) : FileStep → List UInt8
  | write offset bytes _ => writeAt offset bytes content
  | truncate length => cutTo length content
  | _ => content

/-- Whether a step fails if it is not done as a whole. -/
def FileStep.isWhole : FileStep → Bool
  | write _ _ whole => whole
  | _ => false

/-- Whether a step is one that can change the content. -/
def FileStep.isChange : FileStep → Bool
  | write .. => true
  | truncate _ => true
  | _ => false

/-- A plain file and what is wrong with its device. -/
structure DeviceFile where
  content : List UInt8
  faults : DeviceFaults := {}
  /-- The changes that have been made to the content since the file was opened, in their order. -/
  made : List FileStep := []
  deriving DecidableEq, Repr

namespace DeviceFile

/-- Lets a step have its effect, and puts it into the account if it is a change. -/
def make (file : DeviceFile) (step : FileStep) : DeviceFile :=
  if step.isChange then
    { file with content := step.effect file.content, made := file.made ++ [step] }
  else
    file

/-- Writes the first bytes, no more than `count` and never all of them. -/
def writePart (file : DeviceFile) (count offset : Nat) (bytes : List UInt8) (whole : Bool) :
    DeviceFile :=
  let part := bytes.dropLast.take count
  if part.isEmpty then file else file.make (.write offset part whole)

/-- The file behind a step that is not refused. -/
def carry (file : DeviceFile) (step : FileStep) : DeviceFile :=
  match step, file.faults.shortWrite with
  | .write offset bytes whole, some count => file.writePart count offset bytes whole
  | step, _ => file.make step

/-- Carries out a step. If it has to be done as a whole it may fail with a part of it done. -/
def perform (file : DeviceFile) (step : FileStep) : Except StorageFailure Unit × DeviceFile :=
  if file.faults.refused.contains step.operation ∨ offsetLimit ≤ step.reach then
    (.error (.refused step.operation), file)
  else
    (if step.isWhole && file.faults.shortWrite.isSome then .error .shortWrite else .ok (),
      file.carry step)

/-- Carries out steps until one fails. -/
def performAll (file : DeviceFile) : List FileStep → Except StorageFailure Unit × DeviceFile
  | [] => (.ok (), file)
  | step :: rest =>
    match file.perform step with
    | (.ok _, file) => file.performAll rest
    | (.error failure, file) => (.error failure, file)

def read (file : DeviceFile) (offset count : Nat) : Except StorageFailure (List UInt8) :=
  if file.faults.refused.contains .seek then .error (.refused .seek)
  else if file.faults.refused.contains .read then .error (.refused .read)
  else
    let bytes := (file.content.drop offset).take count
    let bytes := if file.faults.shortRead then bytes.dropLast else bytes
    if bytes.length < count then .error (.incompleteRead offset) else .ok bytes

end DeviceFile

end HexEditor
