/-
What can go wrong with stored bytes. A device may refuse an operation outright; a
read may reach past the end; a write may lie outside the file or not be a byte; and
an offset may be too large for any file.
-/

import HexEditor.Number.Numeral

namespace HexEditor

/-- The elementary operations on an open file. -/
inductive FileOperation where
  | seek
  | read
  | write
  | truncate
  | flush
  | sync
  deriving DecidableEq, Repr

def FileOperation.name : FileOperation → String
  | .seek => "seek"
  | .read => "read"
  | .write => "write"
  | .truncate => "truncate"
  | .flush => "flush"
  | .sync => "fsync"

/-- Why an access to stored bytes failed. -/
inductive StorageFailure where
  /-- The device refused an operation. -/
  | refused (operation : FileOperation)
  /-- A length or an offset was negative. -/
  | invalidRead (count offset : Int)
  /-- There are fewer bytes at the offset than asked for. -/
  | shortRead (offset : Int)
  /-- The device gave fewer bytes at the offset than asked for. -/
  | incompleteRead (offset : Nat)
  /-- Fewer bytes were written than asked for. -/
  | shortWrite
  /-- The offset to write at is not in the file. -/
  | outsideFile (offset : Int)
  | notByte (value : Int)
  /-- No file is so large as to have this offset. -/
  | offsetTooLarge
  /-- No string of bytes is so long. -/
  | lengthTooLarge
  /-- There is no room for so many bytes. -/
  | noRoom
  | closed
  deriving DecidableEq, Repr

def StorageFailure.message : StorageFailure → String
  | .refused operation => "injected " ++ operation.name ++ " failure"
  | .invalidRead count offset =>
    "Invalid read of " ++ decimalText count ++ " bytes at " ++ hexText offset
  | .shortRead offset => "Short read at " ++ hexText offset
  | .incompleteRead offset => "Short read at " ++ hexText offset
  | .shortWrite => "Short write"
  | .outsideFile offset => "Write beyond end of file at " ++ hexText offset
  | .notByte value => "Byte value out of range: " ++ decimalText value
  | .offsetTooLarge => "cannot fit 'int' into an offset-sized integer"
  | .lengthTooLarge => "cannot fit 'int' into an index-sized integer"
  | .noRoom => ""
  | .closed => "seek of closed file"

end HexEditor
