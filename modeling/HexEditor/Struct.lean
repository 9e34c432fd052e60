/-
Structs: what the editor can show beside the bytes. A struct is a program or a
layout; a layout remembers the values that it decoded last.
-/

import HexEditor.Layout.Decoding
import HexEditor.Program.Machine

namespace HexEditor

/-- A struct. -/
inductive Struct where
  | program (code : Array UInt8)
  | layout (root : Node) (values : DecodedValues)
  deriving Inhabited

/-- Why a struct shows nothing. -/
inductive AnnotationFailure where
  | run (failure : RunFailure)
  | decoding (failure : ByteReader.TextFailure)
  deriving DecidableEq, Repr

def AnnotationFailure.message : AnnotationFailure → String
  | .run failure => failure.message
  | .decoding failure => failure.message

/-- Whether it is some failure of the bytes that leaves nothing to show. -/
def AnnotationFailure.isDueTo (cause : StorageFailure) : AnnotationFailure → Bool
  | .run (.storage failure) => failure == cause
  | .run (.text (.storage failure)) => failure == cause
  | .decoding (.storage failure) => failure == cause
  | _ => false

namespace Struct

/-- The rows that a struct shows at a cursor, and the struct with what it remembers. -/
def annotate (struct : Struct) (reader : ByteReader) (cursor rows : Int) :
    Except AnnotationFailure (List PanelRow × Struct) :=
  match struct with
  | program code =>
    match runProgram ⟨code, reader, cursor⟩ rows with
    | .ok lines => .ok (lines, struct)
    | .error failure => .error (.run failure)
  | layout root _ =>
    match root.decode reader cursor rows with
    | .ok (lines, values) => .ok (lines, layout root values)
    | .error failure => .error (.decoding failure)

/-- Whether a struct asks for bytes before its rows are done. It does if it gets no further with a
reader that is stuck. -/
def asksForBytes (struct : Struct) (cursor rows : Int) : Bool :=
  match struct.annotate .stuck cursor rows with
  | .error failure => failure.isDueTo (.refused .flush)
  | .ok _ => false

def values : Struct → DecodedValues
  | program _ => []
  | layout _ values => values

end Struct

end HexEditor
