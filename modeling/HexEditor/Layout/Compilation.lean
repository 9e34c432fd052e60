/-
Compiling a layout to a program that shows the same rows. The byte order that the
machine is in is known at every place, so that it is switched only where the next
integer needs the other one. The two encodings of signs that no load knows are mended
behind the load, by code that a jump skips where the sign bit is not set.
-/

import HexEditor.Layout.Tree
import HexEditor.Program.Instruction

namespace HexEditor

/-- Why a layout has no program. -/
inductive CompilationFailure where
  /-- No instruction loads an integer of this width. -/
  | noLoad (name : String) (width : Nat)
  /-- A folder lies so deep that its level is no byte. -/
  | tooDeep (depth : Nat)
  deriving DecidableEq, Repr

def CompilationFailure.message : CompilationFailure → String
  | .noLoad name width => name ++ ": width " ++ decimalText width ++ " has no bytecode load"
  | .tooDeep _ => "byte must be in range(0, 256)"

def Anchor.code : Anchor → List Instruction
  | .absolute address => [.pushInteger address]
  | .cursor distance =>
    .pushCursor :: if distance = 0 then [] else [.pushInteger (word distance), .add]

/-- Code that goes on unless the word on the stack has no bit of a mask set, in which case it is
skipped. -/
def whereSet (mask : UInt64) (code : List Instruction) : List Instruction :=
  let jumpLength := (Instruction.jump .zero 0).encode.length
  [.duplicate, .pushInteger mask, .and,
    .jump .zero (UInt64.ofNat (jumpLength + (encodeAll code).length))] ++ code

/-- Code that turns a word as it was loaded into the word that it stands for. -/
def IntegerKind.signCode (kind : IntegerKind) : List Instruction :=
  match kind.sign with
  | .unsigned => []
  | .twosComplement => []
  | .onesComplement => whereSet kind.signMask [.pushInteger kind.fullMask, .negate, .add]
  | .signMagnitude => whereSet kind.signMask [.pushInteger (kind.signMask - 1), .and, .negate]

/-- Code that shows an integer whose address is pushed twice, in a given byte order. -/
def IntegerKind.code (kind : IntegerKind) (width : LoadWidth) (order : ByteOrder) (name : String) :
    List Instruction :=
  (if kind.order = order then [] else [.setOrder kind.order]) ++
    .loadInteger width (kind.sign == .twosComplement) :: kind.signCode ++
    [.pushText name,
      .showInteger (if kind.signed then 0x01 else 0x00) (UInt8.ofNat kind.base.value)]

/-- Code that shows a text whose address is pushed twice. -/
def textCode (asciiOnly : Bool) (length : Option Int) (name : String) : List Instruction :=
  (match length with
    | some length => [.pushInteger (word length)]
    | none => []) ++
    [.loadText asciiOnly length.isSome, .pushText name, .showText 0x00]

mutual

/-- Code that shows a layout at a depth, entered in a byte order, and the order it is left in. -/
def Node.code (depth : Nat) (order : ByteOrder) :
    Node → Except CompilationFailure (List Instruction × ByteOrder)
  | .folder name children =>
    if depth < 256 then do
      let (code, order) ← nodesCode (depth + 1) order children
      return (.pushText name :: .showHeader (UInt8.ofNat depth) :: .drop :: code, order)
    else
      .error (.tooDeep depth)
  | .value name anchor (.text asciiOnly length) =>
    .ok (anchor.code ++ .duplicate :: textCode asciiOnly length name, order)
  | .value name anchor (.integer kind) =>
    match LoadWidth.ofBytes? kind.width with
    | some width => .ok (anchor.code ++ .duplicate :: kind.code width order name, kind.order)
    | none => .error (.noLoad name kind.width)

def nodesCode (depth : Nat) (order : ByteOrder) :
    List Node → Except CompilationFailure (List Instruction × ByteOrder)
  | [] => .ok ([], order)
  | node :: rest => do
    let (code, order) ← Node.code depth order node
    let (restCode, order) ← nodesCode depth order rest
    return (code ++ restCode, order)

end

def Node.instructions (root : Node) : Except CompilationFailure (List Instruction) :=
  (Node.code 0 .little root).map fun (code, _) => code ++ [.stop]

def Node.compile (root : Node) : Except CompilationFailure (Array UInt8) :=
  root.instructions.map fun code => (encodeAll code).toArray

end HexEditor
