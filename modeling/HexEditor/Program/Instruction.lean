/-
The instructions of struct programs and their bytes. Every instruction is one byte
that names it, followed by its operands: bytes that choose a form, words with their
least significant byte first, and a text constant as the number of its characters
and its bytes in UTF-8. `Instruction.encode` writes an instruction, and `fetch` reads
the one at a position of a program.
-/

import HexEditor.Text.Utf8

namespace HexEditor

/-- When a jump is taken: always, or if the word on the stack is as said. -/
inductive JumpCondition where
  | always
  | zero
  | nonzero
  | nonnegative
  deriving DecidableEq, Repr

/-- The number of bytes that an integer is loaded from. -/
inductive LoadWidth where
  | one
  | two
  | four
  | eight
  deriving DecidableEq, Repr

def LoadWidth.bytes : LoadWidth → Nat
  | .one => 1
  | .two => 2
  | .four => 4
  | .eight => 8

def LoadWidth.ofBytes? (bytes : Int) : Option LoadWidth :=
  if bytes = 1 then some .one
  else if bytes = 2 then some .two
  else if bytes = 4 then some .four
  else if bytes = 8 then some .eight
  else none

/-- An instruction with its operands. Instructions that show a value keep the bytes of their form
as they are, because these are looked at only after the stacks. -/
inductive Instruction where
  | stop
  | setOrder (order : ByteOrder)
  | pushInteger (value : UInt64)
  | pushText (text : String)
  | pushCursor
  | loadInteger (width : LoadWidth) (signed : Bool)
  | loadText (asciiOnly sized : Bool)
  | loadCell
  | showInteger (form base : UInt8)
  | showText (form : UInt8)
  | showHeader (level : UInt8)
  | storeCell
  | swap
  | duplicate
  | drop
  | negate
  | add
  | and
  | jump (condition : JumpCondition) (distance : UInt64)
  | panic
  deriving DecidableEq, Repr

/-! ### Writing -/

def loadForm (width : LoadWidth) (signed : Bool) : UInt8 :=
  match width, signed with
  | .eight, false => 0x00
  | .eight, true => 0x01
  | .four, false => 0x02
  | .four, true => 0x03
  | .two, false => 0x04
  | .two, true => 0x05
  | .one, false => 0x06
  | .one, true => 0x07

def textForm (asciiOnly sized : Bool) : UInt8 :=
  match asciiOnly, sized with
  | false, false => 0x00
  | false, true => 0x01
  | true, false => 0x02
  | true, true => 0x03

def JumpCondition.opcode : JumpCondition → UInt8
  | .always => 0xE0
  | .zero => 0xE1
  | .nonzero => 0xE2
  | .nonnegative => 0xE3

def Instruction.opcode : Instruction → UInt8
  | .stop => 0x00
  | .setOrder _ => 0x01
  | .pushInteger _ => 0x10
  | .pushText _ => 0x12
  | .pushCursor => 0x14
  | .loadInteger _ _ => 0x18
  | .loadText _ _ => 0x1A
  | .loadCell => 0x1C
  | .showInteger _ _ => 0x28
  | .showText _ => 0x2A
  | .showHeader _ => 0x2B
  | .storeCell => 0x2C
  | .swap => 0x80
  | .duplicate => 0x81
  | .drop => 0x82
  | .negate => 0x83
  | .add => 0x84
  | .and => 0x85
  | .jump condition _ => condition.opcode
  | .panic => 0xFF

def Instruction.operands : Instruction → List UInt8
  | .setOrder .little => [0x00]
  | .setOrder .big => [0x01]
  | .pushInteger value => wordBytes value
  | .pushText text => wordBytes (UInt64.ofNat text.length) ++ utf8Bytes text.toList
  | .loadInteger width signed => [loadForm width signed]
  | .loadText asciiOnly sized => [textForm asciiOnly sized]
  | .showInteger form base => [form, base]
  | .showText form => [form]
  | .showHeader level => [level]
  | .jump _ distance => wordBytes distance
  | _ => []

def Instruction.encode (instruction : Instruction) : List UInt8 :=
  instruction.opcode :: instruction.operands

/-- The bytes of instructions behind one another. -/
def encodeAll (instructions : List Instruction) : List UInt8 :=
  instructions.flatMap Instruction.encode

/-! ### Reading -/

/-- Why there is no instruction at a position. -/
inductive FetchFailure where
  /-- The program ends at the position within an instruction. -/
  | truncated (position : Nat)
  | unknownOpcode (opcode : UInt8)
  | unknownForm (opcode form : UInt8)
  | invalidText
  deriving DecidableEq, Repr

def FetchFailure.message : FetchFailure → String
  | .truncated position => "Truncated instruction at " ++ hexText position
  | .unknownOpcode opcode => "Unknown opcode " ++ hexDigits opcode.toNat
  | .unknownForm opcode form =>
    "Unknown opcode " ++ hexDigits opcode.toNat ++ " " ++ hexDigits form.toNat
  | .invalidText => "Invalid utf-8 string constant"

/-- What reading a program came to, and the position behind the bytes it read. -/
structure Fetched (Item : Type) where
  result : Except FetchFailure Item
  next : Nat

/-- Goes on reading behind what was read, unless that failed. -/
def Fetched.andThen {Item Other : Type} (fetched : Fetched Item)
    (go : Item → Nat → Fetched Other) : Fetched Other :=
  match fetched.result with
  | .ok item => go item fetched.next
  | .error failure => ⟨.error failure, fetched.next⟩

def fetchByte (code : Array UInt8) (position : Nat) : Fetched UInt8 :=
  match code[position]? with
  | some byte => ⟨.ok byte, position + 1⟩
  | none => ⟨.error (.truncated position), position⟩

def fetchWord (code : Array UInt8) (position : Nat) : Fetched UInt64 :=
  if position + 8 ≤ code.size then
    ⟨.ok (UInt64.ofNat (littleEndian (code.extract position (position + 8)).toList)), position + 8⟩
  else
    ⟨.error (.truncated position), position⟩

def fetchText (code : Array UInt8) (count : UInt64) (position : Nat) : Fetched String :=
  match (ByteSupply.ofArray code).textAt false (some count.toNat) position with
  | .text characters next => ⟨.ok (String.ofList characters), next⟩
  | .refused next => ⟨.error .invalidText, next⟩
  | .failed _ position => ⟨.error (.truncated position), position⟩

/-- Reads a byte that chooses a form of an instruction. -/
def fetchForm {Item : Type} (code : Array UInt8) (opcode : UInt8) (meaning : UInt8 → Option Item)
    (position : Nat) : Fetched Item :=
  (fetchByte code position).andThen fun form next =>
    match meaning form with
    | some item => ⟨.ok item, next⟩
    | none => ⟨.error (.unknownForm opcode form), next⟩

def orderOfForm? (form : UInt8) : Option Instruction :=
  if form = 0x00 then some (.setOrder .little)
  else if form = 0x01 then some (.setOrder .big)
  else none

def loadOfForm? (form : UInt8) : Option Instruction :=
  if form = 0x00 then some (.loadInteger .eight false)
  else if form = 0x01 then some (.loadInteger .eight true)
  else if form = 0x02 then some (.loadInteger .four false)
  else if form = 0x03 then some (.loadInteger .four true)
  else if form = 0x04 then some (.loadInteger .two false)
  else if form = 0x05 then some (.loadInteger .two true)
  else if form = 0x06 then some (.loadInteger .one false)
  else if form = 0x07 then some (.loadInteger .one true)
  else none

def textLoadOfForm? (form : UInt8) : Option Instruction :=
  if form = 0x00 then some (.loadText false false)
  else if form = 0x01 then some (.loadText false true)
  else if form = 0x02 then some (.loadText true false)
  else if form = 0x03 then some (.loadText true true)
  else none

def fetchJump (code : Array UInt8) (condition : JumpCondition) (position : Nat) :
    Fetched Instruction :=
  (fetchWord code position).andThen fun distance next => ⟨.ok (.jump condition distance), next⟩

/-- Reads the operands of the instruction that a byte names. -/
def fetchOperands (code : Array UInt8) (opcode : UInt8) (position : Nat) : Fetched Instruction :=
  match opcode.toNat with
  | 0x00 => ⟨.ok .stop, position⟩
  | 0x01 => fetchForm code opcode orderOfForm? position
  | 0x10 =>
    (fetchWord code position).andThen fun value next => ⟨.ok (.pushInteger value), next⟩
  | 0x12 =>
    (fetchWord code position).andThen fun count next =>
      (fetchText code count next).andThen fun text next => ⟨.ok (.pushText text), next⟩
  | 0x14 => ⟨.ok .pushCursor, position⟩
  | 0x18 => fetchForm code opcode loadOfForm? position
  | 0x1A => fetchForm code opcode textLoadOfForm? position
  | 0x1C => ⟨.ok .loadCell, position⟩
  | 0x28 =>
    (fetchByte code position).andThen fun form next =>
      (fetchByte code next).andThen fun base next => ⟨.ok (.showInteger form base), next⟩
  | 0x2A => (fetchByte code position).andThen fun form next => ⟨.ok (.showText form), next⟩
  | 0x2B => (fetchByte code position).andThen fun level next => ⟨.ok (.showHeader level), next⟩
  | 0x2C => ⟨.ok .storeCell, position⟩
  | 0x80 => ⟨.ok .swap, position⟩
  | 0x81 => ⟨.ok .duplicate, position⟩
  | 0x82 => ⟨.ok .drop, position⟩
  | 0x83 => ⟨.ok .negate, position⟩
  | 0x84 => ⟨.ok .add, position⟩
  | 0x85 => ⟨.ok .and, position⟩
  | 0xE0 => fetchJump code .always position
  | 0xE1 => fetchJump code .zero position
  | 0xE2 => fetchJump code .nonzero position
  | 0xE3 => fetchJump code .nonnegative position
  | 0xFF => ⟨.ok .panic, position⟩
  | _ => ⟨.error (.unknownOpcode opcode), position⟩

def fetch (code : Array UInt8) (position : Nat) : Fetched Instruction :=
  (fetchByte code position).andThen fun opcode next => fetchOperands code opcode next

end HexEditor
