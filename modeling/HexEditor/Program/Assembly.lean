/-
Assembling programs. A source program is a list of statements: instructions, labels,
and jumps whose target is a label or a distance. A label names the position it
stands at, and a jump to it holds the distance from the jump's own first byte.
Positions are found first, statement by statement; then the bytes are written.
-/

import HexEditor.Program.Instruction
import HexEditor.Text.Quoted

namespace HexEditor

/-- Where a jump goes. -/
inductive JumpTarget where
  | distance (value : Int)
  | label (name : String)
  deriving DecidableEq, Repr

/-- A statement of a source program, with operands as they were written down. -/
inductive Statement where
  | plain (instruction : Instruction)
  | pushInteger (value : Int)
  | loadInteger (width : Int) (signed : Bool)
  | showInteger (base : Int) (signed : Bool)
  | showHeader (level : Int)
  | jump (condition : JumpCondition) (target : JumpTarget)
  | label (name : String)
  deriving DecidableEq, Repr

/-- Why a source program cannot be assembled. -/
inductive AssemblyFailure where
  | noLoad (width : Int)
  | notByte (value : Int)
  | duplicateLabel (name : String)
  | undefinedLabel (name : String)
  deriving DecidableEq, Repr

def AssemblyFailure.message : AssemblyFailure → String
  | .noLoad width => "No integer load for width " ++ decimalText width
  | .notByte _ => "byte must be in range(0, 256)"
  | .duplicateLabel name => "Duplicate label " ++ quoted name
  | .undefinedLabel name => "Undefined label " ++ quoted name

/-- The labels of a source program with the positions they stand at. -/
abbrev Labels := List (String × Nat)

/-- The instruction that a statement is, at a position and with the labels known; labels themselves
are none. -/
def Statement.instruction? (labels : Labels) (position : Nat) :
    Statement → Except AssemblyFailure (Option Instruction)
  | .plain instruction => .ok (some instruction)
  | .pushInteger value => .ok (some (.pushInteger (word value)))
  | .loadInteger width signed =>
    match LoadWidth.ofBytes? width with
    | some width => .ok (some (.loadInteger width signed))
    | none => .error (.noLoad width)
  | .showInteger base signed =>
    match byte? base with
    | some base => .ok (some (.showInteger (if signed then 0x01 else 0x00) base))
    | none => .error (.notByte base)
  | .showHeader level =>
    match byte? level with
    | some level => .ok (some (.showHeader level))
    | none => .error (.notByte level)
  | .jump condition (.distance value) => .ok (some (.jump condition (word value)))
  | .jump condition (.label name) =>
    match labels.lookup name with
    | some target => .ok (some (.jump condition (word ((target : Int) - position))))
    | none => .error (.undefinedLabel name)
  | .label _ => .ok none

/-- The statement with a jump to a label replaced by one of the same length. -/
def Statement.settled : Statement → Statement
  | .jump condition (.label _) => .jump condition (.distance 0)
  | statement => statement

def Statement.length (statement : Statement) : Except AssemblyFailure Nat :=
  (statement.settled.instruction? [] 0).map fun
    | some instruction => instruction.encode.length
    | none => 0

/-- Finds the positions of the labels of statements that begin at a position. -/
def findLabels (labels : Labels) (position : Nat) :
    List Statement → Except AssemblyFailure Labels
  | [] => .ok labels
  | statement :: rest =>
    match statement with
    | .label name =>
      match labels.lookup name with
      | some _ => .error (.duplicateLabel name)
      | none => findLabels ((name, position) :: labels) position rest
    | statement =>
      match statement.length with
      | .ok length => findLabels labels (position + length) rest
      | .error failure => .error failure

/-- The instructions of statements that begin at a position, with the labels known. -/
def placeStatements (labels : Labels) (position : Nat) :
    List Statement → Except AssemblyFailure (List Instruction)
  | [] => .ok []
  | statement :: rest =>
    match statement.instruction? labels position with
    | .error failure => .error failure
    | .ok none => placeStatements labels position rest
    | .ok (some instruction) =>
      (placeStatements labels (position + instruction.encode.length) rest).map (instruction :: ·)

def assemble (statements : List Statement) : Except AssemblyFailure (List UInt8) :=
  match findLabels [] 0 statements with
  | .error failure => .error failure
  | .ok labels => (placeStatements labels 0 statements).map encodeAll

end HexEditor
