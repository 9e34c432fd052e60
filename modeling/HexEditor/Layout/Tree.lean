/-
Struct layouts. A layout is a tree: folders hold layouts, and values say where in the
file they stand and how their bytes are read. A place is fixed or follows the cursor.
An integer is read from one to eight bytes in one of four encodings of its sign; a
text is read up to a NUL, or for a given number of characters.
-/

import HexEditor.Number.Numeral

namespace HexEditor

/-- How bytes spell negative numbers. -/
inductive SignEncoding where
  | unsigned
  | twosComplement
  | onesComplement
  | signMagnitude
  deriving DecidableEq, Repr

def ByteOrder.name : ByteOrder → String
  | .little => "little"
  | .big => "big"

def ByteOrder.all : List ByteOrder := [.little, .big]

def SignEncoding.name : SignEncoding → String
  | .unsigned => "unsigned"
  | .twosComplement => "twos-complement"
  | .onesComplement => "ones-complement"
  | .signMagnitude => "sign-magnitude"

def SignEncoding.all : List SignEncoding :=
  [.unsigned, .twosComplement, .onesComplement, .signMagnitude]

/-- Where a value stands: at an address, or at a distance from the cursor. -/
inductive Anchor where
  | absolute (address : UInt64)
  | cursor (distance : Int)
  deriving DecidableEq, Repr

/-- The address of a value when the cursor is at an offset; addresses wrap around. -/
def Anchor.address (cursor : Int) : Anchor → UInt64
  | .absolute address => address
  | .cursor distance => word (cursor + distance)

/-- How an integer is read and displayed. -/
structure IntegerKind where
  width : Nat
  order : ByteOrder
  sign : SignEncoding
  base : Radix
  one_le_width : 1 ≤ width
  width_le_eight : width ≤ 8
  deriving DecidableEq

/-- How a value is read. -/
inductive ValueKind where
  | integer (kind : IntegerKind)
  /-- A text of a number of characters, or one that ends with a NUL. -/
  | text (asciiOnly : Bool) (length : Option Int)
  deriving DecidableEq

/-- A layout. -/
inductive Node where
  | folder (name : String) (children : List Node)
  | value (name : String) (anchor : Anchor) (kind : ValueKind)
  deriving Inhabited

def Node.name : Node → String
  | folder name _ => name
  | value name _ _ => name

namespace IntegerKind

def signed (kind : IntegerKind) : Bool := kind.sign != .unsigned

/-- The bit that bytes of this kind have set if they spell a negative number. -/
def signMask (kind : IntegerKind) : UInt64 := word (Nat.pow 2 (8 * kind.width - 1))

/-- The word with all bits set that bytes of this kind can set. -/
def fullMask (kind : IntegerKind) : UInt64 := word (Nat.pow 2 (8 * kind.width) - 1)

/-- The word that bytes of this kind stand for; a negative number is congruent to its word. -/
def decode (kind : IntegerKind) (bytes : List UInt8) : UInt64 :=
  let plain := decodeInteger kind.order false bytes
  let negative := plain &&& kind.signMask != 0
  match kind.sign with
  | .unsigned => plain
  | .twosComplement => decodeInteger kind.order true bytes
  | .onesComplement => if negative then plain - kind.fullMask else plain
  | .signMagnitude => if negative then -(plain &&& (kind.signMask - 1)) else plain

def display (kind : IntegerKind) (value : UInt64) : String := kind.base.display kind.signed value

end IntegerKind

end HexEditor
