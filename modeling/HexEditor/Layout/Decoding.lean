/-
Decoding a file by a layout. The tree is walked depth first; every folder shows a
header and every value a row, until the panel is full. The values decoded on the way
are remembered under the names on the path to them.
-/

import HexEditor.Layout.Tree
import HexEditor.Panel
import HexEditor.Storage.Reader
import HexEditor.Table

namespace HexEditor

/-- A decoded value. -/
inductive DecodedValue where
  | integer (value : UInt64)
  | text (value : String)
  deriving DecidableEq, Repr

/-- Decoded values under the names on the paths to them. -/
abbrev DecodedValues := List (List String × DecodedValue)

/-- Whether a path stands in front of another one, or is the same, by its first name that
differs. -/
def isOrdered : List String → List String → Bool
  | [], _ => true
  | _ :: _, [] => false
  | first :: rest, second :: others =>
    if first = second then isOrdered rest others else first ≤ second

def DecodedValues.sorted (values : DecodedValues) : DecodedValues :=
  values.mergeSort fun first second => isOrdered first.1 second.1

/-- How far a walk through a layout has come. -/
structure DecodingProgress where
  panel : Panel
  values : DecodedValues := []

/-- A part of a walk, which may fail for want of bytes or text. -/
abbrev Decoding := EStateM ByteReader.TextFailure DecodingProgress

namespace Decoding

def remember (path : List String) (value : DecodedValue) : Decoding Unit := fun progress =>
  .ok () { progress with values := Table.set path value progress.values }

/-- Writes on the panel and tells whether there was room. -/
def write (rows : Panel → Bool × Panel) : Decoding Bool := fun progress =>
  let (fitted, panel) := rows progress.panel
  .ok fitted { progress with panel }

/-- Goes on with a value, unless there is none. -/
def orFail {Failure Value : Type} (cause : Failure → ByteReader.TextFailure) :
    Except Failure Value → Decoding Value
  | .ok value => pure value
  | .error failure => throw (cause failure)

/-- Decodes and shows a value, and tells whether there was room for it. -/
def decodeValue (reader : ByteReader) (cursor : Int) (path : List String) (name : String)
    (anchor : Anchor) : ValueKind → Decoding Bool
  | .integer kind => do
    let bytes ← orFail .storage (reader.read (anchor.address cursor).toNat kind.width)
    let value := kind.decode bytes
    remember (path ++ [name]) (.integer value)
    write fun panel => panel.value name (kind.display value)
  | .text asciiOnly length => do
    let text ← orFail id
      (reader.text asciiOnly (length.map Int.toNat) (anchor.address cursor).toNat)
    remember (path ++ [name]) (.text text)
    write fun panel => panel.value name text

mutual

/-- Walks through a layout at a depth below a path, and tells whether there was room for all. -/
def walk (reader : ByteReader) (cursor : Int) (depth : Nat) (path : List String) :
    Node → Decoding Bool
  | .folder name children => do
    if ← write fun panel => panel.header name depth then
      walkAll reader cursor (depth + 1) (path ++ [name]) children
    else
      return false
  | .value name anchor kind => decodeValue reader cursor path name anchor kind

/-- Walks through layouts one after the other as long as there is room. -/
def walkAll (reader : ByteReader) (cursor : Int) (depth : Nat) (path : List String) :
    List Node → Decoding Bool
  | [] => return true
  | node :: rest => do
    if ← walk reader cursor depth path node then
      walkAll reader cursor depth path rest
    else
      return false

end

end Decoding

/-- The rows that a layout shows and the values behind them. -/
def Node.decode (root : Node) (reader : ByteReader) (cursor rows : Int) :
    Except ByteReader.TextFailure (List PanelRow × DecodedValues) :=
  match Decoding.walk reader cursor 0 [] root { panel := .ofRows rows } with
  | .ok _ progress => .ok (progress.panel.rows.toList, progress.values)
  | .error failure _ => .error failure

end HexEditor
