/-
Layouts written in JSON. A node has a name, and either children or an offset and a
kind. Numbers may be written as integers or as literals in strings, whose base their
mark decides. Everything is checked while it is read: the width and base of an
integer, the range of an absolute address, and the choices of order, sign and
encoding. The first fault, in the order in which a node is read, is the one reported.
-/

import HexEditor.Json.Value
import HexEditor.Layout.Tree
import HexEditor.Number.Literal

namespace HexEditor

/-- Why a definition does not describe a layout. Most faults name the node or the field they are
in. -/
inductive DefinitionFailure where
  | unnamed (raw : Json)
  | childrenNoList (name : String)
  | incomplete (name : String)
  | offsetForm (name : String)
  | offsetRange (name : String)
  | offsetUnknown (name form : String)
  | kindForm (name : String)
  | kindBody (name form : String)
  | kindUnknown (name form : String)
  | noInteger (field : String) (raw : Json)
  | literal (field : String) (failure : LiteralFailure)
  | choice (field : String) (raw : Json) (choices : List String)
  | encoding (name : String) (raw : Json)
  | width (value : Int)
  | base (value : Int)
  /-- A number has too many digits to be shown in a message. -/
  | unshowable

def DefinitionFailure.message : DefinitionFailure → String
  | .unnamed raw => "Struct node needs a name: " ++ raw.shown
  | .childrenNoList name => name ++ ": children must be a list"
  | .incomplete name => name ++ ": needs children, or offset and kind"
  | .offsetForm name => name ++ ": offset needs exactly one of absolute/cursor"
  | .offsetRange name => name ++ ": absolute offset out of range"
  | .offsetUnknown name form => name ++ ": unknown offset form [" ++ quoted form ++ "]"
  | .kindForm name => name ++ ": kind needs exactly one of integer/string"
  | .kindBody name form => name ++ ": " ++ form ++ " kind must be an object"
  | .kindUnknown name form => name ++ ": unknown kind [" ++ quoted form ++ "]"
  | .noInteger field raw => field ++ ": expected an integer, got " ++ raw.shown
  | .literal field failure => field ++ ": " ++ failure.message
  | .choice field raw choices =>
    field ++ ": " ++ raw.shown ++ " is not one of " ++ String.intercalate ", " choices
  | .encoding name raw => name ++ ": unknown encoding " ++ raw.shown
  | .width value => "Integer width must be 1..8, not " ++ decimalText value
  | .base value =>
    "Base must be 2.." ++ decimalText largestBase ++ ", not " ++ decimalText value
  | .unshowable =>
    "Exceeds the limit (" ++ decimalText literalDigitLimit ++
      " digits) for integer string conversion;" ++
      " use sys.set_int_max_str_digits() to increase the limit"

/-! ### Quoted values -/

mutual

/-- Whether messages can quote a value: no number in it has too many digits to be shown. -/
def Json.isShowable : Json → Bool
  | .integer value => value.natAbs < Nat.pow 10 literalDigitLimit
  | .array items => areShowable items
  | .object members => membersAreShowable members
  | _ => true

def areShowable : List Json → Bool
  | [] => true
  | item :: rest => item.isShowable && areShowable rest

def membersAreShowable : List (String × Json) → Bool
  | [] => true
  | (_, value) :: rest => value.isShowable && membersAreShowable rest

end

/-- A fault whose message quotes a value, unless the value cannot be shown. -/
def DefinitionFailure.quoting (raw : Json) (failure : DefinitionFailure) : DefinitionFailure :=
  if raw.isShowable then failure else .unshowable

/-! ### Fields -/

/-- The integer that a field holds, as a number or as a literal. -/
def integerField (field : String) : Json → Except DefinitionFailure Int
  | .integer value => .ok value
  | .string text =>
    match readInteger 0 text with
    | .ok value => .ok value
    | .error failure => .error (.literal field failure)
  | raw => .error (.quoting raw (.noInteger field raw))

def choiceField {Choice : Type} (name : Choice → String) (all : List Choice) (field : String)
    (raw : Json) : Except DefinitionFailure Choice :=
  let named := match raw with
    | .string text => all.find? fun choice => name choice == text
    | _ => none
  match named with
  | some choice => .ok choice
  | none => .error (.quoting raw (.choice field raw (all.map name)))

/-- The kind of an integer with a width and a base, which both have their range. -/
def IntegerKind.ofFields (width : Int) (order : ByteOrder) (sign : SignEncoding) (base : Int) :
    Except DefinitionFailure IntegerKind :=
  if fits : 1 ≤ width.toNat ∧ width.toNat ≤ 8 then
    match Radix.ofInt? base with
    | some radix => .ok ⟨width.toNat, order, sign, radix, fits.1, fits.2⟩
    | none => .error (.quoting (.integer base) (.base base))
  else
    .error (.quoting (.integer width) (.width width))

def anchorOf (name : String) (raw : Json) : Except DefinitionFailure Anchor :=
  match raw with
  | .object [("absolute", value)] => do
    match word? (← integerField (name ++ ".offset") value) with
    | some address => .ok (.absolute address)
    | none => .error (.offsetRange name)
  | .object [("cursor", value)] => do
    return .cursor (← integerField (name ++ ".offset") value)
  | .object [(form, _)] => .error (.offsetUnknown name form)
  | _ => .error (.offsetForm name)

/-- The kind of an integer by the members of its description. -/
def integerKindOf (name : String) (body : Json) : Except DefinitionFailure IntegerKind := do
  let width ← integerField (name ++ ".width") ((body.member? "width").getD .null)
  let order ← choiceField ByteOrder.name ByteOrder.all (name ++ ".endian")
    ((body.member? "endian").getD (.string "little"))
  let sign ← choiceField SignEncoding.name SignEncoding.all (name ++ ".sign")
    ((body.member? "sign").getD (.string "unsigned"))
  let base ← integerField (name ++ ".base") ((body.member? "base").getD (.integer 10))
  IntegerKind.ofFields width order sign base

/-- Whether a text is in ASCII rather than in UTF-8, by the name of its encoding. -/
def asciiOnlyOf (name : String) (raw : Json) : Except DefinitionFailure Bool :=
  match raw with
  | .string "utf-8" => .ok false
  | .string "ascii" => .ok true
  | _ => .error (.quoting raw (.encoding name raw))

/-- The kind of a text by the members of its description. -/
def textKindOf (name : String) (body : Json) : Except DefinitionFailure ValueKind := do
  let asciiOnly ← asciiOnlyOf name ((body.member? "encoding").getD (.string "utf-8"))
  match (body.member? "length").getD .null with
  | .null => return .text asciiOnly none
  | raw => return .text asciiOnly (some (← integerField (name ++ ".length") raw))

def kindOf (name : String) (raw : Json) : Except DefinitionFailure ValueKind :=
  match raw with
  | .object [(form, .object members)] =>
    if form == "integer" then (integerKindOf name (.object members)).map .integer
    else if form == "string" then textKindOf name (.object members)
    else .error (.kindUnknown name form)
  | .object [(form, _)] => .error (.kindBody name form)
  | _ => .error (.kindForm name)

/-! ### Nodes -/

def valueOf (name : String) (raw : Json) : Except DefinitionFailure Node :=
  match raw.member? "offset", raw.member? "kind" with
  | some offset, some kind => do return .value name (← anchorOf name offset) (← kindOf name kind)
  | _, _ => .error (.incomplete name)

mutual

def Node.ofJson : Json → Except DefinitionFailure Node
  | .object members =>
    match members.lookup "name" with
    | some (.string name) =>
      match childrenOf name members with
      | some children => children.map (.folder name)
      | none => valueOf name (.object members)
    | _ => .error (.quoting (.object members) (.unnamed (.object members)))
  | raw => .error (.quoting raw (.unnamed raw))

/-- The children among the members of a node, if it has any list of them. -/
def childrenOf (name : String) :
    List (String × Json) → Option (Except DefinitionFailure (List Node))
  | [] => none
  | (key, value) :: rest =>
    if key == "children" then
      match value with
      | .array items => some (nodesOf items)
      | _ => some (.error (.childrenNoList name))
    else
      childrenOf name rest

/-- The layouts that definitions describe, up to the first one that does not. -/
def nodesOf : List Json → Except DefinitionFailure (List Node)
  | [] => .ok []
  | item :: rest => do
    let node ← Node.ofJson item
    return node :: (← nodesOf rest)

end

end HexEditor
