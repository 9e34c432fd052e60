/-
Text in UTF-8, read one byte at a time. A reader is either between two characters
or inside one, where it knows how many bytes are missing and in which range the
next one lies; a byte outside that range is refused at once, before any further
byte is looked at. So overlong forms and code points past the last one are refused
at their second byte. The first two bytes of a surrogate are no beginning of a
character either, but a reader of single bytes refuses them only with the byte that
follows.
-/

import HexEditor.Number.Numeral

namespace HexEditor

/-- What a reader of UTF-8 has seen of the character it is in. -/
inductive Utf8State where
  | between
  /-- Inside a character: further bytes are `missing`, of which the next lies from `low` to `high`,
  and the bits read so far spell `value`. -/
  | inside (missing low high value : Nat)
  /-- Behind the first two bytes of a surrogate, which nothing can follow. -/
  | surrogate
  deriving DecidableEq, Repr, Inhabited

/-- What one byte makes of the character being read. -/
inductive Utf8Step where
  | character (character : Char)
  | more (state : Utf8State)
  | refused
  deriving DecidableEq, Repr

/-- The first byte of a character. -/
def utf8Lead (byte : Nat) : Utf8Step :=
  if byte < 0x80 then .character (Char.ofNat byte)
  else if byte < 0xC2 then .refused
  else if byte < 0xE0 then .more (.inside 1 0x80 0xBF (byte - 0xC0))
  else if byte == 0xE0 then .more (.inside 2 0xA0 0xBF 0)
  else if byte < 0xF0 then .more (.inside 2 0x80 0xBF (byte - 0xE0))
  else if byte == 0xF0 then .more (.inside 3 0x90 0xBF 0)
  else if byte < 0xF4 then .more (.inside 3 0x80 0xBF (byte - 0xF0))
  else if byte == 0xF4 then .more (.inside 3 0x80 0x8F (byte - 0xF0))
  else .refused

/-- One further byte. Two bytes of three that spell the upper bits of a surrogate lead nowhere. -/
def Utf8State.step : Utf8State → UInt8 → Utf8Step
  | .between, byte => utf8Lead byte.toNat
  | .surrogate, _ => .refused
  | .inside missing low high value, byte =>
    if byte.toNat < low || high < byte.toNat then
      .refused
    else
      let collected := value * 64 + (byte.toNat - 0x80)
      if missing ≤ 1 then .character (Char.ofNat collected)
      else if missing = 2 ∧ 0x360 ≤ collected ∧ collected < 0x380 then .more .surrogate
      else .more (.inside (missing - 1) 0x80 0xBF collected)

def utf8Char (character : Char) : List UInt8 :=
  let code := character.toNat
  if code < 0x80 then
    [UInt8.ofNat code]
  else if code < 0x800 then
    [UInt8.ofNat (0xC0 + code / 64), UInt8.ofNat (0x80 + code % 64)]
  else if code < 0x10000 then
    [UInt8.ofNat (0xE0 + code / 4096), UInt8.ofNat (0x80 + code / 64 % 64),
     UInt8.ofNat (0x80 + code % 64)]
  else
    [UInt8.ofNat (0xF0 + code / 262144), UInt8.ofNat (0x80 + code / 4096 % 64),
     UInt8.ofNat (0x80 + code / 64 % 64), UInt8.ofNat (0x80 + code % 64)]

def utf8Bytes (text : List Char) : List UInt8 := text.flatMap utf8Char

/-! ### Whole texts -/

/-- Why bytes spell no text. -/
inductive Utf8Reason where
  | start
  | continuation
  | ending
  deriving DecidableEq, Repr

/-- Where bytes stop being text: the character begins with `lead` at `first`, and its bytes up to
`last` are at fault. -/
structure Utf8Failure where
  lead : UInt8
  first : Nat
  last : Nat
  reason : Utf8Reason
  deriving DecidableEq, Repr

def Utf8Reason.message : Utf8Reason → String
  | .start => "invalid start byte"
  | .continuation => "invalid continuation byte"
  | .ending => "unexpected end of data"

def Utf8Failure.message (failure : Utf8Failure) : String :=
  let place :=
    if failure.first = failure.last then
      "byte 0x" ++ String.ofList (byteHex failure.lead) ++ " in position " ++
        decimalText failure.first
    else
      "bytes in position " ++ decimalText failure.first ++ "-" ++ decimalText failure.last
  "'utf-8' codec can't decode " ++ place ++ ": " ++ failure.reason.message

/-- Reads the rest of a text from `position` on; the character being read began with `lead` at
`first`, and `read` holds the characters before it, last one first. -/
def readUtf8 (state : Utf8State) (lead : UInt8) (first position : Nat) (read : List Char) :
    List UInt8 → Except Utf8Failure (List Char)
  | [] =>
    if state = .between then .ok read.reverse else .error ⟨lead, first, position - 1, .ending⟩
  | byte :: rest =>
    let fresh := state = .between
    let lead := if fresh then byte else lead
    let first := if fresh then position else first
    match state.step byte with
    | .character character =>
      readUtf8 .between lead first (position + 1) (character :: read) rest
    | .more .surrogate => .error ⟨lead, first, first, .continuation⟩
    | .more next => readUtf8 next lead first (position + 1) read rest
    | .refused =>
      if fresh then .error ⟨lead, first, first, .start⟩
      else .error ⟨lead, first, position - 1, .continuation⟩

def textOfUtf8 (bytes : List UInt8) : Except Utf8Failure (List Char) :=
  readUtf8 .between 0 0 0 [] bytes

/-! ### Text from a supply of bytes -/

/-- Bytes that can be taken one by one from any position on, up to an end past which there is
none. -/
structure ByteSupply (Failure : Type) where
  byteAt : Nat → Except Failure UInt8
  extent : Nat
  lt_extent : ∀ {position : Nat} {byte : UInt8}, byteAt position = .ok byte → position < extent

/-- How an attempt to read a text from a supply ends. -/
inductive TextOutcome (Failure : Type) where
  /-- The text, and the position behind its last byte. -/
  | text (characters : List Char) (next : Nat)
  /-- The byte before `next` cannot continue any text. -/
  | refused (next : Nat)
  /-- No byte could be taken at `position`. -/
  | failed (failure : Failure) (position : Nat)

/-- Takes bytes from `position` on until `count` characters are read, or up to the first NUL if no
count is given; `read` holds the characters so far, last one first. -/
def ByteSupply.readText {Failure : Type} (supply : ByteSupply Failure) (asciiOnly : Bool)
    (count : Option Nat) (state : Utf8State) (read : List Char) (position : Nat) :
    TextOutcome Failure :=
  if count = some 0 then
    .text read.reverse position
  else
    match _taken : supply.byteAt position with
    | .error failure => .failed failure position
    | .ok byte =>
      if asciiOnly && 0x80 ≤ byte then
        .refused (position + 1)
      else
        match state.step byte with
        | .refused => .refused (position + 1)
        | .more next => supply.readText asciiOnly count next read (position + 1)
        | .character character =>
          if count.isNone && character == '\x00' then
            .text read.reverse (position + 1)
          else
            supply.readText asciiOnly (count.map (· - 1)) .between (character :: read)
              (position + 1)
termination_by supply.extent - position
decreasing_by all_goals have := supply.lt_extent _taken; omega

/-- A text of `count` characters, or up to a NUL, that begins at `position`. -/
def ByteSupply.textAt {Failure : Type} (supply : ByteSupply Failure) (asciiOnly : Bool)
    (count : Option Nat) (position : Nat) : TextOutcome Failure :=
  supply.readText asciiOnly count .between [] position

/-- The bytes of an array, with one failure for every position past its end. -/
def ByteSupply.ofArray (bytes : Array UInt8) : ByteSupply Unit where
  byteAt position :=
    match bytes[position]? with
    | some byte => .ok byte
    | none => .error ()
  extent := bytes.size
  lt_extent := by
    intro position byte taken
    by_cases inside : position < bytes.size
    · exact inside
    · simp [Array.getElem?_eq_none (Nat.le_of_not_lt inside)] at taken

end HexEditor
