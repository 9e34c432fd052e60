/-
Input from a terminal. A byte other than escape is a key. An escape opens a sequence,
which takes the bytes up to the next escape, to a pause or the end, or up to a limit.
An empty sequence is the escape key itself; a mouse report is one as a whole; and a
sequence that begins like a known key is that key, after which the rest of it is put
back to be read again. Any other sequence is dropped. A report with a number too long
to be converted is no event, but it is not passed over either: it ends the reading.
Whatever is read takes bytes off the input for good, so that the input is used up in
the end.
-/

import HexEditor.Input.Key
import HexEditor.Number.Literal
import HexEditor.Window.Pointing

namespace HexEditor

/-- Something the user did. -/
inductive InputEvent where
  | key (key : Key)
  | pointer (report : PointerReport)
  deriving DecidableEq, Repr

def escapeByte : UInt8 := 0x1B

/-! ### Mouse reports -/

/-- The decimal digits of ASCII at the start of a text, of which there has to be one. -/
def leadingDigits (text : List Char) : Option (List Char × List Char) :=
  let digits := text.takeWhile isAsciiDigit
  if digits.isEmpty then none else some (digits, text.dropWhile isAsciiDigit)

/-- Three runs of digits with semicolons between them at the start of a text. -/
def threeRuns (text : List Char) : Option (List (List Char) × List Char) :=
  match leadingDigits text with
  | some (first, ';' :: text) =>
    match leadingDigits text with
    | some (second, ';' :: text) =>
      (leadingDigits text).map fun (third, rest) => ([first, second, third], rest)
    | _ => none
  | _ => none

/-- The number that a run of digits spells, unless there are too many of them. -/
def numberOfRun (digits : List Char) : Except LiteralFailure Int :=
  if literalDigitLimit < digits.length then .error (.tooLong digits.length)
  else .ok (decimalValue digits : Nat)

/-- The report that three runs of digits make, the first of which counts from `bias`. -/
def reportOf (bias : Int) (pressed : Int → Bool) (runs : List (List Char)) :
    Except LiteralFailure (Option PointerReport) :=
  (runs.mapM numberOfRun).map fun
    | [button, column, row] =>
      some ⟨button - bias, column - 1, row - 1, pressed (button - bias)⟩
    | _ => none

/-- Whether nothing but a line break is left. -/
def isOver (text : List Char) : Bool := text == [] || text == ['\n']

/-- The report that a sequence spells, in either of two protocols. In the newer one the final
letter tells a press from a release; in the older one buttons count from thirty-two, and the
fourth one stands for any release. -/
def pointerReport? (sequence : List Char) : Except LiteralFailure (Option PointerReport) :=
  match sequence with
  | '[' :: '<' :: text =>
    match threeRuns text with
    | some (runs, letter :: rest) =>
      if (letter == 'M' || letter == 'm') && isOver rest then
        reportOf 0 (fun _ => letter == 'M') runs
      else
        .ok none
    | _ => .ok none
  | '[' :: text =>
    match threeRuns text with
    | some (runs, 'M' :: rest) =>
      if isOver rest then reportOf 32 (· != 3) runs else .ok none
    | _ => .ok none
  | _ => .ok none

/-! ### Sequences -/

/-- The sequences of keys, longer ones before those they begin with. -/
def sequenceKeys : List (List UInt8 × Key) :=
  [("[1;5F", .controlFinish), ("[1;5H", .controlHome), ("[5~", .pageUp), ("[6~", .pageDown),
   ("[A", .up), ("[B", .down), ("[C", .right), ("[D", .left), ("[F", .finish), ("[H", .home)].map
    fun (text, key) => (utf8Bytes text.toList, key)

/-- The key that a sequence begins with, and the rest of the sequence. -/
def sequenceKey? (sequence : List UInt8) : Option (Key × List UInt8) :=
  sequenceKeys.findSome? fun (start, key) =>
    if start.isPrefixOf sequence then some (key, sequence.drop start.length) else none

/-- The event that a sequence stands for, and the bytes of it that are to be read again. -/
def sequenceEvent? (sequence : List UInt8) :
    Except LiteralFailure (Option (InputEvent × List UInt8)) :=
  if sequence.isEmpty then
    .ok (some (.key .escape, []))
  else
    match pointerReport? (sequence.map fun byte => Char.ofNat byte.toNat) with
    | .error failure => .error failure
    | .ok (some report) => .ok (some (.pointer report, []))
    | .ok none => .ok ((sequenceKey? sequence).map fun (key, rest) => (.key key, rest))

/-! ### Reading -/

/-- What reading up to the next event comes to. -/
inductive Reading where
  | event (event : InputEvent)
  /-- The input pauses or ends where an event would begin. -/
  | pause
  /-- A mouse report holds a number that is too long. -/
  | failed (failure : LiteralFailure)
  deriving DecidableEq, Repr

/-- That nothing could be made of what was read. -/
def Reading.IsFailure : Reading → Prop
  | .failed _ => True
  | .event _ | .pause => False

instance : (reading : Reading) → Decidable reading.IsFailure
  | .failed _ => inferInstanceAs (Decidable True)
  | .event _ | .pause => inferInstanceAs (Decidable False)

/-- Input that is still to come: bytes that were put back, then the stream, in which `none` is a
pause. Behind the stream there are only pauses. -/
structure Input where
  pending : List UInt8 := []
  stream : List (Option UInt8)
  /-- The largest number of bytes in a sequence. -/
  limit : Int := 256
  deriving DecidableEq, Repr

namespace Input

def size (input : Input) : Nat := input.pending.length + input.stream.length

def take (input : Input) : Option UInt8 × Input :=
  match input.pending with
  | byte :: rest => (some byte, { input with pending := rest })
  | [] =>
    match input.stream with
    | item :: rest => (item, { input with stream := rest })
    | [] => (none, input)

/-- Puts bytes back behind those that were put back before. -/
def putBack (input : Input) (bytes : List UInt8) : Input :=
  { input with pending := input.pending ++ bytes }

/-- Takes the bytes of a sequence, up to `limit` more of them; an escape that ends it is put back
in front of everything. -/
def takeSequence (read : List UInt8) : Nat → Input → List UInt8 × Input
  | 0, input => (read.reverse, input)
  | limit + 1, input =>
    match input.take with
    | (none, rest) => (read.reverse, rest)
    | (some byte, rest) =>
      if byte = escapeByte then
        (read.reverse, { rest with pending := byte :: rest.pending })
      else
        takeSequence (byte :: read) limit rest

/-! ### Progress -/

theorem size_take_some {input rest : Input} {byte : UInt8}
    (taken : input.take = (some byte, rest)) :
    rest.size + 1 = input.size := by
  unfold take at taken
  split at taken
  · next found => cases taken; simp [size, found]; omega
  · split at taken
    · next found => cases taken; simp [size, *]
    · cases taken

/-- Taking a pause adds nothing, and takes something off an input that is not used up. -/
theorem size_take_none {input rest : Input} (taken : input.take = (none, rest)) :
    rest.size = input.size - 1 := by
  unfold take at taken
  split at taken
  · cases taken
  · split at taken
    · next found => cases taken; simp [size, *]
    · cases taken; simp [size, *]

/-- A sequence and what is left of the input are no more than there was. -/
theorem size_takeSequence (limit : Nat) :
    ∀ (read : List UInt8) (input : Input),
      (takeSequence read limit input).1.length + (takeSequence read limit input).2.size ≤
        read.length + input.size := by
  induction limit with
  | zero => intro read input; simp [takeSequence]
  | succ limit inductionHypothesis =>
    intro read input
    unfold takeSequence
    split
    · next rest taken => have := size_take_none taken; simp; omega
    · next byte rest taken =>
      have smaller := size_take_some taken
      split
      · simp [size] at smaller ⊢; omega
      · have := inductionHypothesis (byte :: read) rest
        simp at this
        omega

/-- The bytes of a sequence that are to be read again are not more than the sequence. -/
theorem length_of_sequenceEvent? {sequence rest : List UInt8} {event : InputEvent}
    (found : sequenceEvent? sequence = .ok (some (event, rest))) :
    rest.length ≤ sequence.length := by
  unfold sequenceEvent? at found
  split at found
  · cases found; simp
  · split at found
    · cases found
    · cases found; simp
    · simp only [sequenceKey?, Except.ok.injEq, Option.map_eq_some_iff, Prod.mk.injEq] at found
      obtain ⟨⟨key, left⟩, member, -, rfl⟩ := found
      obtain ⟨⟨start, other⟩, -, chosen⟩ := List.exists_of_findSome?_eq_some member
      split at chosen
      · cases chosen; simp
      · cases chosen

def nextEvent (input : Input) : Reading × Input :=
  match _taken : input.take with
  | (none, rest) => (.pause, rest)
  | (some byte, rest) =>
    if byte = escapeByte then
      let sequence := takeSequence [] rest.limit.toNat rest
      match sequenceEvent? sequence.1 with
      | .ok (some (event, left)) => (.event event, sequence.2.putBack left)
      | .ok none => nextEvent sequence.2
      | .error failure => (.failed failure, sequence.2)
    else
      (.event (.key (.ofByte byte)), rest)
termination_by input.size
decreasing_by
  have smaller := size_take_some _taken
  have := size_takeSequence rest.limit.toNat [] rest
  simp at this
  omega

/-- Reading takes something off the input unless it is used up, and then there is a pause. -/
theorem size_nextEvent (input : Input) :
    input.nextEvent.2.size ≤ input.size - 1 ∧ (input.size = 0 → input.nextEvent.1 = .pause) := by
  fun_induction nextEvent input with
  | case1 input rest taken => exact ⟨Nat.le_of_eq (size_take_none taken), fun _ => rfl⟩
  | case2 input rest sequence event left found taken =>
    have smaller := size_take_some taken
    have whole : sequence.1.length + sequence.2.size ≤ 0 + rest.size :=
      size_takeSequence rest.limit.toNat [] rest
    have part := length_of_sequenceEvent? found
    refine ⟨?_, fun empty => by omega⟩
    simp only [putBack, size, List.length_append] at whole smaller ⊢
    omega
  | case3 input rest sequence found taken inductionHypothesis =>
    have smaller := size_take_some taken
    have whole : sequence.1.length + sequence.2.size ≤ 0 + rest.size :=
      size_takeSequence rest.limit.toNat [] rest
    exact ⟨by omega, fun empty => by omega⟩
  | case4 input rest sequence failure found taken =>
    have smaller := size_take_some taken
    have whole : sequence.1.length + sequence.2.size ≤ 0 + rest.size :=
      size_takeSequence rest.limit.toNat [] rest
    exact ⟨by simp only; omega, fun empty => by omega⟩
  | case5 input byte rest taken plain =>
    have smaller := size_take_some taken
    exact ⟨by simp; omega, fun empty => by omega⟩

/-- All that reading an input comes to: up to the pause at its end, or up to a report that cannot be
read, which ends the reading. -/
def readings (input : Input) : List Reading :=
  let next := input.nextEvent
  if next.1.IsFailure ∨ next.2.size = 0 ∧ next.1 = .pause then
    [next.1]
  else
    next.1 :: readings next.2
termination_by input.size
decreasing_by
  next goesOn =>
    have progress := size_nextEvent input
    have bound : next.2.size ≤ input.size - 1 := progress.1
    by_cases empty : input.size = 0
    · exact absurd (.inr ⟨by omega, progress.2 empty⟩) goesOn
    · omega

end Input

end HexEditor
