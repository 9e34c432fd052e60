/-
This file proves that reading undoes writing. What a user does at a terminal arrives as a
byte, or as an escape with a sequence behind it; a pause stands behind a sequence unless an
escape or the end of the input shows where it ends. If every sequence stays below the limit,
what was done is read again, one event after the other, and then the end of the input.

The induction is on what was done. Between two events nothing has been put back but the
escape that ended the last sequence, which belongs in front of the stream. A report is read
back as it was written unless one of its numbers has too many digits to be converted; that
one is read as a failure in its place, and nothing behind it is read.
-/

import HexEditor.Proofs.Input.Order
import HexEditor.Proofs.Number.Numeral

namespace HexEditor

/-! ### What a terminal sends -/

/-- The bytes of a text whose characters are bytes. -/
def textBytes (text : List Char) : List UInt8 := text.map fun character => UInt8.ofNat character.toNat

/-- Three numbers with semicolons between them, behind the mark of a protocol. -/
def reportText (mark : List Char) (first second third : Nat) (letter : Char) : List Char :=
  mark ++ (Radix.ten.plainText first ++ ';' :: (Radix.ten.plainText second ++ ';' ::
    (Radix.ten.plainText third ++ [letter])))

/-- What is sent behind an escape. Columns and rows count from zero; the older protocol has no mark
of its own for a release. -/
inductive TerminalSequence where
  | escape
  | key (start : List UInt8) (key : Key) (known : (start, key) ∈ sequenceKeys)
  | report (button column row : Nat) (pressed : Bool)
  | olderReport (code column row : Nat)

namespace TerminalSequence

/-- The numbers in a sequence as they are written, where columns and rows count from one. -/
def numbers : TerminalSequence → List Nat
  | escape => []
  | key .. => []
  | report button column row _ => [button, column + 1, row + 1]
  | olderReport code column row => [code, column + 1, row + 1]

def bytes : TerminalSequence → List UInt8
  | escape => []
  | key start .. => start
  | report button column row pressed =>
    textBytes (reportText ['[', '<'] button (column + 1) (row + 1) (if pressed then 'M' else 'm'))
  | olderReport code column row => textBytes (reportText ['['] code (column + 1) (row + 1) 'M')

def event : TerminalSequence → InputEvent
  | escape => .key .escape
  | key _ known _ => .key known
  | report button column row pressed => .pointer ⟨button, column, row, pressed⟩
  | olderReport code column row => .pointer ⟨code - 32, column, row, (code : Int) - 32 != 3⟩

/-- Whether a number has more digits than are converted. -/
def isTooLong (number : Nat) : Bool := literalDigitLimit < (Radix.ten.plainText number).length

/-- What is read for a sequence: the event it stands for, or the first number that is too long. -/
def reading (sequence : TerminalSequence) : Reading :=
  match sequence.numbers.find? isTooLong with
  | some number => .failed (.tooLong (Radix.ten.plainText number).length)
  | none => .event sequence.event

end TerminalSequence

/-- What a user does at a terminal: a byte is typed, or a sequence is sent behind an escape. -/
inductive TerminalEvent where
  | typed (byte : UInt8) (plain : byte ≠ escapeByte)
  | sent (sequence : TerminalSequence)

namespace TerminalEvent

def bytes : TerminalEvent → List UInt8
  | typed byte _ => [byte]
  | sent sequence => escapeByte :: sequence.bytes

def event : TerminalEvent → InputEvent
  | typed byte _ => .key (.ofByte byte)
  | sent sequence => sequence.event

def reading : TerminalEvent → Reading
  | typed byte _ => .event (.key (.ofByte byte))
  | sent sequence => sequence.reading

/-- What events are read as, up to the first that cannot be read or to the end of the input. -/
def readings : List TerminalEvent → List Reading
  | [] => [.pause]
  | event :: rest =>
    if event.reading.IsFailure then [event.reading] else event.reading :: readings rest

def hasEscape : TerminalEvent → Bool
  | typed .. => false
  | sent _ => true

/-- The sequence of an event, if it has one, is shorter than a limit. -/
def ShorterThan (limit : Int) : TerminalEvent → Prop
  | typed .. => True
  | sent sequence => (sequence.bytes.length : Int) < limit

/-- No number in an event has more digits than are converted. -/
def IsConvertible : TerminalEvent → Prop
  | typed .. => True
  | sent sequence => ∀ number ∈ sequence.numbers,
      (Radix.ten.plainText number).length ≤ literalDigitLimit

/-- The pause behind an event: there is one behind a sequence, unless the input ends there or goes
on with an escape. -/
def pause (event : TerminalEvent) : List TerminalEvent → List (Option UInt8)
  | [] => []
  | next :: _ => if event.hasEscape && !next.hasEscape then [none] else []

/-- The stream in which events arrive. -/
def encode : List TerminalEvent → List (Option UInt8)
  | [] => []
  | event :: rest => event.bytes.map some ++ (event.pause rest ++ encode rest)

end TerminalEvent

/-- A byte is followed by what was done next. -/
theorem TerminalEvent.encode_typed {byte : UInt8} (plain : byte ≠ escapeByte)
    (rest : List TerminalEvent) : encode (.typed byte plain :: rest) = some byte :: encode rest := by
  cases rest <;> rfl

theorem TerminalEvent.encode_sent (sequence : TerminalSequence) (rest : List TerminalEvent) :
    encode (.sent sequence :: rest) = some escapeByte ::
      (sequence.bytes.map some ++ (pause (.sent sequence) rest ++ encode rest)) := rfl

/-! ### Reports -/

/-- A character that is a byte other than a control character. -/
def IsPrintable (character : Char) : Prop := 0x20 < character.toNat ∧ character.toNat < 256

instance (character : Char) : Decidable (IsPrintable character) :=
  inferInstanceAs (Decidable (_ ∧ _))

theorem sequenceText_textBytes {text : List Char}
    (printable : ∀ character ∈ text, IsPrintable character) :
    sequenceText (textBytes text) = text := by
  rw [sequenceText, textBytes, List.map_map]
  refine (List.map_congr_left fun character member => ?_).trans (List.map_id text)
  have small := (printable character member).2
  simp only [Function.comp_apply, UInt8.toNat_ofNat', Nat.mod_eq_of_lt small, Char.ofNat_toNat, id]

theorem escape_notMem_textBytes {text : List Char}
    (printable : ∀ character ∈ text, IsPrintable character) : escapeByte ∉ textBytes text := by
  rw [textBytes, List.mem_map]
  rintro ⟨character, member, same⟩
  obtain ⟨above, small⟩ := printable character member
  have code := congrArg UInt8.toNat same
  rw [UInt8.toNat_ofNat', Nat.mod_eq_of_lt small] at code
  rw [code] at above
  exact absurd above (by decide)

theorem printable_reportText {mark : List Char} {first second third : Nat} {letter : Char}
    (printableMark : ∀ character ∈ mark, IsPrintable character)
    (printableLetter : IsPrintable letter) :
    ∀ character ∈ reportText mark first second third letter, IsPrintable character := by
  have number {value : Nat} {character : Char} (member : character ∈ Radix.ten.plainText value) :
      IsPrintable character := by
    have range := toNat_of_isAsciiDigit (isAsciiDigit_of_mem_plainText member)
    exact ⟨by omega, by omega⟩
  intro character member
  simp only [reportText, List.mem_append, List.mem_cons, List.not_mem_nil, or_false] at member
  rcases member with member | member | rfl | member | rfl | member | rfl
  · exact printableMark character member
  · exact number member
  · decide
  · exact number member
  · decide
  · exact number member
  · exact printableLetter

theorem leadingDigits_plainText (value : Nat) {next : Char} (other : isAsciiDigit next = false)
    (rest : List Char) :
    leadingDigits (Radix.ten.plainText value ++ next :: rest) =
      some (Radix.ten.plainText value, next :: rest) := by
  have digits : ∀ character ∈ Radix.ten.plainText value, isAsciiDigit character = true :=
    fun character member => isAsciiDigit_of_mem_plainText member
  rw [leadingDigits, List.takeWhile_append_of_pos digits, List.dropWhile_append_of_pos digits,
    List.takeWhile_cons_of_neg (by simp [other]), List.dropWhile_cons_of_neg (by simp [other]),
    List.append_nil]
  exact if_neg (by simpa using plainText_ne_nil value)

theorem threeRuns_reportText (first second third : Nat) {letter : Char}
    (other : isAsciiDigit letter = false) :
    threeRuns (reportText [] first second third letter) =
      some ([first, second, third].map Radix.ten.plainText, [letter]) := by
  have semicolon : isAsciiDigit ';' = false := rfl
  simp only [reportText, List.nil_append, threeRuns, List.map_cons, List.map_nil, Option.map_some,
    leadingDigits_plainText _ semicolon, leadingDigits_plainText third other]

/-- Written numbers are converted up to the first one that is too long. -/
theorem mapM_numberOfRun (numbers : List Nat) :
    (numbers.map Radix.ten.plainText).mapM numberOfRun =
      match numbers.find? TerminalSequence.isTooLong with
      | some number => .error (.tooLong (Radix.ten.plainText number).length)
      | none => .ok (numbers.map Int.ofNat) := by
  induction numbers with
  | nil => rfl
  | cons number numbers inductionHypothesis =>
    rw [List.map_cons, List.mapM_cons, inductionHypothesis, List.find?_cons, numberOfRun,
      decimalValue_plainText, TerminalSequence.isTooLong]
    by_cases long : literalDigitLimit < (Radix.ten.plainText number).length
    · rw [if_pos long, decide_eq_true long]
      rfl
    · rw [if_neg long, decide_eq_false long]
      cases numbers.find? TerminalSequence.isTooLong <;> rfl

theorem reportOf_plainText (bias : Int) (pressed : Int → Bool) (button column row : Nat) :
    reportOf bias pressed ([button, column + 1, row + 1].map Radix.ten.plainText) =
      match [button, column + 1, row + 1].find? TerminalSequence.isTooLong with
      | some number => .error (.tooLong (Radix.ten.plainText number).length)
      | none => .ok (some ⟨button - bias, column, row, pressed (button - bias)⟩) := by
  rw [reportOf, mapM_numberOfRun]
  split
  · rfl
  · have one (value : Nat) : Int.ofNat (value + 1) - 1 = value := by
      rw [Int.ofNat_eq_natCast, Nat.cast_succ, Int.add_sub_cancel]
    show Except.ok (some (PointerReport.mk _ _ _ _)) = _
    rw [one, one]
    rfl

/-- The report that is written in the newer protocol is the one that is read. -/
theorem pointerReport?_report (button column row : Nat) (pressed : Bool) :
    pointerReport? (reportText ['[', '<'] button (column + 1) (row + 1)
        (if pressed then 'M' else 'm')) =
      match [button, column + 1, row + 1].find? TerminalSequence.isTooLong with
      | some number => .error (.tooLong (Radix.ten.plainText number).length)
      | none => .ok (some ⟨button, column, row, pressed⟩) := by
  have letter : isAsciiDigit (if pressed then 'M' else 'm') = false := by cases pressed <;> rfl
  have marked : reportText ['[', '<'] button (column + 1) (row + 1) (if pressed then 'M' else 'm') =
      '[' :: '<' :: reportText [] button (column + 1) (row + 1) (if pressed then 'M' else 'm') := rfl
  have read := reportOf_plainText 0 (fun _ => pressed) button column row
  rw [Int.sub_zero] at read
  rw [marked, pointerReport?, threeRuns_reportText _ _ _ letter]
  cases pressed <;> exact read

theorem head_plainText_ne {value : Nat} {next : Char} {rest behind : List Char}
    (other : isAsciiDigit next = false) : Radix.ten.plainText value ++ rest ≠ next :: behind := by
  cases text : Radix.ten.plainText value with
  | nil => exact absurd text (plainText_ne_nil value)
  | cons digit digits =>
    rintro ⟨⟩
    have isDigit := isAsciiDigit_of_mem_plainText (text ▸ List.mem_cons_self)
    rw [other] at isDigit
    cases isDigit

/-- The report that is written in the older protocol is the one that is read. -/
theorem pointerReport?_olderReport (code column row : Nat) :
    pointerReport? (reportText ['['] code (column + 1) (row + 1) 'M') =
      match [code, column + 1, row + 1].find? TerminalSequence.isTooLong with
      | some number => .error (.tooLong (Radix.ten.plainText number).length)
      | none => .ok (some ⟨code - 32, column, row, (code : Int) - 32 != 3⟩) := by
  have runs : threeRuns (reportText [] code (column + 1) (row + 1) 'M') = _ :=
    threeRuns_reportText _ _ _ rfl
  rw [reportText, List.nil_append] at runs
  rw [reportText, List.singleton_append, pointerReport?, runs]
  · exact reportOf_plainText 32 (· != 3) code column row
  · intro rest
    exact head_plainText_ne rfl

/-! ### Sequences -/

namespace TerminalSequence

/-- A report that is written is read back, unless one of its numbers is too long. -/
theorem meaning_of_report {sequence : TerminalSequence} {text : List Char} {sent : PointerReport}
    (isReport : sequence.event = .pointer sent) (written : sequence.bytes = textBytes text)
    (printable : ∀ character ∈ text, IsPrintable character)
    (read : pointerReport? text =
      match sequence.numbers.find? isTooLong with
      | some number => .error (.tooLong (Radix.ten.plainText number).length)
      | none => .ok (some sent)) :
    SequenceMeaning sequence.bytes (some sequence.reading) [] := by
  rw [← sequenceText_textBytes printable, ← written] at read
  rw [reading]
  cases found : sequence.numbers.find? isTooLong with
  | some number =>
    rw [found] at read
    exact .unreadable read
  | none =>
    rw [found] at read
    dsimp only
    rw [isReport]
    exact .report read

theorem printable_report (button column row : Nat) (pressed : Bool) :
    ∀ character ∈ reportText ['[', '<'] button (column + 1) (row + 1) (if pressed then 'M' else 'm'),
      IsPrintable character := by
  refine printable_reportText (by simp [IsPrintable]) ?_
  cases pressed <;> decide

theorem printable_olderReport (code column row : Nat) :
    ∀ character ∈ reportText ['['] code (column + 1) (row + 1) 'M', IsPrintable character :=
  printable_reportText (by simp [IsPrintable]) (by decide)

/-- A sequence that is sent means what it was sent for, and nothing of it is left. -/
theorem meaning (sequence : TerminalSequence) :
    SequenceMeaning sequence.bytes (some sequence.reading) [] := by
  cases sequence with
  | escape => exact .escape
  | key start known member =>
    have whole : SequenceMeaning (start ++ []) (some (.event (.key known))) [] := .key member
    rw [List.append_nil] at whole
    exact whole
  | report button column row pressed =>
    exact meaning_of_report rfl rfl (printable_report button column row pressed)
      (pointerReport?_report button column row pressed)
  | olderReport code column row =>
    exact meaning_of_report rfl rfl (printable_olderReport code column row)
      (pointerReport?_olderReport code column row)

theorem escape_notMem_bytes (sequence : TerminalSequence) : escapeByte ∉ sequence.bytes := by
  cases sequence with
  | escape => exact List.not_mem_nil
  | key start known member =>
    have all : ∀ entry ∈ sequenceKeys, escapeByte ∉ entry.1 := by decide
    exact all _ member
  | report button column row pressed =>
    exact escape_notMem_textBytes (printable_report button column row pressed)
  | olderReport code column row =>
    exact escape_notMem_textBytes (printable_olderReport code column row)

end TerminalSequence

/-! ### Reading what was sent -/

namespace Input

/-- Bytes of a sequence are taken from the stream one after the other. -/
theorem takeSequence_append (limit : Int) {sequence : List UInt8} (plain : escapeByte ∉ sequence)
    (count : Nat) (behind : List (Option UInt8)) :
    ∀ read : List UInt8,
      takeSequence read (sequence.length + count) ⟨[], sequence.map some ++ behind, limit⟩ =
        takeSequence (sequence.reverse ++ read) count ⟨[], behind, limit⟩ := by
  induction sequence with
  | nil => simp
  | cons byte sequence inductionHypothesis =>
    intro read
    rw [List.mem_cons, not_or] at plain
    rw [List.length_cons, Nat.succ_add, List.map_cons, List.cons_append, takeSequence, take]
    dsimp only
    rw [if_neg (Ne.symm plain.1), inductionHypothesis plain.2, List.reverse_cons, List.append_assoc]
    rfl

/-- What is still to be read are some events. Nothing has been put back, unless the escape of the
first of them ended a sequence. -/
structure Awaits (input : Input) (events : List TerminalEvent) : Prop where
  pending : input.pending = [] ∨ input.pending = [escapeByte]
  whole : input.pending.map some ++ input.stream = TerminalEvent.encode events

/-- The first byte is taken, wherever it stands, and nothing that was put back is left. -/
theorem Awaits.take_eq {input : Input} {events : List TerminalEvent} (awaits : input.Awaits events)
    {byte : UInt8} {behind : List (Option UInt8)}
    (begins : TerminalEvent.encode events = some byte :: behind) :
    input.take = (some byte, ⟨[], behind, input.limit⟩) := by
  obtain ⟨pending, stream, limit⟩ := input
  obtain ⟨nothing | escape, whole⟩ := awaits
  · dsimp only at nothing whole
    subst nothing
    rw [begins, List.map_nil, List.nil_append] at whole
    subst whole
    rfl
  · dsimp only at escape whole
    subst escape
    rw [begins] at whole
    cases whole
    rfl

/-- A sequence that is not too long is taken as a whole, and the events behind it are awaited. -/
theorem takeSequence_sent {limit : Int} {sequence : TerminalSequence}
    (short : TerminalEvent.ShorterThan limit (.sent sequence)) (rest : List TerminalEvent) :
    ∃ next : Input, next.limit = limit ∧ next.Awaits rest ∧
      takeSequence [] limit.toNat
          ⟨[], sequence.bytes.map some ++
            (TerminalEvent.pause (.sent sequence) rest ++ TerminalEvent.encode rest), limit⟩ =
        (sequence.bytes, next) := by
  have enough : (sequence.bytes.length : Int) < limit := short
  obtain ⟨more, bound⟩ : ∃ more, limit.toNat = sequence.bytes.length + (more + 1) :=
    ⟨limit.toNat - sequence.bytes.length - 1, by omega⟩
  rw [bound, takeSequence_append limit sequence.escape_notMem_bytes, takeSequence]
  cases rest with
  | nil => exact ⟨⟨[], [], limit⟩, rfl, ⟨.inl rfl, rfl⟩, by simp [TerminalEvent.pause,
      TerminalEvent.encode, take]⟩
  | cons next rest =>
    cases next with
    | typed byte plain =>
      exact ⟨⟨[], TerminalEvent.encode (.typed byte plain :: rest), limit⟩, rfl, ⟨.inl rfl, rfl⟩,
        by simp [TerminalEvent.pause, TerminalEvent.hasEscape, take]⟩
    | sent next =>
      refine ⟨⟨[escapeByte], next.bytes.map some ++ (TerminalEvent.pause (.sent next) rest ++
        TerminalEvent.encode rest), limit⟩, rfl, ⟨.inr rfl, rfl⟩, ?_⟩
      simp [TerminalEvent.pause, TerminalEvent.hasEscape, TerminalEvent.encode,
        TerminalEvent.bytes, take]

/-- What was sent is read, one event after the other, and then the end of the input. -/
theorem Awaits.readings_eq {limit : Int} {events : List TerminalEvent}
    (short : ∀ event ∈ events, event.ShorterThan limit) {input : Input}
    (same : input.limit = limit) (awaits : input.Awaits events) :
    input.readings = TerminalEvent.readings events := by
  induction events generalizing input with
  | nil =>
    obtain ⟨pending, stream, inputLimit⟩ := input
    obtain ⟨nothing, ended⟩ := List.append_eq_nil_iff.1 awaits.whole
    cases List.map_eq_nil_iff.1 nothing
    cases ended
    exact readings_empty inputLimit
  | cons event rest inductionHypothesis =>
    have shortRest : ∀ event ∈ rest, event.ShorterThan limit :=
      fun other member => short other (List.mem_cons_of_mem _ member)
    have shortFirst := short event List.mem_cons_self
    subst same
    cases event with
    | typed byte plain =>
      have taken := awaits.take_eq (TerminalEvent.encode_typed plain rest)
      have others : readings ⟨[], TerminalEvent.encode rest, input.limit⟩ = _ :=
        inductionHypothesis shortRest rfl ⟨.inl rfl, rfl⟩
      rw [readings_plain taken plain, others, TerminalEvent.readings]
      exact (if_neg not_false).symm
    | sent sequence =>
      obtain ⟨next, sameLimit, awaitsNext, taken⟩ := takeSequence_sent shortFirst rest
      have opened := awaits.take_eq (TerminalEvent.encode_sent sequence rest)
      have outcome := sequenceMeaning_iff.1 sequence.meaning
      have same : (TerminalEvent.sent sequence).reading = sequence.reading := rfl
      rw [TerminalEvent.readings, same]
      split_ifs with failed
      · exact readings_escape_of_failure opened taken outcome failed
      · have nothing : next.putBack [] = next := by simp [putBack]
        rw [readings_escape opened taken outcome (by simpa using failed), nothing,
          inductionHypothesis shortRest sameLimit awaitsNext]
        rfl

theorem readings_encode {limit : Int} {events : List TerminalEvent}
    (short : ∀ event ∈ events, event.ShorterThan limit) :
    readings { stream := TerminalEvent.encode events, limit } = TerminalEvent.readings events :=
  Awaits.readings_eq short rfl ⟨.inl rfl, rfl⟩

end Input

/-! ### Numbers that are too long -/

namespace TerminalEvent

/-- An event is read as itself if its numbers are not too long, and only then. -/
theorem reading_eq_iff (event : TerminalEvent) :
    event.reading = .event event.event ↔ event.IsConvertible := by
  cases event with
  | typed => exact iff_of_true rfl trivial
  | sent sequence =>
    have none_iff : sequence.numbers.find? TerminalSequence.isTooLong = none ↔
        IsConvertible (.sent sequence) := by
      rw [List.find?_eq_none, IsConvertible]
      simp only [TerminalSequence.isTooLong, decide_eq_true_iff, not_lt]
    rw [← none_iff]
    show sequence.reading = .event sequence.event ↔ _
    rw [TerminalSequence.reading]
    cases sequence.numbers.find? TerminalSequence.isTooLong with
    | none => exact iff_of_true rfl rfl
    | some number => exact iff_of_false (by simp) (by simp)

/-- Events are read as themselves up to the end of the input if no number in them is too long, and
only then. -/
theorem readings_eq_iff (events : List TerminalEvent) :
    readings events = events.map (fun event => .event event.event) ++ [.pause] ↔
      ∀ event ∈ events, event.IsConvertible := by
  induction events with
  | nil => simp [readings]
  | cons event rest inductionHypothesis =>
    rw [readings, List.map_cons, List.cons_append, List.forall_mem_cons, ← inductionHypothesis,
      ← event.reading_eq_iff]
    split_ifs with failed
    · refine iff_of_false ?_ ?_
      · simp
      · rintro ⟨itself, -⟩
        rw [itself] at failed
        exact failed
    · exact List.cons_eq_cons

end TerminalEvent

/-- A number takes no more digits than the report that it is written in has bytes. -/
theorem length_plainText_le_reportText {first second third number : Nat} (mark : List Char)
    (letter : Char) (member : number ∈ [first, second, third]) :
    (Radix.ten.plainText number).length ≤
      (textBytes (reportText mark first second third letter)).length := by
  simp only [textBytes, reportText, List.length_map, List.length_append, List.length_cons,
    List.length_nil]
  simp only [List.mem_cons, List.not_mem_nil, or_false] at member
  rcases member with rfl | rfl | rfl <;> omega

theorem TerminalSequence.length_plainText_le {sequence : TerminalSequence} {number : Nat}
    (member : number ∈ sequence.numbers) :
    (Radix.ten.plainText number).length ≤ sequence.bytes.length := by
  cases sequence with
  | escape => cases member
  | key => cases member
  | report => exact length_plainText_le_reportText _ _ member
  | olderReport => exact length_plainText_le_reportText _ _ member

/-- Below a limit that is small enough no number is too long. -/
theorem TerminalEvent.isConvertible_of_shorterThan {limit : Int} {event : TerminalEvent}
    (small : limit ≤ literalDigitLimit) (short : event.ShorterThan limit) :
    event.IsConvertible := by
  cases event with
  | typed => trivial
  | sent sequence =>
    intro number member
    have within := TerminalSequence.length_plainText_le member
    have below : (sequence.bytes.length : Int) < limit := short
    omega

/-- What was done at a terminal is read again, each event as itself and then the end of the input,
if no number in it is too long to be converted, and only then. Under the usual limit for sequences,
and well above it, no number is. -/
theorem Input.readings_encode_iff {limit : Int} {events : List TerminalEvent}
    (short : ∀ event ∈ events, event.ShorterThan limit) :
    (readings { stream := TerminalEvent.encode events, limit } =
        events.map (fun event => .event event.event) ++ [.pause] ↔
      ∀ event ∈ events, event.IsConvertible) ∧
    (limit ≤ literalDigitLimit → ∀ event ∈ events, event.IsConvertible) := by
  constructor
  · rw [readings_encode short]
    exact TerminalEvent.readings_eq_iff events
  · intro small event member
    exact event.isConvertible_of_shorterThan small (short event member)

instance (limit : Int) : (event : TerminalEvent) → Decidable (event.ShorterThan limit)
  | .typed .. => inferInstanceAs (Decidable True)
  | .sent sequence => inferInstanceAs (Decidable ((sequence.bytes.length : Int) < limit))

/-- A letter between two escapes, the key that scrolls, a press and a release of the mouse, the
wheel in the older protocol, and a line break. -/
def mixedEvents : List TerminalEvent :=
  [.sent .escape, .typed 0x68 (by decide), .sent .escape,
    .sent (.key (utf8Bytes "[5~".toList) .pageUp (by decide)), .sent (.report 0 19 2 true),
    .sent (.report 0 19 2 false), .sent (.olderReport 96 0 0), .typed 0x0A (by decide)]

theorem Input.readings_encode_iff_mixed :
    (∀ event ∈ mixedEvents, event.ShorterThan 256) ∧
      readings { stream := TerminalEvent.encode mixedEvents, limit := 256 } =
        [.event (.key .escape), .event (.key (.char 'h')), .event (.key .escape),
          .event (.key .pageUp), .event (.pointer ⟨0, 19, 2, true⟩),
          .event (.pointer ⟨0, 19, 2, false⟩), .event (.pointer ⟨64, 0, 0, true⟩),
          .event (.key .enter), .pause] := by
  have short : ∀ event ∈ mixedEvents, event.ShorterThan 256 := by decide +kernel
  have read := Input.readings_encode_iff short
  exact ⟨short, read.1.2 (read.2 (by decide))⟩

/-- A press of the mouse at a column that, counted from one, is a power of ten. -/
def farPress (power : Nat) : TerminalSequence := .report 0 (10 ^ power - 1) 0 true

theorem column_farPress (power : Nat) : 10 ^ power - 1 + 1 = 10 ^ power :=
  Nat.sub_add_cancel (Nat.one_le_pow power 10 (by decide))

theorem numbers_farPress (power : Nat) : (farPress power).numbers = [0, 10 ^ power, 1] := by
  rw [farPress, TerminalSequence.numbers, column_farPress]

theorem length_farPress {power : Nat} (positive : power ≠ 0) :
    (farPress power).bytes.length = power + 8 := by
  have column := length_plainText_pow positive
  have ends : (Radix.ten.plainText 0).length = 1 ∧ (Radix.ten.plainText 1).length = 1 := by
    decide +kernel
  simp only [farPress, TerminalSequence.bytes, column_farPress, textBytes, reportText,
    List.length_map, List.length_append, List.length_cons, List.length_nil, column,
    ends]
  omega

theorem reading_farPress : (farPress literalDigitLimit).reading = .failed (.tooLong 4301) := by
  have column : (Radix.ten.plainText (10 ^ literalDigitLimit)).length = literalDigitLimit + 1 :=
    length_plainText_pow (by decide)
  have first : TerminalSequence.isTooLong 0 = false := by decide +kernel
  have second : TerminalSequence.isTooLong (10 ^ literalDigitLimit) = true := by
    rw [TerminalSequence.isTooLong, column]
    exact decide_eq_true (Nat.lt_succ_self _)
  rw [TerminalSequence.reading, numbers_farPress, List.find?_cons_of_neg (by simp [first]),
    List.find?_cons_of_pos second]
  dsimp only
  rw [column, literalDigitLimit]

/-- A press of the mouse is not read as such if its column has one digit more than is converted,
though its sequence is below the limit; the reading ends there. -/
theorem Input.readings_encode_farPress :
    TerminalEvent.ShorterThan 5000 (.sent (farPress literalDigitLimit)) ∧
      readings { stream := TerminalEvent.encode [.sent (farPress literalDigitLimit)], limit := 5000 } =
        [.failed (.tooLong 4301)] ∧
      readings { stream := TerminalEvent.encode [.sent (farPress literalDigitLimit)], limit := 5000 } ≠
        [.event (farPress literalDigitLimit).event, .pause] := by
  have short : TerminalEvent.ShorterThan 5000 (.sent (farPress literalDigitLimit)) := by
    rw [TerminalEvent.ShorterThan, length_farPress (by decide), literalDigitLimit]
    decide
  have all : ∀ event ∈ [TerminalEvent.sent (farPress literalDigitLimit)], event.ShorterThan 5000 := by
    simpa using short
  have read := readings_encode all
  have same : (TerminalEvent.sent (farPress literalDigitLimit)).reading = .failed (.tooLong 4301) :=
    reading_farPress
  rw [TerminalEvent.readings, same, if_pos (by trivial)] at read
  rw [read]
  exact ⟨short, rfl, by simp⟩

end HexEditor
