/-
This file states in which order input is to be read, and proves that it is read so.

Read from left to right, a byte other than escape is a key, and an escape opens a
sequence, which reaches up to the next escape, to the end of the input or up to the
limit. What is left of the sequence of a key comes next, in front of all that stands
behind the sequence; behind a report that cannot be read nothing comes. The input
keeps to this order as long as no sequence goes on behind its key up to another
escape: that escape has been put back by then, and the rest of the sequence goes
behind it. All that was put back is therefore either one escape or bytes among which
there is none, and this is what carries the induction.
-/

import HexEditor.Input.Event
import Mathlib.Data.List.Infix
import Mathlib.Data.List.TakeWhile
import Mathlib.Tactic.SplitIfs

namespace HexEditor

/-! ### The order of reading -/

/-- The sequence that an escape opens in front of some bytes. -/
def sequenceBytes (limit : Nat) (bytes : List UInt8) : List UInt8 :=
  (bytes.takeWhile (· != escapeByte)).take limit

/-- The text of a sequence, each byte of which is a character. -/
def sequenceText (sequence : List UInt8) : List Char :=
  sequence.map fun byte => Char.ofNat byte.toNat

/-- What there is to read in a sequence, if anything, and the bytes of it that are to be read
next. A mouse report with a number that is too long is the one thing that is read but no event. -/
inductive SequenceMeaning : List UInt8 → Option Reading → List UInt8 → Prop where
  | escape : SequenceMeaning [] (some (.event (.key .escape))) []
  | report {sequence : List UInt8} {report : PointerReport}
      (spelled : pointerReport? (sequenceText sequence) = .ok (some report)) :
      SequenceMeaning sequence (some (.event (.pointer report))) []
  | unreadable {sequence : List UInt8} {failure : LiteralFailure}
      (spelled : pointerReport? (sequenceText sequence) = .error failure) :
      SequenceMeaning sequence (some (.failed failure)) []
  | key {start left : List UInt8} {key : Key} (known : (start, key) ∈ sequenceKeys) :
      SequenceMeaning (start ++ left) (some (.event (.key key))) left
  | unknown {sequence : List UInt8} (opened : sequence ≠ [])
      (noReport : pointerReport? (sequenceText sequence) = .ok none)
      (noKey : ∀ entry ∈ sequenceKeys, ¬ entry.1 <+: sequence) :
      SequenceMeaning sequence none []

/-- Some bytes, read strictly from left to right, come to some readings. -/
inductive ReadInOrder (limit : Nat) : List UInt8 → List Reading → Prop where
  | finish : ReadInOrder limit [] [.pause]
  | key {byte : UInt8} {bytes : List UInt8} {readings : List Reading}
      (plain : byte ≠ escapeByte) (behind : ReadInOrder limit bytes readings) :
      ReadInOrder limit (byte :: bytes) (.event (.key (.ofByte byte)) :: readings)
  | sequence {bytes left : List UInt8} {first : Option Reading} {readings : List Reading}
      (meaning : SequenceMeaning (sequenceBytes limit bytes) first left)
      (readable : ∀ reading ∈ first, ¬ reading.IsFailure)
      (behind :
        ReadInOrder limit (left ++ bytes.drop (sequenceBytes limit bytes).length) readings) :
      ReadInOrder limit (escapeByte :: bytes) (first.toList ++ readings)
  | unreadable {bytes left : List UInt8} {reading : Reading}
      (meaning : SequenceMeaning (sequenceBytes limit bytes) (some reading) left)
      (failed : reading.IsFailure) :
      ReadInOrder limit (escapeByte :: bytes) [reading]

/-- Some bytes open a sequence that begins with a key, goes on behind it, and is ended by an
escape. -/
def InterruptedHere (limit : Nat) (bytes : List UInt8) : Prop :=
  bytes.head? = some escapeByte ∧
    (sequenceBytes limit bytes.tail).length < min limit bytes.tail.length ∧
    ∃ entry ∈ sequenceKeys,
      entry.1 <+: sequenceBytes limit bytes.tail ∧ entry.1 ≠ sequenceBytes limit bytes.tail

/-- Somewhere in some bytes a sequence goes on behind its key up to another escape. -/
def Interrupted (limit : Nat) (bytes : List UInt8) : Prop :=
  ∃ tail ∈ bytes.tails, InterruptedHere limit tail

instance (limit : Nat) (bytes : List UInt8) : Decidable (InterruptedHere limit bytes) :=
  inferInstanceAs (Decidable (_ ∧ _ ∧ ∃ entry ∈ sequenceKeys, _))

instance (limit : Nat) (bytes : List UInt8) : Decidable (Interrupted limit bytes) :=
  inferInstanceAs (Decidable (∃ tail ∈ bytes.tails, _))

/-! ### The meaning of a sequence -/

/-- No sequence of a key begins like that of another key. -/
theorem eq_of_sequenceKeys {sequence : List UInt8} {one other : List UInt8 × Key}
    (known : one ∈ sequenceKeys) (otherKnown : other ∈ sequenceKeys)
    (begins : one.1 <+: sequence) (otherBegins : other.1 <+: sequence) : one = other := by
  have apart : ∀ one ∈ sequenceKeys, ∀ other ∈ sequenceKeys, one.1 <+: other.1 → one = other := by
    decide
  rcases List.prefix_or_prefix_of_prefix begins otherBegins with within | within
  · exact apart one known other otherKnown within
  · exact (apart other otherKnown one known within).symm

/-- A sequence that begins with a key is no mouse report. -/
theorem pointerReport?_of_key {start left : List UInt8} {key : Key}
    (known : (start, key) ∈ sequenceKeys) :
    pointerReport? (sequenceText (start ++ left)) = .ok none := by
  simp only [sequenceKeys, List.map_cons, List.map_nil, List.mem_cons, List.not_mem_nil,
    or_false, Prod.mk.injEq] at known
  rcases known with ⟨rfl, -⟩ | ⟨rfl, -⟩ | ⟨rfl, -⟩ | ⟨rfl, -⟩ | ⟨rfl, -⟩ | ⟨rfl, -⟩ | ⟨rfl, -⟩ |
    ⟨rfl, -⟩ | ⟨rfl, -⟩ | ⟨rfl, -⟩ <;> rfl

/-- A sequence in which a key is found begins with it. -/
theorem append_of_sequenceKey? {sequence left : List UInt8} {key : Key}
    (found : sequenceKey? sequence = some (key, left)) :
    ∃ start, (start, key) ∈ sequenceKeys ∧ start ++ left = sequence := by
  obtain ⟨⟨start, other⟩, member, taken⟩ := List.exists_of_findSome?_eq_some found
  dsimp only at taken
  split_ifs at taken with begins
  obtain ⟨rest, rfl⟩ := List.isPrefixOf_iff_prefix.mp begins
  cases taken
  exact ⟨start, member, by rw [List.drop_left]⟩

theorem sequenceKey?_append {start left : List UInt8} {key : Key}
    (known : (start, key) ∈ sequenceKeys) : sequenceKey? (start ++ left) = some (key, left) := by
  cases found : sequenceKey? (start ++ left) with
  | none =>
    rw [sequenceKey?, List.findSome?_eq_none_iff] at found
    have refused := found (start, key) known
    simp at refused
  | some chosen =>
    obtain ⟨begun, member, same⟩ := append_of_sequenceKey? found
    have here : (begun, chosen.1) = (start, key) :=
      eq_of_sequenceKeys member known ⟨chosen.2, same⟩ ⟨left, rfl⟩
    cases here
    rw [← List.append_cancel_left same]

theorem sequenceKey?_eq_none {sequence : List UInt8}
    (noKey : ∀ entry ∈ sequenceKeys, ¬ entry.1 <+: sequence) : sequenceKey? sequence = none := by
  rw [sequenceKey?, List.findSome?_eq_none_iff]
  intro entry member
  exact if_neg fun begins => noKey entry member (List.isPrefixOf_iff_prefix.mp begins)

/-- What the input makes of a sequence: what is read, and the bytes that are put back. -/
def sequenceOutcome (sequence : List UInt8) : Option Reading × List UInt8 :=
  match sequenceEvent? sequence with
  | .ok (some (event, left)) => (some (.event event), left)
  | .ok none => (none, [])
  | .error failure => (some (.failed failure), [])

theorem sequenceEvent?_of_ne_nil {sequence : List UInt8} (opened : sequence ≠ []) :
    sequenceEvent? sequence =
      match pointerReport? (sequenceText sequence) with
      | .error failure => .error failure
      | .ok (some report) => .ok (some (.pointer report, []))
      | .ok none => .ok ((sequenceKey? sequence).map fun (key, rest) => (.key key, rest)) := by
  rw [sequenceEvent?, if_neg (by simpa using opened)]
  rfl

theorem sequenceEvent?_of_key {start left : List UInt8} {key : Key}
    (known : (start, key) ∈ sequenceKeys) :
    sequenceEvent? (start ++ left) = .ok (some (.key key, left)) := by
  have begun : start ≠ [] := by
    have all : ∀ entry ∈ sequenceKeys, entry.1 ≠ [] := by decide
    exact all _ known
  rw [sequenceEvent?_of_ne_nil (List.append_ne_nil_of_left_ne_nil begun left),
    pointerReport?_of_key known, sequenceKey?_append known]
  rfl

/-- A sequence means what the input makes of it, and nothing else. -/
theorem sequenceMeaning_iff {sequence left : List UInt8} {first : Option Reading} :
    SequenceMeaning sequence first left ↔ sequenceOutcome sequence = (first, left) := by
  have filled {sequence : List UInt8} {outcome : Except LiteralFailure (Option PointerReport)}
      (spelled : pointerReport? (sequenceText sequence) = outcome) (other : outcome ≠ .ok none) :
      sequence ≠ [] := by
    rintro rfl
    exact other spelled.symm
  constructor
  · intro meaning
    cases meaning with
    | escape => rfl
    | report spelled =>
      rw [sequenceOutcome, sequenceEvent?_of_ne_nil (filled spelled (by simp)), spelled]
    | unreadable spelled =>
      rw [sequenceOutcome, sequenceEvent?_of_ne_nil (filled spelled (by simp)), spelled]
    | key known => rw [sequenceOutcome, sequenceEvent?_of_key known]
    | unknown opened noReport noKey =>
      rw [sequenceOutcome, sequenceEvent?_of_ne_nil opened, noReport, sequenceKey?_eq_none noKey]
      rfl
  · intro outcome
    by_cases empty : sequence = []
    · subst empty
      cases outcome
      exact .escape
    rw [sequenceOutcome, sequenceEvent?_of_ne_nil empty] at outcome
    cases spelled : pointerReport? (sequenceText sequence) with
    | error failure =>
      rw [spelled] at outcome
      cases outcome
      exact .unreadable spelled
    | ok report? =>
      rw [spelled] at outcome
      cases report? with
      | some report =>
        cases outcome
        exact .report spelled
      | none =>
        cases found : sequenceKey? sequence with
        | none =>
          rw [found] at outcome
          cases outcome
          refine .unknown empty spelled fun entry member begins => ?_
          obtain ⟨left, rfl⟩ := begins
          rw [sequenceKey?_append member] at found
          cases found
        | some chosen =>
          rw [found] at outcome
          cases outcome
          obtain ⟨start, member, rfl⟩ := append_of_sequenceKey? found
          exact .key member

theorem SequenceMeaning.unique {sequence left other : List UInt8} {first second : Option Reading}
    (one : SequenceMeaning sequence first left) (another : SequenceMeaning sequence second other) :
    (first, left) = (second, other) :=
  (sequenceMeaning_iff.mp one).symm.trans (sequenceMeaning_iff.mp another)

/-- What is to be read again is the end of the sequence. -/
theorem SequenceMeaning.left_suffix {sequence left : List UInt8} {first : Option Reading}
    (meaning : SequenceMeaning sequence first left) : left <:+ sequence := by
  cases meaning with
  | escape | report | unreadable | unknown => exact List.nil_suffix
  | key => exact List.suffix_append _ _

/-- Reading in order comes to one thing only. -/
theorem ReadInOrder.unique {limit : Nat} {bytes : List UInt8} {readings others : List Reading}
    (one : ReadInOrder limit bytes readings) (other : ReadInOrder limit bytes others) :
    readings = others := by
  induction one generalizing others with
  | finish => cases other; rfl
  | key plain _ inductionHypothesis =>
    cases other with
    | key _ behind => rw [inductionHypothesis behind]
    | sequence | unreadable => exact absurd rfl plain
  | sequence meaning readable _ inductionHypothesis =>
    cases other with
    | key plain => exact absurd rfl plain
    | sequence otherMeaning _ behind =>
      cases meaning.unique otherMeaning
      rw [inductionHypothesis behind]
    | unreadable otherMeaning failed =>
      cases meaning.unique otherMeaning
      exact absurd failed (readable _ rfl)
  | unreadable meaning failed =>
    cases other with
    | key plain => exact absurd rfl plain
    | sequence otherMeaning readable =>
      cases meaning.unique otherMeaning
      exact absurd failed (readable _ rfl)
    | unreadable otherMeaning =>
      cases meaning.unique otherMeaning
      rfl

/-! ### Taking a sequence -/

theorem sequenceBytes_escape (limit : Nat) (bytes : List UInt8) :
    sequenceBytes limit (escapeByte :: bytes) = [] := by
  simp [sequenceBytes]

theorem sequenceBytes_cons (limit : Nat) {byte : UInt8} (plain : byte ≠ escapeByte)
    (bytes : List UInt8) :
    sequenceBytes (limit + 1) (byte :: bytes) = byte :: sequenceBytes limit bytes := by
  simp [sequenceBytes, plain]

/-- A sequence reaches up to the next escape if that is not too far. -/
theorem sequenceBytes_append {limit : Nat} {sequence behind : List UInt8}
    (plain : escapeByte ∉ sequence) (short : sequence.length ≤ limit) :
    sequenceBytes limit (sequence ++ escapeByte :: behind) = sequence := by
  rw [sequenceBytes, List.takeWhile_append_of_pos]
  · simp [List.take_of_length_le short]
  · intro byte member
    simp only [bne_iff_ne]
    rintro rfl
    exact plain member

theorem sequenceBytes_isPrefix (limit : Nat) (bytes : List UInt8) :
    sequenceBytes limit bytes <+: bytes :=
  (List.take_prefix _ _).trans (List.takeWhile_prefix _)

theorem escape_notMem_sequenceBytes (limit : Nat) (bytes : List UInt8) :
    escapeByte ∉ sequenceBytes limit bytes := by
  intro member
  have kept := List.mem_takeWhile_imp (List.mem_of_mem_take member)
  simp at kept

namespace Input

/-- Behind a stream without pauses, the bytes of which are taken one after the other, an escape
that ended the sequence has been put back, and nothing else. -/
theorem takeSequence_stream (limit : Int) :
    ∀ (count : Nat) (read bytes : List UInt8), ∃ back behind : List UInt8,
      takeSequence read count ⟨[], bytes.map some, limit⟩ =
        (read.reverse ++ sequenceBytes count bytes, ⟨back, behind.map some, limit⟩) ∧
      back ++ behind = bytes.drop (sequenceBytes count bytes).length ∧
      (back = [] ∧ (behind = [] ∨ (sequenceBytes count bytes).length = count) ∨
        back = [escapeByte] ∧ (sequenceBytes count bytes).length < count) := by
  intro count
  induction count with
  | zero =>
    intro read bytes
    exact ⟨[], bytes, by simp [takeSequence, sequenceBytes], by simp [sequenceBytes],
      .inl ⟨rfl, .inr (by simp [sequenceBytes])⟩⟩
  | succ count inductionHypothesis =>
    intro read bytes
    cases bytes with
    | nil => exact ⟨[], [], by simp [takeSequence, take, sequenceBytes], rfl, .inl ⟨rfl, .inl rfl⟩⟩
    | cons byte bytes =>
      by_cases escaped : byte = escapeByte
      · subst escaped
        refine ⟨[escapeByte], bytes, by simp [takeSequence, take, sequenceBytes], ?_,
          .inr ⟨rfl, ?_⟩⟩
          <;> rw [sequenceBytes_escape]
        · rfl
        · exact Nat.succ_pos count
      · obtain ⟨back, behind, taken, rest, kind⟩ := inductionHypothesis (byte :: read) bytes
        refine ⟨back, behind, ?_, ?_, ?_⟩
        · simp only [takeSequence, take, List.map_cons, escaped, if_false]
          rw [taken, sequenceBytes_cons count escaped]
          simp
        · rw [sequenceBytes_cons count escaped]
          exact rest
        · rw [sequenceBytes_cons count escaped]
          simpa using kind

/-! ### Readings -/

/-- The readings of an input depend on the next event only. -/
theorem readings_congr {input other : Input} (same : input.nextEvent = other.nextEvent) :
    input.readings = other.readings := by
  rw [readings, same, ← readings]

theorem readings_of_nextEvent {input rest : Input} {reading : Reading}
    (next : input.nextEvent = (reading, rest)) (readable : ¬ reading.IsFailure)
    (goesOn : reading ≠ .pause) : input.readings = reading :: rest.readings := by
  rw [readings, next]
  exact if_neg (not_or.2 ⟨readable, fun ended => goesOn ended.2⟩)

/-- Nothing is read behind a report that cannot be read. -/
theorem readings_of_failure {input rest : Input} {reading : Reading}
    (next : input.nextEvent = (reading, rest)) (failed : reading.IsFailure) :
    input.readings = [reading] := by
  rw [readings, next]
  exact if_pos (.inl failed)

theorem readings_empty (limit : Int) : readings ⟨[], [], limit⟩ = [.pause] := by
  have next : nextEvent ⟨[], [], limit⟩ = (.pause, ⟨[], [], limit⟩) := by
    rw [nextEvent]
    rfl
  rw [readings, next]
  exact if_pos (.inr ⟨rfl, rfl⟩)

theorem readings_plain {input rest : Input} {byte : UInt8} (taken : input.take = (some byte, rest))
    (plain : byte ≠ escapeByte) :
    input.readings = .event (.key (.ofByte byte)) :: rest.readings := by
  refine readings_of_nextEvent ?_ not_false (by simp)
  rw [nextEvent]
  split
  · next other => rw [taken] at other; cases other
  · next other =>
    rw [taken] at other
    cases other
    exact if_neg plain

theorem nextEvent_escape {input rest : Input} (taken : input.take = (some escapeByte, rest)) :
    input.nextEvent =
      match sequenceEvent? (takeSequence [] rest.limit.toNat rest).1 with
      | .ok (some (event, left)) =>
        (.event event, (takeSequence [] rest.limit.toNat rest).2.putBack left)
      | .ok none => nextEvent (takeSequence [] rest.limit.toNat rest).2
      | .error failure => (.failed failure, (takeSequence [] rest.limit.toNat rest).2) := by
  rw [nextEvent]
  split
  · next other => rw [taken] at other; cases other
  · next other =>
    rw [taken] at other
    cases other
    exact if_pos rfl

/-- Behind an escape comes what its sequence means, and then what is left of the sequence. -/
theorem readings_escape {input rest next : Input} {sequence left : List UInt8}
    {first : Option Reading} (taken : input.take = (some escapeByte, rest))
    (spelled : takeSequence [] rest.limit.toNat rest = (sequence, next))
    (outcome : sequenceOutcome sequence = (first, left))
    (readable : ∀ reading ∈ first, ¬ reading.IsFailure) :
    input.readings = first.toList ++ (next.putBack left).readings := by
  have opened := nextEvent_escape taken
  rw [spelled] at opened
  have nothing (input : Input) : input.putBack [] = input := by simp [putBack]
  rw [sequenceOutcome] at outcome
  cases found : sequenceEvent? sequence with
  | error failure =>
    rw [found] at outcome
    cases outcome
    exact absurd trivial (readable _ rfl)
  | ok event? =>
    rw [found] at opened outcome
    cases event? with
    | none =>
      cases outcome
      rw [nothing]
      exact readings_congr opened
    | some event =>
      cases outcome
      exact readings_of_nextEvent opened not_false (by simp)

theorem readings_escape_of_failure {input rest next : Input} {sequence left : List UInt8}
    {reading : Reading} (taken : input.take = (some escapeByte, rest))
    (spelled : takeSequence [] rest.limit.toNat rest = (sequence, next))
    (outcome : sequenceOutcome sequence = (some reading, left)) (failed : reading.IsFailure) :
    input.readings = [reading] := by
  have opened := nextEvent_escape taken
  rw [spelled] at opened
  rw [sequenceOutcome] at outcome
  cases found : sequenceEvent? sequence with
  | error failure =>
    rw [found] at opened outcome
    cases outcome
    exact readings_of_failure opened failed
  | ok event? =>
    rw [found] at outcome
    cases event? with
    | none => cases outcome
    | some event =>
      cases outcome
      exact failed.elim

/-! ### Reading in order -/

theorem take_append (limit : Int) {pending stream bytes : List UInt8} {byte : UInt8}
    (whole : pending ++ stream = byte :: bytes) :
    ∃ rest, take ⟨pending, stream.map some, limit⟩ =
        (some byte, ⟨pending.tail, rest.map some, limit⟩) ∧
      pending.tail ++ rest = bytes := by
  cases pending with
  | nil =>
    rw [List.nil_append] at whole
    subst whole
    exact ⟨bytes, rfl, rfl⟩
  | cons first pending =>
    cases whole
    exact ⟨stream, rfl, rfl⟩

end Input

theorem Interrupted.of_suffix {limit : Nat} {bytes whole : List UInt8} (suffix : bytes <:+ whole)
    (interrupted : Interrupted limit bytes) : Interrupted limit whole := by
  obtain ⟨tail, member, here⟩ := interrupted
  exact ⟨tail, (List.mem_tails _ _).mpr (((List.mem_tails _ _).mp member).trans suffix), here⟩

/-- Where nothing is interrupted, nothing is left of a sequence that an escape ended. -/
theorem left_eq_nil {limit : Nat} {bytes left behind : List UInt8} {first : Option Reading}
    (meaning : SequenceMeaning (sequenceBytes limit bytes) first left)
    (ended : escapeByte :: behind = bytes.drop (sequenceBytes limit bytes).length)
    (short : (sequenceBytes limit bytes).length < limit)
    (uninterrupted : ¬ Interrupted limit (escapeByte :: bytes)) : left = [] := by
  generalize spelled : sequenceBytes limit bytes = sequence at meaning ended short
  cases meaning with
  | escape | report | unreadable | unknown => rfl
  | @key start left key known =>
    by_contra more
    have longer : (start ++ left).length < bytes.length := by
      have length := congrArg List.length ended
      rw [List.length_cons, List.length_drop] at length
      omega
    refine uninterrupted ⟨_, (List.mem_tails _ _).mpr (List.suffix_refl _), rfl, ?_,
      (start, key), known, ?_, ?_⟩
    · rw [List.tail_cons, spelled]
      exact lt_min short longer
    · rw [List.tail_cons, spelled]
      exact List.prefix_append start left
    · rw [List.tail_cons, spelled]
      intro same
      exact more (List.self_eq_append_right.mp same)

/-- What is still to be read behind a sequence is the end of what stood there. -/
theorem SequenceMeaning.behind_suffix {limit : Nat} {bytes left : List UInt8}
    {first : Option Reading} (meaning : SequenceMeaning (sequenceBytes limit bytes) first left) :
    left ++ bytes.drop (sequenceBytes limit bytes).length <:+ bytes := by
  obtain ⟨start, begun⟩ := meaning.left_suffix
  refine ⟨start, ?_⟩
  rw [← List.append_assoc, begun]
  exact List.prefix_iff_eq_append.mp (sequenceBytes_isPrefix limit bytes)

namespace Input

/-- Bytes that were put back are one escape, or hold none. -/
def Orderly (pending : List UInt8) : Prop := escapeByte ∉ pending ∨ pending = [escapeByte]

theorem Orderly.tail {pending : List UInt8} (orderly : Orderly pending) :
    escapeByte ∉ pending.tail := by
  obtain none | rfl := orderly
  · exact fun member => none (List.mem_of_mem_tail member)
  · exact List.not_mem_nil

/-- An escape that is taken was put back alone, or comes from the stream. -/
theorem Orderly.tail_eq_nil {pending stream bytes : List UInt8} (orderly : Orderly pending)
    (whole : pending ++ stream = escapeByte :: bytes) : pending.tail = [] := by
  obtain none | rfl := orderly
  · cases pending with
    | nil => rfl
    | cons first pending =>
      cases whole
      exact absurd List.mem_cons_self none
  · rfl

/-- What is put back behind a sequence that is not interrupted is put back in its place. -/
theorem orderly_behind {limit : Nat} {bytes back behind left : List UInt8} {first : Option Reading}
    (meaning : SequenceMeaning (sequenceBytes limit bytes) first left)
    (drop : back ++ behind = bytes.drop (sequenceBytes limit bytes).length)
    (ended : back = [] ∨ back = [escapeByte] ∧ (sequenceBytes limit bytes).length < limit)
    (uninterrupted : ¬ Interrupted limit (escapeByte :: bytes)) :
    (back ++ left) ++ behind = left ++ bytes.drop (sequenceBytes limit bytes).length ∧
      Orderly (back ++ left) := by
  obtain rfl | ⟨rfl, short⟩ := ended
  · rw [← drop]
    exact ⟨rfl, .inl fun member =>
      escape_notMem_sequenceBytes _ _ (meaning.left_suffix.subset member)⟩
  · have nothing : left = [] := left_eq_nil meaning drop short uninterrupted
    subst nothing
    exact ⟨drop, .inr rfl⟩

/-- An input in which nothing is interrupted is read in order. -/
theorem readInOrder_readings (limit : Int) (bytes : List UInt8) :
    ∀ pending stream : List UInt8, pending ++ stream = bytes → Orderly pending →
      ¬ Interrupted limit.toNat bytes →
        ReadInOrder limit.toNat bytes (readings ⟨pending, stream.map some, limit⟩) := by
  -- Every step leaves an end of the bytes, hence the induction on their number.
  induction length : bytes.length using Nat.strong_induction_on generalizing bytes with
  | _ _ inductionHypothesis =>
    subst length
    intro pending stream whole orderly uninterrupted
    cases bytes with
    | nil =>
      obtain ⟨rfl, rfl⟩ := List.append_eq_nil_iff.mp whole
      rw [List.map_nil, readings_empty]
      exact .finish
    | cons byte bytes =>
      obtain ⟨rest, taken, whole_rest⟩ := take_append limit whole
      have uninterrupted_of {less : List UInt8} (suffix : less <:+ bytes) :
          ¬ Interrupted limit.toNat less := fun interrupted =>
        uninterrupted (interrupted.of_suffix (suffix.trans (List.suffix_cons byte bytes)))
      by_cases escaped : byte = escapeByte
      · subst escaped
        rw [orderly.tail_eq_nil whole] at taken whole_rest
        rw [List.nil_append] at whole_rest
        subst whole_rest
        obtain ⟨back, behind, sequence, drop, ended⟩ :=
          takeSequence_stream limit limit.toNat [] rest
        rw [List.reverse_nil, List.nil_append] at sequence
        generalize outcome : sequenceOutcome (sequenceBytes limit.toNat rest) = meant
        obtain ⟨first, left⟩ := meant
        have meaning := sequenceMeaning_iff.mpr outcome
        by_cases readable : ∀ reading ∈ first, ¬ reading.IsFailure
        · rw [readings_escape taken sequence outcome readable]
          have suffix := meaning.behind_suffix
          obtain ⟨place, orderlyBehind⟩ :=
            orderly_behind meaning drop (ended.imp_left And.left) uninterrupted
          exact .sequence meaning readable
            (inductionHypothesis _ (Nat.lt_succ_of_le suffix.length_le) _ rfl
              _ _ place orderlyBehind (uninterrupted_of suffix))
        · simp only [not_forall, not_not] at readable
          obtain ⟨reading, rfl, failed⟩ := readable
          rw [readings_escape_of_failure taken sequence outcome failed]
          exact .unreadable meaning failed
      · rw [readings_plain taken escaped]
        exact .key escaped (inductionHypothesis _ (Nat.lt_succ_self _) _ rfl
          _ _ whole_rest (.inl orderly.tail) (uninterrupted_of (List.suffix_refl bytes)))

/-- Bytes in which no sequence is interrupted come, as a stream without pauses, to what they come
to in order, and to nothing else. -/
theorem readings_in_order (limit : Int) (bytes : List UInt8) (readings : List Reading)
    (uninterrupted : ¬ Interrupted limit.toNat bytes) :
    ReadInOrder limit.toNat bytes readings ↔
      Input.readings { stream := bytes.map some, limit } = readings := by
  have inOrder :=
    readInOrder_readings limit bytes [] bytes rfl (.inl List.not_mem_nil) uninterrupted
  constructor
  · intro other
    exact inOrder.unique other
  · rintro rfl
    exact inOrder

/-- A letter, the escape key, a cursor key, a sequence without a meaning, a press of the mouse, and
a key whose sequence goes on with a letter. -/
def mixedBytes : List UInt8 :=
  [0x68, 0x1B, 0x1B, 0x5B, 0x41, 0x1B, 0x4F, 0x50, 0x1B, 0x5B, 0x3C, 0x30, 0x3B, 0x33, 0x3B, 0x34,
    0x4D, 0x1B, 0x5B, 0x35, 0x7E, 0x78]

theorem readings_in_order_mixed :
    ¬ Interrupted 256 mixedBytes ∧
      ReadInOrder 256 mixedBytes
        [.event (.key (.char 'h')), .event (.key .escape), .event (.key .up),
          .event (.pointer ⟨0, 2, 3, true⟩), .event (.key .pageUp), .event (.key (.char 'x')),
          .pause] := by
  have uninterrupted : ¬ Interrupted 256 mixedBytes := by
    decide +kernel
  exact ⟨uninterrupted, (readings_in_order 256 _ _ uninterrupted).mpr (by decide +kernel)⟩

/-- A sequence that goes on behind its key up to another escape is read as if that escape stood in
front of the rest of the sequence. -/
theorem nextEvent_of_interrupted {limit : Int} {start left behind : List UInt8} {key : Key}
    (known : (start, key) ∈ sequenceKeys) (plain : escapeByte ∉ left)
    (short : (start ++ left).length < limit.toNat) :
    nextEvent ⟨[], (escapeByte :: (start ++ left ++ escapeByte :: behind)).map some, limit⟩ =
      (.event (.key key), ⟨escapeByte :: left, behind.map some, limit⟩) := by
  have startPlain : escapeByte ∉ start := by
    have all : ∀ entry ∈ sequenceKeys, escapeByte ∉ entry.1 := by decide
    exact all _ known
  have sequence : sequenceBytes limit.toNat (start ++ left ++ escapeByte :: behind) =
      start ++ left :=
    sequenceBytes_append (by simp [startPlain, plain]) short.le
  obtain ⟨back, rest, taken, drop, ended⟩ :=
    takeSequence_stream limit limit.toNat [] (start ++ left ++ escapeByte :: behind)
  rw [sequence, List.drop_left] at drop
  rw [sequence] at taken ended
  obtain ⟨rfl, rfl | full⟩ | ⟨rfl, -⟩ := ended
  · cases drop
  · omega
  have same : rest = behind := (List.cons.inj drop).2
  subst same
  rw [List.map_cons, nextEvent_escape rfl]
  dsimp only
  rw [taken]
  dsimp only
  rw [List.reverse_nil, List.nil_append, sequenceEvent?_of_key known]
  rfl

/-- The letters typed between two keys of which each has a sequence are to be read between them,
and with them the second key; but they are taken for a part of its sequence, and all is lost. -/
theorem readings_out_of_order :
    ReadInOrder 256 [0x1B, 0x5B, 0x41, 0x78, 0x79, 0x1B, 0x5B, 0x42]
        [.event (.key .up), .event (.key (.char 'x')), .event (.key (.char 'y')),
          .event (.key .down), .pause] ∧
      Input.readings
          { stream := [0x1B, 0x5B, 0x41, 0x78, 0x79, 0x1B, 0x5B, 0x42].map some, limit := 256 } =
        [.event (.key .up), .pause] := by
  refine ⟨?_, by decide +kernel⟩
  have up : SequenceMeaning (sequenceBytes 256 [0x5B, 0x41, 0x78, 0x79, 0x1B, 0x5B, 0x42])
      (some (.event (.key .up))) [0x78, 0x79] :=
    sequenceMeaning_iff.mpr (by decide)
  have down : SequenceMeaning (sequenceBytes 256 [0x5B, 0x42]) (some (.event (.key .down))) [] :=
    sequenceMeaning_iff.mpr (by decide)
  exact .sequence up (by decide) (.key (by decide) (.key (by decide)
    (.sequence down (by decide) .finish)))

end Input

end HexEditor
