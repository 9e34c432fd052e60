/-
Reading always gets on. Every round of it takes bytes off the input for good: those of the key, the
sequence or the mouse report that is read, or those of a sequence that means nothing, after which
the next round begins. What is put back, an escape in front or the rest of a sequence behind, has
been taken in the same round. So a round gives no byte that was not put back before or read from
the stream in it, which is the invariant of all rounds and of all calls; there are fewer bytes to
come after each, and some number of calls uses up any input.
-/

import HexEditor.Proofs.Input.Order
import Mathlib.Data.List.ReduceOption

namespace HexEditor

/-- The bytes that a reading is made of. -/
inductive MadeOf : Reading → List UInt8 → Prop where
  | pause : MadeOf .pause []
  | plain {byte : UInt8} (plain : byte ≠ escapeByte) :
      MadeOf (.event (.key (.ofByte byte))) [byte]
  | sequence {used left : List UInt8} {reading : Reading}
      (meaning : SequenceMeaning (used ++ left) (some reading) left) :
      MadeOf reading (escapeByte :: used)

/-- Sequences that mean nothing. -/
def Meaningless (sequences : List (List UInt8)) : Prop :=
  ∀ sequence ∈ sequences, SequenceMeaning sequence none []

/-- The bytes of sequences with the escapes that open them. -/
def openedBytes (sequences : List (List UInt8)) : List UInt8 :=
  sequences.flatMap (escapeByte :: ·)

namespace Input

variable {input between left : Input} {bytes more : List UInt8}

/-- The bytes that are still to come. -/
def remaining (input : Input) : List UInt8 := input.pending ++ input.stream.reduceOption

/-! ### What comes off an input -/

/-- Some bytes come off an input, and another one is left. They have been put back before, or they
have been read from the stream since then, and they are not put back again. -/
def Yields (input : Input) (bytes : List UInt8) (left : Input) : Prop :=
  ∃ read, input.stream = read ++ left.stream ∧
    (bytes ++ left.pending).Perm (input.pending ++ read.reduceOption)

theorem Yields.rfl : input.Yields [] input := ⟨[], by rw [List.nil_append], by simp⟩

theorem Yields.trans (first : input.Yields bytes between) (second : between.Yields more left) :
    input.Yields (bytes ++ more) left := by
  obtain ⟨read, streamed, perm⟩ := first
  obtain ⟨next, streamedNext, permNext⟩ := second
  refine ⟨read ++ next, by rw [streamed, streamedNext, List.append_assoc], ?_⟩
  rw [List.reduceOption_append, List.append_assoc, ← List.append_assoc input.pending]
  refine (permNext.append_left bytes).trans ?_
  rw [← List.append_assoc]
  exact perm.append_right _

/-- Bytes that come off an input can be put back in any place. -/
theorem Yields.of_perm {pending : List UInt8} (yields : input.Yields bytes left)
    (perm : (more ++ pending).Perm (bytes ++ left.pending)) :
    input.Yields more { left with pending } := by
  obtain ⟨read, streamed, whole⟩ := yields
  exact ⟨read, streamed, perm.trans whole⟩

theorem Yields.perm (yields : input.Yields bytes left) (perm : more.Perm bytes) :
    input.Yields more left :=
  yields.of_perm (perm.append_right left.pending)

theorem Yields.putBack {rest : List UInt8} (yields : input.Yields (bytes ++ rest) left) :
    input.Yields bytes (left.putBack rest) := by
  refine yields.of_perm ?_
  rw [List.append_assoc]
  exact List.perm_append_comm.append_left bytes

/-- What came off an input and what is left of it are as many bytes as there were. -/
theorem Yields.length_eq (yields : input.Yields bytes left) :
    bytes.length + left.remaining.length = input.remaining.length := by
  obtain ⟨read, streamed, perm⟩ := yields
  have lengths := perm.length_eq
  rw [remaining, remaining, streamed, List.reduceOption_append]
  simp only [List.length_append] at lengths ⊢
  omega

theorem yields_of_take {byte : UInt8} (taken : input.take = (some byte, left)) :
    input.Yields [byte] left := by
  unfold take at taken
  split at taken
  · next rest found =>
    cases taken
    exact ⟨[], rfl, by simp [found]⟩
  · next empty =>
    split at taken
    · next item rest found =>
      cases taken
      exact ⟨[some byte], found, by simp [empty]⟩
    · cases taken

theorem yields_of_take_none (taken : input.take = (none, left)) : input.Yields [] left := by
  unfold take at taken
  split at taken
  · cases taken
  · next empty =>
    split at taken
    · next item rest found =>
      cases taken
      exact ⟨[none], found, by simp [empty]⟩
    · cases taken
      exact .rfl

theorem remaining_of_take_none (taken : input.take = (none, left)) :
    left.remaining = input.remaining := by
  unfold take at taken
  split at taken
  · cases taken
  · next empty =>
    split at taken
    · next item rest found =>
      cases taken
      rw [remaining, remaining, found, List.reduceOption_cons_of_none]
    · cases taken
      rfl

/-- A sequence comes off the input byte by byte, and the escape that ends it is put back. -/
theorem exists_yields_takeSequence (limit : Nat) (read : List UInt8) (input : Input) :
    ∃ sequence, (takeSequence read limit input).1 = read.reverse ++ sequence ∧
      input.Yields sequence (takeSequence read limit input).2 := by
  induction limit generalizing read input with
  | zero => exact ⟨[], (List.append_nil _).symm, .rfl⟩
  | succ limit inductionHypothesis =>
    rw [takeSequence]
    split
    · next rest taken => exact ⟨[], (List.append_nil _).symm, yields_of_take_none taken⟩
    · next byte rest taken =>
      have came := yields_of_take taken
      split
      · exact ⟨[], (List.append_nil _).symm, came.of_perm (List.Perm.refl _)⟩
      · obtain ⟨sequence, spelled, behind⟩ := inductionHypothesis (byte :: read) rest
        refine ⟨byte :: sequence, ?_, came.trans behind⟩
        rw [spelled, List.reverse_cons, List.append_assoc]
        exact rfl

theorem yields_takeSequence (limit : Nat) (input : Input) :
    input.Yields (takeSequence [] limit input).1 (takeSequence [] limit input).2 := by
  obtain ⟨sequence, spelled, yields⟩ := exists_yields_takeSequence limit [] input
  rw [spelled]
  exact yields

/-! ### Rounds of reading -/

/-- One round of reading: what is read in it, unless it is a sequence that means nothing. -/
def round (input : Input) : Option Reading × Input :=
  match input.take with
  | (none, rest) => (some .pause, rest)
  | (some byte, rest) =>
    if byte = escapeByte then
      let sequence := takeSequence [] rest.limit.toNat rest
      let outcome := sequenceOutcome sequence.1
      (outcome.1, sequence.2.putBack outcome.2)
    else
      (some (.event (.key (.ofByte byte))), rest)

/-- Reads in rounds, as many as are allowed at most. -/
def readWithin : Nat → Input → Option (Reading × Input)
  | 0, _ => none
  | rounds + 1, input =>
    match input.round with
    | (some reading, rest) => some (reading, rest)
    | (none, rest) => readWithin rounds rest

/-- Reading up to the next event is a round and, if nothing is read in it, reading again. -/
theorem nextEvent_eq_round (input : Input) :
    input.nextEvent =
      match input.round with
      | (some reading, rest) => (reading, rest)
      | (none, rest) => rest.nextEvent := by
  have nothing (input : Input) : input.putBack [] = input := by simp [Input.putBack]
  fun_cases nextEvent input with
  | case1 rest taken => simp only [round, taken]
  | case2 rest sequence event left found taken =>
    simp only [round, taken, if_true, sequenceOutcome, found, sequence]
  | case3 rest sequence found taken =>
    simp only [round, taken, if_true, sequenceOutcome, found, sequence, nothing]
  | case4 rest sequence failure found taken =>
    simp only [round, taken, if_true, sequenceOutcome, found, sequence, nothing]
  | case5 byte rest taken plain => simp only [round, taken, if_neg plain]

/-- What comes off an input in a round. -/
theorem exists_yields_round (input : Input) :
    ∃ bytes, input.Yields bytes input.round.2 ∧ (bytes = [] ↔ input.take.1 = none) ∧
      match input.round.1 with
      | some reading => MadeOf reading bytes
      | none => ∃ sequence, SequenceMeaning sequence none [] ∧ bytes = escapeByte :: sequence := by
  rw [round]
  split
  · next rest taken => exact ⟨[], yields_of_take_none taken, by simp [taken], .pause⟩
  · next byte rest taken =>
    have came := yields_of_take taken
    split
    · next escaped =>
      subst escaped
      have sequence := came.trans (yields_takeSequence rest.limit.toNat rest)
      dsimp only
      generalize takeSequence [] rest.limit.toNat rest = opened at sequence ⊢
      generalize outcome : sequenceOutcome opened.1 = meant
      obtain ⟨first, left⟩ := meant
      have meaning := sequenceMeaning_iff.2 outcome
      obtain ⟨used, spelled⟩ := meaning.left_suffix
      rw [← spelled] at meaning sequence
      have opening : input.Yields ((escapeByte :: used) ++ left) opened.2 := sequence
      refine ⟨escapeByte :: used, opening.putBack, by simp [taken], ?_⟩
      cases first with
      | some reading => exact .sequence meaning
      | none =>
        have nothing : left = [] := by
          generalize used ++ left = whole at meaning
          cases meaning
          rfl
        subst nothing
        rw [List.append_nil] at meaning
        exact ⟨used, meaning, rfl⟩
    · next plain => exact ⟨[byte], came, by simp [taken], .plain plain⟩

/-! ### Calls -/

/-- A round in which something is read is all of a call. -/
theorem nextEvent_of_round {reading : Reading} (read : input.round = (some reading, left)) :
    input.nextEvent = (reading, left) := by
  rw [nextEvent_eq_round, read]

/-- A call goes on behind a round in which nothing is read. -/
theorem nextEvent_of_round_none (passed : input.round = (none, left)) :
    input.nextEvent = left.nextEvent := by
  rw [nextEvent_eq_round, passed]

/-- A round in which nothing is read takes bytes off the input. -/
theorem length_of_round_none (passed : input.round = (none, left)) :
    left.remaining.length < input.remaining.length := by
  obtain ⟨bytes, yields, -, opened⟩ := input.exists_yields_round
  simp only [passed] at yields opened
  obtain ⟨sequence, -, rfl⟩ := opened
  have lengths := yields.length_eq
  rw [List.length_cons] at lengths
  omega

/-- No call takes more rounds than there are bytes, and one more for the pause behind them. -/
theorem readWithin_eq (input : Input) {rounds : Nat} (enough : input.remaining.length < rounds) :
    input.readWithin rounds = some input.nextEvent := by
  induction rounds generalizing input with
  | zero => exact absurd enough (Nat.not_lt_zero _)
  | succ rounds inductionHypothesis =>
    rw [readWithin, nextEvent_eq_round]
    rcases came : input.round with ⟨_ | reading, rest⟩
    · have fewer := length_of_round_none came
      exact inductionHypothesis rest (by omega)
    · rfl

/-- What comes off an input in a call: the bytes of what is read, behind sequences that mean
nothing. -/
theorem exists_yields_nextEvent (input : Input) :
    ∃ used dropped, MadeOf input.nextEvent.1 used ∧ Meaningless dropped ∧
      input.Yields (openedBytes dropped ++ used) input.nextEvent.2 ∧
      (openedBytes dropped ++ used = [] ↔ input.take.1 = none) := by
  -- each round leaves fewer bytes, hence the induction on their number
  induction length : input.remaining.length using Nat.strong_induction_on generalizing input with
  | _ _ inductionHypothesis =>
    subst length
    obtain ⟨bytes, yields, empty, read⟩ := input.exists_yields_round
    rcases came : input.round with ⟨_ | reading, rest⟩
    · rw [came] at yields read
      obtain ⟨sequence, meaning, rfl⟩ := read
      obtain ⟨used, dropped, made, meaningless, behind, -⟩ :=
        inductionHypothesis _ (length_of_round_none came) rest rfl
      rw [nextEvent_of_round_none came]
      refine ⟨used, sequence :: dropped, made, ?_, ?_, ?_⟩
      · exact List.forall_mem_cons.2 ⟨meaning, meaningless⟩
      · rw [openedBytes, List.flatMap_cons, List.append_assoc]
        exact yields.trans behind
      · exact iff_of_false nofun (mt empty.2 nofun)
    · rw [came] at yields read
      rw [nextEvent_of_round came]
      exact ⟨bytes, [], read, List.forall_mem_nil _, yields, empty⟩

/-- Calls one after the other: what each one reads, and the input that they leave. -/
def calls : Nat → Input → List Reading × Input
  | 0, input => ([], input)
  | count + 1, input =>
    let next := input.nextEvent
    let later := calls count next.2
    (next.1 :: later.1, later.2)

/-- What comes off an input in calls that are made one after the other. -/
theorem exists_yields_calls (count : Nat) (input : Input) :
    ∃ used dropped, List.Forall₂ MadeOf (input.calls count).1 used ∧ Meaningless dropped ∧
      input.Yields (openedBytes dropped ++ used.flatten) (input.calls count).2 := by
  induction count generalizing input with
  | zero => exact ⟨[], [], .nil, List.forall_mem_nil _, .rfl⟩
  | succ count inductionHypothesis =>
    obtain ⟨used, dropped, made, meaningless, yields, -⟩ := input.exists_yields_nextEvent
    obtain ⟨usedLater, droppedLater, madeLater, meaninglessLater, later⟩ :=
      inductionHypothesis input.nextEvent.2
    refine ⟨used :: usedLater, dropped ++ droppedLater, .cons made madeLater,
      List.forall_mem_append.2 ⟨meaningless, meaninglessLater⟩, (yields.trans later).perm ?_⟩
    rw [openedBytes, List.flatMap_append, List.flatten_cons]
    refine List.perm_iff_count.2 fun byte => ?_
    simp only [openedBytes, List.count_append]
    omega

theorem size_calls (count : Nat) (input : Input) :
    (input.calls count).2.size ≤ input.size - count := by
  induction count generalizing input with
  | zero => exact Nat.le_refl _
  | succ count inductionHypothesis =>
    have later := inductionHypothesis input.nextEvent.2
    have next := (size_nextEvent input).1
    rw [calls]
    dsimp only
    omega

/-- Whatever is read is made of a byte at least, pauses apart. -/
theorem length_le_of_madeOf {readings : List Reading} {used : List (List UInt8)}
    (made : List.Forall₂ MadeOf readings used) :
    (readings.filter (· ≠ .pause)).length ≤ used.flatten.length := by
  induction made with
  | nil => exact Nat.le_refl _
  | cons first _ inductionHypothesis =>
    rw [List.filter_cons, List.flatten_cons, List.length_append]
    cases first with
    | pause => simpa using inductionHypothesis
    | plain | sequence =>
      have shorter (reading : Reading) (tail : List Reading) :
          (if decide (reading ≠ .pause) = true then reading :: tail else tail).length ≤
            tail.length + 1 := by
        split <;> simp
      refine (shorter _ _).trans ?_
      simp only [List.length_cons]
      omega

/-- Every call gets on. If there is no byte to take it reads a pause at once and takes nothing.
Otherwise there are fewer bytes to come behind it than before, whatever it puts back, and it ends in
as many rounds as there are bytes and one more. In any number of calls what is read is made of bytes
that had been put back before or were read from the stream, each of which is used once at most; the
others belong to sequences that mean nothing, or are put back. So not more is read than there are
bytes, and after enough calls the input is used up and there are only pauses. -/
theorem reading_progresses (input : Input) :
    (match input.take with
      | (none, rest) => input.nextEvent = (.pause, rest) ∧ rest.remaining = input.remaining
      | (some _, _) => input.nextEvent.2.remaining.length < input.remaining.length) ∧
    input.readWithin (input.remaining.length + 1) = some input.nextEvent ∧
    (∀ count, ∃ used dropped, List.Forall₂ MadeOf (input.calls count).1 used ∧
      Meaningless dropped ∧
      input.Yields (openedBytes dropped ++ used.flatten) (input.calls count).2 ∧
      ((input.calls count).1.filter (· ≠ .pause)).length ≤ input.remaining.length) ∧
    ∀ more, (input.calls (input.size + more)).2.size = 0 ∧
      (input.calls (input.size + more)).2.nextEvent.1 = .pause := by
  refine ⟨?_, input.readWithin_eq (Nat.lt_succ_self _), fun count => ?_, fun more => ?_⟩
  · obtain ⟨used, dropped, -, -, yields, empty⟩ := input.exists_yields_nextEvent
    split
    · next rest taken =>
      have paused : input.round = (some .pause, rest) := by simp only [round, taken]
      exact ⟨nextEvent_of_round paused, remaining_of_take_none taken⟩
    · next byte rest taken =>
      have taking : openedBytes dropped ++ used ≠ [] := mt empty.1 (by simp [taken])
      have positive := List.length_pos_iff.2 taking
      have lengths := yields.length_eq
      omega
  · obtain ⟨used, dropped, made, meaningless, yields⟩ := exists_yields_calls count input
    refine ⟨used, dropped, made, meaningless, yields, (length_le_of_madeOf made).trans ?_⟩
    have lengths := yields.length_eq
    rw [List.length_append] at lengths
    omega
  · have empty : (input.calls (input.size + more)).2.size = 0 := by
      have small := size_calls (input.size + more) input
      omega
    exact ⟨empty, (size_nextEvent _).2 empty⟩

end Input

end HexEditor
