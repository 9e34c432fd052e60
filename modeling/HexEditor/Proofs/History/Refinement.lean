/-
A log is a history of edits: a list of records and the number of them that are done. A
new edit forgets the records that are not done; undoing and redoing move over one
record. The main statement says that a log does to its file what a history does to its
list. Whatever file was opened and whatever operations are carried out on it, in any
order, the answers are those of the history, and the records and the position in the
file are its records and their number. An operation fails only for a file so large
that it has no room for another record.
-/

import HexEditor.Proofs.History.Operations

namespace HexEditor

/-! ### Histories -/

/-- A history of edits, the first one first, of which the first `index` ones are done. -/
structure History where
  records : List EditRecord
  index : Nat
  index_le : index ≤ records.length

namespace History

/-- The records that are done. -/
def past (history : History) : List EditRecord := history.records.take history.index

theorem length_past (history : History) : history.past.length = history.index := by
  rw [past, List.length_take, Nat.min_eq_left history.index_le]

/-- A new edit comes behind those that are done, and the others are forgotten. -/
def enter (history : History) (record : EditRecord) : History where
  records := history.past ++ [record]
  index := history.index + 1
  index_le := by rw [List.length_append, length_past]; exact Nat.le_refl _

/-- Undoing gives the address and the old byte of the last record that is done. -/
def undo : History → Option (UInt64 × UInt8) × History
  | ⟨records, 0, within⟩ => (none, ⟨records, 0, within⟩)
  | ⟨records, index + 1, within⟩ =>
    (some (records[index].address, records[index].old),
      ⟨records, index, Nat.le_of_succ_le within⟩)

/-- Redoing gives the address and the new byte of the first record that is not done. -/
def redo (history : History) : Option (UInt64 × UInt8) × History :=
  if within : history.index < history.records.length then
    (some (history.records[history.index].address, history.records[history.index].new),
      ⟨history.records, history.index + 1, within⟩)
  else
    (none, history)

end History

/-! ### Operations -/

/-- An operation on a log. -/
inductive LogOperation where
  | enter (record : EditRecord)
  | settle
  | undo
  | redo
  deriving DecidableEq, Repr

namespace LogOperation

/-- What an operation does to a log, and the address and byte that it gives, if any. -/
def run : LogOperation → EditLog.Action (Option (UInt64 × UInt8))
  | enter record => do
    EditLog.enter record.address.toNat record.old.toNat record.new.toNat
    return none
  | settle => do
    EditLog.settle
    return none
  | undo => EditLog.undo
  | redo => EditLog.redo

/-- What an operation does to a history. -/
def apply : LogOperation → History → Option (UInt64 × UInt8) × History
  | enter record, history => (none, history.enter record)
  | settle, history => (none, history)
  | undo, history => history.undo
  | redo, history => history.redo

/-- What operations do to a log, one after the other, with everything that they give. -/
def runAll (operations : List LogOperation) : EditLog.Action (List (Option (UInt64 × UInt8))) :=
  operations.mapM run

section RunAll

variable {operation : LogOperation} {rest : List LogOperation} {log next stuck last : EditLog}
  {answer : Option (UInt64 × UInt8)} {failure : LogFailure}

theorem runAll_of_ok {answers : List (Option (UInt64 × UInt8))}
    (ran : operation.run log = .ok answer next) (ranRest : runAll rest next = .ok answers last) :
    runAll (operation :: rest) log = .ok (answer :: answers) last := by
  rw [runAll, List.mapM_cons, ← runAll, Action.bind_of_ok ran]
  exact Action.bind_of_ok ranRest

theorem runAll_of_error_behind (ran : operation.run log = .ok answer next)
    (failed : runAll rest next = .error failure stuck) :
    runAll (operation :: rest) log = .error failure stuck := by
  rw [runAll, List.mapM_cons, ← runAll, Action.bind_of_ok ran]
  exact Action.bind_of_error failed

theorem runAll_of_error (failed : operation.run log = .error failure stuck) :
    runAll (operation :: rest) log = .error failure stuck := by
  rw [runAll, List.mapM_cons]
  exact Action.bind_of_error failed

/-- Operations that succeed begin with one that does. -/
theorem ok_of_runAll {answers : List (Option (UInt64 × UInt8))}
    (ran : runAll (operation :: rest) log = .ok answers last) :
    ∃ answer next others, operation.run log = .ok answer next ∧
      runAll rest next = .ok others last := by
  rw [runAll, List.mapM_cons, ← runAll] at ran
  obtain ⟨answer, next, ranFirst, behind⟩ := Action.ok_of_bind ran
  obtain ⟨others, _, ranRest, done⟩ := Action.ok_of_bind behind
  cases done
  exact ⟨answer, next, others, ranFirst, ranRest⟩

end RunAll

/-- What operations do to a history, one after the other. -/
def applyAll : List LogOperation → History → List (Option (UInt64 × UInt8)) × History
  | [], history => ([], history)
  | operation :: rest, history =>
    let (answer, next) := operation.apply history
    let (answers, last) := applyAll rest next
    (answer :: answers, last)

end LogOperation

namespace EditLog

/-- What a log shows of a history: its records and its position, the questions that can be asked
about them, and a file of whole slots that holds them and nothing else. -/
structure Shows (log : EditLog) (history : History) : Prop where
  records : log.records = .ok history.records
  index : log.index = history.index
  count : log.count = history.records.length
  canUndo : log.canUndo = decide (0 < history.index)
  canRedo : log.canRedo = decide (history.index < history.records.length)
  size : log.file.content.length = log.stop
  slots : 16 ∣ log.position ∧ 16 ∣ log.stop
  bounds : 16 ≤ log.position ∧ log.position ≤ log.stop

/-! ### The invariant -/

/-- A log holds a history: on a device without faults its file is a header and the slots of the
records, and its position is behind the records that are done. -/
structure Holds (log : EditLog) (history : History) : Prop where
  sound : log.file.faults = {}
  header : headerFault? log.file.content = none
  position : log.position = 16 + 16 * history.index
  stop : log.stop = 16 + 16 * history.records.length
  size : log.file.content.length = log.stop
  records : recordsIn log.file.content history.records.length = history.records

namespace Holds

variable {log : EditLog} {history : History}

theorem position_le (holds : log.Holds history) : log.position ≤ log.stop := by
  have within := history.index_le
  rw [holds.position, holds.stop]
  omega

theorem count_eq (holds : log.Holds history) : log.count = history.records.length := by
  rw [count, holds.stop]
  omega

theorem index_eq (holds : log.Holds history) : log.index = history.index := by
  rw [index, holds.position]
  omega

theorem decode_slot (holds : log.Holds history) {number : Nat}
    (lt : number < history.records.length) :
    EditRecord.decode (slotAt log.file.content number) = history.records[number] := by
  have here := getElem?_recordsIn log.file.content lt
  rw [holds.records, List.getElem?_eq_getElem lt] at here
  exact (Option.some.inj here).symm

/-- The records that are done are those in the slots below the position. -/
theorem past_eq (holds : log.Holds history) :
    history.past = recordsIn log.file.content history.index := by
  rw [History.past, ← holds.records, take_recordsIn _ history.index_le]

theorem shows_history (holds : log.Holds history) : log.Shows history where
  records := by
    have slots : 16 + 16 * log.count = log.file.content.length := by
      rw [holds.size, holds.stop, holds.count_eq]
    rw [records_of_sound holds.sound (Nat.le_of_eq slots), holds.count_eq, holds.records]
  index := holds.index_eq
  count := holds.count_eq
  canUndo := by
    rw [canUndo, holds.position]
    exact decide_eq_decide.2 (by omega)
  canRedo := by
    rw [canRedo, holds.position, holds.stop]
    exact decide_eq_decide.2 (by omega)
  size := holds.size
  slots := by
    rw [holds.position, holds.stop]
    omega
  bounds := ⟨by rw [holds.position]; omega, holds.position_le⟩

/-! ### What each operation preserves -/

/-- Moving among the records of a history moves the log with it. -/
theorem movedTo (holds : log.Holds history) {index : Nat}
    (within : index ≤ history.records.length) :
    (log.movedTo (16 + 16 * index) log.stop).Holds ⟨history.records, index, within⟩ where
  sound := holds.sound
  header := holds.header
  position := rfl
  stop := holds.stop
  size := holds.size
  records := holds.records

/-- Steps that leave the slots and the length as they were, and a header in front of them, leave the
history as it was. -/
theorem carryOut (holds : log.Holds history) {steps : List FileStep}
    (header : headerFault? (log.carryOut steps).file.content = none)
    (size : (log.carryOut steps).file.content.length = log.stop)
    (slots : slotBytes (log.carryOut steps).file.content log.stop =
      slotBytes log.file.content log.stop) : (log.carryOut steps).Holds history where
  sound := (log.file.faults_makeAll steps).trans holds.sound
  header := header
  position := holds.position
  stop := holds.stop
  size := size
  records := (recordsIn_congr slots (Nat.le_of_eq holds.stop.symm)).trans holds.records

/-- The header is in front of the position, and the position is in the file. -/
theorem bounds (holds : log.Holds history) :
    16 ≤ log.position ∧ log.position ≤ log.file.content.length :=
  ⟨holds.shows_history.bounds.1, Nat.le_trans holds.position_le (Nat.le_of_eq holds.size.symm)⟩

/-- Behind entering a record, what stands below the position is what stood there, and the record
follows it. -/
theorem enteredContent_eq (holds : log.Holds history) (record : EditRecord) :
    enteredContent log.file.content log.position record =
      log.file.content.take log.position ++ record.encode := by
  rw [enteredContent, ← length_encode record, cutTo_writeAt holds.bounds.2]

/-- Entering a record puts it behind those that are done. -/
theorem entered (holds : log.Holds history) (record : EditRecord) :
    (log.withRecord record).Holds (history.enter record) := by
  have content := holds.enteredContent_eq record
  have front : (log.file.content.take log.position).length = log.position := by
    rw [List.length_take, Nat.min_eq_left holds.bounds.2]
  have size : (enteredContent log.file.content log.position record).length =
      log.position + slotSize := by
    rw [content, List.length_append, front, length_encode]
  have kept : (enteredContent log.file.content log.position record).take log.position =
      log.file.content.take log.position := by
    rw [content, List.take_append_of_le_length (Nat.le_of_eq front.symm), List.take_take,
      Nat.min_self]
  have count : (history.enter record).records.length = history.index + 1 := by
    show (history.past ++ [record]).length = _
    rw [List.length_append, History.length_past]
    rfl
  have last : slotAt (enteredContent log.file.content log.position record) history.index =
      record.encode := by
    rw [slotAt, ← holds.position, content,
      List.drop_append_of_le_length (Nat.le_of_eq front.symm),
      List.drop_eq_nil_of_le (Nat.le_of_eq front), List.nil_append,
      List.take_of_length_le (Nat.le_of_eq (length_encode record))]
  refine ⟨holds.sound, ?_, ?_, ?_, size, ?_⟩
  · have long := holds.bounds
    refine Eq.trans (headerFault?_congr ?_ ?_ ?_) holds.header
    · exact take_of_take (by omega) kept
    · show 16 ≤ (enteredContent log.file.content log.position record).length
      rw [size]
      omega
    · omega
  · show log.position + slotSize = 16 + 16 * (history.index + 1)
    rw [holds.position, slotSize]
    omega
  · show log.position + slotSize = _
    rw [count, holds.position, slotSize]
    omega
  · show recordsIn (enteredContent log.file.content log.position record) _ =
      history.past ++ [record]
    rw [count, recordsIn_succ, last, EditRecord.decode_encode, holds.past_eq]
    refine congrArg (· ++ [record]) (recordsIn_congr ?_ (Nat.le_of_eq holds.position.symm))
    rw [slotBytes, slotBytes, kept]

/-- Settling changes the position in the header only. -/
theorem settled (holds : log.Holds history) (position : UInt64) :
    (log.carryOut [positionStep position]).Holds history := by
  have long : positionOffset + (wordBytes position).length ≤ log.file.content.length := by
    have bounds := holds.bounds
    rw [length_wordBytes, positionOffset]
    omega
  have inside : positionOffset ≤ log.file.content.length := by
    rw [positionOffset] at long ⊢
    omega
  have size : (settledContent log.file.content position).length = log.file.content.length := by
    rw [settledContent, length_writeAt inside, Nat.max_eq_left long]
  refine holds.carryOut ?_ (size.trans holds.size) ?_
  · refine Eq.trans (headerFault?_congr ?_ ?_ (le_length_of_header holds.header)) holds.header
    · exact take_writeAt (Nat.le_refl _) inside
    · exact Nat.le_trans (le_length_of_header holds.header) (Nat.le_of_eq size.symm)
  · show slotBytes (settledContent log.file.content position) log.stop = _
    have behind : positionOffset + (wordBytes position).length ≤ 16 := by
      rw [length_wordBytes]
      decide
    rw [slotBytes, slotBytes, List.drop_take, List.drop_take, settledContent,
      drop_writeAt behind inside]

/-- Settling a position that is a word succeeds, and puts it into the header. -/
theorem settle (holds : log.Holds history) (small : log.position ≤ wordLimit) :
    ∃ next, EditLog.settle log = .ok () next ∧ next.Holds history ∧
      next.position = log.position ∧ next.stop = log.stop ∧
      headerPosition next.file.content = next.position :=
  ⟨_, settle_of_le holds.sound small, holds.settled _, rfl, rfl,
    headerPosition_settledContent (le_length_of_header holds.header) small⟩

/-- Undoing answers as the history does and moves the position only. -/
theorem undo (holds : log.Holds history) :
    EditLog.undo log =
        .ok history.undo.1 (log.movedTo (16 + 16 * history.undo.2.index) log.stop) ∧
      (log.movedTo (16 + 16 * history.undo.2.index) log.stop).Holds history.undo.2 := by
  obtain ⟨records, index, within⟩ := history
  cases index with
  | zero =>
    have position : log.position = 16 + 16 * 0 := holds.position
    have stays : log.movedTo (16 + 16 * 0) log.stop = log := by rw [← position]; rfl
    refine ⟨?_, holds.movedTo within⟩
    show EditLog.undo log = .ok none (log.movedTo (16 + 16 * 0) log.stop)
    rw [stays, undo_of_first (Nat.le_of_eq position)]
  | succ index =>
    have position : log.position = 32 + 16 * index := by
      have here : log.position = 16 + 16 * (index + 1) := holds.position
      omega
    have done := undo_of_slot holds.sound position holds.bounds.2
    rw [holds.decode_slot within] at done
    exact ⟨done, holds.movedTo (Nat.le_of_succ_le within)⟩

/-- Redoing answers as the history does and moves the position only. -/
theorem redo (holds : log.Holds history) :
    EditLog.redo log =
        .ok history.redo.1 (log.movedTo (16 + 16 * history.redo.2.index) log.stop) ∧
      (log.movedTo (16 + 16 * history.redo.2.index) log.stop).Holds history.redo.2 := by
  by_cases within : history.index < history.records.length
  · have below : log.position < log.stop := by
      rw [holds.position, holds.stop]
      omega
    have inside : 32 + 16 * history.index ≤ log.file.content.length := by
      rw [holds.size, holds.stop]
      omega
    have done := redo_of_slot holds.sound holds.position below inside
    have next : 32 + 16 * history.index = 16 + 16 * (history.index + 1) := by omega
    rw [holds.decode_slot within, next] at done
    rw [History.redo, dif_pos within]
    exact ⟨done, holds.movedTo within⟩
  · have last : log.stop ≤ log.position := by
      rw [holds.position, holds.stop]
      omega
    have stays : log.movedTo (16 + 16 * history.index) log.stop = log := by
      rw [← holds.position]
      rfl
    rw [History.redo, dif_neg within, stays]
    exact ⟨redo_of_last last, holds⟩

/-- An operation answers as the history does, or there is no room for it. -/
theorem run (holds : log.Holds history) (operation : LogOperation) :
    (∃ next, operation.run log = .ok (operation.apply history).1 next ∧
        next.Holds (operation.apply history).2) ∨
      ∃ failure, operation.run log = .error failure log ∧
        offsetLimit ≤ log.position + slotSize := by
  cases operation with
  | enter record =>
    by_cases room : log.position + slotSize < offsetLimit
    · exact .inl ⟨_, Action.bind_of_ok (enter_of_room holds.sound record room),
        holds.entered record⟩
    · have full := Nat.not_lt.1 room
      exact .inr ⟨_, Action.bind_of_error (enter_of_full holds.sound record full), full⟩
  | settle =>
    by_cases small : log.position ≤ wordLimit
    · exact .inl ⟨_, Action.bind_of_ok (settle_of_le holds.sound small), holds.settled _⟩
    · have large := Nat.not_le.1 small
      refine .inr ⟨_, Action.bind_of_error (settle_of_gt holds.sound large), ?_⟩
      exact Nat.le_trans (Nat.le_trans (by decide) large) (Nat.le_add_right _ _)
  | undo => exact .inl ⟨_, holds.undo⟩
  | redo => exact .inl ⟨_, holds.redo⟩

/-- Operations answer as the history does, one after the other, up to one that there is no room
for. -/
theorem runAll (holds : log.Holds history) (operations : List LogOperation) :
    (∃ last, LogOperation.runAll operations log =
          .ok (LogOperation.applyAll operations history).1 last ∧
        last.Holds (LogOperation.applyAll operations history).2) ∨
      ∃ failure stuck, LogOperation.runAll operations log = .error failure stuck ∧
        offsetLimit ≤ stuck.position + slotSize := by
  induction operations generalizing log history with
  | nil => exact .inl ⟨log, rfl, holds⟩
  | cons operation rest inductionHypothesis =>
    rcases holds.run operation with ⟨next, ran, nextHolds⟩ | ⟨failure, failed, full⟩
    · rcases inductionHypothesis nextHolds with ⟨last, ranAll, lastHolds⟩ |
        ⟨failure, stuck, failed, full⟩
      · exact .inl ⟨last, LogOperation.runAll_of_ok ran ranAll, lastHolds⟩
      · exact .inr ⟨failure, stuck, LogOperation.runAll_of_error_behind ran failed, full⟩
    · exact .inr ⟨failure, log, LogOperation.runAll_of_error failed, full⟩

end Holds

/-! ### Opened files -/

/-- A file that opens holds a history, its position is the one in its header, and the file is left
with the content of the log. -/
theorem holds_of_open {content left : List UInt8} {log : EditLog}
    (opened : openContent content = (.ok log, left)) :
    left = log.file.content ∧ headerPosition log.file.content = log.position ∧
      ∃ history, log.Holds history := by
  rcases openContent_eq_ok opened with ⟨-, rfl, rfl⟩ | ⟨header, rfl, whole, aligned, first, inside⟩
  · refine ⟨rfl, headerPosition_logHeader (by decide), ⟨[], 0, Nat.le_refl _⟩, ?_⟩
    exact ⟨rfl, headerFault?_logHeader 16, rfl, rfl, length_logHeader 16, rfl⟩
  · obtain ⟨long, _, slots⟩ := slotsUp_bounds content.length
    have header16 := le_length_of_header header
    -- filling up the last slot adds nothing in front of it
    have front : left.take 16 = content.take 16 := by
      rw [whole, take_cutTo (Nat.le_trans header16 long) header16]
    have size : left.length = slotsUp content.length := by rw [whole, length_cutTo]
    refine ⟨rfl, headerPosition_eq_of_take front, ?_⟩
    replace aligned : headerPosition content % 16 = 0 := aligned
    replace first : 16 ≤ headerPosition content := first
    replace inside : headerPosition content ≤ slotsUp content.length := inside
    refine ⟨⟨recordsIn left ((slotsUp content.length - 16) / 16),
      (headerPosition content - 16) / 16, ?_⟩, ?_⟩
    · rw [length_recordsIn]
      omega
    · refine ⟨rfl, ?_, ?_, ?_, size, ?_⟩
      · exact (headerFault?_eq_of_take front header16).trans header
      · show headerPosition content = 16 + 16 * ((headerPosition content - 16) / 16)
        omega
      · show slotsUp content.length = 16 + 16 * (recordsIn left _).length
        rw [length_recordsIn]
        omega
      · show recordsIn left (recordsIn left _).length = recordsIn left _
        rw [length_recordsIn]

/-- The last slot of a file that holds a history is whole. -/
theorem Holds.fill_eq {log : EditLog} {history : History} (holds : log.Holds history) :
    slotsUp log.file.content.length = log.stop ∧
      cutTo (slotsUp log.file.content.length) log.file.content = log.file.content := by
  have whole : slotsUp log.file.content.length = log.file.content.length := by
    rw [holds.size, holds.stop, slotsUp]
    omega
  refine ⟨whole.trans holds.size, ?_⟩
  rw [whole, cutTo_length]

/-- A log as it is when its file is closed and opened again, which begins a new account. -/
def reopened (log : EditLog) : EditLog := { log with file := { log.file with made := [] } }

theorem Holds.reopened {log : EditLog} {history : History} (holds : log.Holds history) :
    log.reopened.Holds history :=
  ⟨holds.sound, holds.header, holds.position, holds.stop, holds.size, holds.records⟩

theorem reopened_of_open {content left : List UInt8} {log : EditLog}
    (opened : openContent content = (.ok log, left)) : log.reopened = log := by
  rcases openContent_eq_ok opened with ⟨-, rfl, -⟩ | ⟨-, rfl, -⟩ <;> rfl

/-- A log whose header holds its position is the one that its file opens as. -/
theorem Holds.openContent_eq {log : EditLog} {history : History} (holds : log.Holds history)
    (settled : headerPosition log.file.content = log.position) :
    openContent log.file.content = (.ok log.reopened, log.file.content) := by
  obtain ⟨size, same⟩ := holds.fill_eq
  have aligned : log.position % 16 = 0 := by
    rw [holds.position]
    omega
  rw [openContent_of_header holds.header settled aligned holds.bounds.1
    (size.symm ▸ holds.position_le), same, size]
  obtain ⟨⟨content, faults, made⟩, position, stop⟩ := log
  have sound : faults = {} := holds.sound
  rw [sound]
  rfl

/-- A log whose header holds a position behind its last record does not open. -/
theorem Holds.openContent_of_far {log : EditLog} {history : History} (holds : log.Holds history)
    (far : log.stop < headerPosition log.file.content) :
    openContent log.file.content =
      (.error (.position (headerPosition log.file.content)), log.file.content) := by
  obtain ⟨size, same⟩ := holds.fill_eq
  have misplaced : Misplaced log.file.content := .inr (.inr (size.symm ▸ far))
  exact openContent_eq_error_iff.2 (.inr ⟨holds.header, misplaced, rfl, same.symm⟩)

/-- A log does to its file what a history does to its list. -/
theorem runAll_refines_history {content left : List UInt8} {log : EditLog}
    (opened : openContent content = (.ok log, left)) :
    ∃ history, log.Shows history ∧ ∀ operations,
      match LogOperation.runAll operations log with
      | .ok answers last =>
        answers = (LogOperation.applyAll operations history).1 ∧
          last.Shows (LogOperation.applyAll operations history).2
      | .error _ stuck => offsetLimit ≤ stuck.position + slotSize := by
  obtain ⟨_, _, history, holds⟩ := holds_of_open opened
  refine ⟨history, holds.shows_history, fun operations => ?_⟩
  rcases holds.runAll operations with ⟨last, ran, lastHolds⟩ | ⟨failure, stuck, failed, full⟩
  · rw [ran]
    exact ⟨rfl, lastHolds.shows_history⟩
  · rw [failed]
    exact full

/-- A log file with one record that is done, and behind it the beginning of another one. -/
def tornContent : List UInt8 := logHeader 32 ++ EditRecord.encode ⟨5, 1, 2⟩ ++ [7, 0, 0]

def tornLog : EditLog where
  file := { content := tornContent ++ List.replicate 13 0 }
  position := 32
  stop := 48

theorem runAll_refines_history_tornLog :
    openContent tornContent = (.ok tornLog, tornLog.file.content) ∧
      ∃ history, tornLog.Shows history ∧ ∀ operations,
        match LogOperation.runAll operations tornLog with
        | .ok answers last =>
          answers = (LogOperation.applyAll operations history).1 ∧
            last.Shows (LogOperation.applyAll operations history).2
        | .error _ stuck => offsetLimit ≤ stuck.position + slotSize := by
  have opened : openContent tornContent = (.ok tornLog, tornLog.file.content) := rfl
  exact ⟨opened, runAll_refines_history opened⟩

end EditLog

end HexEditor
