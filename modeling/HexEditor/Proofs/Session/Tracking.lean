/-
The file of a session and its log never drift apart. The records of the log lead from
the bytes that the file once had through a chain of contents, one for each record that
is done or undone, and the file holds the one that belongs to the position of the log.
A byte of which one digit is typed remembers what the file holds at its address. Each
change of the file follows the chain: an edit adds a content at its end and drops those
that could still be redone, and undoing and redoing move to a neighbour.
-/

import HexEditor.Proofs.History.Refinement
import HexEditor.Proofs.Session.Work

namespace HexEditor

/-! ### Bytes of the file -/

namespace EditedFile

variable {file : EditedFile} {offset : Int}

/-- Where one byte is read, the file has one, and the offset is not negative and not too large. -/
theorem read_one_of_ok {bytes : List UInt8} (taken : file.read offset 1 = .ok bytes) :
    0 ≤ offset ∧ offset < offsetLimit ∧ offset.toNat < file.content.size ∧
      bytes = (file.content.extract offset.toNat (offset.toNat + 1)).toList := by
  obtain ⟨accessed, -, -, taken⟩ := read_eq_ok taken
  obtain ⟨-, natural, -, -, small⟩ := accessFailure?_eq_none accessed
  unfold ByteReader.readArray at taken
  split at taken
  · cases taken
  split at taken
  · next none => cases none
  split at taken
  · next inside =>
    cases taken
    exact ⟨natural, small, inside, rfl⟩
  · cases taken

/-- Nothing is held back behind a byte that is read. -/
theorem heldBack_of_byteAt {byte : UInt8} (taken : file.byteAt offset = .ok byte) :
    (file.behindRead offset 1).heldBack = none := by
  unfold byteAt at taken
  split at taken
  · next first rest read =>
    obtain ⟨accessed, free, -, -⟩ := read_eq_ok read
    rw [behindRead, accessed]
    exact heldBack_flush free
  · cases taken
  · cases taken

/-- A byte that is read is in the file, and its address is a word. -/
theorem getElem?_of_byteAt {byte : UInt8} (taken : file.byteAt offset = .ok byte) :
    ∃ address : UInt64, offset = address.toNat ∧ file.content[address.toNat]? = some byte := by
  unfold byteAt at taken
  split at taken
  · next first rest read =>
    obtain ⟨natural, small, inside, bytes⟩ := read_one_of_ok read
    cases taken
    have word : (UInt64.ofNat offset.toNat).toNat = offset.toNat := by
      have fits : offset.toNat ≤ wordLimit := by
        rw [offsetLimit] at small
        rw [wordLimit]
        omega
      exact toNat_ofNat_of_le fits
    refine ⟨UInt64.ofNat offset.toNat, by rw [word]; omega, ?_⟩
    have here := congrArg (fun bytes : List UInt8 => bytes[0]?) bytes
    rw [word]
    simpa using here.symm
  · cases taken
  · cases taken

end EditedFile

/-! ### Chains of contents -/

/-- A record leads from some content to another: at its address is the old byte, and the new one
takes its place. -/
def EditRecord.Changes (record : EditRecord) (before after : Array UInt8) : Prop :=
  before[record.address.toNat]? = some record.old ∧
    after = before.setIfInBounds record.address.toNat record.new

namespace EditRecord.Changes

variable {record : EditRecord} {before after : Array UInt8}

/-- The address lies in both contents. -/
theorem address_lt (changes : record.Changes before after) :
    record.address.toNat < before.size ∧ record.address.toNat < after.size := by
  have inside : record.address.toNat < before.size := by
    refine Nat.not_le.1 fun outside => ?_
    have missing := changes.1
    rw [Array.getElem?_eq_none outside] at missing
    cases missing
  refine ⟨inside, ?_⟩
  rw [changes.2, Array.size_setIfInBounds]
  exact inside

/-- The old byte takes a change back. -/
theorem restore (changes : record.Changes before after) :
    after.setIfInBounds record.address.toNat record.old = before := by
  rw [changes.2, Array.setIfInBounds_setIfInBounds]
  exact EditedFile.setIfInBounds_of_getElem? changes.1

end EditRecord.Changes

/-- Contents that records lead through, one after the other. -/
structure Chain (origin : Array UInt8) (records : List EditRecord) (contents : Nat → Array UInt8) :
    Prop where
  origin_eq : contents 0 = origin
  changes : ∀ (number : Nat) (lt : number < records.length),
    records[number].Changes (contents number) (contents (number + 1))

/-- A new edit adds a content behind those of the records that are done. -/
theorem Chain.enter {origin : Array UInt8} {history : History} {contents : Nat → Array UInt8}
    (chain : Chain origin history.records contents) {record : EditRecord} {next : Array UInt8}
    (changes : record.Changes (contents history.index) next) :
    Chain origin (history.enter record).records fun number =>
      if number ≤ history.index then contents number else next := by
  have past := history.length_past
  refine ⟨?_, fun number lt => ?_⟩
  · rw [if_pos (Nat.zero_le _)]
    exact chain.origin_eq
  · have records : (history.enter record).records = history.past ++ [record] := rfl
    have bound : number < history.index + 1 := by
      rw [records, List.length_append, past] at lt
      exact lt
    have here : number ≤ history.index := Nat.lt_succ_iff.1 bound
    simp only [records, if_pos here]
    rcases Nat.lt_or_eq_of_le here with before | rfl
    · have inside : number < history.records.length := Nat.lt_of_lt_of_le before history.index_le
      rw [if_pos (Nat.succ_le_of_lt before), List.getElem_append_left (past.symm ▸ before)]
      simp only [History.past, List.getElem_take]
      exact chain.changes number inside
    · rw [if_neg (Nat.not_succ_le_self _), List.getElem_append_right (Nat.le_of_eq past)]
      simp only [past, Nat.sub_self, List.getElem_cons_zero]
      exact changes

/-- What a step through the history does to it. -/
def HistoryStep.apply : HistoryStep → History → Option (UInt64 × UInt8) × History
  | undo, history => history.undo
  | redo, history => history.redo

/-- A step that finds a record writes the byte that leads to a neighbour in the chain. -/
theorem Chain.step_of_some {origin : Array UInt8} {history : History} {contents : Nat → Array UInt8}
    (chain : Chain origin history.records contents) {step : HistoryStep} {address : UInt64}
    {value : UInt8} (found : (step.apply history).1 = some (address, value)) :
    (step.apply history).2.records = history.records ∧
      address.toNat < (contents history.index).size ∧
      (contents history.index).setIfInBounds address.toNat value =
        contents (step.apply history).2.index := by
  cases step with
  | undo =>
    obtain ⟨records, index, within⟩ := history
    cases index with
    | zero => cases found
    | succ index =>
      have changes := chain.changes index within
      cases found
      exact ⟨rfl, changes.address_lt.2, changes.restore⟩
  | redo =>
    by_cases more : history.index < history.records.length
    · have changes := chain.changes history.index more
      rw [HistoryStep.apply, History.redo, dif_pos more] at found ⊢
      cases found
      exact ⟨rfl, changes.address_lt.1, changes.2.symm⟩
    · simp only [HistoryStep.apply, History.redo, dif_neg more] at found
      cases found

/-- A step that finds no record leaves the history alone. -/
theorem HistoryStep.apply_of_none {history : History} {step : HistoryStep}
    (missing : (step.apply history).1 = none) : (step.apply history).2 = history := by
  cases step with
  | undo =>
    obtain ⟨records, index, within⟩ := history
    cases index with
    | zero => rfl
    | succ index => cases missing
  | redo =>
    by_cases more : history.index < history.records.length
    · simp only [HistoryStep.apply, History.redo, dif_pos more] at missing
      cases missing
    · simp only [HistoryStep.apply, History.redo, dif_neg more]

theorem EditLog.Holds.step {log : EditLog} {history : History} (holds : log.Holds history)
    (step : HistoryStep) :
    Session.logStep step log =
        .ok (step.apply history).1
          (log.movedTo (16 + 16 * (step.apply history).2.index) log.stop) ∧
      (log.movedTo (16 + 16 * (step.apply history).2.index) log.stop).Holds
        (step.apply history).2 := by
  cases step with
  | undo => exact holds.undo
  | redo => exact holds.redo

namespace Session

/-- A session tracks a history on a chain of contents: its log holds the history and is settled with
room to spare, its file holds the content at the index, and a half-typed byte remembers the byte at
its address. -/
structure Tracks (session : Session) (origin : Array UInt8) (history : History)
    (contents : Nat → Array UInt8) : Prop where
  willing : session.file.Willing
  holds : session.log.Holds history
  settled : EditLog.headerPosition session.log.file.content = session.log.position
  room : session.log.stop < offsetLimit
  chain : Chain origin history.records contents
  content_eq : session.file.content = contents history.index
  remembers : ∀ pending, session.pending = some pending → session.window.nibble = 1 →
    ∃ address : UInt64, pending.address = address.toNat ∧
      session.file.content[address.toNat]? = some pending.old

variable {session : Session} {origin : Array UInt8} {history : History}
  {contents : Nat → Array UInt8}

theorem Tracks.of_quiet {after : Session} (tracks : session.Tracks origin history contents)
    (quiet : Quiet session after) : after.Tracks origin history contents where
  willing := tracks.willing.of_kept quiet.file
  holds := quiet.log ▸ tracks.holds
  settled := by rw [quiet.log, tracks.settled]
  room := quiet.log ▸ tracks.room
  chain := tracks.chain
  content_eq := quiet.file.content_eq.trans tracks.content_eq
  remembers := by
    intro pending half typed
    rw [quiet.file.content_eq]
    rcases quiet.pending with same | none
    · rcases quiet.nibble with digit | zero
      · exact tracks.remembers pending (same ▸ half) (digit ▸ typed)
      · rw [zero] at typed
        cases typed
    · rw [none] at half
      cases half

/-! ### Changes of the file -/

/-- The session behind writing a byte. -/
def written (session : Session) (address : UInt64) (value : UInt8) : Session :=
  { session with
    file := { session.file with
      content := session.file.content.setIfInBounds address.toNat value
      writable := true
      heldBack := none } }

theorem writeByte_of_lt (willing : session.file.Willing) {address : UInt64}
    (inside : address.toNat < session.file.content.size) (value : UInt8) :
    writeByte address.toNat value session = .ok () (session.written address value) := by
  rw [writeByte, willing.writeByte_of_lt inside]
  rfl

/-- Writing a byte that makes the file what the chain has at the index, and settling the log, makes
the session track the history of the log. -/
theorem write_and_settle (session : Session) (willing : session.file.Willing)
    (holds : session.log.Holds history) (room : session.log.stop < offsetLimit)
    (chain : Chain origin history.records contents)
    {address : UInt64} (inside : address.toNat < session.file.content.size) {value : UInt8}
    (reached : session.file.content.setIfInBounds address.toNat value = contents history.index) :
    ∃ log, writeByte address.toNat value session = .ok () (session.written address value) ∧
      onLog .log EditLog.settle (session.written address value) =
        .ok () { session.written address value with log } ∧
      ∀ after : Session, after.file = (session.written address value).file → after.log = log →
        (after.pending = none ∨ after.window.nibble = 0) →
        after.Tracks origin history contents := by
  have small : session.log.position ≤ wordLimit :=
    Nat.le_trans holds.position_le (Nat.le_trans (Nat.le_of_lt room) (by decide))
  obtain ⟨log, ran, logHolds, position, stop, settled⟩ := holds.settle small
  refine ⟨log, writeByte_of_lt willing inside value, ?_, ?_⟩
  · have same : (session.written address value).log = session.log := rfl
    rw [onLog, same, ran]
  · intro after file rfl forgotten
    refine ⟨?_, logHolds, settled, stop.symm ▸ room, chain, by rw [file]; exact reached, ?_⟩
    · rw [file]
      exact ⟨willing.opened, willing.accepts, willing.passes⟩
    intro pending half typed
    rcases forgotten with none | zero
    · rw [none] at half
      cases half
    · rw [zero] at typed
      cases typed

/-! ### Steps through the history -/

/-- Writing a byte that the chain has at the index, and going there, tracks the history. -/
theorem replay_tracks (session : Session) (willing : session.file.Willing)
    (holds : session.log.Holds history) (room : session.log.stop < offsetLimit)
    (chain : Chain origin history.records contents)
    {address : UInt64} (inside : address.toNat < session.file.content.size) {value : UInt8}
    (reached : session.file.content.setIfInBounds address.toNat value = contents history.index) :
    ∃ next, replay address value session = .ok () next ∧
      next.Tracks origin history contents ∧ next.mode = session.mode := by
  obtain ⟨log, wrote, settled, tracks⟩ :=
    write_and_settle session willing holds room chain inside reached
  refine ⟨_, (Action.bind_of_ok wrote).trans (Action.bind_of_ok settled), ?_, rfl⟩
  refine tracks _ rfl rfl (.inr ?_)
  exact Window.nibble_goto _ _ _

/-- A step that finds a record succeeds and moves along the chain. -/
theorem Tracks.stepHistory_of_some (tracks : session.Tracks origin history contents)
    (writable : session.mode ≠ .read) {step : HistoryStep} {address : UInt64} {value : UInt8}
    (found : (step.apply history).1 = some (address, value)) :
    ∃ next, stepHistory step session = .ok () next ∧
      next.Tracks origin (step.apply history).2 contents ∧ next.mode = session.mode := by
  obtain ⟨records, inside, reached⟩ := tracks.chain.step_of_some found
  obtain ⟨answered, moved⟩ := tracks.holds.step step
  rw [← tracks.content_eq] at inside reached
  have asked : onLog .log (logStep step) session = .ok (some (address, value))
      { session with
        log := session.log.movedTo (16 + 16 * (step.apply history).2.index) session.log.stop } := by
    rw [onLog, answered, found]
  obtain ⟨next, replayed, nextTracks, mode⟩ := replay_tracks { session with
      log := session.log.movedTo (16 + 16 * (step.apply history).2.index) session.log.stop }
    tracks.willing moved tracks.room (records.symm ▸ tracks.chain) inside reached
  refine ⟨next, ?_, nextTracks, mode⟩
  rw [stepHistory]
  rw [Action.bind_get]
  rw [if_neg writable]
  exact (Action.bind_of_ok asked).trans replayed

/-- A step through the history tracks what it makes of it. -/
theorem Tracks.stepHistory (tracks : session.Tracks origin history contents) (step : HistoryStep) :
    ∃ history, (Action.left (stepHistory step session)).Tracks origin history contents := by
  by_cases readOnly : session.mode = .read
  · refine ⟨history, ?_⟩
    rw [Session.stepHistory]
    rw [Action.bind_get]
    rw [if_pos readOnly]
    exact tracks
  · cases found : (step.apply history).1 with
    | some pair =>
      obtain ⟨next, ran, nextTracks, _⟩ := tracks.stepHistory_of_some readOnly found
      rw [ran]
      exact ⟨_, nextTracks⟩
    | none =>
      obtain ⟨answered, moved⟩ := tracks.holds.step step
      have same := HistoryStep.apply_of_none found
      have stays : session.log.movedTo (16 + 16 * (step.apply history).2.index) session.log.stop =
          session.log := by
        rw [same, ← tracks.holds.position]
        rfl
      have asked : onLog .log (logStep step) session = .ok none session := by
        rw [onLog, answered, found, stays]
      refine ⟨history, ?_⟩
      rw [Session.stepHistory]
      rw [Action.bind_get]
      rw [if_neg readOnly]
      rw [Action.bind_of_ok asked]
      exact tracks

/-! ### Typed digits -/

/-- Replacing the byte that the file has at an address tracks the history with the edit, or with
nothing new if there is no room for another record. -/
theorem Tracks.replaceByte (tracks : session.Tracks origin history contents)
    (forgotten : session.pending = none) {address : UInt64} {old : UInt8}
    (there : session.file.content[address.toNat]? = some old) (new : UInt8) :
    ∃ history contents,
      (Action.left (replaceByte address.toNat old new session)).Tracks origin history contents := by
  have room := tracks.room
  by_cases space : session.log.position + slotSize < offsetLimit
  · have entered := tracks.holds.entered ⟨address, old, new⟩
    have asked : onLog (fun cause => .command (.notLogged cause))
        (EditLog.enter address.toNat old.toNat new.toNat) session =
          .ok () { session with log := session.log.withRecord ⟨address, old, new⟩ } := by
      rw [onLog, EditLog.enter_of_room tracks.holds.sound ⟨address, old, new⟩ space]
    have changes : EditRecord.Changes ⟨address, old, new⟩ (contents history.index)
        (session.file.content.setIfInBounds address.toNat new) := by
      rw [← tracks.content_eq]
      exact ⟨there, rfl⟩
    have inside : address.toNat < session.file.content.size := by
      rw [tracks.content_eq]
      exact changes.address_lt.1
    have reached : session.file.content.setIfInBounds address.toNat new =
        if (history.enter ⟨address, old, new⟩).index ≤ history.index then
          contents (history.enter ⟨address, old, new⟩).index
        else session.file.content.setIfInBounds address.toNat new :=
      (if_neg (Nat.not_succ_le_self _)).symm
    obtain ⟨log, wrote, settled, after⟩ :=
      write_and_settle { session with log := session.log.withRecord ⟨address, old, new⟩ }
        tracks.willing entered space (tracks.chain.enter changes) inside reached
    rw [Session.replaceByte]
    rw [Action.bind_of_ok asked]
    rw [Action.bind_of_ok wrote]
    rw [settled]
    exact ⟨_, _, after _ rfl rfl (.inl forgotten)⟩
  · have refused := EditLog.enter_of_full tracks.holds.sound ⟨address, old, new⟩
      (Nat.not_lt.1 space)
    have asked : onLog (fun cause => .command (.notLogged cause))
        (EditLog.enter address.toNat old.toNat new.toNat) session =
          .error (.command (.notLogged (.notEntered (.refused .write)))) session := by
      rw [onLog, refused]
    refine ⟨history, contents, ?_⟩
    rw [Session.replaceByte]
    rw [Action.bind_of_error asked]
    exact tracks

/-- The cursor moves on behind an action, whether it failed or not. -/
theorem left_thenRight (action : Action Unit) (session : Session) :
    Action.left (thenRight action session) =
      { Action.left (action session) with
        window := (Action.left (action session)).window.right } := by
  rw [thenRight]
  cases action session <;> rfl

/-- The first digit of a byte remembers what the file holds there. -/
theorem Tracks.begin (tracks : session.Tracks origin history contents)
    (fresh : session.pendingByte = none) (digit : Nat) :
    (Action.left (typeDigit digit session)).Tracks origin history contents := by
  rcases typeDigit_of_fresh fresh digit with ⟨file, kept, same⟩ | ⟨old, taken, same⟩
  · rw [same]
    exact tracks.of_quiet ⟨kept, rfl, .inl rfl, .inl rfl⟩
  · rw [same]
    have kept := session.file.kept_behindRead session.window.cursor 1
    refine { tracks with willing := tracks.willing.of_kept kept, content_eq := ?_, remembers := ?_ }
    · exact kept.content_eq.trans tracks.content_eq
    intro pending half _
    cases half
    obtain ⟨address, word, there⟩ := EditedFile.getElem?_of_byteAt taken
    exact ⟨address, word, kept.content_eq ▸ there⟩

/-- The second digit tracks the history with the edit of the byte. -/
theorem Tracks.commit (tracks : session.Tracks origin history contents) {pending : PendingByte}
    (half : session.pendingByte = some pending) (digit : Nat) :
    ∃ history contents,
      (Action.left ((Work.commit pending digit).run { session with pending := none })).Tracks
        origin history contents := by
  obtain ⟨here, valid⟩ := Option.filter_eq_some_iff.1 half
  have typed : session.window.nibble = 1 := by
    rw [Bool.and_eq_true, beq_iff_eq] at valid
    exact valid.1
  -- nothing has been written since the first digit, so the remembered byte is still there
  obtain ⟨address, same, there⟩ := tracks.remembers pending here typed
  have given : Quiet session { session with pending := none } :=
    ⟨.same, rfl, .inr rfl, .inl rfl⟩
  obtain ⟨history, contents, replaced⟩ := (tracks.of_quiet given).replaceByte rfl there
    (withLowerDigit pending.value digit)
  rw [Work.run, same, left_thenRight]
  exact ⟨history, contents,
    replaced.of_quiet ⟨.same, rfl, .inl rfl, .inr (Window.nibble_right _)⟩⟩

end Session

end HexEditor
