/-
The bytes on the screen. They are read as a whole and cut into rows, and a byte that is
half-typed is put in its place. So each of them stands in the row and at the place that its
distance from the first one says: what the file holds there, or what is typed so far. They
can be read as long as the file can and there is room for them.
-/

import HexEditor.Proofs.Session.Placing
import HexEditor.Screen.Composition

namespace HexEditor

/-! ### Bytes in rows -/

/-- Rows of the bytes from `start` up to `stop`, all of which have words as their offsets. -/
structure HoldRows (byteAt : Int → Option UInt8) (start stop : Int)
    (rows : List (List UInt8)) : Prop where
  absent : ∀ row : Nat, stop ≤ start + 16 * row → rows[row]? = none
  present : ∀ row : Nat, start + 16 * row < stop →
    ∃ bytes, rows[row]? = some bytes ∧ bytes.length = 16 ∧
      ∀ place : Nat, place < 16 → start + 16 * row + place < stop →
        bytes[place]? = byteAt (start + 16 * row + place)
  small : start < stop → 0 ≤ start ∧ stop ≤ wordLimit

theorem HoldRows.of_same {byteAt other : Int → Option UInt8} {start stop : Int}
    {rows : List (List UInt8)} (holds : HoldRows byteAt start stop rows)
    (same : ∀ offset, start ≤ offset → offset < stop → byteAt offset = other offset) :
    HoldRows other start stop rows where
  absent := holds.absent
  present row before := by
    obtain ⟨bytes, found, length, shown⟩ := holds.present row before
    refine ⟨bytes, found, length, fun place inRow inside => ?_⟩
    rw [shown place inRow inside, same _ (by omega) inside]
  small := holds.small

namespace EditedFile

variable {file : EditedFile} {rows : List (List UInt8)}

theorem getElem?_rowsOf (bytes : List UInt8) (row : Nat) :
    (rowsOf bytes)[row]? =
      if 16 * row < bytes.length then
        let cut := (bytes.drop (16 * row)).take 16
        some (cut ++ List.replicate (16 - cut.length) 0)
      else
        none := by
  induction row generalizing bytes with
  | zero =>
    rw [rowsOf]
    cases bytes <;> rfl
  | succ row inductionHypothesis =>
    rw [rowsOf]
    split
    · next empty =>
      obtain rfl := List.isEmpty_iff.1 empty
      rfl
    · have rows : rowBytes + 16 * row = 16 * (row + 1) := by
        rw [rowBytes]
        omega
      rw [List.getElem?_cons_succ, inductionHypothesis, List.drop_drop, List.length_drop, rows,
        rowBytes]
      by_cases more : 16 * (row + 1) < bytes.length
      · rw [if_pos (by omega), if_pos more]
      · rw [if_neg (by omega), if_neg more]

/-- Bytes cut into rows stand where their distance from the first one says. -/
theorem holdRows_rowsOf {bytes : List UInt8} {start : Int}
    (small : 0 < bytes.length → 0 ≤ start ∧ start + bytes.length ≤ wordLimit) :
    HoldRows (fun offset => bytes[(offset - start).toNat]?) start (start + bytes.length)
      (rowsOf bytes) where
  absent row behind := by
    rw [getElem?_rowsOf, if_neg (by omega)]
  present row before := by
    have more : 16 * row < bytes.length := by omega
    refine ⟨_, (getElem?_rowsOf bytes row).trans (if_pos more), ?_, fun place inRow inside => ?_⟩
    · simp only [List.length_append, List.length_take, List.length_drop, List.length_replicate]
      omega
    · have distance : (start + 16 * row + place - start).toNat = 16 * row + place := by omega
      have within : place < ((bytes.drop (16 * row)).take 16).length := by
        simp only [List.length_take, List.length_drop]
        omega
      rw [List.getElem?_append_left within, List.getElem?_take_of_lt inRow, List.getElem?_drop,
        distance]
  small some := small (by omega)

/-- Bytes that are read are those of the file, whose offset is not too large, and there is room for
them. -/
theorem read_of_ok {offset count : Int} {bytes : List UInt8} (positive : 0 < count)
    (taken : file.read offset count = .ok bytes) :
    0 ≤ offset ∧ offset < offsetLimit ∧ count < roomLimit ∧ bytes.length = count ∧
      ∀ index : Nat, index < bytes.length →
        bytes[index]? = file.content[offset.toNat + index]? := by
  obtain ⟨accessed, -, possible, taken⟩ := read_eq_ok taken
  obtain ⟨-, natural, -, -, small⟩ := accessFailure?_eq_none accessed
  unfold lengthFailure? at possible
  split_ifs at possible with long large
  unfold ByteReader.readArray at taken
  split at taken
  · cases taken
  split at taken
  · omega
  split at taken
  · next inside =>
    cases taken
    have length : (file.content.extract offset.toNat (offset.toNat + count.toNat)).toList.length =
        count.toNat := by
      rw [Array.length_toList, Array.size_extract]
      omega
    refine ⟨by omega, by omega, by omega, by omega, fun index within => ?_⟩
    rw [length] at within
    rw [Array.getElem?_toList, Array.getElem?_extract_of_lt (by omega)]
    exact (Array.getElem?_eq_getElem _).symm
  · cases taken

/-- Rows that are read hold the bytes of the file. -/
theorem holdRows_readRows {start stop : Int} (taken : file.readRows start stop = .ok rows) :
    HoldRows (fun offset => file.content[offset.toNat]?) start stop rows := by
  unfold readRows at taken
  split at taken
  · next none =>
    cases taken
    exact ⟨fun _ _ => rfl, fun row before => by omega, fun some => by omega⟩
  next some =>
  dsimp only at taken
  split at taken
  · cases taken
  cases read : file.read start (stop - start) with
  | error failure =>
    rw [read] at taken
    cases taken
  | ok bytes =>
    rw [read] at taken
    cases taken
    obtain ⟨natural, start_lt, count_lt, length, found⟩ := read_of_ok (by omega) read
    have stop_eq : start + bytes.length = stop := by omega
    have small : start + bytes.length ≤ wordLimit := by
      rw [offsetLimit] at start_lt
      rw [roomLimit] at count_lt
      rw [wordLimit]
      omega
    rw [← stop_eq]
    refine (holdRows_rowsOf fun _ => ⟨natural, small⟩).of_same fun offset behind before => ?_
    rw [found _ (by omega)]
    congr 1
    omega

/-- There are bytes of a length that there is room for. -/
theorem lengthFailure?_of_lt {length limit : Nat} (large : roomLimit ≤ limit)
    (room : length < roomLimit) : lengthFailure? length limit = none := by
  rw [lengthFailure?, if_neg (by omega), if_neg (by omega)]

/-- Rows can be read from an open file as long as its device can be reached and reads, and there is
room for them. -/
theorem exists_readRows {start stop : Int} (reads : file.refusesRead = false)
    (free : file.stuck = false) (opened : file.closed = false) (natural : 0 ≤ start)
    (inFile : stop ≤ file.size) (possible : file.size ≤ offsetLimit)
    (room : stop - start + 15 < roomLimit) :
    ∃ rows, file.readRows start stop = .ok rows := by
  unfold readRows
  split
  · exact ⟨_, rfl⟩
  next some =>
  have whole : lengthFailure? (((stop - start).toNat + rowBytes - 1) / rowBytes * rowBytes)
      offsetLimit = none := by
    refine lengthFailure?_of_lt (by decide) ?_
    rw [rowBytes]
    omega
  have part : lengthFailure? (stop - start).toNat lengthLimit = none :=
    lengthFailure?_of_lt (by decide) (by omega)
  have valid : ¬ (start < 0 ∨ stop - start < 0) := by omega
  have small : ¬ (offsetLimit : Int) ≤ start := by omega
  have read : ∃ bytes, file.read start (stop - start) = .ok bytes := by
    have accessed : file.accessFailure? start (stop - start) = none := by
      rw [accessFailure?, if_neg (ne_true_of_eq_false reads), if_neg valid,
        if_neg (ne_true_of_eq_false opened), if_neg small]
    rw [EditedFile.read, accessed]
    dsimp only
    rw [if_neg (ne_true_of_eq_false free), part]
    dsimp only
    have inside : start.toNat + (stop - start).toNat ≤ file.content.size := by
      have : file.size = file.content.size := rfl
      omega
    rw [ByteReader.readArray, if_neg (by omega), if_neg (by omega), if_pos inside]
    exact ⟨_, rfl⟩
  obtain ⟨bytes, read⟩ := read
  refine ⟨rowsOf bytes, ?_⟩
  dsimp only
  rw [whole, read]
  rfl

end EditedFile

/-! ### Half-typed bytes -/

/-- A byte that is replaced is the only one that is another one then. -/
theorem HoldRows.replaceInRows {byteAt : Int → Option UInt8} {start stop distance : Int}
    {rows next : List (List UInt8)} {value : UInt8} (holds : HoldRows byteAt start stop rows)
    (replaced : replaceInRows rows distance value = some next) :
    HoldRows (fun offset => if offset = start + distance then some value else byteAt offset) start
      stop next := by
  unfold HexEditor.replaceInRows at replaced
  dsimp only at replaced
  split_ifs at replaced with inside
  cases replaced
  refine ⟨fun row behind => ?_, fun row before => ?_, holds.small⟩
  · rw [List.getElem?_modify, holds.absent row behind]
    rfl
  · obtain ⟨bytes, found, length, shown⟩ := holds.present row before
    rw [List.getElem?_modify, found]
    by_cases here : (distance / 16).toNat = row
    · refine ⟨bytes.set (distance % 16).toNat value, congrArg some (if_pos here), ?_, ?_⟩
      · rw [List.length_set]
        exact length
      · intro place inRow within
        rw [List.getElem?_set]
        by_cases same : (distance % 16).toNat = place
        · rw [if_pos same, if_pos (by omega), if_pos (by omega)]
        · rw [if_neg same, if_neg (by omega)]
          exact shown place inRow within
    · refine ⟨bytes, congrArg some (if_neg here), length, fun place inRow within => ?_⟩
      rw [if_neg (by omega)]
      exact shown place inRow within

/-- A byte in the rows can be replaced. -/
theorem HoldRows.exists_replaceInRows {byteAt : Int → Option UInt8} {start stop distance : Int}
    {rows : List (List UInt8)} (holds : HoldRows byteAt start stop rows) (natural : 0 ≤ distance)
    (before : start + distance < stop) (value : UInt8) :
    ∃ next, HexEditor.replaceInRows rows distance value = some next := by
  obtain ⟨bytes, found, -, -⟩ := holds.present (distance / 16).toNat (by omega)
  obtain ⟨inside, -⟩ := List.getElem?_eq_some_iff.1 found
  exact ⟨_, if_pos ⟨natural, inside⟩⟩

namespace Session

variable {session : Session}

/-- The byte that is to be seen at an offset: the one that is typed so far, or that of the file. -/
def byteShown (session : Session) (offset : Int) : Option UInt8 :=
  match session.pendingByte with
  | some pending =>
    if offset = pending.address then some pending.value else session.file.content[offset.toNat]?
  | none => session.file.content[offset.toNat]?

/-- The device can be reached and reads, and there is room for the bytes on the screen. -/
structure CanShow (session : Session) : Prop where
  reads : session.file.refusesRead = false
  free : session.file.stuck = false
  possible : session.file.size ≤ offsetLimit
  room : session.window.endOffset - session.window.base + 15 < roomLimit

/-- The rows on the screen hold the bytes that are to be seen. -/
theorem holdRows_visibleBytes {rows : List (List UInt8)}
    (visible : session.visibleBytes = .ok rows) :
    HoldRows session.byteShown session.window.base session.window.endOffset rows := by
  unfold visibleBytes at visible
  cases read : session.file.readRows session.window.base session.window.endOffset with
  | error failure =>
    rw [read] at visible
    cases visible
  | ok plain =>
    have holds := EditedFile.holdRows_readRows read
    rw [read] at visible
    cases half : session.pendingByte with
    | none =>
      rw [half] at visible
      cases visible
      refine holds.of_same fun offset _ _ => ?_
      rw [byteShown, half]
    | some pending =>
      rw [half] at visible
      dsimp only at visible
      cases replaced : replaceInRows plain (pending.address - session.window.base)
          pending.value with
      | none =>
        rw [replaced] at visible
        cases visible
      | some next =>
        rw [replaced] at visible
        cases visible
        refine (holds.replaceInRows replaced).of_same fun offset _ _ => ?_
        have place : session.window.base + (pending.address - session.window.base) =
            pending.address := by omega
        rw [byteShown, half, place]

/-- A half-typed byte is the one under the cursor. -/
theorem address_of_pendingByte {pending : PendingByte}
    (half : session.pendingByte = some pending) :
    session.pending = some pending ∧ pending.address = session.window.cursor := by
  obtain ⟨here, valid⟩ := Option.filter_eq_some_iff.1 half
  rw [Bool.and_eq_true, beq_iff_eq, beq_iff_eq] at valid
  exact ⟨here, valid.2⟩

/-- Once the rows of a placed session are read, a half-typed byte has its place in them. -/
theorem Placed.exists_visibleBytes_of_readRows {rows : List (List UInt8)} (placed : session.Placed)
    (room : 3 ≤ session.window.height)
    (read : session.file.readRows session.window.base session.window.endOffset = .ok rows) :
    ∃ shown, session.visibleBytes = .ok shown := by
  rw [visibleBytes, read]
  cases half : session.pendingByte with
  | none => exact ⟨rows, rfl⟩
  | some pending =>
    obtain ⟨here, address⟩ := address_of_pendingByte half
    have bytes : 0 < session.window.fileLength := by
      have some := placed.bytes_of_pending (by rw [here]; exact Option.some_ne_none _)
      have length := placed.length_eq
      omega
    obtain ⟨above, below⟩ := placed.window.visible room bytes
    have replaced : ∃ next,
        replaceInRows rows (pending.address - session.window.base) pending.value = some next :=
      (EditedFile.holdRows_readRows read).exists_replaceInRows (by omega) (by omega) pending.value
    obtain ⟨next, replaced⟩ := replaced
    dsimp only
    rw [replaced]
    exact ⟨next, rfl⟩

/-- A placed session can show its bytes on a screen that has room for a row. -/
theorem exists_visibleBytes (placed : session.Placed) (row : 3 ≤ session.window.height)
    (shows : session.CanShow) : ∃ rows, session.visibleBytes = .ok rows := by
  have inFile : session.window.endOffset ≤ session.file.size := by
    have length := placed.length_eq
    rw [Window.endOffset]
    omega
  obtain ⟨rows, read⟩ := EditedFile.exists_readRows shows.reads shows.free placed.opened
    placed.window.base_nonneg inFile shows.possible shows.room
  exact placed.exists_visibleBytes_of_readRows row read

end Session

end HexEditor
