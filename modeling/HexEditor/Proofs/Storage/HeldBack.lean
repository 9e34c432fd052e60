/-
Bytes that are held back. A byte that the device refuses is among those that the file gives,
and the first access that the device allows hands it over. So an access changes nothing of what
the file gives, and writing a byte comes to one of three things: the file does not take the
byte, or it takes the byte and holds it back, or it takes the byte and so does the device.
-/

import HexEditor.Storage.EditedFile

namespace HexEditor.EditedFile

variable {file next last : EditedFile}

/-! ### Accesses -/

theorem flush_of_passes (passes : file.refusesFlush = false) :
    file.flush = { file with heldBack := none } := by
  rw [flush, if_neg (ne_true_of_eq_false passes)]

theorem flush_of_refuses (refuses : file.refusesFlush = true) : file.flush = file := by
  rw [flush, if_pos refuses]

/-- Where nothing is held back there is nothing to hand over. -/
theorem flush_of_none (none : file.heldBack = none) : file.flush = file := by
  rw [flush, ← none, ite_self]

@[simp] theorem content_flush (file : EditedFile) : file.flush.content = file.content := by
  rw [flush]
  split <;> rfl

@[simp] theorem closed_flush (file : EditedFile) : file.flush.closed = file.closed := by
  rw [flush]
  split <;> rfl

@[simp] theorem refusesRead_flush (file : EditedFile) :
    file.flush.refusesRead = file.refusesRead := by
  rw [flush]
  split <;> rfl

@[simp] theorem refusesWrite_flush (file : EditedFile) :
    file.flush.refusesWrite = file.refusesWrite := by
  rw [flush]
  split <;> rfl

@[simp] theorem refusesFlush_flush (file : EditedFile) :
    file.flush.refusesFlush = file.refusesFlush := by
  rw [flush]
  split <;> rfl

theorem flush_flush (file : EditedFile) : file.flush.flush = file.flush := by
  cases refuses : file.refusesFlush with
  | true => rw [flush_of_refuses refuses, flush_of_refuses refuses]
  | false =>
    have none : file.flush.heldBack = none := by rw [flush_of_passes refuses]
    exact flush_of_none none

/-- A file that was accessed, or not. -/
inductive Kept (before : EditedFile) : EditedFile → Prop where
  | same : Kept before before
  | accessed : Kept before before.flush

namespace Kept

theorem trans (before : Kept file next) (behind : Kept next last) : Kept file last := by
  cases behind with
  | same => exact before
  | accessed =>
    cases before with
    | same => exact .accessed
    | accessed =>
      rw [flush_flush]
      exact .accessed

/-- What the flush of every file leaves is left by an access. -/
theorem part_eq {Value : Type} (kept : Kept file next) {part : EditedFile → Value}
    (flushed : ∀ file : EditedFile, part file.flush = part file) : part next = part file := by
  cases kept with
  | same => rfl
  | accessed => exact flushed file

theorem content_eq (kept : Kept file next) : next.content = file.content :=
  kept.part_eq content_flush

theorem size_eq (kept : Kept file next) : next.size = file.size :=
  congrArg Array.size kept.content_eq

theorem closed_eq (kept : Kept file next) : next.closed = file.closed :=
  kept.part_eq closed_flush

theorem refusesRead_eq (kept : Kept file next) : next.refusesRead = file.refusesRead :=
  kept.part_eq refusesRead_flush

theorem refusesWrite_eq (kept : Kept file next) : next.refusesWrite = file.refusesWrite :=
  kept.part_eq refusesWrite_flush

theorem refusesFlush_eq (kept : Kept file next) : next.refusesFlush = file.refusesFlush :=
  kept.part_eq refusesFlush_flush

/-- What is held back stays so, or it is handed over. -/
theorem eq_or (kept : Kept file next) :
    next = file ∨ next = { file with heldBack := none } := by
  cases kept with
  | same => exact .inl rfl
  | accessed =>
    by_cases refuses : file.refusesFlush = true
    · exact .inl (flush_of_refuses refuses)
    · exact .inr (flush_of_passes (eq_false_of_ne_true refuses))

/-- Where nothing is held back an access leaves the file as it is. -/
theorem eq_of_none (kept : Kept file next) (none : file.heldBack = none) : next = file := by
  cases kept with
  | same => rfl
  | accessed => exact flush_of_none none

/-- A device that refuses what is handed over leaves the file as it is. -/
theorem eq_of_refuses (kept : Kept file next) (refuses : file.refusesFlush = true) :
    next = file := by
  cases kept with
  | same => rfl
  | accessed => exact flush_of_refuses refuses

end Kept

/-! ### Reading -/

/-- A length that is looked up is that of what the file gives. -/
theorem eq_of_length {length : Nat} (found : file.length = .ok length) : length = file.size := by
  unfold EditedFile.length at found
  split at found
  · cases found
  split at found
  · cases found
  · exact (Except.ok.inj found).symm

theorem accessFailure?_eq_none {offset count : Int}
    (accessed : file.accessFailure? offset count = none) :
    file.refusesRead = false ∧ 0 ≤ offset ∧ 0 ≤ count ∧ file.closed = false ∧
      offset < offsetLimit := by
  unfold accessFailure? at accessed
  split at accessed
  · cases accessed
  next reads =>
  split at accessed
  · cases accessed
  split at accessed
  · cases accessed
  next opened =>
  split at accessed
  · cases accessed
  exact ⟨eq_false_of_ne_true reads, by omega, by omega, eq_false_of_ne_true opened, by omega⟩

/-- A read that gives bytes is an access behind which nothing is held back. -/
theorem read_eq_ok {offset count : Int} {bytes : List UInt8}
    (taken : file.read offset count = .ok bytes) :
    file.accessFailure? offset count = none ∧ file.stuck = false ∧
      lengthFailure? count.toNat lengthLimit = none ∧
      ByteReader.readArray file.content offset.toNat count.toNat = .ok bytes := by
  unfold read at taken
  split at taken
  · cases taken
  next accessed =>
  split at taken
  · cases taken
  next free =>
  split at taken
  · cases taken
  next possible => exact ⟨accessed, eq_false_of_ne_true free, possible, taken⟩

theorem heldBack_flush (free : file.stuck = false) : file.flush.heldBack = none := by
  rw [stuck, Bool.and_eq_false_iff] at free
  rcases free with passes | nothing
  · rw [flush_of_passes passes]
  · rw [Option.isSome_eq_false_iff, Option.isNone_iff_eq_none] at nothing
    rw [flush_of_none nothing]
    exact nothing

theorem kept_behindRead (file : EditedFile) (offset count : Int) :
    Kept file (file.behindRead offset count) := by
  rw [behindRead]
  split
  · exact .same
  · exact .accessed

/-! ### The bytes of the device -/

/-- A byte that is there already changes nothing. -/
theorem setIfInBounds_of_getElem? {content : Array UInt8} {place : Nat} {byte : UInt8}
    (there : content[place]? = some byte) : content.setIfInBounds place byte = content := by
  obtain ⟨inside, rfl⟩ := Array.getElem?_eq_some_iff.1 there
  rw [Array.setIfInBounds_def, dif_pos inside, Array.set_getElem_self]

@[simp] theorem size_stored (file : EditedFile) : file.stored.size = file.size := by
  rw [stored]
  split
  · exact Array.size_setIfInBounds
  · rfl

theorem stored_of_none (none : file.heldBack = none) : file.stored = file.content := by
  rw [stored, none]

/-- Behind accesses the device has what it had, or what the file gives. -/
theorem Kept.stored (kept : Kept file next) :
    next.stored = file.stored ∨ next.stored = file.content := by
  rcases kept.eq_or with rfl | rfl
  · exact .inl rfl
  · exact .inr rfl

/-- A file that is closed leaves what it gave, unless the device refuses a byte that is held
back. -/
theorem leftBehind_of_passes (passes : file.refusesFlush = false) :
    file.leftBehind = file.content := by
  rw [leftBehind, flush_of_passes passes]
  rfl

theorem stuck_of_passes (passes : file.refusesFlush = false) : file.stuck = false := by
  rw [stuck, passes, Bool.false_and]

theorem Kept.stuck_eq (kept : Kept file next) : next.stuck = file.stuck := by
  by_cases refuses : file.refusesFlush = true
  · rw [kept.eq_of_refuses refuses]
  · have passes := eq_false_of_ne_true refuses
    rw [stuck_of_passes (kept.refusesFlush_eq.trans passes), stuck_of_passes passes]

/-- What annotations see is told by these parts of a file. -/
theorem reader_eq (refusesRead : next.refusesRead = file.refusesRead)
    (stuck : next.stuck = file.stuck) (content : next.content = file.content) :
    next.reader = file.reader := by
  rw [reader, reader, refusesRead, stuck, content]

theorem Kept.reader_eq (kept : Kept file next) : next.reader = file.reader :=
  EditedFile.reader_eq kept.refusesRead_eq kept.stuck_eq kept.content_eq

/-! ### Writing -/

/-- A file that is open and refuses nothing that is written, and neither does its device. -/
structure Willing (file : EditedFile) : Prop where
  opened : file.closed = false
  accepts : file.refusesWrite = false
  passes : file.refusesFlush = false

theorem Willing.of_kept (willing : file.Willing) (kept : Kept file next) : next.Willing :=
  ⟨kept.closed_eq.trans willing.opened, kept.refusesWrite_eq.trans willing.accepts,
    kept.refusesFlush_eq.trans willing.passes⟩

/-- What writing a byte comes to. -/
inductive Writing (file : EditedFile) (address : Int) (value : UInt8) :
    Except StorageFailure Unit × EditedFile → Prop where
  /-- The file does not take the byte. -/
  | refused {cause : StorageFailure} {next : EditedFile} (kept : Kept file next) :
      Writing file address value (.error cause, next)
  /-- The file takes the byte and the device does not. -/
  | heldBack {old : UInt8} (there : file.content[address.toNat]? = some old)
      (refuses : file.refusesFlush = true) (free : file.heldBack = none) :
      Writing file address value
        (.error (.refused .flush),
          { file with
            content := file.content.setIfInBounds address.toNat value
            writable := true
            heldBack := some (address.toNat, old) })
  /-- The byte is written. -/
  | written (inside : address.toNat < file.size) (accepts : file.refusesWrite = false)
      (passes : file.refusesFlush = false) :
      Writing file address value
        (.ok (),
          { file with
            content := file.content.setIfInBounds address.toNat value
            writable := true
            heldBack := none })

theorem writing (file : EditedFile) (address : Int) (value : UInt8) :
    Writing file address value (file.writeByte address value.toNat) := by
  rw [writeByte]
  split
  · exact .refused .same
  next accepts =>
  split
  · exact .refused .same
  split
  · exact .refused .same
  split
  · exact .refused .same
  next free =>
  split
  · exact .refused .accessed
  next place =>
  have inside : address.toNat < file.size := by omega
  rw [put, Int.toNat_natCast, UInt8.ofNat_toNat]
  split
  · next refuses =>
    have there : file.content[address.toNat]? = some file.content[address.toNat] :=
      Array.getElem?_eq_getElem inside
    have none : file.heldBack = none := by simpa [stuck, refuses] using free
    rw [there]
    exact .heldBack there refuses none
  · next passes =>
    exact .written inside (eq_false_of_ne_true accepts) (eq_false_of_ne_true passes)

/-- The byte at some place, as the file gives it and as the device has it. -/
structure Holds (file : EditedFile) (place : Nat) (byte : UInt8) : Prop where
  given : file.content[place]? = some byte
  stored : file.stored[place]? = some byte

theorem Holds.of_none {place : Nat} {byte : UInt8} (given : file.content[place]? = some byte)
    (none : file.heldBack = none) : file.Holds place byte :=
  ⟨given, by rw [stored_of_none none]; exact given⟩

theorem Holds.of_kept {place : Nat} {byte : UInt8} (holds : file.Holds place byte)
    (kept : Kept file next) : next.Holds place byte := by
  refine ⟨by rw [kept.content_eq]; exact holds.given, ?_⟩
  rcases kept.stored with same | given
  · rw [same]
    exact holds.stored
  · rw [given]
    exact holds.given

/-- A byte that the file still gives when another one is written was not touched by it. -/
theorem Holds.of_writeByte {place : Nat} {byte : UInt8} (holds : file.Holds place byte)
    {address : Int} {value : UInt8} {outcome : Except StorageFailure Unit}
    (wrote : file.writeByte address value.toNat = (outcome, next))
    (given : next.content[place]? = some byte) : next.Holds place byte := by
  have possible := file.writing address value
  rw [wrote] at possible
  cases possible with
  | refused kept => exact holds.of_kept kept
  | @heldBack old there =>
    refine ⟨given, ?_⟩
    show ((file.content.setIfInBounds address.toNat value).setIfInBounds
      address.toNat old)[place]? = some byte
    by_cases same : address.toNat = place
    · subst same
      obtain ⟨inside, _⟩ := Array.getElem?_eq_some_iff.1 there
      rw [Array.getElem?_setIfInBounds_self_of_lt (by simpa using inside), ← there]
      exact holds.given
    · rw [Array.getElem?_setIfInBounds_ne same]
      exact given
  | written => exact .of_none given rfl

/-- What is left of a file that refuses a byte. -/
inductive Refused (file : EditedFile) (place : Nat) (value : UInt8) (next : EditedFile) : Prop where
  /-- The file gives what it gave. -/
  | dropped (content : next.content = file.content)
      (stored : next.stored = file.stored ∨ next.stored = file.content)
  /-- The file gives the byte as well, but the device does not have it. -/
  | heldBack {old : UInt8} (there : file.content[place]? = some old)
      (content : next.content = file.content.setIfInBounds place value)
      (held : next.heldBack = some (place, old)) (stored : next.stored = file.content)

/-- A byte that is refused is not written by another access either, if the device refuses it. -/
theorem refused_of_error {address : Int} {value : UInt8} {cause : StorageFailure}
    (refused : file.writeByte address value.toNat = (.error cause, next)) (kept : Kept next last) :
    Refused file address.toNat value last := by
  have possible := file.writing address value
  rw [refused] at possible
  cases possible with
  | refused before =>
    have both := before.trans kept
    exact .dropped both.content_eq both.stored
  | @heldBack old there refuses none =>
    rw [kept.eq_of_refuses refuses]
    refine .heldBack there rfl rfl ?_
    show (file.content.setIfInBounds address.toNat value).setIfInBounds address.toNat old =
      file.content
    rw [Array.setIfInBounds_setIfInBounds]
    exact setIfInBounds_of_getElem? there

/-- Writing the byte later leads to the same content, whatever was left when it was refused. -/
theorem Refused.setIfInBounds_eq {place : Nat} {value : UInt8}
    (refused : Refused file place value next) (other : UInt8) :
    next.content.setIfInBounds place other = file.content.setIfInBounds place other := by
  cases refused with
  | dropped same => rw [same]
  | heldBack _ same => rw [same, Array.setIfInBounds_setIfInBounds]

/-- What the file gives when a byte is written, whether it is refused or not. -/
theorem content_of_writeByte {address : Int} {value : UInt8}
    {outcome : Except StorageFailure Unit}
    (wrote : file.writeByte address value.toNat = (outcome, next)) :
    next.content = file.content ∨
      next.content = file.content.setIfInBounds address.toNat value := by
  have possible := file.writing address value
  rw [wrote] at possible
  cases possible with
  | refused kept => exact .inl kept.content_eq
  | heldBack => exact .inr rfl
  | written => exact .inr rfl

/-- The byte at some place is spared: the file gives what it gave there, and the device has what it
had or what the file gave. -/
structure Spared (place : Nat) (file next : EditedFile) : Prop where
  content : next.content[place]? = file.content[place]?
  stored : next.stored[place]? = file.stored[place]? ∨ next.stored[place]? = file.content[place]?

theorem Kept.spared (kept : Kept file next) (place : Nat) : Spared place file next := by
  refine ⟨by rw [kept.content_eq], ?_⟩
  rcases kept.stored with same | given
  · exact .inl (by rw [same])
  · exact .inr (by rw [given])

theorem Spared.trans {place : Nat} (before : Spared place file next)
    (behind : Spared place next last) : Spared place file last := by
  refine ⟨behind.content.trans before.content, ?_⟩
  rcases behind.stored with same | given
  · rw [same]
    exact before.stored
  · exact .inr (given.trans before.content)

/-- Writing a byte spares all the others. -/
theorem Writing.spared {address : Int} {value : UInt8} {outcome : Except StorageFailure Unit}
    (possible : Writing file address value (outcome, next)) {other : Nat}
    (apart : other ≠ address.toNat) : Spared other file next := by
  have untouched : (file.content.setIfInBounds address.toNat value)[other]? =
      file.content[other]? := Array.getElem?_setIfInBounds_ne (Ne.symm apart)
  cases possible with
  | refused kept => exact kept.spared other
  | @heldBack old there refuses none =>
    refine ⟨untouched, .inr ?_⟩
    show ((file.content.setIfInBounds address.toNat value).setIfInBounds
      address.toNat old)[other]? = file.content[other]?
    rw [Array.getElem?_setIfInBounds_ne (Ne.symm apart)]
    exact untouched
  | written => exact ⟨untouched, .inr untouched⟩

/-- A file that was accessed, and to which one byte was given at most, whether it was taken or
not. -/
inductive WrittenOnce (before : EditedFile) : EditedFile → Prop where
  | kept {next : EditedFile} (kept : Kept before next) : WrittenOnce before next
  | tried {address : Int} {value : UInt8} {outcome : Except StorageFailure Unit}
      {behind next : EditedFile} (possible : Writing before address value (outcome, behind))
      (kept : Kept behind next) : WrittenOnce before next

theorem writtenOnce_of_writeByte {address : Int} {value : UInt8}
    {outcome : Except StorageFailure Unit}
    (wrote : file.writeByte address value.toNat = (outcome, next)) : WrittenOnce file next :=
  .tried (wrote ▸ file.writing address value) .same

namespace WrittenOnce

theorem trans_kept (once : WrittenOnce file next) (kept : Kept next last) :
    WrittenOnce file last := by
  cases once with
  | kept before => exact .kept (before.trans kept)
  | tried possible before => exact .tried possible (before.trans kept)

/-- What neither the flush of a file nor a byte that it takes changes is left. -/
theorem part_eq {Value : Type} (once : WrittenOnce file next) {part : EditedFile → Value}
    (flushed : ∀ file : EditedFile, part file.flush = part file)
    (taken : ∀ file content heldBack,
      part { file with content, writable := true, heldBack } = part file) :
    part next = part file := by
  cases once with
  | kept kept => exact kept.part_eq flushed
  | tried possible kept =>
    rw [kept.part_eq flushed]
    cases possible with
    | refused before => exact before.part_eq flushed
    | heldBack => exact taken file _ _
    | written => exact taken file _ _

theorem closed_eq (once : WrittenOnce file next) : next.closed = file.closed :=
  once.part_eq closed_flush fun _ _ _ => rfl

theorem refusesRead_eq (once : WrittenOnce file next) : next.refusesRead = file.refusesRead :=
  once.part_eq refusesRead_flush fun _ _ _ => rfl

theorem size_eq (once : WrittenOnce file next) : next.size = file.size := by
  cases once with
  | kept kept => exact kept.size_eq
  | tried possible kept =>
    rw [kept.size_eq]
    cases possible with
    | refused before => exact before.size_eq
    | heldBack => exact Array.size_setIfInBounds
    | written => exact Array.size_setIfInBounds

/-- All bytes but one at most are spared. -/
theorem others (once : WrittenOnce file next) :
    ∃ place : Nat, ∀ other : Nat, other ≠ place → Spared other file next := by
  cases once with
  | kept kept => exact ⟨0, fun other _ => kept.spared other⟩
  | tried possible kept =>
    exact ⟨_, fun other apart => (possible.spared apart).trans (kept.spared other)⟩

end WrittenOnce

/-- A willing file takes a byte and hands it over, unless the address is outside. -/
theorem Willing.writeByte_of_lt (willing : file.Willing) {address : Nat}
    (inside : address < file.size) (value : UInt8) :
    file.writeByte address value.toNat =
      (.ok (),
        { file with
          content := file.content.setIfInBounds address value
          writable := true
          heldBack := none }) := by
  obtain ⟨opened, accepts, passes⟩ := willing
  have byte : ¬ ((value.toNat : Int) < 0 ∨ (0xFF : Int) < value.toNat) := by
    have := value.toNat_lt
    omega
  have place : ¬ ((address : Int) < 0 ∨ (file.size : Int) ≤ address) := by omega
  rw [writeByte, if_neg (ne_true_of_eq_false accepts), if_neg byte,
    if_neg (ne_true_of_eq_false opened), if_neg (ne_true_of_eq_false (stuck_of_passes passes)),
    if_neg place, put, if_neg (ne_true_of_eq_false passes), Int.toNat_natCast, Int.toNat_natCast,
    UInt8.ofNat_toNat]

/-- Outside there is no byte to write. -/
theorem Willing.writeByte_of_le (willing : file.Willing) {address : Nat}
    (outside : file.size ≤ address) (value : UInt8) :
    file.writeByte address value.toNat =
      (.error (.outsideFile address), { file with heldBack := none }) := by
  obtain ⟨opened, accepts, passes⟩ := willing
  have byte : ¬ ((value.toNat : Int) < 0 ∨ (0xFF : Int) < value.toNat) := by
    have := value.toNat_lt
    omega
  have place : (address : Int) < 0 ∨ (file.size : Int) ≤ address := by omega
  rw [writeByte, if_neg (ne_true_of_eq_false accepts), if_neg byte,
    if_neg (ne_true_of_eq_false opened), if_neg (ne_true_of_eq_false (stuck_of_passes passes)),
    if_pos place, flush_of_passes passes]

end HexEditor.EditedFile
