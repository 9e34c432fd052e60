/-
Messages to the user have no line break. What they say themselves has none, numbers have none,
and what they repeat of a command are words of it, which no blank is in. A key clears the status
before it is dispatched, so a status is the message of a failure of that key, or of the rows that
are computed behind it; and no run of a session comes to another one.
-/

import HexEditor.Proofs.Session.Faults
import HexEditor.Proofs.Text.Breaks

namespace HexEditor

/-! ### Failures of storage -/

theorem StorageFailure.unbroken_message (failure : StorageFailure) :
    Unbroken failure.message.toList := by
  cases failure with
  | refused operation =>
    refine Unbroken.appendText (Unbroken.appendText (by decide) ?_) (by decide)
    cases operation <;> decide
  | invalidRead count offset =>
    refine Unbroken.appendText (Unbroken.appendText (Unbroken.appendText (by decide) ?_)
      (by decide)) (unbroken_hexText offset)
    exact unbroken_decimalText count
  | shortRead offset => exact Unbroken.appendText (by decide) (unbroken_hexText offset)
  | incompleteRead offset => exact Unbroken.appendText (by decide) (unbroken_hexText offset)
  | outsideFile offset => exact Unbroken.appendText (by decide) (unbroken_hexText offset)
  | notByte value => exact Unbroken.appendText (by decide) (unbroken_decimalText value)
  | shortWrite => decide
  | offsetTooLarge => decide
  | lengthTooLarge => decide
  | noRoom => decide
  | closed => decide

theorem LogFailure.unbroken_message (failure : LogFailure) : Unbroken failure.message.toList := by
  cases failure with
  | notEntered cause => exact Unbroken.appendText cause.unbroken_message (by decide)
  | notRead cause => exact Unbroken.appendText cause.unbroken_message (by decide)
  | notSettled cause => exact Unbroken.appendText cause.unbroken_message (by decide)
  | noRecord => decide

/-! ### Failures of structs -/

theorem ByteReader.TextFailure.unbroken_message (failure : ByteReader.TextFailure) :
    Unbroken failure.message.toList := by
  cases failure with
  | encoding asciiOnly => cases asciiOnly <;> decide
  | storage failure => exact failure.unbroken_message

theorem FetchFailure.unbroken_message (failure : FetchFailure) :
    Unbroken failure.message.toList := by
  cases failure with
  | truncated position => exact Unbroken.appendText (by decide) (unbroken_hexText position)
  | unknownOpcode opcode => exact Unbroken.appendText (by decide) (unbroken_hexDigits _)
  | unknownForm opcode form =>
    refine Unbroken.appendText (Unbroken.appendText ?_ (by decide)) (unbroken_hexDigits _)
    exact Unbroken.appendText (by decide) (unbroken_hexDigits _)
  | invalidText => decide

theorem CellFailure.unbroken_message (failure : CellFailure) :
    Unbroken failure.message.toList := by
  cases failure with
  | unset index => exact Unbroken.appendText (by decide) (unbroken_hexText index)
  | outOfRange index =>
    exact Unbroken.appendText (Unbroken.appendText (by decide) (unbroken_hexText index)) (by decide)
  | beforeFirst => decide
  | notWord => decide

theorem UnusableBase.unbroken_message (failure : UnusableBase) :
    Unbroken failure.message.toList := by
  refine Unbroken.appendText (Unbroken.appendText ?_ (by decide)) (unbroken_decimalText _)
  exact Unbroken.appendText (by decide) (unbroken_decimalText _)

theorem unbroken_join {texts : List String} (unbroken : ∀ text ∈ texts, Unbroken text.toList) :
    Unbroken (String.join texts).toList := by
  intro member
  rw [String.toList_join, List.mem_flatMap] at member
  obtain ⟨text, within, here⟩ := member
  exact unbroken text within here

theorem RunFailure.unbroken_message (failure : RunFailure) : Unbroken failure.message.toList := by
  cases failure with
  | fetch failure => exact failure.unbroken_message
  | noWord => decide
  | noText => decide
  | base failure => exact failure.unbroken_message
  | cell failure => exact failure.unbroken_message
  | text failure => exact failure.unbroken_message
  | storage failure => exact failure.unbroken_message
  | panic stack =>
    refine Unbroken.appendText (by decide) (unbroken_join ?_)
    rw [List.forall_mem_map]
    exact fun value _ => Unbroken.appendText (by decide) (unbroken_hexText _)
  | stepLimit limit =>
    refine Unbroken.appendText (Unbroken.appendText (by decide) ?_) (by decide)
    exact unbroken_decimalText limit

theorem AnnotationFailure.unbroken_message (failure : AnnotationFailure) :
    Unbroken failure.message.toList := by
  cases failure with
  | run failure => exact failure.unbroken_message
  | decoding failure => exact failure.unbroken_message

/-! ### Failures of commands -/

/-- The words of a text have no blanks. -/
theorem isBlank_of_mem_splitWords {text word part : List Char}
    (read : ∀ character ∈ word, isBlank character = false) (member : part ∈ splitWords word text) :
    ∀ character ∈ part, isBlank character = false := by
  have reversed : ∀ character ∈ word.reverse, isBlank character = false :=
    fun character within => read character (List.mem_reverse.1 within)
  induction text generalizing word with
  | nil =>
    rw [splitWords] at member
    split at member
    · cases member
    · rwa [List.mem_singleton.1 member]
  | cons character rest inductionHypothesis =>
    rw [splitWords] at member
    split at member
    · split at member
      · exact inductionHypothesis (List.forall_mem_nil _) member (List.forall_mem_nil _)
      · rcases List.mem_cons.1 member with rfl | behind
        · exact reversed
        · exact inductionHypothesis (List.forall_mem_nil _) behind (List.forall_mem_nil _)
    · next solid =>
      have longer : ∀ other ∈ character :: word, isBlank other = false :=
        List.forall_mem_cons.2 ⟨eq_false_of_ne_true solid, read⟩
      exact inductionHypothesis longer member fun other within =>
        longer other (List.mem_reverse.1 within)

theorem unbroken_of_mem_wordsOf {line word : String} (found : word ∈ wordsOf line) :
    Unbroken word.toList := by
  obtain ⟨characters, within, rfl⟩ := List.mem_map.1 found
  rw [String.toList_ofList]
  intro member
  cases isBlank_of_mem_splitWords (List.forall_mem_nil _) within _ member

theorem ActionFailure.unbroken_status {failure : ActionFailure}
    (unbroken : Unbroken failure.message.toList) : Unbroken failure.status.text.toList := by
  unfold ActionFailure.status
  split <;> exact Unbroken.appendText (by decide) unbroken

namespace Session

/-- An action says nothing itself, and fails only with messages that have no break. -/
abbrev EndsUnbroken {Value : Type} (action : Action Value) : Prop :=
  Action.Ends (fun session => session.status = none)
    (fun failure => Unbroken failure.message.toList) action

theorem unbroken_modify {change : Session → Session}
    (silent : ∀ session, (change session).status = session.status) :
    EndsUnbroken (modify change : Action PUnit) :=
  Action.ends_modify fun session none => (silent session).trans none

theorem unbroken_refuse {Value : Type} {failure : CommandFailure}
    (unbroken : Unbroken failure.message.toList) : EndsUnbroken (refuse failure : Action Value) :=
  Action.ends_throw unbroken

/-- Whatever an operation on the log is, its failure has no break. -/
theorem unbroken_onLog {Value : Type} (cause : LogFailure → ActionFailure)
    (unbroken : ∀ failure, Unbroken (cause failure).message.toList)
    (operation : EditLog.Action Value) : EndsUnbroken (onLog cause operation) := by
  intro session none
  rw [onLog]
  cases operation session.log with
  | ok value log => exact none
  | error failure log => exact ⟨none, unbroken failure⟩

theorem unbroken_writeByte (address : Int) (value : UInt8) :
    EndsUnbroken (writeByte address value) := by
  intro session none
  rw [writeByte]
  rcases session.file.writeByte address value.toNat with ⟨outcome, file⟩
  cases outcome with
  | ok => exact none
  | error failure =>
    exact ⟨none, Unbroken.appendText (by decide) failure.unbroken_message⟩

theorem unbroken_readByte (address : Int) : EndsUnbroken (readByte address) := by
  intro session none
  rw [readByte]
  cases session.file.byteAt address with
  | ok byte => exact none
  | error failure => exact ⟨none, failure.unbroken_message⟩

theorem unbroken_settle : EndsUnbroken (onLog .log EditLog.settle) :=
  unbroken_onLog .log LogFailure.unbroken_message _

theorem unbroken_goto (target : Int) (recenter : Bool) : EndsUnbroken (goto target recenter) :=
  Action.ends_bind (unbroken_modify fun _ => rfl) fun _ => unbroken_modify fun _ => rfl

theorem unbroken_jumpBack : EndsUnbroken jumpBack := by
  refine Action.ends_get_bind fun session => ?_
  cases session.jumps with
  | nil => exact unbroken_refuse (by decide)
  | cons target rest =>
    refine Action.ends_bind (unbroken_modify fun _ => rfl) fun _ => ?_
    exact unbroken_modify fun _ => rfl

theorem unbroken_activate {name : String} (unbroken : Unbroken name.toList) :
    EndsUnbroken (activate name) := by
  refine Action.ends_get_bind fun session => ?_
  split
  · exact unbroken_modify fun _ => rfl
  · refine unbroken_refuse ?_
    exact Unbroken.appendText (Unbroken.appendText (by decide) unbroken) (by decide)

theorem unbroken_replaceByte (address : Int) (old new : UInt8) :
    EndsUnbroken (replaceByte address old new) := by
  refine Action.ends_bind (unbroken_onLog _ (fun failure => ?_) _) fun _ => ?_
  · exact Unbroken.appendText (by decide) failure.unbroken_message
  · exact Action.ends_bind (unbroken_writeByte _ _) fun _ => unbroken_settle

theorem unbroken_thenRight {action : Action Unit} (ends : EndsUnbroken action) :
    EndsUnbroken (thenRight action) := by
  intro session none
  have ended := ends session none
  rw [thenRight]
  cases ran : action session with
  | ok value after =>
    rw [ran] at ended
    exact ended
  | error failure after =>
    rw [ran] at ended
    exact ended

theorem unbroken_typeDigit (digit : Nat) : EndsUnbroken (typeDigit digit) := by
  refine Action.ends_get_bind fun session => ?_
  split
  · cases session.pendingByte with
    | none => exact Action.ends_bind (unbroken_readByte _) fun _ => unbroken_modify fun _ => rfl
    | some pending =>
      exact Action.ends_bind (unbroken_modify fun _ => rfl) fun _ =>
        unbroken_thenRight (unbroken_replaceByte _ _ _)
  · exact Action.ends_pure _

theorem unbroken_stepHistory (step : HistoryStep) : EndsUnbroken (stepHistory step) := by
  refine Action.ends_get_bind fun session => ?_
  split
  · refine unbroken_refuse ?_
    cases step <;> decide
  refine Action.ends_bind (unbroken_onLog .log LogFailure.unbroken_message _) fun answer => ?_
  obtain _ | ⟨address, value⟩ := answer
  · refine unbroken_refuse ?_
    cases step <;> decide
  refine Action.ends_bind (unbroken_writeByte _ _) fun _ => ?_
  exact Action.ends_bind unbroken_settle fun _ => unbroken_goto _ _

/-- What is no address is named in front of the reason. -/
theorem unbroken_parseAddress {text : String} {failure : AddressFailure}
    (unbroken : Unbroken text.toList) (failed : parseAddress text = .error failure) :
    Unbroken failure.message.toList := by
  have named : failure = .invalidDigit text ∨ failure = .tooLarge text := by
    unfold parseAddress at failed
    split at failed
    · cases failed
    split at failed
    · cases failed
    dsimp only at failed
    split at failed
    · cases failed
      exact .inl rfl
    split at failed
    · cases failed
      exact .inl rfl
    split at failed
    · cases failed
      exact .inr rfl
    · cases failed
  rcases named with rfl | rfl <;> exact Unbroken.appendText unbroken (by decide)

theorem unbroken_usage {command arguments : String} (first : Unbroken command.toList)
    (second : Unbroken arguments.toList) :
    Unbroken (CommandFailure.usage command arguments).message.toList := by
  refine Unbroken.appendText (Unbroken.appendText (Unbroken.appendText ?_ (by decide)) second)
    (by decide)
  exact Unbroken.appendText (by decide) first

theorem unbroken_execute (line : String) : EndsUnbroken (execute line) := by
  have unbroken : ∀ word ∈ wordsOf line, Unbroken word.toList := fun _ => unbroken_of_mem_wordsOf
  unfold execute
  generalize wordsOf line = words at unbroken
  cases words with
  | nil => exact Action.ends_pure _
  | cons command arguments =>
    have named := unbroken command List.mem_cons_self
    dsimp only
    split
    · split
      · next target =>
        split
        · exact unbroken_goto _ _
        · next failed =>
          exact unbroken_refuse (unbroken_parseAddress
            (unbroken _ (List.mem_cons_of_mem _ List.mem_cons_self)) failed)
      · exact unbroken_refuse (unbroken_usage named (by decide))
    split
    · exact unbroken_modify fun _ => rfl
    split
    · split
      · exact unbroken_activate (unbroken _ (List.mem_cons_of_mem _ List.mem_cons_self))
      · exact unbroken_refuse (unbroken_usage named (by decide))
    split
    · exact unbroken_stepHistory .undo
    split
    · exact unbroken_stepHistory .redo
    · refine unbroken_refuse ?_
      exact Unbroken.appendText (Unbroken.appendText (by decide) named) (by decide)

/-! ### Keys -/

theorem unbroken_typeCommand (line : List Char) (key : Key) :
    EndsUnbroken (typeCommand line key) := by
  cases key with
  | enter => exact Action.ends_bind (unbroken_modify fun _ => rfl) fun _ => unbroken_execute _
  | escape => exact unbroken_modify fun _ => rfl
  | backspace => exact unbroken_modify fun _ => rfl
  | char character => exact unbroken_modify fun _ => rfl
  | control character => exact unbroken_modify fun _ => rfl
  | _ => exact Action.ends_pure ()

theorem unbroken_typeCharacter (character : Char) : EndsUnbroken (typeCharacter character) := by
  unfold typeCharacter
  split
  · exact unbroken_modify fun _ => rfl
  split
  · exact unbroken_modify fun _ => rfl
  split
  · exact unbroken_modify fun _ => rfl
  split
  · exact unbroken_modify fun _ => rfl
  split
  · exact unbroken_modify fun _ => rfl
  split
  · exact unbroken_stepHistory .undo
  · exact Action.ends_pure _

theorem unbroken_typeKey (mode : Mode) (key : Key) : EndsUnbroken (typeKey mode key) := by
  cases key with
  | char character =>
    rw [typeKey_char]
    split
    · split
      · exact unbroken_typeDigit _
      · exact unbroken_typeCharacter character
    · exact unbroken_typeCharacter character
  | control character =>
    show EndsUnbroken (if character = 't' then jumpBack
      else if character = 'r' then stepHistory .redo else pure ())
    split
    · exact unbroken_jumpBack
    split
    · exact unbroken_stepHistory .redo
    · exact Action.ends_pure ()
  | controlHome => exact unbroken_goto 0 true
  | controlFinish => exact unbroken_goto wordLimit true
  | enter => exact Action.ends_pure ()
  | backspace => exact Action.ends_pure ()
  | tab => exact Action.ends_pure ()
  | other name => exact Action.ends_pure ()
  | _ => exact unbroken_modify fun _ => rfl

theorem unbroken_dispatch (key : Key) : EndsUnbroken (dispatch key) := by
  refine Action.ends_get_bind fun session => ?_
  cases session.commandLine with
  | some line => exact unbroken_typeCommand line key
  | none => exact unbroken_typeKey session.mode key

/-! ### The status -/

/-- The status has no break, if there is one. -/
def StatusUnbroken (session : Session) : Prop :=
  ∀ status, session.status = some status → Unbroken status.text.toList

variable {session : Session}

theorem statusUnbroken_of_none (none : session.status = none) : session.StatusUnbroken := by
  intro status some
  rw [none] at some
  cases some

theorem StatusUnbroken.refresh (unbroken : session.StatusUnbroken) :
    session.refresh.StatusUnbroken := by
  dsimp only [Session.refresh]
  split
  · exact unbroken
  split
  · exact unbroken
  · next failure _ =>
    intro status some
    rcases Option.or_eq_some_iff.1 some with same | ⟨-, same⟩
    · exact unbroken status same
    · cases same
      exact Unbroken.appendText (by decide) failure.unbroken_message

/-- Whatever was said before a key, it says nothing with a break. -/
theorem statusUnbroken_handleKey (session : Session) (key : Key) :
    (session.handleKey key).StatusUnbroken := by
  have ended := unbroken_dispatch key { session with status := none } rfl
  refine StatusUnbroken.refresh ?_
  rw [reporting]
  cases ran : dispatch key { session with status := none } with
  | ok value after =>
    rw [ran] at ended
    exact statusUnbroken_of_none ended
  | error failure after =>
    rw [ran] at ended
    rintro _ ⟨⟩
    exact ActionFailure.unbroken_status ended.2

theorem statusUnbroken_handlePointer (session : Session) (report : PointerReport) :
    (session.handlePointer report).StatusUnbroken := by
  dsimp only [handlePointer]
  split
  · split
    · exact (statusUnbroken_of_none rfl).refresh
    · exact statusUnbroken_of_none rfl
  · exact statusUnbroken_of_none rfl

theorem StatusUnbroken.resize (unbroken : session.StatusUnbroken) (height : Int) :
    (session.resize height).StatusUnbroken := by
  rw [Session.resize]
  split
  · exact StatusUnbroken.refresh unbroken
  · exact unbroken

theorem statusUnbroken_openOn {content : Array UInt8} {logContent : List UInt8}
    {structs : List (String × Struct)} {height : Int}
    (opened : openOn content logContent structs height = .ok session) :
    session.StatusUnbroken := by
  rw [openOn] at opened
  cases found : (EditLog.openContent logContent).1 with
  | error corruption =>
    rw [found] at opened
    cases opened
  | ok log =>
    rw [found] at opened
    cases opened
    exact statusUnbroken_of_none rfl

theorem StatusUnbroken.apply (unbroken : session.StatusUnbroken) {trial : Trial} {next : Session}
    (applied : trial.apply session = .ok next) : next.StatusUnbroken := by
  rw [Trial.apply] at applied
  cases event : trial.event with
  | key pressed =>
    rw [event] at applied
    cases applied
    exact statusUnbroken_handleKey _ pressed
  | pointer report =>
    rw [event] at applied
    cases applied
    exact statusUnbroken_handlePointer _ report
  | resize height =>
    rw [event] at applied
    cases applied
    have faced : (trial.facing session).StatusUnbroken := unbroken
    exact faced.resize height
  | reopen structs height =>
    rw [event] at applied
    exact statusUnbroken_openOn applied

/-- Whatever happens to a session, its status has no break. -/
theorem statusUnbroken_of_run {content : Array UInt8} {logContent : List UInt8}
    {structs : List (String × Struct)} {height : Int} {opened : Session}
    (start : openOn content logContent structs height = .ok opened) {trials : List Trial}
    (ran : Trial.applyAll trials opened = .ok session) : session.StatusUnbroken := by
  have unbroken := statusUnbroken_openOn start
  clear start
  induction trials generalizing opened with
  | nil =>
    cases ran
    exact unbroken
  | cons trial rest inductionHypothesis =>
    rw [Trial.applyAll, List.foldlM_cons] at ran
    cases applied : trial.apply opened with
    | error corruption =>
      rw [applied] at ran
      cases ran
    | ok next =>
      rw [applied] at ran
      exact inductionHypothesis ran (unbroken.apply applied)

end Session

end HexEditor
