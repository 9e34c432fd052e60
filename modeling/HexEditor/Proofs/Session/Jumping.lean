/-
Jumps to numbers that are shown. What the editor displays for a word in a base that addresses
can have is read back as that word: the mark of the base decides how the digits are read, and the
mark of octal numbers is passed over. So a number that is seen on the screen can be typed behind
the jump command, and the cursor comes to it or to the end of the file, whatever the mode, and
whatever is on show.
-/

import HexEditor.Proofs.Action
import HexEditor.Proofs.Session.Addresses
import HexEditor.Proofs.Window.Placement
import HexEditor.Session.Keys

namespace HexEditor

/-! ### Displayed addresses -/

/-- The bases that addresses can be typed in. -/
def Radix.IsAddressBase (base : Radix) : Prop :=
  base = .two ∨ base = .eight ∨ base = .ten ∨ base = .sixteen

theorem isBlank_of_digitValue? {character : Char}
    (alphanumeric : (digitValue? character).isSome = true) : isBlank character = false := by
  have all : ∀ code < 128, (digitValue? (Char.ofNat code)).isSome = true →
      isBlank (Char.ofNat code) = false := by
    decide +kernel
  obtain ⟨digit, found⟩ := Option.isSome_iff_exists.1 alphanumeric
  have here := all _ (ascii_of_digitValue? found)
  rw [Char.ofNat_toNat] at here
  exact here alphanumeric

section Displayed

variable {base : Radix} {digits : List Char} {value : Nat}

/-- Digits behind the mark of their base are an address, or have a repeated mark in base eight, where
the zero of the mark counts as one. -/
theorem Radix.Spells.address (usable : base.IsAddressBase) (spells : base.Spells digits value) :
    AddressText (base.mark ++ digits) value ∨ MarkedTwice (base.mark ++ digits) value := by
  rcases usable with rfl | rfl | rfl | rfl
  · exact .inl (.binary spells.typed)
  · exact .inr (.octal (.inl rfl) spells.typed)
  · exact .inl (.decimal spells.typed spells.noLeadingZero)
  · exact .inl (.hexadecimal spells.typed)

theorem Radix.mark_alphanumeric (usable : base.IsAddressBase) :
    ∀ character ∈ base.mark, (digitValue? character).isSome = true := by
  rcases usable with rfl | rfl | rfl | rfl <;> exact List.all_eq_true.1 (by decide)

/-- A natural number is displayed in such a base as letters and digits that are read as it. -/
theorem Radix.Writes.address {text : String} (usable : base.IsAddressBase)
    (writes : base.Writes text value) :
    (AddressText text.toList value ∨ MarkedTwice text.toList value) ∧ text.toList ≠ [] ∧
      ∀ character ∈ text.toList, (digitValue? character).isSome = true := by
  generalize integer : (value : Int) = shown at writes
  cases writes with
  | zero =>
    rw [Int.natCast_eq_zero] at integer
    subst integer
    exact ⟨.inl (.octal ⟨by decide, List.forall_mem_singleton.2 (by decide), by decide⟩), by decide,
      List.forall_mem_singleton.2 rfl⟩
  | @nonzero _ digits nonzero spells =>
    have natural : ¬ shown < 0 := by omega
    have magnitude : shown.natAbs = value := by omega
    rw [if_neg natural, List.nil_append, String.toList_ofList]
    rw [magnitude] at spells
    refine ⟨spells.address usable, ?_, fun character member => ?_⟩
    · rw [Ne, List.append_eq_nil_iff, not_and]
      exact fun _ => spells.nonempty
    · rcases List.mem_append.1 member with inMark | inDigits
      · exact mark_alphanumeric usable character inMark
      · exact isSome_of_inBase spells.typed.inBase character inDigits

/-- A word is displayed as a text that is read as that word. -/
theorem exists_displayed (usable : base.IsAddressBase) (value : UInt64) :
    ∃ text, formatInteger value.toNat false base.value = .ok text ∧
      parseAddress text = .ok value.toNat ∧ text.toList ≠ [] ∧
      ∀ character ∈ text.toList, isBlank character = false := by
  have inWord : InWord false value.toNat := ⟨Int.natCast_nonneg _, Int.ofNat_lt.2 value.toNat_lt⟩
  have writes := base.writes_integerText value.toNat
  obtain ⟨address, nonempty, alphanumeric⟩ := writes.address usable
  exact ⟨_, formatInteger_eq base inWord rfl,
    parseAddress_eq_ok_iff.2 ⟨address, Nat.le_of_lt_succ value.toNat_lt⟩, nonempty,
    fun character member => isBlank_of_digitValue? (alphanumeric character member)⟩

end Displayed

/-! ### Typed commands -/

/-- Characters without a blank between them are one word. -/
theorem splitWords_of_noBlank {text : List Char} (noBlank : ∀ character ∈ text, isBlank character = false)
    (word : List Char) (some : word.reverse ++ text ≠ []) :
    splitWords word text = [word.reverse ++ text] := by
  induction text generalizing word with
  | nil =>
    rw [List.append_nil] at some ⊢
    rw [splitWords, if_neg (by simpa using some)]
  | cons character rest inductionHypothesis =>
    have here := noBlank character List.mem_cons_self
    have behind := inductionHypothesis (fun other member => noBlank other (List.mem_cons_of_mem _ member))
      (character :: word) (by simp)
    rw [splitWords, if_neg (by rw [here]; exact Bool.false_ne_true), behind, List.reverse_cons,
      List.append_assoc, List.singleton_append]

theorem wordsOf_jump {text : String} (some : text.toList ≠ [])
    (noBlank : ∀ character ∈ text.toList, isBlank character = false) :
    wordsOf (String.ofList ('g' :: ' ' :: text.toList)) = ["g", text] := by
  have behind := splitWords_of_noBlank noBlank [] (by simpa using some)
  have split : splitWords [] ('g' :: ' ' :: text.toList) = ['g'] :: splitWords [] text.toList := rfl
  rw [wordsOf, String.toList_ofList, split, behind, List.reverse_nil, List.nil_append]
  show [String.ofList ['g'], String.ofList text.toList] = _
  rw [String.ofList_toList]

namespace Session

variable {session : Session} {line : List Char}

/-- The session behind some keys. -/
def pressAll (keys : List Key) (session : Session) : Session :=
  keys.foldl (fun session key => session.handleKey key) session

/-- Refreshing recomputes what is shown, and its failure is the status if there is no other. -/
theorem refresh_eq (session : Session) :
    ∃ file structs rows status, session.refresh = { session with file, structs, rows, status } ∧
      (status = session.status ∨ ∃ failure : AnnotationFailure,
        status = session.status.or (some ⟨.error, "struct: " ++ failure.message⟩)) := by
  dsimp only [refresh]
  split
  · exact ⟨_, _, _, _, rfl, .inl rfl⟩
  split
  · exact ⟨_, _, _, _, rfl, .inl rfl⟩
  · next failure _ => exact ⟨_, _, _, _, rfl, .inr ⟨failure, rfl⟩⟩

/-- A key that is carried out refreshes the session that it leads to. -/
theorem handleKey_of_ok {key : Key} {after : Session}
    (done : dispatch key { session with status := none } = .ok () after) :
    session.handleKey key = after.refresh := by
  rw [handleKey, reporting, done]

/-- A session in which a command is being typed that was not there in another one. -/
structure Typing (line : List Char) (before after : Session) : Prop where
  commandLine : after.commandLine = some line
  window : after.window = before.window
  jumps : after.jumps = before.jumps

/-- A key that only sets the command line leaves what is typed behind it. -/
theorem Typing.of_set {before : Session} {key : Key} (window : session.window = before.window)
    (jumps : session.jumps = before.jumps)
    (done : dispatch key { session with status := none } =
      setCommandLine (some line) { session with status := none }) :
    Typing line before (session.handleKey key) := by
  rw [handleKey_of_ok (done.trans rfl)]
  obtain ⟨file, structs, rows, status, same, -⟩ :=
    refresh_eq { session with status := none, commandLine := some line }
  rw [same]
  exact ⟨rfl, window, jumps⟩

/-- A colon opens the command line in every mode, since it is no digit. -/
theorem typing_colon (closed : session.commandLine = none) :
    Typing [] session (session.handleKey (.char ':')) := by
  refine .of_set rfl rfl ?_
  rw [dispatch, Action.bind_get]
  dsimp only
  rw [closed]
  rfl

theorem Typing.char {before : Session} (typing : Typing line before session) (character : Char) :
    Typing (line ++ [character]) before (session.handleKey (.char character)) := by
  refine .of_set typing.window typing.jumps ?_
  rw [dispatch, Action.bind_get]
  dsimp only
  rw [typing.commandLine]
  rfl

/-- Characters that are typed are put behind the command line. -/
theorem Typing.chars {before : Session} (typing : Typing line before session) (text : List Char) :
    Typing (line ++ text) before (session.pressAll (text.map .char)) := by
  induction text generalizing line session with
  | nil =>
    rw [List.append_nil]
    exact typing
  | cons character rest inductionHypothesis =>
    have behind := inductionHypothesis (typing.char character)
    rw [List.append_assoc, List.singleton_append] at behind
    exact behind

/-- The command to jump is carried out: the window goes to the target, and the cursor is remembered. -/
theorem Typing.enter {before : Session} {text : String} {target : Nat}
    (typing : Typing ('g' :: ' ' :: text.toList) before session)
    (some : text.toList ≠ []) (noBlank : ∀ character ∈ text.toList, isBlank character = false)
    (read : parseAddress text = .ok target) :
    let jumped := session.handleKey .enter
    jumped.commandLine = none ∧ jumped.window = before.window.goto target ∧
      jumped.jumps = before.window.cursor :: before.jumps ∧
      ∀ status ∈ jumped.status, ∃ failure : AnnotationFailure,
        status = ⟨.error, "struct: " ++ failure.message⟩ := by
  have executed : execute (String.ofList ('g' :: ' ' :: text.toList)) = goto target := by
    rw [execute, wordsOf_jump some noBlank]
    dsimp only
    rw [if_pos (.inl rfl), read]
  have done : dispatch .enter { session with status := none } =
      .ok () { session with
        status := none
        commandLine := none
        jumps := session.window.cursor :: session.jumps
        window := session.window.goto target } := by
    rw [dispatch, Action.bind_get]
    dsimp only
    rw [typing.commandLine]
    show typeCommand _ .enter _ = _
    rw [typeCommand, executed]
    rfl
  rw [handleKey_of_ok done, typing.window, typing.jumps]
  obtain ⟨file, structs, rows, status, same, reported⟩ := refresh_eq _
  rw [same]
  refine ⟨rfl, rfl, rfl, fun shown member => ?_⟩
  rcases reported with none | ⟨failure, reported⟩
  · rw [none] at member
    cases member
  · rw [reported] at member
    cases member
    exact ⟨failure, rfl⟩

end Session

/-- Every word is displayed in a base of addresses as a text that is read as that word. Typed behind
the jump command while no other command is typed, it brings the cursor to the word, or to the end of
the file if that is nearer; the old cursor can be jumped back to, and nothing is reported but a
failure of the struct on show. -/
theorem Session.displayed_typed_back (session : Session) (closed : session.commandLine = none)
    (value : UInt64) {base : Radix} (usable : base.IsAddressBase) :
    ∃ text, formatInteger value.toNat false base.value = .ok text ∧
      parseAddress text = .ok value.toNat ∧
      let jumped := session.pressAll ((":g ".toList ++ text.toList).map Key.char ++ [.enter])
      jumped.window.cursor = min (value.toNat : Int) session.window.lastOffset ∧
        jumped.jumps = session.window.cursor :: session.jumps ∧ jumped.commandLine = none ∧
        ∀ status ∈ jumped.status, ∃ failure : AnnotationFailure,
          status = ⟨.error, "struct: " ++ failure.message⟩ := by
  obtain ⟨text, shown, read, some, noBlank⟩ := exists_displayed usable value
  refine ⟨text, shown, read, ?_⟩
  have typed := (typing_colon closed).chars ('g' :: ' ' :: text.toList)
  obtain ⟨commandLine, window, jumps, status⟩ := typed.enter some noBlank read
  have keys : session.pressAll ((":g ".toList ++ text.toList).map Key.char ++ [.enter]) =
      ((session.handleKey (.char ':')).pressAll
        (('g' :: ' ' :: text.toList).map Key.char)).handleKey .enter := by
    rw [pressAll, List.foldl_append]
    rfl
  have reached : max 0 (min (value.toNat : Int) session.window.lastOffset) =
      min (value.toNat : Int) session.window.lastOffset := by
    have last : 0 ≤ session.window.lastOffset := Int.le_max_left _ _
    omega
  have cursor := congrArg Window.cursor window
  rw [session.window.cursor_goto, reached] at cursor
  rw [keys]
  exact ⟨cursor, jumps, commandLine, status⟩

/-- A session that replaces bytes, on a file of three of them. -/
def Session.replacing : Session :=
  { start { content := #[1, 2, 3] } ⟨{ content := logHeader 16 }, 16, 16⟩ [] 25 with mode := .replace }

/-- The largest word in base eight, which is displayed with a mark that addresses do not have. -/
theorem Session.displayed_typed_back_octal :
    replacing.commandLine = none ∧ Radix.eight.IsAddressBase ∧
      formatInteger (0xFFFFFFFFFFFFFFFF : UInt64).toNat false 8 = .ok "0o1777777777777777777777" ∧
      let typed := ":g ".toList ++ "0o1777777777777777777777".toList
      let jumped := replacing.pressAll (typed.map Key.char ++ [.enter])
      jumped.window.cursor = 2 ∧ jumped.jumps = [0] := by
  have usable : Radix.eight.IsAddressBase := .inr (.inl rfl)
  have formatted : formatInteger (0xFFFFFFFFFFFFFFFF : UInt64).toNat false 8 =
      .ok "0o1777777777777777777777" := by
    decide +kernel
  obtain ⟨text, shown, -, cursor, jumps, -⟩ :=
    replacing.displayed_typed_back rfl 0xFFFFFFFFFFFFFFFF usable
  have written : text = "0o1777777777777777777777" := Except.ok.inj (shown.symm.trans formatted)
  rw [written] at cursor jumps
  have last : min (((0xFFFFFFFFFFFFFFFF : UInt64).toNat : Nat) : Int) replacing.window.lastOffset = 2 := by
    decide
  exact ⟨rfl, usable, formatted, cursor.trans last, jumps⟩

end HexEditor
