/-
Where the spans of a screen lie. Whatever is put on a line makes it no shorter, so a span
that lies within the line when it is painted stays within it. The cursor is marked only on
rows of bytes, which are as wide as the spans of the cursor reach; and the place of the cursor
fits into the line of the status because the offsets of a file are words. So the screen of a
session is well formed at every height, even where the separator and the status cover all
that it has.
-/

import HexEditor.Proofs.Screen.InPlace

namespace HexEditor

/-! ### Lines -/

/-- A span has a column at least, and all its columns are in a width. -/
def Span.Within (span : Span) (width : Nat) : Prop :=
  0 ≤ span.start ∧ span.start < span.stop ∧ span.stop ≤ width

theorem Span.Within.mono {span : Span} {width wider : Nat} (within : span.Within width)
    (le : width ≤ wider) : span.Within wider :=
  ⟨within.1, within.2.1, Int.le_trans within.2.2 (Int.ofNat_le.2 le)⟩

namespace ScreenLine

/-- All spans of a line are within its text. -/
def WellFormed (line : ScreenLine) : Prop := ∀ span ∈ line.spans, span.Within line.text.length

variable {line below : ScreenLine}

theorem wellFormed_empty : WellFormed {} := by
  intro span member
  cases member

/-- What is put on a line at one of its columns leaves the line well formed. -/
theorem WellFormed.put (formed : line.WellFormed) {column : Int} (natural : 0 ≤ column)
    (text : List Char) (style : Option String) : (line.put column text style).WellFormed := by
  obtain ⟨place, rfl⟩ := Int.eq_ofNat_of_zero_le natural
  have length := line.length_put place text style
  have old : ∀ span ∈ line.spans,
      span.Within (line.put (place : Nat) text style).text.length := fun span member =>
    (formed span member).mono (by rw [length]; exact Nat.le_max_left _ _)
  intro span member
  dsimp only [ScreenLine.put] at member
  split at member
  · split at member
    · exact old span member
    · next filled =>
      rcases List.mem_append.1 member with before | added
      · exact old span before
      · obtain rfl := List.mem_singleton.1 added
        have some : 0 < text.length := List.length_pos_iff.2 (by simpa using filled)
        rw [Span.Within, length]
        dsimp only
        omega
  · exact old span member

theorem WellFormed.mark (formed : line.WellFormed) {span : Span}
    (within : span.Within line.text.length) : (line.mark span).WellFormed := by
  intro other member
  rcases List.mem_append.1 member with before | added
  · exact formed other before
  · obtain rfl := List.mem_singleton.1 added
    exact within

theorem WellFormed.underlay (formed : line.WellFormed) {span : Span}
    (within : span.Within line.text.length) : (line.underlay span).WellFormed := by
  intro other member
  rcases List.mem_cons.1 member with rfl | before
  · exact within
  · exact formed other before

theorem WellFormed.laidOver (formed : line.WellFormed) (belowFormed : below.WellFormed) :
    (line.laidOver below).WellFormed := by
  have length : (line.laidOver below).text.length =
      line.text.length + (below.text.length - line.text.length) := by
    rw [ScreenLine.laidOver, List.length_append, List.length_drop]
  intro span member
  rw [length]
  rcases List.mem_append.1 member with above | behind
  · exact (formed span above).mono (Nat.le_add_right _ _)
  · exact (belowFormed span behind).mono (by omega)

theorem wellFormed_putDigits (formed : line.WellFormed) (number : Nat) (bytes : List UInt8) :
    (putDigits line number bytes).WellFormed := by
  induction bytes generalizing line number with
  | nil => exact formed
  | cons byte rest inductionHypothesis =>
    rw [putDigits, ← digitColumn_eq]
    exact inductionHypothesis (formed.put (Int.natCast_nonneg _) _ _) _

theorem wellFormed_rowLine (offset : Int) (bytes : List UInt8) :
    (rowLine offset bytes).WellFormed := by
  have address := (wellFormed_empty.put (Int.le_refl 0)
    (alignRight addressWidth (signedHexDigits offset).toList) (some "address")).put
      (Int.natCast_nonneg addressWidth) " │ ".toList none
  have digits := wellFormed_putDigits address 0 bytes
  rw [rowLine, rowLineOf]
  exact ((digits.put (by decide) _ _).put (Int.natCast_nonneg _) _ _).put (Int.natCast_nonneg _) _ _

end ScreenLine

/-! ### The screen -/

namespace Session

variable {session : Session} {rows : List (List UInt8)} {number : Nat}

/-- The columns of the cursor are those of a row of bytes. -/
theorem within_cursorSpan (session : Session) : session.cursorSpan.Within lineWidth := by
  obtain ⟨byte, byte_eq⟩ := Int.eq_ofNat_of_zero_le (show 0 ≤ session.window.cursor % 16 by omega)
  have bounds := (digitColumn_bounds (show byte < 16 by omega)).2
  rw [gridColumn, gridWidth] at bounds
  rw [cursorSpan_eq byte_eq, Span.Within, lineWidth, charColumn]
  dsimp only
  split_ifs <;> omega

theorem wellFormed_markCursor {line : ScreenLine} (formed : line.WellFormed)
    (wide : lineWidth ≤ line.text.length) : (session.markCursor line).WellFormed := by
  have active : Span.Within ⟨0, lineWidth, "active-line"⟩ lineWidth :=
    ⟨Int.le_refl 0, by decide, Int.le_refl _⟩
  have character : Span.Within ⟨charColumn + session.window.cursor % 16,
      charColumn + session.window.cursor % 16 + 1, "active-char"⟩ lineWidth := by
    rw [Span.Within, lineWidth]
    dsimp only
    omega
  have cursor := (formed.underlay (active.mono wide)).mark (session.within_cursorSpan.mono wide)
  dsimp only [markCursor]
  split
  · exact cursor.mark (character.mono wide)
  · exact cursor

theorem wellFormed_bytesLine : (session.bytesLine rows number).WellFormed := by
  rw [bytesLine_eq, plainLine]
  cases rows[number]? with
  | none =>
    rw [if_neg (by simp)]
    exact ScreenLine.wellFormed_empty
  | some bytes =>
    dsimp only [Option.elim_some]
    split_ifs
    · exact wellFormed_markCursor (ScreenLine.wellFormed_rowLine _ _) le_length_rowLine
    · exact ScreenLine.wellFormed_rowLine _ _

theorem wellFormed_panelLine : (session.panelLine rows number).WellFormed := by
  rw [panelLine]
  cases session.rows[number]? with
  | none => exact wellFormed_bytesLine
  | some row =>
    rw [Option.elim_some]
    exact wellFormed_bytesLine.put (Int.natCast_nonneg _) _ _

/-- The line of the status is well formed while the cursor is at a word. -/
theorem wellFormed_statusLine (natural : 0 ≤ session.window.cursor)
    (small : session.window.cursor ≤ wordLimit) : session.statusLine.WellFormed := by
  have digits : (hexText session.window.cursor).toList.length ≤ 18 := by
    have few : (hexDigits session.window.cursor.natAbs).toList.length ≤ 16 :=
      length_hexDigits_le (by omega)
    rw [hexText, if_neg (Int.not_lt.2 natural), String.toList_append, List.length_append]
    show 2 + _ ≤ 18
    omega
  have mode : session.mode.name.toList.length ≤ 16 := by
    cases session.mode <;> decide
  rw [statusLine]
  split
  · exact ScreenLine.wellFormed_empty.put (Int.le_refl 0) _ _
  · exact ScreenLine.wellFormed_empty.put (Int.le_refl 0) _ _
  · refine (ScreenLine.wellFormed_empty.put ?_ _ _).put ?_ _ _
    · omega
    · rw [lineWidth, charColumn]
      omega

/-- Every line of a placed session is well formed. -/
theorem Placed.wellFormed_lineAt (placed : session.Placed)
    (possible : session.file.size ≤ offsetLimit) : (session.lineAt rows number).WellFormed := by
  have length := placed.length_eq
  have last := session.window.lastOffset_spec
  have behind := placed.window.cursor_le
  rw [offsetLimit] at possible
  have status : session.statusLine.WellFormed := by
    refine wellFormed_statusLine placed.window.cursor_nonneg ?_
    rw [wordLimit]
    omega
  have panel : (session.panelLine rows number).WellFormed := wellFormed_panelLine
  have separated := panel.put (Int.le_refl 0) (List.replicate lineWidth '─') (some "separator")
  rw [lineAt_eq]
  dsimp only
  split_ifs
  · exact status.laidOver separated
  · exact status.laidOver panel
  · exact separated
  · exact panel

/-- The lines of a screen are composed from some rows of bytes. -/
theorem exists_rows_of_screen {lines : List ScreenLine} (composed : session.screen = .ok lines) :
    ∃ rows, lines = (List.range session.window.height.toNat).map (session.lineAt rows) := by
  rw [screen] at composed
  split_ifs at composed
  · cases visible : session.visibleBytes with
    | error failure =>
      rw [visible] at composed
      cases composed
    | ok rows =>
      rw [visible] at composed
      cases composed
      exact ⟨rows, rfl⟩
  · cases composed
    exact ⟨[], rfl⟩

/-- A placed session is not shown only if the bytes on its screen are not read. -/
theorem Placed.screen_of_error (placed : session.Placed) {failure : ViewFailure}
    (failed : session.screen = .error failure) :
    3 ≤ session.window.height ∧ ∃ cause, failure = .storage cause ∧
      session.file.readRows session.window.base session.window.endOffset = .error cause := by
  rw [screen] at failed
  split_ifs at failed with room
  rw [Window.visibleRows] at room
  have three : 3 ≤ session.window.height := by omega
  refine ⟨three, ?_⟩
  cases read : session.file.readRows session.window.base session.window.endOffset with
  | ok rows =>
    obtain ⟨shown, visible⟩ := placed.exists_visibleBytes_of_readRows three read
    rw [visible] at failed
    cases failed
  | error cause =>
    rw [visibleBytes, read] at failed
    cases failed
    exact ⟨cause, rfl, rfl⟩

/-- Whatever happens to a session that was opened, its screen can be composed, at any height. It is
composed in place, where no line, row or byte of a row that is asked for is missing and neither the
cursor nor the half-typed byte is off the screen; all that can fail is reading the bytes. It has as
many lines as the screen is high, and every span on a line is within the text of that line. -/
theorem screen_wellFormed {content : Array UInt8} {logContent : List UInt8}
    {structs : List (String × Struct)} {height : Int} {opened : Session}
    (start : openOn content logContent structs height = .ok opened) {trials : List Trial}
    (ran : Trial.applyAll trials opened = .ok session) (natural : 0 ≤ session.window.height)
    (possible : session.file.size ≤ offsetLimit) :
    ((3 ≤ session.window.height → session.CanShow) → ∃ lines, session.screenInPlace = .ok lines) ∧
      (∀ failure, session.screenInPlace = .error failure →
        ∃ cause, failure = .view (.storage cause) ∧
          session.file.readRows session.window.base session.window.endOffset = .error cause) ∧
      ∀ lines, session.screenInPlace = .ok lines →
        session.screen = .ok lines ∧ (lines.length : Int) = session.window.height ∧
          ∀ line ∈ lines, line.WellFormed := by
  have placed := placed_of_run start ran
  rw [screenInPlace_eq]
  refine ⟨fun shows => ?_, fun failure failed => ?_, fun lines composed => ?_⟩
  · cases composed : session.screen with
    | ok lines => exact ⟨lines, rfl⟩
    | error failure =>
      obtain ⟨room, cause, rfl, unread⟩ := placed.screen_of_error composed
      obtain ⟨rows, visible⟩ := exists_visibleBytes placed room (shows room)
      rw [visibleBytes, unread] at visible
      cases visible
  · cases composed : session.screen with
    | ok lines =>
      rw [composed] at failed
      cases failed
    | error cause =>
      rw [composed] at failed
      cases failed
      obtain ⟨-, storage, rfl, unread⟩ := placed.screen_of_error composed
      exact ⟨storage, rfl, unread⟩
  · cases shown : session.screen with
    | error cause =>
      rw [shown] at composed
      cases composed
    | ok others =>
      rw [shown] at composed
      cases composed
      obtain ⟨rows, rfl⟩ := exists_rows_of_screen shown
      refine ⟨rfl, ?_, fun line member => ?_⟩
      · rw [List.length_map, List.length_range]
        omega
      · obtain ⟨number, -, rfl⟩ := List.mem_map.1 member
        exact placed.wellFormed_lineAt possible

/-- A session that has a struct, which is a header only. -/
def withHeader : Session :=
  start { content := #[1, 2, 3] } EditLog.freshLog [("p", .layout (.folder "bytes" []) [])] 25

/-- The struct is on show, one digit of the first byte is typed, and the screen is so low that the
separator covers a row of the struct. -/
def typingBesideHeader : Session :=
  { withHeader with
    active := some "p"
    rows := [⟨.header, "bytes", 0⟩, ⟨.headerPad, "", 0⟩]
    mode := .replace
    pending := some ⟨0, 1, 0xA1⟩
    window := { fileLength := 3, height := 3, nibble := 1 } }

/-- A key that is pressed while nothing is refused. -/
def keyTrial (key : Key) : Trial := { event := .key key }

/-- Characters that are typed go to the command line. -/
theorem applyAll_commandLine (content : Array UInt8) (log : EditLog)
    (structs : List (String × Struct)) (height : Int) (line text : List Char) :
    Trial.applyAll (text.map fun character => keyTrial (.char character))
        { start { content } log structs height with commandLine := some line } =
      .ok { start { content } log structs height with commandLine := some (line ++ text) } := by
  induction text generalizing line with
  | nil =>
    rw [List.append_nil]
    rfl
  | cons character text inductionHypothesis =>
    rw [List.map_cons, Trial.applyAll, List.foldlM_cons]
    show Trial.applyAll _ { start { content } log structs height with
      commandLine := some (line ++ [character]) } = _
    rw [inductionHypothesis, List.append_assoc, List.singleton_append]

/-- The keys behind which the session stands so. -/
def typeBesideHeader : List Trial :=
  keyTrial (.char ':') :: ("struct p".toList.map (fun character => keyTrial (.char character)) ++
    [keyTrial .enter, keyTrial (.char 'R'), keyTrial (.char 'a'), { event := .resize 3 }])

theorem applyAll_typeBesideHeader :
    Trial.applyAll typeBesideHeader withHeader = .ok typingBesideHeader := by
  have asked : Trial.applyAll ("struct p".toList.map fun character => keyTrial (.char character))
      { withHeader with commandLine := some [] } =
        .ok { withHeader with commandLine := some ([] ++ "struct p".toList) } :=
    applyAll_commandLine _ _ _ _ _ _
  have shown : Trial.applyAll [keyTrial .enter]
      { withHeader with commandLine := some "struct p".toList } =
        .ok { withHeader with
          active := some "p", rows := [⟨.header, "bytes", 0⟩, ⟨.headerPad, "", 0⟩] } := rfl
  have typed : Trial.applyAll [keyTrial (.char 'R'), keyTrial (.char 'a'), { event := .resize 3 }]
      { withHeader with
        active := some "p", rows := [⟨.header, "bytes", 0⟩, ⟨.headerPad, "", 0⟩] } =
        .ok typingBesideHeader := rfl
  have parts : typeBesideHeader = [keyTrial (.char ':')] ++
      ("struct p".toList.map (fun character => keyTrial (.char character)) ++
        ([keyTrial .enter] ++
          [keyTrial (.char 'R'), keyTrial (.char 'a'), { event := .resize 3 }])) := rfl
  have opened : Trial.applyAll [keyTrial (.char ':')] withHeader =
      .ok { withHeader with commandLine := some [] } := rfl
  rw [List.nil_append] at asked
  rw [parts, Trial.applyAll_append opened, Trial.applyAll_append asked,
    Trial.applyAll_append shown, typed]

theorem screen_wellFormed_typingBesideHeader :
    openOn #[1, 2, 3] [] [("p", .layout (.folder "bytes" []) [])] 25 = .ok withHeader ∧
      Trial.applyAll typeBesideHeader withHeader = .ok typingBesideHeader ∧
      typingBesideHeader.CanShow ∧
      ∃ lines, typingBesideHeader.screenInPlace = .ok lines ∧ lines.length = 3 ∧
        ∀ line ∈ lines, line.WellFormed := by
  have start : openOn #[1, 2, 3] [] [("p", .layout (.folder "bytes" []) [])] 25 =
      .ok withHeader := rfl
  obtain ⟨composed, -, formed⟩ :=
    screen_wellFormed start applyAll_typeBesideHeader (by decide) (by decide)
  have shows : typingBesideHeader.CanShow := ⟨rfl, rfl, by decide, by decide⟩
  obtain ⟨lines, screen⟩ := composed fun _ => shows
  obtain ⟨-, length, linesFormed⟩ := formed lines screen
  exact ⟨start, applyAll_typeBesideHeader, shows, lines, screen, Int.ofNat.inj length, linesFormed⟩

end Session

end HexEditor
