/-
What is shown is what is clicked. The screen is composed row by row from the bytes, and a
click is answered by arithmetic on columns; the two agree on every cell. A cell of the two
fields of bytes that belongs to an offset shows a digit or the character of the byte there,
with what is typed of it so far, and a cell that belongs to none is blank. The rows of the
struct on show, the separator and the status do not reach these cells. The cursor is painted
once, where the next digit goes.
-/

import HexEditor.Proofs.Screen.Row
import HexEditor.Proofs.Screen.VisibleBytes

namespace HexEditor

namespace Window

/-! ### Columns under a click -/

/-- The byte under a column has its digits or its character there. -/
theorem byteAt?_of_some {column : Nat} {byte : Int} (found : byteAt? column = some byte) :
    ∃ index : Nat, byte = index ∧ index < 16 ∧
      (column < gridColumn + gridWidth ∧ IsDigitOf index column ∨ column = charColumn + index) := by
  obtain ⟨⟨first, last⟩, place⟩ := byteAt?_eq_some_iff.1 found
  obtain ⟨index, rfl⟩ := Int.eq_ofNat_of_zero_le first
  have inGrid := byteColumn_bounds first last
  have start := digitColumn_eq index
  refine ⟨index, rfl, by omega, ?_⟩
  rw [IsDigitOf]
  omega

/-- A byte of a row is under the columns of its digits and the column of its character. -/
theorem byteAt?_of_place {index column : Nat} (inRow : index < 16)
    (place : IsDigitOf index column ∨ column = charColumn + index) :
    byteAt? column = some (index : Int) := by
  have start := digitColumn_eq index
  rw [IsDigitOf] at place
  exact byteAt?_eq_some_iff.2 ⟨by omega, by omega⟩

variable {window : Window} {column row index : Nat}

/-- A byte of the file in a row of the screen is on the screen. -/
theorem lt_endOffset (onScreen : (row : Int) < window.visibleRows) (inRow : index < 16)
    (inFile : window.base + 16 * row + index < window.fileLength) :
    window.base + 16 * row + index < window.endOffset := by
  rw [endOffset, pageSize]
  omega

/-- The offset under a cell is on the screen, at the place in its row that the column belongs to. -/
theorem offsetAt_of_some {offset : Int} (under : window.offsetAt column row = some offset) :
    ∃ index : Nat, index < 16 ∧ offset = window.base + 16 * row + index ∧
      (row : Int) < window.visibleRows ∧ offset < window.endOffset ∧
      (column < gridColumn + gridWidth ∧ IsDigitOf index column ∨ column = charColumn + index) := by
  obtain ⟨⟨-, onScreen⟩, byte, found, rfl, inFile⟩ := offsetAt_eq_some_iff.1 under
  obtain ⟨index, rfl, inRow, field⟩ := byteAt?_of_some found
  have place : window.base + row * 16 + index = window.base + 16 * row + index := by omega
  rw [place] at inFile ⊢
  exact ⟨index, inRow, rfl, onScreen, lt_endOffset onScreen inRow inFile, field⟩

/-- A cell without an offset belongs to no byte on the screen. -/
theorem offsetAt_of_none (missing : window.offsetAt column row = none)
    (onScreen : (row : Int) < window.visibleRows) (inRow : index < 16)
    (before : window.base + 16 * row + index < window.endOffset) :
    ¬ IsDigitOf index column ∧ column ≠ charColumn + index := by
  have inFile : window.base + row * 16 + index < window.fileLength := by
    rw [endOffset] at before
    omega
  have absent (place : IsDigitOf index column ∨ column = charColumn + index) : False := by
    have found : window.offsetAt column row = some (window.base + row * 16 + index) :=
      offsetAt_eq_some_iff.2 ⟨⟨Int.natCast_nonneg row, onScreen⟩, index,
        byteAt?_of_place inRow place, rfl, inFile⟩
    rw [missing] at found
    cases found
  exact ⟨fun covers => absent (.inl covers), fun same => absent (.inr same)⟩

/-- The places of a byte of a row are those of its place in the row. -/
theorem positionOf_byte (aligned : 16 ∣ window.base) (inRow : index < 16)
    (before : window.base + 16 * row + index < window.endOffset) :
    window.positionOf (window.base + 16 * row + index) .digits =
        some ((digitColumn index : Int), (row : Int)) ∧
      window.positionOf (window.base + 16 * row + index) .characters =
        some (((charColumn + index : Nat) : Int), (row : Int)) := by
  have place : (window.base + 16 * row + index) % 16 = index := by omega
  have number : (window.base + 16 * row + index - window.base) / 16 = row := by omega
  have shown : window.Shows (window.base + 16 * row + index) := ⟨by omega, before⟩
  rw [positionOf_of_shows shown, positionOf_of_shows shown, place, number, digitColumn_eq]
  exact ⟨rfl, rfl⟩

/-- The cursor of a window that shows it is at a place in a row of the screen. -/
theorem exists_place (aligned : 16 ∣ window.base) (above : window.base ≤ window.cursor)
    (below : window.cursor < window.endOffset) :
    ∃ row index : Nat, index < 16 ∧ window.cursor = window.base + 16 * row + index ∧
      window.cursor % 16 = index ∧ (window.cursor - window.base) / 16 = row ∧
      (row : Int) < window.visibleRows := by
  obtain ⟨row, row_eq⟩ := Int.eq_ofNat_of_zero_le
    (show 0 ≤ (window.cursor - window.base) / 16 by omega)
  obtain ⟨index, index_eq⟩ := Int.eq_ofNat_of_zero_le (show 0 ≤ window.cursor % 16 by omega)
  rw [endOffset, pageSize] at below
  exact ⟨row, index, by omega, by omega, index_eq, row_eq, by omega⟩

end Window

/-! ### Lines -/

/-- No row of a struct is painted like the cursor. -/
theorem PanelRow.style_ne_cursor (row : PanelRow) : row.style ≠ "cursor" := by
  obtain ⟨kind, text, level⟩ := row
  cases kind with
  | header =>
    rw [style]
    dsimp only
    split_ifs
    · intro same
      have letters := congrArg String.toList same
      rw [String.toList_append] at letters
      cases letters
    · decide
  | value =>
    show "value" ≠ "cursor"
    decide
  | separator =>
    show "separator" ≠ "cursor"
    decide
  | headerPad =>
    show "header-pad" ≠ "cursor"
    decide

namespace Session

variable {session : Session} {rows : List (List UInt8)} {number place : Nat}

theorem text_markCursor (session : Session) (line : ScreenLine) :
    (session.markCursor line).text = line.text := by
  dsimp only [markCursor]
  split <;> rfl

/-- The columns of the cursor, which are those of the digit that is typed next. -/
def cursorSpan (session : Session) : Span :=
  let column := gridColumn + byteColumn (session.window.cursor % 16)
  ⟨if session.pendingByte.isSome then column + 1 else column, column + 2, "cursor"⟩

theorem cursorSpan_eq {index : Nat} (place : session.window.cursor % 16 = index) :
    session.cursorSpan =
      ⟨if session.pendingByte.isSome then (digitColumn index : Int) + 1 else digitColumn index,
        (digitColumn index : Int) + 2, "cursor"⟩ := by
  rw [digitColumn_eq, ← place]
  rfl

theorem styled_markCursor (session : Session) (line : ScreenLine) :
    (session.markCursor line).styled "cursor" = line.styled "cursor" ++ [session.cursorSpan] := by
  have marked : ((line.underlay ⟨0, lineWidth, "active-line"⟩).mark session.cursorSpan).styled
      "cursor" = line.styled "cursor" ++ [session.cursorSpan] := by
    have other : "active-line" ≠ "cursor" := by decide
    have plain : (line.underlay ⟨0, lineWidth, "active-line"⟩).styled "cursor" =
        line.styled "cursor" := ScreenLine.styled_underlay_of_ne _ _ other
    rw [← plain]
    exact ScreenLine.styled_mark _ session.cursorSpan
  dsimp only [markCursor]
  split
  · have other : "active-char" ≠ "cursor" := by decide
    exact (ScreenLine.styled_mark_of_ne _ _ other).trans marked
  · exact marked

theorem styled_statusLine (session : Session) : session.statusLine.styled "cursor" = [] := by
  rw [statusLine]
  cases session.status with
  | some status =>
    have other : status.style.name ≠ "cursor" := by cases status.style <;> decide
    exact ScreenLine.styled_put_of_ne {} _ _ _ other
  | none =>
    cases session.commandLine with
    | some line => rfl
    | none =>
      have other : session.mode.style ≠ "cursor" := by cases session.mode <;> decide
      have place : "loc" ≠ "cursor" := by decide
      dsimp only
      rw [ScreenLine.styled_put_of_ne _ _ _ _ place, ScreenLine.styled_put_of_ne _ _ _ _ other]
      rfl

/-! ### Lines of bytes -/

/-- A line of bytes with the row of the struct that stands to the right of it. -/
def panelLine (session : Session) (rows : List (List UInt8)) (number : Nat) : ScreenLine :=
  session.rows[number]?.elim (session.bytesLine rows number) fun row =>
    (session.bytesLine rows number).put panelColumn row.text.toList (some row.style)

theorem cell_panelLine (before : place < panelColumn) :
    (session.panelLine rows number).cell place = (session.bytesLine rows number).cell place := by
  rw [panelLine]
  cases session.rows[number]? with
  | none => rfl
  | some row =>
    rw [Option.elim_some]
    exact ScreenLine.cell_put_of_lt _ _ _ _ _ before

theorem le_length_panelLine :
    (session.bytesLine rows number).text.length ≤ (session.panelLine rows number).text.length := by
  rw [panelLine]
  cases session.rows[number]? with
  | none => exact Nat.le_refl _
  | some row =>
    rw [Option.elim_some, ScreenLine.length_put]
    exact Nat.le_max_left _ _

theorem styled_panelLine :
    (session.panelLine rows number).styled "cursor" =
      (session.bytesLine rows number).styled "cursor" := by
  rw [panelLine]
  cases session.rows[number]? with
  | none => rfl
  | some row => exact ScreenLine.styled_put_of_ne _ _ _ _ row.style_ne_cursor

theorem lineAt_eq :
    session.lineAt rows number =
      let line := if (number : Int) + 2 = session.window.height then
          (session.panelLine rows number).put 0 (List.replicate lineWidth '─') (some "separator")
        else
          session.panelLine rows number
      if (number : Int) + 1 = session.window.height then session.statusLine.laidOver line
      else line := by
  rw [lineAt, panelLine]
  cases session.rows[number]? <;> rfl

/-- Above the separator and the status nothing else is put on a line. -/
theorem lineAt_of_lt (above : (number : Int) + 2 < session.window.height) :
    session.lineAt rows number = session.panelLine rows number := by
  rw [lineAt_eq]
  dsimp only
  rw [if_neg (by omega), if_neg (by omega)]

/-- What is put on a line of bytes is not painted like the cursor. -/
theorem styled_lineAt :
    (session.lineAt rows number).styled "cursor" =
      (session.bytesLine rows number).styled "cursor" := by
  have other : "separator" ≠ "cursor" := by decide
  rw [lineAt_eq]
  dsimp only
  rw [apply_ite (ScreenLine.styled · "cursor"), ScreenLine.styled_laidOver, styled_statusLine,
    List.nil_append, ite_self, apply_ite (ScreenLine.styled · "cursor"),
    ScreenLine.styled_put_of_ne _ _ _ _ other, ite_self, styled_panelLine]

theorem bytesLine_of_none (absent : rows[number]? = none) : session.bytesLine rows number = {} := by
  rw [bytesLine, absent]

/-- The line of a row shows as many bytes as the file has on the screen from there on. -/
theorem text_bytesLine (holds : HoldRows session.byteShown session.window.base
      session.window.endOffset rows)
    (before : session.window.base + 16 * number < session.window.endOffset) :
    ∃ bytes : List UInt8,
      (session.bytesLine rows number).text =
        (rowLine (session.window.base + 16 * number) bytes).text ∧
      (bytes.length : Int) =
        min 16 (session.window.endOffset - (session.window.base + 16 * number)) ∧
      ∀ index < bytes.length,
        bytes[index]? = session.byteShown (session.window.base + 16 * number + index) := by
  obtain ⟨bytes, found, length, shown⟩ := holds.present number before
  have count : ((bytes.take (min 16 (session.window.endOffset -
      (session.window.base + 16 * number))).toNat).length : Int) =
        min 16 (session.window.endOffset - (session.window.base + 16 * number)) := by
    rw [List.length_take]
    omega
  refine ⟨_, ?_, count, fun index within => ?_⟩
  · rw [bytesLine, found]
    dsimp only
    split_ifs
    · exact session.text_markCursor _
    · rfl
  · rw [List.getElem?_take_of_lt (by omega)]
    exact shown index (by omega) (by omega)

/-- The cursor is painted on the line of its row. -/
theorem styled_bytesLine (number : Nat) :
    (session.bytesLine rows number).styled "cursor" =
      if rows[number]?.isSome ∧ session.window.cursorVisible ∧
          (session.window.cursor - session.window.base) / 16 = number then
        [session.cursorSpan]
      else
        [] := by
  have other : "address" ≠ "cursor" := by decide
  rw [bytesLine]
  cases rows[number]? with
  | none => rfl
  | some bytes =>
    simp only [Option.isSome_some, true_and]
    split_ifs
    · rw [styled_markCursor, styled_rowLine_of_ne other, List.nil_append]
    · exact styled_rowLine_of_ne other

/-! ### What is shown -/

/-- A screen that has room for a row is composed of the bytes that are seen. -/
theorem screen_eq {lines : List ScreenLine} (row : 3 ≤ session.window.height)
    (composed : session.screen = .ok lines) :
    ∃ rows, session.visibleBytes = .ok rows ∧
      lines = (List.range session.window.height.toNat).map (session.lineAt rows) := by
  have some : 0 < session.window.visibleRows := by
    rw [Window.visibleRows]
    omega
  dsimp only [screen] at composed
  rw [if_pos some] at composed
  cases visible : session.visibleBytes with
  | error failure =>
    rw [visible] at composed
    cases composed
  | ok rows =>
    rw [visible] at composed
    cases composed
    exact ⟨rows, rfl, rfl⟩

/-- The character at a place of a screen, unless it is behind the end of its line. -/
def characterAt (lines : List ScreenLine) (column row : Nat) : Option Char :=
  lines[row]?.bind fun line => line.text[column]?

/-- What is shown on a screen is what is clicked there. -/
structure Shows (session : Session) (lines : List ScreenLine) : Prop where
  length_eq : lines.length = session.window.height.toNat
  /-- In the grid a cell with an offset shows a digit of the byte there: the first one where the
  offset has its place, or the second one behind it. -/
  digit : ∀ (column row : Nat) (offset : Int), column < gridColumn + gridWidth →
    session.window.offsetAt column row = some offset →
    ∃ (byte : UInt8) (first half : Nat), session.byteShown offset = some byte ∧
      session.window.positionOf offset .digits = some ((first : Int), (row : Int)) ∧ half < 2 ∧
      column = first + half ∧ characterAt lines column row = (byteHex byte)[half]?
  /-- Behind the grid it shows the character of that byte. -/
  character : ∀ (column row : Nat) (offset : Int), charColumn ≤ column →
    session.window.offsetAt column row = some offset →
    ∃ byte : UInt8, session.byteShown offset = some byte ∧
      session.window.positionOf offset .characters = some ((column : Int), (row : Int)) ∧
      characterAt lines column row = some (byteGlyph byte)
  /-- A cell of the two fields that has no offset is blank, or behind the end of its line. -/
  blank : ∀ column row : Nat, (row : Int) < session.window.visibleRows →
    gridColumn ≤ column ∧ column < gridColumn + gridWidth ∨
      charColumn ≤ column ∧ column < charColumn + 16 →
    session.window.offsetAt column row = none →
    characterAt lines column row = none ∨ characterAt lines column row = some ' '
  /-- The cursor is painted on one line, from its place on or from the digit that is typed next. -/
  cursor : 0 < session.file.size →
    ∃ column row : Nat,
      session.window.positionOf session.window.cursor .digits =
        some ((column : Int), (row : Int)) ∧
      row < lines.length ∧
      ∀ (number : Nat) (line : ScreenLine), lines[number]? = some line →
        line.styled "cursor" =
          if number = row then
            [⟨if session.pendingByte.isSome then column + 1 else column, column + 2, "cursor"⟩]
          else
            []

section Composed

variable (holds : HoldRows session.byteShown session.window.base session.window.endOffset rows)
  {lines : List ScreenLine}
  (composed : lines = (List.range session.window.height.toNat).map (session.lineAt rows))
  {column row : Nat} (onScreen : (row : Int) < session.window.visibleRows)
include composed onScreen

theorem characterAt_eq (column : Nat) :
    characterAt lines column row = (session.panelLine rows row).text[column]? := by
  rw [Window.visibleRows] at onScreen
  have inside : row < session.window.height.toNat := by omega
  rw [characterAt, composed, List.getElem?_map, List.getElem?_range inside,
    ← lineAt_of_lt (by omega)]
  rfl

include holds

/-- In the fields of bytes of a row that is in the file, the row of its bytes is seen. -/
theorem characterAt_of_lt
    (before : session.window.base + 16 * row < session.window.endOffset) :
    ∃ bytes : List UInt8,
      (bytes.length : Int) =
        min 16 (session.window.endOffset - (session.window.base + 16 * row)) ∧
      (∀ index < bytes.length,
        bytes[index]? = session.byteShown (session.window.base + 16 * row + index)) ∧
      ∀ column < lineWidth,
        characterAt lines column row =
          some ((rowLine (session.window.base + 16 * row) bytes).cell column) := by
  obtain ⟨bytes, text, length, shown⟩ := text_bytesLine holds before
  refine ⟨bytes, length, shown, fun column inLine => ?_⟩
  have wide : lineWidth ≤ (session.bytesLine rows row).text.length := by
    rw [text]
    exact le_length_rowLine
  have inside : column < (session.panelLine rows row).text.length :=
    Nat.lt_of_lt_of_le inLine (Nat.le_trans wide le_length_panelLine)
  have left : column < panelColumn := Nat.lt_trans inLine (by decide)
  rw [characterAt_eq composed onScreen, ScreenLine.getElem?_of_lt_length _ _ inside,
    cell_panelLine left, ScreenLine.cell_of_text text]

/-- In front of the rows of the struct nothing is seen behind the end of the file. -/
theorem characterAt_of_le (left : column < panelColumn)
    (behind : session.window.endOffset ≤ session.window.base + 16 * row) :
    characterAt lines column row = none ∨ characterAt lines column row = some ' ' := by
  have blank : (session.panelLine rows row).cell column = ' ' := by
    rw [cell_panelLine left, bytesLine_of_none (holds.absent row behind)]
    rfl
  rw [characterAt_eq composed onScreen]
  cases seen : (session.panelLine rows row).text[column]? with
  | none => exact .inl rfl
  | some character =>
    rw [ScreenLine.cell, seen] at blank
    exact .inr (congrArg some blank)

/-- A byte on the screen is the one of its row that is to be seen at its offset. -/
theorem exists_byteShown {index : Nat} (inRow : index < 16)
    (before : session.window.base + 16 * row + index < session.window.endOffset) :
    ∃ (bytes : List UInt8) (byte : UInt8), bytes[index]? = some byte ∧
      session.byteShown (session.window.base + 16 * row + index) = some byte ∧
      ∀ column < lineWidth,
        characterAt lines column row =
          some ((rowLine (session.window.base + 16 * row) bytes).cell column) := by
  obtain ⟨bytes, length, shown, seen⟩ := characterAt_of_lt holds composed onScreen (by omega)
  have inside : index < bytes.length := by omega
  have found := List.getElem?_eq_getElem inside
  exact ⟨bytes, bytes[index], found, (shown index inside).symm.trans found, seen⟩

end Composed

section Screen

variable {lines : List ScreenLine} (placed : session.Placed) (room : 3 ≤ session.window.height)
  (composed : session.screen = .ok lines)
include room composed

/-- A column of the grid that belongs to an offset shows a digit of the byte there. -/
theorem digit_of_offsetAt {column row : Nat} {offset : Int} (aligned : 16 ∣ session.window.base)
    (grid : column < gridColumn + gridWidth)
    (under : session.window.offsetAt column row = some offset) :
    ∃ (byte : UInt8) (first half : Nat), session.byteShown offset = some byte ∧
      session.window.positionOf offset .digits = some ((first : Int), (row : Int)) ∧ half < 2 ∧
      column = first + half ∧ characterAt lines column row = (byteHex byte)[half]? := by
  obtain ⟨rows, visible, composed⟩ := screen_eq room composed
  obtain ⟨index, inRow, rfl, onScreen, before, place⟩ := Window.offsetAt_of_some under
  have digit : IsDigitOf index column := by
    rcases place with ⟨-, digit⟩ | rfl
    · exact digit
    · rw [charColumn, gridColumn, gridWidth] at grid
      omega
  obtain ⟨half, rfl⟩ := Nat.exists_eq_add_of_le digit.1
  have two : half < 2 := Nat.lt_succ_of_le (Nat.le_of_add_le_add_left digit.2)
  have position := (Window.positionOf_byte aligned inRow before).1
  obtain ⟨bytes, byte, found, shown, seen⟩ :=
    exists_byteShown (holdRows_visibleBytes visible) composed onScreen inRow before
  refine ⟨byte, digitColumn index, half, shown, position, two, rfl, ?_⟩
  have there : (byteHex byte)[half]? = some (byteHex byte)[half] := List.getElem?_eq_getElem two
  rw [seen _ (Nat.lt_trans grid (by decide)), cell_rowLine_digit found inRow two, there]
  rfl

/-- A column of the characters that belongs to an offset shows the character of the byte there. -/
theorem character_of_offsetAt {column row : Nat} {offset : Int} (aligned : 16 ∣ session.window.base)
    (field : charColumn ≤ column) (under : session.window.offsetAt column row = some offset) :
    ∃ byte : UInt8, session.byteShown offset = some byte ∧
      session.window.positionOf offset .characters = some ((column : Int), (row : Int)) ∧
      characterAt lines column row = some (byteGlyph byte) := by
  obtain ⟨rows, visible, composed⟩ := screen_eq room composed
  obtain ⟨index, inRow, rfl, onScreen, before, place⟩ := Window.offsetAt_of_some under
  obtain rfl : column = charColumn + index := by
    rcases place with ⟨grid, -⟩ | same
    · rw [charColumn] at field
      rw [gridColumn, gridWidth] at grid
      omega
    · exact same
  have position := (Window.positionOf_byte aligned inRow before).2
  obtain ⟨bytes, byte, found, shown, seen⟩ :=
    exists_byteShown (holdRows_visibleBytes visible) composed onScreen inRow before
  refine ⟨byte, shown, position, ?_⟩
  rw [seen _ (Nat.add_lt_add_left inRow charColumn), cell_rowLine_character found inRow]

/-- A row of bytes is blank in the columns of the two fields that belong to no byte of it. -/
theorem blank_of_offsetAt {column row : Nat} (onScreen : (row : Int) < session.window.visibleRows)
    (field : gridColumn ≤ column ∧ column < gridColumn + gridWidth ∨
      charColumn ≤ column ∧ column < charColumn + 16)
    (missing : session.window.offsetAt column row = none) :
    characterAt lines column row = none ∨ characterAt lines column row = some ' ' := by
  obtain ⟨rows, visible, composed⟩ := screen_eq room composed
  have holds := holdRows_visibleBytes visible
  have inLine : column < lineWidth := by
    rw [gridColumn, gridWidth, charColumn] at field
    rw [lineWidth, charColumn]
    omega
  by_cases before : session.window.base + 16 * row < session.window.endOffset
  · obtain ⟨bytes, length, -, seen⟩ := characterAt_of_lt holds composed onScreen before
    have word : 0 ≤ session.window.base + 16 * row ∧
        session.window.base + 16 * row ≤ wordLimit := by
      have small := holds.small (by omega)
      omega
    have apart : ∀ index < bytes.length,
        ¬ IsDigitOf index column ∧ column ≠ charColumn + index := fun index inside =>
      Window.offsetAt_of_none missing onScreen (by omega) (by omega)
    right
    rw [seen column inLine]
    rcases field with ⟨start, stop⟩ | ⟨start, stop⟩
    · exact congrArg some (cell_rowLine_gap word.1 word.2 start stop fun index inside =>
        (apart index inside).1)
    · obtain ⟨place, rfl⟩ := Nat.exists_eq_add_of_le start
      have behind : bytes.length ≤ place := Nat.not_lt.1 fun inside => (apart place inside).2 rfl
      exact congrArg some (cell_rowLine_behind word.1 word.2 (by omega)
        (Nat.add_le_add_left behind charColumn) inLine)
  · exact characterAt_of_le holds composed onScreen (Nat.lt_trans inLine (by decide))
      (Int.not_lt.1 before)

include placed

/-- The cursor is painted once, on the digits of its byte that are to be typed. -/
theorem cursor_of_screen (filled : 0 < session.file.size) :
    ∃ column row : Nat,
      session.window.positionOf session.window.cursor .digits =
        some ((column : Int), (row : Int)) ∧
      row < lines.length ∧
      ∀ (number : Nat) (line : ScreenLine), lines[number]? = some line →
        line.styled "cursor" =
          if number = row then
            [⟨if session.pendingByte.isSome then column + 1 else column, column + 2, "cursor"⟩]
          else
            [] := by
  obtain ⟨rows, visible, composed⟩ := screen_eq room composed
  have holds := holdRows_visibleBytes visible
  have length := placed.length_eq
  have aligned := placed.window.base_aligned
  obtain ⟨above, below⟩ := placed.window.visible room (by omega)
  have shown : session.window.cursorVisible = true := by
    rw [Window.cursorVisible, Bool.and_eq_true, decide_eq_true_iff, decide_eq_true_iff]
    exact ⟨above, below⟩
  obtain ⟨row, index, inRow, cursor_eq, index_eq, row_eq, onScreen⟩ :=
    Window.exists_place aligned above below
  refine ⟨digitColumn index, row, ?_, ?_, fun number line found => ?_⟩
  · rw [cursor_eq] at below ⊢
    exact (Window.positionOf_byte aligned inRow below).1
  · rw [composed, List.length_map, List.length_range]
    rw [Window.visibleRows] at onScreen
    omega
  · rw [composed, List.getElem?_map] at found
    obtain ⟨_, same, rfl⟩ := Option.map_eq_some_iff.1 found
    obtain ⟨_, rfl⟩ := List.getElem?_eq_some_iff.1 same
    rw [List.getElem_range, styled_lineAt, styled_bytesLine, cursorSpan_eq index_eq]
    have here : (rows[number]?.isSome ∧ session.window.cursorVisible ∧
        (session.window.cursor - session.window.base) / 16 = number) ↔ number = row := by
      constructor
      · rintro ⟨-, -, same⟩
        omega
      · rintro rfl
        obtain ⟨bytes, there, -⟩ := holds.present number (by omega)
        rw [there]
        exact ⟨rfl, shown, row_eq⟩
    simp only [here]

end Screen

/-- A screen of a placed session shows what is clicked on it. -/
theorem Placed.shows {lines : List ScreenLine} (placed : session.Placed)
    (room : 3 ≤ session.window.height) (composed : session.screen = .ok lines) :
    session.Shows lines where
  length_eq := by
    obtain ⟨rows, -, rfl⟩ := screen_eq room composed
    rw [List.length_map, List.length_range]
  digit _ _ _ := digit_of_offsetAt room composed placed.window.base_aligned
  character _ _ _ := character_of_offsetAt room composed placed.window.base_aligned
  blank _ _ := blank_of_offsetAt room composed
  cursor := cursor_of_screen placed room composed

/-- In every session that was opened, whatever happened since, what is shown is what is clicked. A
screen is there as long as the device reads the bytes and there is room for them. -/
theorem shown_is_clicked {content : Array UInt8} {logContent : List UInt8}
    {structs : List (String × Struct)} {height : Int} {opened : Session}
    (start : openOn content logContent structs height = .ok opened) {trials : List Trial}
    (ran : Trial.applyAll trials opened = .ok session) (room : 3 ≤ session.window.height) :
    (session.CanShow → ∃ lines, session.screen = .ok lines) ∧
      ∀ lines, session.screen = .ok lines → session.Shows lines := by
  have placed := placed_of_run start ran
  refine ⟨fun shows => ?_, fun lines composed => placed.shows room composed⟩
  obtain ⟨rows, visible⟩ := exists_visibleBytes placed room shows
  rw [screen, visible]
  split_ifs <;> exact ⟨_, rfl⟩

/-- The first digit of a byte is typed. -/
def typingFirst : List Trial :=
  [{ event := .key (.char 'R') }, { event := .key (.char 'a') }]

theorem shown_is_clicked_typingFirst :
    openOn #[1, 2, 3] [] [] 25 = .ok (start { content := #[1, 2, 3] } EditLog.freshLog [] 25) ∧
      ∃ last, Trial.applyAll typingFirst
          (start { content := #[1, 2, 3] } EditLog.freshLog [] 25) = .ok last ∧
        3 ≤ last.window.height ∧ last.CanShow ∧
        ∃ lines, last.screen = .ok lines ∧ last.Shows lines ∧
          characterAt lines gridColumn 0 = some 'a' := by
  have opened : openOn #[1, 2, 3] [] [] 25 =
      .ok (start { content := #[1, 2, 3] } EditLog.freshLog [] 25) := rfl
  have ran : Trial.applyAll typingFirst
      (start { content := #[1, 2, 3] } EditLog.freshLog [] 25) = .ok _ := rfl
  obtain ⟨composed, clicked⟩ := shown_is_clicked opened ran (by decide)
  obtain ⟨lines, screen⟩ := composed ⟨rfl, rfl, by decide, by decide⟩
  have shows := clicked lines screen
  refine ⟨opened, _, ran, by decide, ⟨rfl, rfl, by decide, by decide⟩, lines, screen, shows, ?_⟩
  -- the cell belongs to the half-typed byte, and its first digit is seen there
  obtain ⟨byte, first, half, shown, position, -, column, seen⟩ :=
    shows.digit gridColumn 0 0 (by decide) rfl
  have first_eq : (gridColumn : Int) = first := congrArg Prod.fst (Option.some.inj position)
  obtain rfl : half = 0 := by omega
  cases shown
  exact seen

end Session

end HexEditor
