/-
The printed screen. What the editor puts on a line itself has no line break: addresses, digits,
the characters of bytes, the separator, the mode and the cursor, and all messages. What it takes
from elsewhere may have one: the rows of a struct, whose names and texts come from its definition
and from the file, and what is typed of a command. So a printed screen has the breaks between its
lines and those of these texts, as far as they are shown; where they have none, its lines are the
lines of the screen.
-/

import HexEditor.Proofs.Screen.Spans
import HexEditor.Proofs.Session.Messages
import HexEditor.Proofs.Text.Decoding

namespace HexEditor

/-! ### Lines -/

namespace ScreenLine

variable {line : ScreenLine}

theorem unbroken_put (unbroken : Unbroken line.text) {text : List Char} (other : Unbroken text)
    (column : Int) (style : Option String) : Unbroken (line.put column text style).text := by
  have padded : Unbroken
      (line.text ++ List.replicate (column.toNat - line.text.length) ' ') :=
    unbroken.append (unbroken_replicate (by decide) _)
  refine Unbroken.append (Unbroken.append ?_ other) ?_
  · exact padded.mono (List.take_subset _ _)
  · exact padded.mono (List.drop_subset _ _)

/-- Text that is put at the start covers as much of the line. -/
theorem text_put_zero (line : ScreenLine) (text : List Char) (style : Option String) :
    (line.put 0 text style).text = text ++ line.text.drop text.length := by
  have zero : (0 : Int) = (0 : Nat) := rfl
  rw [zero, text_put, Nat.zero_sub, List.replicate_zero, List.append_nil, Nat.zero_add]
  rfl

/-- Text that is put behind the end of a line goes on behind the blanks up to there. -/
theorem text_put_of_le {column : Nat} (short : line.text.length ≤ column) (text : List Char)
    (style : Option String) :
    (line.put column text style).text =
      line.text ++ List.replicate (column - line.text.length) ' ' ++ text := by
  have length : (line.text ++ List.replicate (column - line.text.length) ' ').length = column := by
    rw [List.length_append, List.length_replicate, Nat.add_sub_cancel' short]
  rw [text_put]
  dsimp only
  rw [List.take_of_length_le (Nat.le_of_eq length),
    List.drop_of_length_le (by rw [length]; exact Nat.le_add_right _ _), List.append_nil]

end ScreenLine

/-- What is cut off a text takes its front first. -/
theorem drop_front {front behind : List Char} {width : Nat}
    (full : behind ≠ [] → front.length = width) (count : Nat) :
    (front ++ behind).drop count = front.drop count ++ behind.drop (count - width) := by
  rw [List.drop_append]
  by_cases some : behind = []
  · rw [some, List.drop_nil, List.drop_nil]
  · rw [full some]

/-! ### Rows of bytes -/

theorem byteGlyph_ne_break (byte : UInt8) : byteGlyph byte ≠ '\n' := by
  have all : ∀ value < 256, byteGlyph (UInt8.ofNat value) ≠ '\n' := by decide +kernel
  have here := all byte.toNat byte.toNat_lt
  rwa [UInt8.ofNat_toNat] at here

theorem unbroken_byteHex (byte : UInt8) : Unbroken (byteHex byte) := by
  have value := byte.toNat_lt
  have upper : digitChar (byte.toNat / 16) ≠ '\n' :=
    digitChar_ne_break (by rw [largestBase]; omega)
  have lower : digitChar (byte.toNat % 16) ≠ '\n' :=
    digitChar_ne_break (by rw [largestBase]; omega)
  intro member
  rcases List.mem_cons.1 member with same | rest
  · exact upper same.symm
  · exact lower (List.mem_singleton.1 rest).symm

theorem unbroken_putDigits {line : ScreenLine} (unbroken : Unbroken line.text) (number : Nat)
    (bytes : List UInt8) : Unbroken (putDigits line number bytes).text := by
  induction bytes generalizing line number with
  | nil => exact unbroken
  | cons byte rest inductionHypothesis =>
    exact inductionHypothesis (ScreenLine.unbroken_put unbroken (unbroken_byteHex byte) _ _) _

theorem unbroken_rowLine (offset : Int) (bytes : List UInt8) :
    Unbroken (rowLine offset bytes).text := by
  have address : Unbroken (alignRight addressWidth (signedHexDigits offset).toList) :=
    (unbroken_replicate (by decide) _).append (unbroken_signedHexDigits offset)
  have characters : Unbroken (bytes.map byteGlyph) := by
    intro member
    obtain ⟨byte, -, same⟩ := List.mem_map.1 member
    exact byteGlyph_ne_break byte same
  have begun : Unbroken ((ScreenLine.put {} 0 (alignRight addressWidth
      (signedHexDigits offset).toList) (some "address")).put addressWidth " │ ".toList).text :=
    ScreenLine.unbroken_put (ScreenLine.unbroken_put (by decide) address _ _) (by decide) _ _
  have digits := unbroken_putDigits begun 0 bytes
  have separated := ScreenLine.unbroken_put digits
    (show Unbroken "│ ".toList by decide) (charColumn - 2) none
  exact ScreenLine.unbroken_put (ScreenLine.unbroken_put separated characters _ _) (by decide) _ _

theorem length_putDigits_le {line : ScreenLine} {number width : Nat} {bytes : List UInt8}
    (inRow : number + bytes.length ≤ 16) (grid : gridColumn + gridWidth ≤ width)
    (short : line.text.length ≤ width) : (putDigits line number bytes).text.length ≤ width := by
  induction bytes generalizing line number with
  | nil => exact short
  | cons byte rest inductionHypothesis =>
    rw [List.length_cons] at inRow
    have bounds := (digitColumn_bounds (show number < 16 by omega)).2
    have two : (byteHex byte).length = 2 := rfl
    rw [putDigits]
    refine inductionHypothesis (by omega) ?_
    rw [← digitColumn_eq, ScreenLine.length_put, two]
    omega

/-- A row of bytes ends with its field of characters. -/
theorem length_rowLine_le {offset : Int} {bytes : List UInt8} (natural : 0 ≤ offset)
    (small : offset ≤ wordLimit) (inRow : bytes.length ≤ 16) :
    (rowLine offset bytes).text.length ≤ lineWidth := by
  have address := length_address_le natural small
  have zero : (0 : Int) = (0 : Nat) := rfl
  have separator : ((charColumn : Int) - 2) = (charColumn - 2 : Nat) := rfl
  have begun : ((ScreenLine.put {} 0 (alignRight addressWidth (signedHexDigits offset).toList)
      (some "address")).put addressWidth " │ ".toList).text.length ≤ lineWidth := by
    have width : " │ ".toList.length = 3 := rfl
    rw [ScreenLine.length_put, zero, ScreenLine.length_put, width, lineWidth, charColumn]
    rw [addressWidth] at address ⊢
    show max (max 0 (0 + _)) _ ≤ _
    omega
  have inGrid : 0 + bytes.length ≤ 16 := by omega
  have grid : gridColumn + gridWidth ≤ lineWidth := by decide
  have digits := length_putDigits_le inGrid grid begun
  have width : "│ ".toList.length = 2 := rfl
  rw [rowLine, rowLineOf, ScreenLine.length_put, ScreenLine.length_put, separator,
    ScreenLine.length_put, List.length_map, List.length_nil, width]
  rw [lineWidth, charColumn] at digits ⊢
  omega

namespace Session

variable {session : Session} {rows : List (List UInt8)} {number : Nat}

theorem unbroken_bytesLine : Unbroken (session.bytesLine rows number).text := by
  rw [bytesLine]
  split
  · decide
  dsimp only
  split
  · rw [text_markCursor]
    exact unbroken_rowLine _ _
  · exact unbroken_rowLine _ _

theorem length_bytesLine_le (holds : HoldRows session.byteShown session.window.base
      session.window.endOffset rows) :
    (session.bytesLine rows number).text.length ≤ lineWidth := by
  by_cases before : session.window.base + 16 * number < session.window.endOffset
  · obtain ⟨bytes, text, length, -⟩ := text_bytesLine holds before
    have bounds := holds.small (by omega)
    rw [text]
    exact length_rowLine_le (by omega) (by omega) (by omega)
  · rw [bytesLine_of_none (holds.absent number (by omega))]
    exact Nat.zero_le _

/-! ### Texts from elsewhere -/

/-- The text of the row of the struct that stands on the line with a number. -/
def panelText (session : Session) (number : Nat) : List Char :=
  session.rows[number]?.elim [] fun row => row.text.toList

/-- What is typed of a command, unless a status is shown in its place. -/
def typedText (session : Session) : List Char :=
  if session.status.isSome then [] else session.commandLine.getD []

/-- What is shown on the line with a number and does not come from the editor itself. The last line
shows what is typed of a command, and as much of the row of the struct as stands behind it. -/
def foreignText (session : Session) (number : Nat) : List Char :=
  if (number : Int) + 1 = session.window.height then
    session.typedText ++
      (session.panelText number).drop (session.statusLine.text.length - panelColumn)
  else
    session.panelText number

/-- A row of the struct stands in its column, behind what else is on the line. -/
theorem text_panelLine (short : (session.bytesLine rows number).text.length ≤ panelColumn) :
    ∃ count, (session.panelText number ≠ [] →
        (session.bytesLine rows number).text.length + count = panelColumn) ∧
      (session.panelLine rows number).text =
        (session.bytesLine rows number).text ++ List.replicate count ' ' ++
          session.panelText number := by
  rw [panelLine, panelText]
  cases session.rows[number]? with
  | none =>
    refine ⟨0, fun some => absurd rfl some, ?_⟩
    rw [List.replicate_zero, List.append_nil]
    exact (List.append_nil _).symm
  | some row =>
    refine ⟨panelColumn - (session.bytesLine rows number).text.length, fun _ => by omega, ?_⟩
    exact ScreenLine.text_put_of_le short row.text.toList (some row.style)

theorem unbroken_mode (mode : Mode) : Unbroken mode.name.toList := by
  cases mode <;> decide

/-- A command that is typed may have breaks, and nothing else on the status line has. -/
theorem breaks_statusLine_append (unbroken : session.StatusUnbroken) (count : Nat)
    (behind : List Char) :
    breaks (session.statusLine.text ++ (List.replicate count ' ' ++ behind)) =
      breaks (session.typedText ++ behind) := by
  have blanks (count : Nat) : Unbroken (List.replicate count ' ') :=
    unbroken_replicate (by decide) count
  rw [statusLine, typedText]
  cases said : session.status with
  | some status =>
    have own : Unbroken (alignLeft lineWidth status.text.toList) :=
      (unbroken status said).append (blanks _)
    have line := ScreenLine.unbroken_put (show Unbroken ({} : ScreenLine).text by decide) own 0
      (some status.style.name)
    rw [line.breaks_append, (blanks count).breaks_append]
    rfl
  | none =>
    cases session.commandLine with
    | some typed =>
      have colon : Unbroken [':'] := by decide
      dsimp only
      rw [ScreenLine.text_put_zero, List.drop_nil, List.append_nil, List.cons_append,
        ← List.singleton_append, colon.breaks_append, alignLeft, List.append_assoc,
        breaks_append_blanks, breaks_append_blanks]
      rfl
    | none =>
      have mode := ScreenLine.unbroken_put (show Unbroken ({} : ScreenLine).text by decide)
        (unbroken_mode session.mode) (16 - session.mode.name.toList.length)
        (some session.mode.style)
      have line := ScreenLine.unbroken_put mode (unbroken_hexText session.window.cursor)
        (lineWidth - (hexText session.window.cursor).toList.length) (some "loc")
      dsimp only
      rw [line.breaks_append, (blanks count).breaks_append]
      rfl

/-- The last line shows no bytes. -/
theorem bytesLine_of_last (holds : HoldRows session.byteShown session.window.base
      session.window.endOffset rows) (last : (number : Int) + 1 = session.window.height) :
    session.bytesLine rows number = {} := by
  refine bytesLine_of_none (holds.absent number ?_)
  rw [Window.endOffset, Window.pageSize, Window.visibleRows]
  omega

/-- The last line is blank up to the row of the struct, and the status line may cover its start. -/
theorem breaks_lineAt_of_last (holds : HoldRows session.byteShown session.window.base
      session.window.endOffset rows) (unbroken : session.StatusUnbroken)
    (last : (number : Int) + 1 = session.window.height) :
    breaks (session.lineAt rows number).text = breaks (session.typedText ++
      (session.panelText number).drop (session.statusLine.text.length - panelColumn)) := by
  have none := bytesLine_of_last holds last
  have short : (session.bytesLine rows number).text.length ≤ panelColumn := by
    rw [none]
    exact Nat.zero_le _
  obtain ⟨count, full, text⟩ := text_panelLine short
  rw [none] at full text
  have width : session.panelText number ≠ [] →
      (List.replicate count ' ').length = panelColumn := by
    intro some
    rw [List.length_replicate, ← full some]
    exact (Nat.zero_add count).symm
  rw [lineAt_eq]
  dsimp only
  rw [if_pos last, if_neg (by omega), ScreenLine.laidOver]
  dsimp only
  rw [text]
  show breaks (_ ++ (List.replicate count ' ' ++ _).drop _) = _
  rw [drop_front width, List.drop_replicate, breaks_statusLine_append unbroken]

/-- Nothing covers the row of the struct on the lines above the last one. -/
theorem breaks_lineAt_of_ne (holds : HoldRows session.byteShown session.window.base
      session.window.endOffset rows) (above : (number : Int) + 1 ≠ session.window.height) :
    breaks (session.lineAt rows number).text = breaks (session.panelText number) := by
  have short : (session.bytesLine rows number).text.length ≤ panelColumn :=
    (length_bytesLine_le holds).trans (by decide)
  obtain ⟨count, full, text⟩ := text_panelLine short
  have front : Unbroken ((session.bytesLine rows number).text ++ List.replicate count ' ') :=
    unbroken_bytesLine.append (unbroken_replicate (by decide) count)
  have width : session.panelText number ≠ [] →
      ((session.bytesLine rows number).text ++ List.replicate count ' ').length =
        panelColumn := by
    rwa [List.length_append, List.length_replicate]
  rw [lineAt_eq]
  dsimp only
  rw [if_neg above]
  split
  · have separator : Unbroken (List.replicate lineWidth '─') :=
      unbroken_replicate (by decide) lineWidth
    rw [ScreenLine.text_put_zero, text, drop_front width, List.length_replicate,
      separator.breaks_append, (front.mono (List.drop_subset _ _)).breaks_append]
    rfl
  · rw [text, front.breaks_append]

/-- All breaks that a line prints are those of the text on it that comes from elsewhere. -/
theorem breaks_lineAt (holds : HoldRows session.byteShown session.window.base
      session.window.endOffset rows) (unbroken : session.StatusUnbroken) :
    breaks (session.lineAt rows number).text = breaks (session.foreignText number) := by
  rw [foreignText]
  split
  · next last => exact breaks_lineAt_of_last holds unbroken last
  · next above => exact breaks_lineAt_of_ne holds above

/-! ### Screens -/

/-- All breaks that a line of a screen prints are those of the text on it that comes from
elsewhere. -/
theorem exists_lines_of_screen {lines : List ScreenLine} (unbroken : session.StatusUnbroken)
    (room : 3 ≤ session.window.height) (composed : session.screen = .ok lines) :
    ∃ lineOf : Nat → ScreenLine, lines = (List.range session.window.height.toNat).map lineOf ∧
      ∀ number, breaks (lineOf number).text = breaks (session.foreignText number) := by
  obtain ⟨rows, visible, same⟩ := screen_eq room composed
  exact ⟨session.lineAt rows, same, fun _ =>
    breaks_lineAt (holdRows_visibleBytes visible) unbroken⟩

theorem ne_nil_of_screen {lines : List ScreenLine} (room : 3 ≤ session.window.height)
    (composed : session.screen = .ok lines) : lines ≠ [] := by
  obtain ⟨rows, -, rfl⟩ := screen_eq room composed
  rw [Ne, List.map_eq_nil_iff, List.range_eq_nil]
  omega

/-- A placed session whose bytes can be read is shown. -/
theorem exists_screen (placed : session.Placed) (room : 3 ≤ session.window.height)
    (shows : session.CanShow) : ∃ lines, session.screen = .ok lines := by
  obtain ⟨rows, visible⟩ := exists_visibleBytes placed room shows
  cases composed : session.screen with
  | ok lines => exact ⟨lines, rfl⟩
  | error failure =>
    obtain ⟨-, cause, rfl, unread⟩ := placed.screen_of_error composed
    rw [visibleBytes, unread] at visible
    cases visible

/-- A printed screen has the breaks between its lines, and those of the texts from elsewhere. -/
theorem count_break_screen {lines : List ScreenLine} (unbroken : session.StatusUnbroken)
    (room : 3 ≤ session.window.height) (composed : session.screen = .ok lines) :
    (screenText lines).toList.count '\n' + 1 = session.window.height.toNat +
      ((List.range session.window.height.toNat).map fun number =>
        breaks (session.foreignText number)).sum := by
  have counted := count_break_screenText (ne_nil_of_screen room composed)
  obtain ⟨lineOf, rfl, own⟩ := exists_lines_of_screen unbroken room composed
  rw [List.length_map, List.length_range, List.map_map] at counted
  rw [counted]
  exact congrArg _ (congrArg List.sum (List.map_congr_left fun number _ => own number))

/-- Where the texts from elsewhere have no break, the lines of a printed screen are its lines. -/
theorem splitOn_screen {lines : List ScreenLine} (unbroken : session.StatusUnbroken)
    (room : 3 ≤ session.window.height) (composed : session.screen = .ok lines)
    (plain : ∀ number < session.window.height.toNat, breaks (session.foreignText number) = 0) :
    (screenText lines).toList.splitOn '\n' = lines.map fun line => dropBlankEnd line.text := by
  refine splitOn_screenText (ne_nil_of_screen room composed) fun line member => ?_
  obtain ⟨lineOf, rfl, own⟩ := exists_lines_of_screen unbroken room composed
  obtain ⟨number, inside, rfl⟩ := List.mem_map.1 member
  rw [own, plain number (List.mem_range.1 inside)]

/-- Whatever happens to a session that was opened, its printed screen has the breaks between its
lines, and besides them only those of the texts that come from elsewhere. So it has one less than
the screen has lines if and only if these texts have none, and then the lines of the printed text
are those of the screen. -/
theorem screen_printed {content : Array UInt8} {logContent : List UInt8}
    {structs : List (String × Struct)} {height : Int} {opened : Session}
    (start : openOn content logContent structs height = .ok opened) {trials : List Trial}
    (ran : Trial.applyAll trials opened = .ok session) (room : 3 ≤ session.window.height) :
    (session.CanShow → ∃ lines, session.screen = .ok lines) ∧
      ∀ lines, session.screen = .ok lines →
        ((screenText lines).toList.count '\n' + 1 = session.window.height.toNat +
          ((List.range session.window.height.toNat).map fun number =>
            breaks (session.foreignText number)).sum) ∧
        ((screenText lines).toList.count '\n' + 1 = session.window.height.toNat ↔
          ∀ number < session.window.height.toNat, breaks (session.foreignText number) = 0) ∧
        ((∀ number < session.window.height.toNat, breaks (session.foreignText number) = 0) →
          (screenText lines).toList.splitOn '\n' =
            lines.map fun line => dropBlankEnd line.text) := by
  have unbroken := statusUnbroken_of_run start ran
  refine ⟨exists_screen (placed_of_run start ran) room, fun lines composed => ?_⟩
  have counted := count_break_screen unbroken room composed
  refine ⟨counted, ?_, splitOn_screen unbroken room composed⟩
  rw [counted, Nat.add_eq_left, List.sum_eq_zero_iff_forall_eq_nat, List.forall_mem_map]
  simp only [List.mem_range]

theorem screen_printed_typingBesideHeader :
    openOn #[1, 2, 3] [] [("p", .layout (.folder "bytes" []) [])] 25 = .ok withHeader ∧
      Trial.applyAll typeBesideHeader withHeader = .ok typingBesideHeader ∧
      3 ≤ typingBesideHeader.window.height ∧ typingBesideHeader.CanShow ∧
      ∃ lines, typingBesideHeader.screen = .ok lines ∧
        (screenText lines).toList.count '\n' + 1 = 3 ∧
        (screenText lines).toList.splitOn '\n' =
          lines.map fun line => dropBlankEnd line.text := by
  have start : openOn #[1, 2, 3] [] [("p", .layout (.folder "bytes" []) [])] 25 =
      .ok withHeader := rfl
  have room : 3 ≤ typingBesideHeader.window.height := by decide
  have shows : typingBesideHeader.CanShow := ⟨rfl, rfl, by decide, by decide⟩
  obtain ⟨composed, printed⟩ := screen_printed start applyAll_typeBesideHeader room
  obtain ⟨lines, shown⟩ := composed shows
  obtain ⟨-, counted, split⟩ := printed lines shown
  have plain : ∀ number < typingBesideHeader.window.height.toNat,
      breaks (typingBesideHeader.foreignText number) = 0 := by decide +kernel
  exact ⟨start, applyAll_typeBesideHeader, room, shows, lines, shown, counted.2 plain,
    split plain⟩

/-- A layout with the text at the start of the file. -/
def textAtStart : Node := .value "t" (.absolute 0) (.text false none)

/-- A session with a text of two lines at the start of its file. -/
def withTwoLines : Session :=
  start { content := #[0x61, 0x0A, 0x62, 0x00] } EditLog.freshLog [("s", .layout textAtStart [])] 5

/-- The text is on show. -/
def besideTwoLines : Session :=
  let text := String.ofList ['a', '\n', 'b']
  { withTwoLines with
    active := some "s"
    structs := [("s", .layout textAtStart [(["t"], .text text)])]
    rows := [⟨.value, "t" ++ ": " ++ text, 0⟩] }

/-- The keys that put it on show. -/
def typeShowText : List Trial :=
  keyTrial (.char ':') :: ("struct s".toList.map (fun character => keyTrial (.char character)) ++
    [keyTrial .enter])

theorem text_twoLines :
    withTwoLines.file.reader.text false none 0 = .ok (String.ofList ['a', '\n', 'b']) := by
  have supplies : withTwoLines.file.reader.supply.Supplies 0 [0x61, 0x0A, 0x62, 0x00] :=
    ⟨rfl, rfl, rfl, rfl, trivial⟩
  have read : withTwoLines.file.reader.supply.textAt false none 0 = .text ['a', '\n', 'b'] 4 :=
    (ByteSupply.textAt_eq_text_iff _ _ _ _ _ _).2
      ⟨nofun, _, ⟨by decide, rfl⟩, supplies, rfl⟩
  rw [ByteReader.text, read]

theorem refresh_of_annotate {name : String} {struct next : Struct} {shown : List PanelRow}
    (none : session.file.heldBack = none) (active : session.active = some name)
    (found : session.structs.lookup name = some struct)
    (annotated : struct.annotate session.file.reader session.window.cursor session.window.height =
      .ok (shown, next)) :
    session.refresh =
      { session with rows := shown, structs := Table.set name next session.structs } := by
  rw [refresh]
  simp only [active, Option.bind_some, found, Option.map_some, annotated]
  rw [(kept_behindRows struct session).eq_of_none none]

theorem annotate_twoLines :
    Struct.annotate (.layout textAtStart []) withTwoLines.file.reader 0 5 =
      .ok (besideTwoLines.rows, .layout textAtStart
        [(["t"], .text (String.ofList ['a', '\n', 'b']))]) := by
  have walked : Decoding.walk withTwoLines.file.reader 0 0 [] textAtStart { panel := .ofRows 5 } =
      (Decoding.orFail id (.ok (String.ofList ['a', '\n', 'b'])) >>= fun text => do
        Decoding.remember ["t"] (.text text)
        Decoding.write fun panel => panel.value "t" text) { panel := .ofRows 5 } := by
    rw [← text_twoLines]
    rfl
  rw [Struct.annotate, Node.decode, walked]
  rfl

theorem applyAll_typeShowText :
    Trial.applyAll typeShowText withTwoLines = .ok besideTwoLines := by
  have parts : typeShowText = [keyTrial (.char ':')] ++
      ("struct s".toList.map (fun character => keyTrial (.char character)) ++
        [keyTrial .enter]) := rfl
  have opened : Trial.applyAll [keyTrial (.char ':')] withTwoLines =
      .ok { withTwoLines with commandLine := some [] } := rfl
  have asked : Trial.applyAll ("struct s".toList.map fun character => keyTrial (.char character))
      { withTwoLines with commandLine := some [] } =
        .ok { withTwoLines with commandLine := some ([] ++ "struct s".toList) } :=
    applyAll_commandLine _ _ _ _ _ _
  have entered : Trial.applyAll [keyTrial .enter]
      { withTwoLines with commandLine := some ([] ++ "struct s".toList) } =
        .ok (refresh { withTwoLines with active := some "s" }) := rfl
  rw [parts, Trial.applyAll_append opened, Trial.applyAll_append asked, entered]
  exact congrArg Except.ok (@refresh_of_annotate { withTwoLines with active := some "s" } "s"
    _ _ _ rfl rfl rfl annotate_twoLines)

/-- A text of two lines in the file is printed as two lines, so that the printed screen has a line
more than the screen. -/
theorem screen_printed_twoLines :
    openOn #[0x61, 0x0A, 0x62, 0x00] [] [("s", .layout textAtStart [])] 5 = .ok withTwoLines ∧
      Trial.applyAll typeShowText withTwoLines = .ok besideTwoLines ∧
      besideTwoLines.window.height = 5 ∧
      ∃ lines, besideTwoLines.screen = .ok lines ∧ lines.length = 5 ∧
        (screenText lines).toList.count '\n' = 5 := by
  have start : openOn #[0x61, 0x0A, 0x62, 0x00] [] [("s", .layout textAtStart [])] 5 =
      .ok withTwoLines := rfl
  have room : 3 ≤ besideTwoLines.window.height := by decide
  have shows : besideTwoLines.CanShow := ⟨rfl, rfl, by decide, by decide⟩
  obtain ⟨lines, shown⟩ := exists_screen (placed_of_run start applyAll_typeShowText) room shows
  have length : lines.length = 5 := by
    obtain ⟨rows, -, rfl⟩ := screen_eq room shown
    rfl
  have counted := count_break_screen
    (statusUnbroken_of_run start applyAll_typeShowText) room shown
  have own : ((List.range besideTwoLines.window.height.toNat).map fun number =>
      breaks (besideTwoLines.foreignText number)).sum = 1 := by decide +kernel
  rw [own] at counted
  exact ⟨start, applyAll_typeShowText, rfl, lines, shown, length, Nat.succ.inj counted⟩

end Session

end HexEditor
