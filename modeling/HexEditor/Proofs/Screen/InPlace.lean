/-
The screen composed in place. It can also be made from blank lines, of which one after the
other is changed: the rows of bytes are put on them, the cursor is marked, the rows of the
struct are added, and the last two lines get the separator and the status. Each of these
steps asks for a line by its number, and for a row and for so many bytes of it, where there
might be none. In a placed session there always is one, and what comes out is the screen as
it is composed line by line; so all that can keep it from being shown is that the bytes are
not read.
-/

import HexEditor.Proofs.Screen.Hits
import Mathlib.Data.List.Induction

namespace HexEditor

/-! ### Composing in place -/

/-- Why a screen cannot be composed in place. -/
inductive CompositionFailure where
  | view (failure : ViewFailure)
  /-- There is no line with a number. -/
  | noLine (number : Int)
  /-- There is no row of bytes with a number. -/
  | noRow (number : Nat)
  /-- A row has fewer bytes than are to be shown. -/
  | shortRow (number : Nat)

/-- Changes the line with a number. A number below zero counts from behind the last line. -/
def changeLine (lines : List ScreenLine) (number : Int) (change : ScreenLine → ScreenLine) :
    Except CompositionFailure (List ScreenLine) :=
  let place := if number < 0 then number + lines.length else number
  if 0 ≤ place ∧ place < lines.length then .ok (lines.modify place.toNat change)
  else .error (.noLine number)

namespace Session

/-- Puts the row of bytes with a number, which begins at an offset, on its line. -/
def placeRow (session : Session) (rows : List (List UInt8)) (lines : List ScreenLine)
    (number : Nat) (offset : Int) : Except CompositionFailure (List ScreenLine) :=
  match rows[number]? with
  | none => .error (.noRow number)
  | some bytes =>
    match rowLine? offset bytes (min 16 (session.window.endOffset - offset)) with
    | none => .error (.shortRow number)
    | some line => changeLine lines number fun _ => line

def placeRows (session : Session) (rows : List (List UInt8)) (lines : List ScreenLine) :
    Except CompositionFailure (List ScreenLine) :=
  session.window.rowOffsets.zipIdx.foldlM
    (fun lines (offset, number) => session.placeRow rows lines number offset) lines

def placeCursor (session : Session) (lines : List ScreenLine) :
    Except CompositionFailure (List ScreenLine) :=
  if session.window.cursorVisible then
    changeLine lines ((session.window.cursor - session.window.base) / 16) session.markCursor
  else
    .ok lines

/-- Puts the rows of the struct on show on the lines, as many as there are lines. -/
def placePanel (session : Session) (lines : List ScreenLine) :
    Except CompositionFailure (List ScreenLine) :=
  (session.rows.take session.window.height.toNat).zipIdx.foldlM
    (fun lines (row, number) =>
      changeLine lines number (·.put panelColumn row.text.toList (some row.style))) lines

def placeSeparator (session : Session) (lines : List ScreenLine) :
    Except CompositionFailure (List ScreenLine) :=
  if 2 ≤ session.window.height then
    changeLine lines (-2) (·.put 0 (List.replicate lineWidth '─') (some "separator"))
  else
    .ok lines

def placeStatus (session : Session) (lines : List ScreenLine) :
    Except CompositionFailure (List ScreenLine) :=
  if 1 ≤ session.window.height then changeLine lines (-1) session.statusLine.laidOver
  else .ok lines

/-- Puts the visible bytes on the lines if there is room for a row, and marks the cursor. -/
def placeBytes (session : Session) (lines : List ScreenLine) :
    Except CompositionFailure (List ScreenLine) :=
  if 0 < session.window.visibleRows then
    match session.visibleBytes with
    | .error failure => .error (.view failure)
    | .ok rows => session.placeRows rows lines >>= session.placeCursor
  else
    .ok lines

/-- The screen, composed in place. -/
def screenInPlace (session : Session) : Except CompositionFailure (List ScreenLine) :=
  session.placeBytes (List.replicate session.window.height.toNat {}) >>= session.placePanel >>=
    session.placeSeparator >>= session.placeStatus

end Session

/-! ### Lines by their numbers -/

/-- As many lines as a screen has, each made from its number. -/
def linesOf (height : Nat) (lineOf : Nat → ScreenLine) : List ScreenLine :=
  (List.range height).map lineOf

section Lines

variable {height : Nat} (lineOf : Nat → ScreenLine)

/-- A line of the screen can be changed, and all others stay. -/
theorem changeLine_linesOf {number : Int} (place : Nat) (change : ScreenLine → ScreenLine)
    (here : (if number < 0 then number + height else number) = place) (inside : place < height) :
    changeLine (linesOf height lineOf) number change =
      .ok (linesOf height fun other =>
        if other = place then change (lineOf other) else lineOf other) := by
  have length : (linesOf height lineOf).length = height := by
    rw [linesOf, List.length_map, List.length_range]
  have within : (0 : Int) ≤ place ∧ (place : Int) < height := by omega
  rw [changeLine, length, here, if_pos within, Int.toNat_natCast]
  refine congrArg Except.ok (List.ext_getElem? fun other => ?_)
  rw [List.getElem?_modify, linesOf, linesOf, List.getElem?_map, List.getElem?_map]
  by_cases inScreen : other < height
  · rw [List.getElem?_range inScreen]
    simp only [Option.map_eq_map, Option.map_some, eq_comm]
  · rw [List.getElem?_eq_none (by rw [List.length_range]; exact Nat.not_lt.1 inScreen)]
    rfl

/-- Steps that each change the line of their item leave as many lines changed as there are
items. -/
theorem foldlM_zipIdx_linesOf {Item : Type} (items : List Item) (enough : items.length ≤ height)
    {step : List ScreenLine → Item × Nat → Except CompositionFailure (List ScreenLine)}
    (change : Nat → ScreenLine → ScreenLine)
    (changes : ∀ number item, items[number]? = some item → ∀ lines,
      step lines (item, number) = changeLine lines number (change number)) :
    items.zipIdx.foldlM step (linesOf height lineOf) =
      .ok (linesOf height fun number =>
        if number < items.length then change number (lineOf number) else lineOf number) := by
  induction items using List.reverseRecOn with
  | nil => rfl
  | append_singleton items item inductionHypothesis =>
    rw [List.length_append, List.length_singleton] at enough
    have before := inductionHypothesis (by omega) fun number other found =>
      changes number other (by
        rw [List.getElem?_append_left (List.getElem?_eq_some_iff.1 found).1, found])
    have last := changes items.length item (by
      rw [List.getElem?_append_right (Nat.le_refl _), Nat.sub_self]
      rfl)
    rw [List.zipIdx_append, List.foldlM_append, before]
    show step _ (item, 0 + items.length) >>= pure = _
    rw [Nat.zero_add, bind_pure, last, changeLine_linesOf _ _ _ (if_neg (by omega)) (by omega)]
    refine congrArg (fun lineOf => Except.ok (linesOf height lineOf)) (funext fun number => ?_)
    rw [List.length_append, List.length_singleton]
    by_cases here : number = items.length
    · subst here
      rw [if_pos rfl, if_neg (by omega), if_pos (by omega)]
    · rw [if_neg here]
      by_cases earlier : number < items.length
      · rw [if_pos earlier, if_pos (by omega)]
      · rw [if_neg earlier, if_neg (by omega)]

end Lines

theorem linesOf_congr {height : Nat} {lineOf other : Nat → ScreenLine}
    (same : ∀ number < height, lineOf number = other number) :
    linesOf height lineOf = linesOf height other :=
  List.map_congr_left fun number member => same number (List.mem_range.1 member)

/-! ### The steps -/

namespace Session

variable {session : Session} {rows : List (List UInt8)} {number : Nat}

/-- The line of a row of bytes before the cursor is marked. -/
def plainLine (session : Session) (rows : List (List UInt8)) (number : Nat) : ScreenLine :=
  rows[number]?.elim {} fun bytes =>
    let offset := session.window.base + 16 * number
    rowLine offset (bytes.take (min 16 (session.window.endOffset - offset)).toNat)

theorem bytesLine_eq :
    session.bytesLine rows number =
      if rows[number]?.isSome ∧ session.window.cursorVisible ∧
          (session.window.cursor - session.window.base) / 16 = number then
        session.markCursor (session.plainLine rows number)
      else
        session.plainLine rows number := by
  rw [bytesLine, plainLine]
  cases rows[number]? with
  | none => rfl
  | some bytes => simp only [Option.isSome_some, true_and, Option.elim_some]

/-- The rows on the screen are fewer than its lines. -/
theorem length_rowOffsets_le (session : Session) :
    session.window.rowOffsets.length ≤ session.window.height.toNat := by
  rw [Window.rowOffsets, List.length_map, List.length_range, Window.endOffset, Window.pageSize,
    Window.visibleRows]
  omega

section Rows

variable (holds : HoldRows session.byteShown session.window.base session.window.endOffset rows)
include holds

/-- A row on the screen is there, with all the bytes that are to be shown. -/
theorem placeRow_eq {offset : Int} (found : session.window.rowOffsets[number]? = some offset)
    (lines : List ScreenLine) :
    session.placeRow rows lines number offset =
      changeLine lines number fun _ => session.plainLine rows number := by
  rw [Window.rowOffsets, List.getElem?_map, Option.map_eq_some_iff] at found
  obtain ⟨_, same, rfl⟩ := found
  obtain ⟨inside, rfl⟩ := List.getElem?_eq_some_iff.1 same
  rw [List.length_range] at inside
  rw [List.getElem_range]
  obtain ⟨bytes, row, length, -⟩ := holds.present number (by omega)
  rw [placeRow, plainLine, row]
  dsimp only [Option.elim_some]
  rw [rowLine?, if_neg (by omega), if_neg (by omega)]

theorem placeRows_blank :
    session.placeRows rows (List.replicate session.window.height.toNat {}) =
      .ok (linesOf session.window.height.toNat (session.plainLine rows)) := by
  have blank : List.replicate session.window.height.toNat ({} : ScreenLine) =
      linesOf session.window.height.toNat fun _ => {} := by
    rw [linesOf, List.map_const', List.length_range]
  rw [placeRows, blank, foldlM_zipIdx_linesOf _ _ session.length_rowOffsets_le
    (fun number _ => session.plainLine rows number)
    fun number offset found lines => placeRow_eq holds found lines]
  refine congrArg Except.ok (linesOf_congr fun number _ => ?_)
  split_ifs with onScreen
  · rfl
  · rw [Window.rowOffsets, List.length_map, List.length_range] at onScreen
    rw [plainLine, holds.absent number (by omega)]
    rfl

theorem placeCursor_plain :
    session.placeCursor (linesOf session.window.height.toNat (session.plainLine rows)) =
      .ok (linesOf session.window.height.toNat (session.bytesLine rows)) := by
  rw [placeCursor]
  split_ifs with visible
  · have shown := visible
    rw [Window.cursorVisible, Bool.and_eq_true, decide_eq_true_iff, decide_eq_true_iff] at shown
    have bound := shown.2
    rw [Window.endOffset, Window.pageSize, Window.visibleRows] at bound
    obtain ⟨place, place_eq⟩ := Int.eq_ofNat_of_zero_le
      (show 0 ≤ (session.window.cursor - session.window.base) / 16 by omega)
    obtain ⟨bytes, row, -⟩ := holds.present place (by omega)
    rw [changeLine_linesOf _ _ _ ((if_neg (by omega)).trans place_eq) (by omega)]
    refine congrArg Except.ok (linesOf_congr fun number _ => ?_)
    rw [bytesLine_eq]
    by_cases here : number = place
    · subst here
      rw [if_pos rfl, if_pos ⟨by rw [row]; rfl, visible, place_eq⟩]
    · rw [if_neg here, if_neg (by omega)]
  · refine congrArg Except.ok (linesOf_congr fun number _ => ?_)
    rw [bytesLine_eq, if_neg (fun marked => visible marked.2.1)]

end Rows

theorem placePanel_bytes :
    session.placePanel (linesOf session.window.height.toNat (session.bytesLine rows)) =
      .ok (linesOf session.window.height.toNat (session.panelLine rows)) := by
  have few : (session.rows.take session.window.height.toNat).length ≤
      session.window.height.toNat := List.length_take_le _ _
  rw [placePanel, foldlM_zipIdx_linesOf _ _ few (fun number line =>
    session.rows[number]?.elim line fun row =>
      line.put panelColumn row.text.toList (some row.style))]
  · refine congrArg Except.ok (linesOf_congr fun number inScreen => ?_)
    rw [panelLine]
    split_ifs with there
    · rfl
    · rw [List.length_take] at there
      rw [List.getElem?_eq_none (by omega)]
      rfl
  · intro number row found lines
    have inside := (List.getElem?_eq_some_iff.1 found).1
    rw [List.length_take] at inside
    rw [List.getElem?_take_of_lt (by omega)] at found
    rw [found]
    rfl

theorem placeBottom_panel :
    (session.placeSeparator (linesOf session.window.height.toNat (session.panelLine rows)) >>=
        session.placeStatus) =
      .ok (linesOf session.window.height.toNat (session.lineAt rows)) := by
  have separated :
      session.placeSeparator (linesOf session.window.height.toNat (session.panelLine rows)) =
        .ok (linesOf session.window.height.toNat fun number =>
          if (number : Int) + 2 = session.window.height then
            (session.panelLine rows number).put 0 (List.replicate lineWidth '─') (some "separator")
          else session.panelLine rows number) := by
    rw [placeSeparator]
    split_ifs with room
    · rw [changeLine_linesOf _ (session.window.height - 2).toNat _
        ((if_pos (by omega)).trans (by omega)) (by omega)]
      refine congrArg Except.ok (linesOf_congr fun number _ => ?_)
      simp only [show number = (session.window.height - 2).toNat ↔
        (number : Int) + 2 = session.window.height by omega]
    · refine congrArg Except.ok (linesOf_congr fun number inScreen => ?_)
      rw [if_neg (by omega)]
  rw [separated]
  show session.placeStatus _ = _
  rw [placeStatus]
  split_ifs with room
  · rw [changeLine_linesOf _ (session.window.height - 1).toNat _
      ((if_pos (by omega)).trans (by omega)) (by omega)]
    refine congrArg Except.ok (linesOf_congr fun number _ => ?_)
    simp only [lineAt_eq, show number = (session.window.height - 1).toNat ↔
      (number : Int) + 1 = session.window.height by omega]
  · refine congrArg Except.ok (linesOf_congr fun number inScreen => ?_)
    rw [lineAt_eq]
    dsimp only
    rw [if_neg (show ¬ (number : Int) + 1 = session.window.height by omega)]

/-- Composed in place, a screen is what it is composed line by line; and every line, every row and
every byte of a row that is asked for is there. -/
theorem screenInPlace_eq (session : Session) :
    session.screenInPlace = session.screen.mapError .view := by
  have finish (rows : List (List UInt8)) :
      (session.placePanel (linesOf session.window.height.toNat (session.bytesLine rows)) >>=
          session.placeSeparator >>= session.placeStatus) =
        .ok (linesOf session.window.height.toNat (session.lineAt rows)) := by
    rw [placePanel_bytes]
    exact placeBottom_panel
  rw [screenInPlace, placeBytes, screen]
  split_ifs with room
  · cases visible : session.visibleBytes with
    | error failure => rfl
    | ok rows =>
      have holds := holdRows_visibleBytes visible
      have placed : (session.placeRows rows (List.replicate session.window.height.toNat {}) >>=
          session.placeCursor) =
            .ok (linesOf session.window.height.toNat (session.bytesLine rows)) := by
        rw [placeRows_blank holds]
        exact placeCursor_plain holds
      dsimp only
      rw [placed]
      exact finish rows
  · have blank : List.replicate session.window.height.toNat ({} : ScreenLine) =
        linesOf session.window.height.toNat (session.bytesLine []) := by
      rw [linesOf, show session.bytesLine [] = fun _ => {} from funext fun _ => rfl,
        List.map_const', List.length_range]
    rw [blank]
    exact finish []

end Session

end HexEditor
