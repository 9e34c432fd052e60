/-
Lines of the screen. A line is text with styled spans. Text is put on it at a column:
it replaces what stands there, and where the line is too short it is filled up with
blanks. A column below zero counts from the end of the line.
-/

import HexEditor.Text.Blank

namespace HexEditor

/-- A run of columns and the style it is painted in. -/
structure Span where
  start : Int
  stop : Int
  style : String
  deriving DecidableEq, Repr

/-- A line of the screen. -/
structure ScreenLine where
  text : List Char := []
  spans : List Span := []
  deriving DecidableEq, Repr, Inhabited

namespace ScreenLine

/-- The place in a text of some length that a column stands for. -/
def placeOf (length : Nat) (column : Int) : Nat :=
  (if column < 0 then column + length else column).toNat

/-- Puts text on the line at a column. A span is kept if there is a style and any text. -/
def put (line : ScreenLine) (column : Int) (text : List Char) (style : Option String := none) :
    ScreenLine :=
  let padded := line.text ++ List.replicate (column.toNat - line.text.length) ' '
  let behind := column + text.length
  { text := padded.take (placeOf padded.length column) ++ text ++
      padded.drop (placeOf padded.length behind)
    spans :=
      match style with
      | some style => if text.isEmpty then line.spans else line.spans ++ [⟨column, behind, style⟩]
      | none => line.spans }

/-- Paints a span on top of all others. -/
def mark (line : ScreenLine) (span : Span) : ScreenLine :=
  { line with spans := line.spans ++ [span] }

/-- Paints a span below all others. -/
def underlay (line : ScreenLine) (span : Span) : ScreenLine :=
  { line with spans := span :: line.spans }

/-- Lays a line over another one, which shows only behind its end; its spans come first. -/
def laidOver (line below : ScreenLine) : ScreenLine where
  text := line.text ++ below.text.drop line.text.length
  spans := line.spans ++ below.spans

end ScreenLine

/-- The lines as text, without the blanks at the end of each. -/
def screenText (lines : List ScreenLine) : String :=
  String.intercalate "\n" (lines.map fun line => String.ofList (dropBlankEnd line.text))

end HexEditor
