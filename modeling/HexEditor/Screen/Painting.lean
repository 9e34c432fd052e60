/-
Painting the screen on a canvas. A line is painted as a whole in the plain colour;
then each span, in order, fills its columns if its style has a ground, and paints
the characters in them again in its own colour.
-/

import HexEditor.Screen.Line

namespace HexEditor

/-- A colour by its parts of red, green and blue. -/
structure Colour where
  red : Nat
  green : Nat
  blue : Nat
  deriving DecidableEq, Repr

def canvasColour : Colour := ⟨0, 0, 0⟩

def plainColour : Colour := ⟨170, 170, 170⟩

def canvasColumns : Nat := 132

/-- The colour of the characters in each style, and the colour of their ground if it has one. -/
def palette : List (String × Colour × Option Colour) :=
  [("address", ⟨85, 255, 255⟩, none),
   ("separator", ⟨85, 85, 85⟩, none),
   ("active-line", ⟨255, 255, 255⟩, some ⟨0, 0, 85⟩),
   ("cursor", ⟨0, 0, 0⟩, some ⟨170, 170, 170⟩),
   ("active-char", ⟨0, 0, 0⟩, some ⟨170, 170, 170⟩),
   ("mode-read", ⟨85, 255, 85⟩, none),
   ("mode-modify", ⟨255, 255, 85⟩, none),
   ("mode-replace", ⟨255, 85, 85⟩, none),
   ("loc", ⟨85, 255, 255⟩, none),
   ("error", ⟨255, 255, 255⟩, some ⟨170, 0, 0⟩),
   ("warning", ⟨0, 0, 0⟩, some ⟨170, 85, 0⟩),
   ("h0", ⟨255, 255, 255⟩, some ⟨0, 0, 170⟩),
   ("h1", ⟨255, 255, 255⟩, some ⟨0, 170, 170⟩),
   ("h2", ⟨255, 255, 85⟩, none),
   ("h3+", ⟨255, 255, 255⟩, none)]

/-- What a font tells about itself: the left and right edge of its widest letter, and how far its
letters reach above and below the line. -/
structure FontMetrics where
  left : Int
  right : Int
  ascent : Int
  descent : Int

/-- The width and height of a cell for one character. -/
structure CellSize where
  width : Int
  height : Int
  deriving DecidableEq, Repr

/-- The cell for a font, which has a least size; some fonts tell nothing about themselves. -/
def CellSize.ofMetrics : Option FontMetrics → CellSize
  | none => ⟨8, 12⟩
  | some font => ⟨max 8 (font.right - font.left), max 12 (font.ascent + font.descent)⟩

/-- A call on the canvas. -/
inductive PaintCall where
  | text (x y : Int) (text : List Char) (colour : Colour)
  | rectangle (left top right bottom : Int) (colour : Colour)
  deriving DecidableEq, Repr

/-- The calls that paint a span of a line whose top is at a height. -/
def paintSpan (cell : CellSize) (top : Int) (text : List Char) (span : Span) : List PaintCall :=
  let (front, ground) := (palette.lookup span.style).getD (plainColour, none)
  let columns := (List.range (min span.stop text.length - span.start).toNat).map
    fun (distance : Nat) => span.start + distance
  (match ground with
    | some colour =>
      [.rectangle (span.start * cell.width) top (span.stop * cell.width - 1) (top + cell.height - 1)
        colour]
    | none => []) ++
    columns.filterMap fun column =>
      (text[ScreenLine.placeOf text.length column]?).map fun character =>
        .text (column * cell.width) top [character] front

def paintLine (cell : CellSize) (number : Nat) (line : ScreenLine) : List PaintCall :=
  let top := number * cell.height
  .text 0 top line.text plainColour :: line.spans.flatMap (paintSpan cell top line.text)

def paintScreen (cell : CellSize) (lines : List ScreenLine) : List PaintCall :=
  lines.zipIdx.flatMap fun (line, number) => paintLine cell number line

/-- Whether the columns of a span that lie in front of the end of a text are all in it; columns
below zero count from its end. -/
def Span.fits (text : List Char) (span : Span) : Bool :=
  0 ≤ span.start + text.length || min span.stop text.length ≤ span.start

/-- The calls that paint a screen, if there is a character in every column to be painted. -/
def paintScreen? (cell : CellSize) (lines : List ScreenLine) : Option (List PaintCall) :=
  if lines.all fun line => line.spans.all (Span.fits line.text) then some (paintScreen cell lines)
  else none

/-- The size of the canvas for a screen, which is never empty. -/
def canvasSize (cell : CellSize) (lines : List ScreenLine) : Int × Int :=
  (canvasColumns * cell.width, max 1 lines.length * cell.height)

end HexEditor
