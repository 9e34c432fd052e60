/-
The rows beside the bytes. A struct shows its values as rows of text under headers;
a header takes two rows and is set off by a separator from values before it. All
rows come out of a budget, and what does not fit is not shown.
-/

import HexEditor.Number.Numeral

namespace HexEditor

/-- What a row of the panel is for. -/
inductive PanelRowKind where
  | value
  | separator
  | header
  /-- The second row of a header. -/
  | headerPad
  deriving DecidableEq, Repr

/-- The name of a kind of row, which is also the style of all but headers. -/
def PanelRowKind.name : PanelRowKind → String
  | .value => "value"
  | .separator => "separator"
  | .header => "header"
  | .headerPad => "header-pad"

/-- A row of the panel. -/
structure PanelRow where
  kind : PanelRowKind
  text : String := ""
  /-- The depth of a header. -/
  level : Int := 0
  deriving DecidableEq, Repr

/-- The style a row is painted in; headers of the third level and deeper share one. -/
def PanelRow.style (row : PanelRow) : String :=
  match row.kind with
  | .header => if row.level < 3 then "h" ++ decimalText row.level else "h3+"
  | kind => kind.name

/-- The rows written so far, and the number of rows there is room for in all. -/
structure Panel where
  budget : Nat
  rows : Array PanelRow := #[]
  /-- Whether nothing stands between the last header and the next one. -/
  afterHeader : Bool := true

namespace Panel

/-- An empty panel with room for some rows, or none if the number is negative. -/
def ofRows (rows : Int) : Panel := { budget := rows.toNat }

/-- The number of rows that still fit. -/
def remaining (panel : Panel) : Nat := panel.budget - panel.rows.size

def push (panel : Panel) (row : PanelRow) : Panel := { panel with rows := panel.rows.push row }

/-- Writes a value, and tells whether it fitted. -/
def value (panel : Panel) (name text : String) : Bool × Panel :=
  if panel.remaining < 1 then
    (false, panel)
  else
    (true, { panel.push ⟨.value, name ++ ": " ++ text, 0⟩ with afterHeader := false })

/-- Writes the two rows of a header, and tells whether they fitted. -/
def headerRows (panel : Panel) (title : String) (level : Int) : Bool × Panel :=
  if panel.remaining < 2 then
    (false, panel)
  else
    (true, { (panel.push ⟨.header, title, level⟩).push ⟨.headerPad, "", level⟩ with
      afterHeader := true })

/-- Writes a header, behind a separator if values stand before it, and tells whether it fitted; the
separator stays where only the header did not fit. -/
def header (panel : Panel) (title : String) (level : Int) : Bool × Panel :=
  if panel.afterHeader then
    panel.headerRows title level
  else if panel.remaining < 1 then
    (false, panel)
  else
    (panel.push ⟨.separator, "", 0⟩).headerRows title level

end Panel

end HexEditor
