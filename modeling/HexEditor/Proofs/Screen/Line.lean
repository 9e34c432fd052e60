/-
What stands on a line of the screen. Text that is put on a line at a column takes its
columns, whatever stood there, and leaves all others; where it begins behind the end of the
line there are blanks up to it. Behind the end of a line nothing is drawn, so there a line
looks as if it went on with blanks, and what is put on it can be told column by column. Of
texts that are put on a line one after the other each column shows the last one that takes it.
-/

import HexEditor.Screen.Line
import Mathlib.Data.List.Induction
import Mathlib.Tactic.SplitIfs

namespace HexEditor.ScreenLine

variable (line : ScreenLine)

/-- The character that is seen in a column. -/
def cell (column : Nat) : Char := line.text[column]?.getD ' '

/-- The styles of spans, in the order in which they are painted. -/
def styled (style : String) : List Span := line.spans.filter (·.style == style)

variable (column place : Nat) (text : List Char) (style : Option String)

/-! ### Text that is put on a line -/

theorem text_put :
    (line.put column text style).text =
      let padded := line.text ++ List.replicate (column - line.text.length) ' '
      padded.take column ++ text ++ padded.drop (column + text.length) := by
  have first (length : Nat) : placeOf length column = column := by
    rw [placeOf]
    omega
  have behind (length : Nat) : placeOf length (column + text.length) = column + text.length := by
    rw [placeOf]
    omega
  simp only [put, first, behind, Int.toNat_natCast]

theorem length_put :
    (line.put column text style).text.length = max line.text.length (column + text.length) := by
  rw [text_put]
  simp only [List.length_append, List.length_take, List.length_drop, List.length_replicate]
  omega

/-- Text takes its columns and leaves all others, which look blank where nothing stands. -/
theorem cell_put :
    (line.put column text style).cell place =
      if column ≤ place ∧ place < column + text.length then text[place - column]?.getD ' '
      else line.cell place := by
  -- in front of a column a line may be filled up with blanks, which is what is seen anyhow
  have filled (count : Nat) :
      (line.text ++ List.replicate count ' ')[place]?.getD ' ' = line.cell place := by
    rw [cell, List.getElem?_append]
    split_ifs with inside
    · rfl
    · rw [List.getElem?_eq_none (Nat.not_lt.1 inside), List.getElem?_replicate]
      split_ifs <;> rfl
  rw [cell, text_put]
  dsimp only
  generalize taken : (line.text ++ List.replicate (column - line.text.length) ' ').take column =
    front
  have length : front.length = column := by
    rw [← taken, List.length_take, List.length_append, List.length_replicate]
    omega
  split_ifs with within
  · rw [List.append_assoc, List.getElem?_append_right (by omega),
      List.getElem?_append_left (by omega), length]
  by_cases before : place < column
  · rw [List.append_assoc, List.getElem?_append_left (by omega), ← taken,
      List.getElem?_take_of_lt before]
    exact filled _
  · have behind : column + text.length ≤ place := by omega
    rw [List.getElem?_append_right (by rw [List.length_append]; omega), List.getElem?_drop,
      List.length_append, length, Nat.add_sub_cancel' behind]
    exact filled _

theorem cell_put_of_lt (before : place < column) :
    (line.put column text style).cell place = line.cell place := by
  rw [cell_put, if_neg (by omega)]

theorem cell_of_text {line other : ScreenLine} (same : line.text = other.text) (place : Nat) :
    line.cell place = other.cell place := by
  rw [cell, cell, same]

/-- What is seen in a column of the line is there. -/
theorem getElem?_of_lt_length (inside : place < line.text.length) :
    line.text[place]? = some (line.cell place) := by
  rw [cell, List.getElem?_eq_getElem inside]
  rfl

/-! ### Spans -/

variable (start : Int) (name : String)

theorem styled_put : (line.put start text none).styled name = line.styled name := rfl

/-- Text in another style adds no span of a style. -/
theorem styled_put_of_ne {style : String} (other : style ≠ name) :
    (line.put start text (some style)).styled name = line.styled name := by
  rw [styled, styled]
  dsimp only [put]
  split
  · rfl
  · rw [List.filter_append, List.filter_cons_of_neg (by simpa using other), List.filter_nil,
      List.append_nil]

theorem styled_mark (span : Span) :
    (line.mark span).styled span.style = line.styled span.style ++ [span] := by
  rw [styled, styled, mark, List.filter_append, List.filter_cons, if_pos (beq_self_eq_true _),
    List.filter_nil]

theorem styled_mark_of_ne {span : Span} (other : span.style ≠ name) :
    (line.mark span).styled name = line.styled name := by
  rw [styled, styled, mark, List.filter_append, List.filter_cons_of_neg (by simpa using other),
    List.filter_nil, List.append_nil]

theorem styled_underlay_of_ne {span : Span} (other : span.style ≠ name) :
    (line.underlay span).styled name = line.styled name := by
  rw [styled, styled, underlay, List.filter_cons_of_neg]
  simpa using other

theorem styled_laidOver (below : ScreenLine) :
    (line.laidOver below).styled name = line.styled name ++ below.styled name := by
  rw [styled, styled, styled, laidOver, List.filter_append]

/-! ### Texts that are put on a line one after the other -/

/-- A text that is put at a column, in a style or in none. -/
structure PlacedText where
  column : Nat
  text : List Char
  style : Option String := none
  deriving DecidableEq, Repr

namespace PlacedText

/-- The column behind the text. -/
def stop (placed : PlacedText) : Nat := placed.column + placed.text.length

/-- Whether a character of the text stands in a column. -/
def covers (place : Nat) (placed : PlacedText) : Bool :=
  placed.column ≤ place && place < placed.stop

/-- What is painted in the style of the text: all of its columns, if it has any. -/
def span? (placed : PlacedText) : Option Span :=
  if placed.text = [] then none
  else placed.style.map fun style => ⟨placed.column, placed.stop, style⟩

theorem covers_iff {placed : PlacedText} {place : Nat} :
    placed.covers place = true ↔
      placed.column ≤ place ∧ place < placed.column + placed.text.length := by
  rw [covers, Bool.and_eq_true, decide_eq_true_iff, decide_eq_true_iff, stop]

/-- In each of its columns a text has a character. -/
theorem getElem?_of_covers {placed : PlacedText} {place : Nat}
    (covered : placed.covers place = true) :
    placed.text[place - placed.column]? =
      some (placed.text[place - placed.column]?.getD ' ') := by
  have within := covers_iff.1 covered
  rw [List.getElem?_eq_getElem (by omega)]
  rfl

end PlacedText

def putAll (texts : List PlacedText) (line : ScreenLine) : ScreenLine :=
  texts.foldl (fun line placed => line.put placed.column placed.text placed.style) line

theorem putAll_concat (texts : List PlacedText) (last : PlacedText) :
    line.putAll (texts ++ [last]) =
      (line.putAll texts).put last.column last.text last.style :=
  List.foldl_append

theorem length_putAll (texts : List PlacedText) :
    (line.putAll texts).text.length = (texts.map PlacedText.stop).foldl max line.text.length := by
  induction texts using List.reverseRecOn with
  | nil => rfl
  | append_singleton texts last inductionHypothesis =>
    rw [putAll_concat, length_put, inductionHypothesis, List.map_append, List.foldl_append]
    rfl

/-- A column shows the last text that takes it, or what was there before all of them. -/
theorem cell_putAll (texts : List PlacedText) :
    (line.putAll texts).cell place =
      match texts.reverse.find? (PlacedText.covers place) with
      | some placed => placed.text[place - placed.column]?.getD ' '
      | none => line.cell place := by
  induction texts using List.reverseRecOn with
  | nil => rfl
  | append_singleton texts last inductionHypothesis =>
    rw [putAll_concat, cell_put, List.reverse_concat]
    by_cases covered : last.covers place = true
    · rw [if_pos (PlacedText.covers_iff.1 covered), List.find?_cons_of_pos covered]
    · rw [if_neg (mt PlacedText.covers_iff.2 covered), List.find?_cons_of_neg covered,
        inductionHypothesis]

theorem spans_put_placed (placed : PlacedText) :
    (line.put placed.column placed.text placed.style).spans =
      line.spans ++ placed.span?.toList := by
  obtain ⟨column, text, style⟩ := placed
  cases style with
  | none => cases text <;> exact (List.append_nil _).symm
  | some style =>
    cases text with
    | nil => exact (List.append_nil _).symm
    | cons first rest => rfl

theorem spans_putAll (texts : List PlacedText) :
    (line.putAll texts).spans = line.spans ++ texts.filterMap PlacedText.span? := by
  induction texts using List.reverseRecOn with
  | nil => exact (List.append_nil _).symm
  | append_singleton texts last inductionHypothesis =>
    rw [putAll_concat, spans_put_placed, inductionHypothesis, List.filterMap_append,
      List.append_assoc]
    cases found : last.span? <;> simp [found]

/-- Of texts that are put on an empty line one after the other each column shows the character of
the last one that takes it. The line ends where the text that reaches farthest does; before that,
columns that no text takes are blank. The spans are those of the texts that have a style and take
any column, in the order in which they were put. -/
theorem putAll_shows (texts : List PlacedText) :
    let line := putAll texts {}
    line.text.length = (texts.map PlacedText.stop).foldl max 0 ∧
      (∀ place, line.text[place]? =
        if place < line.text.length then
          match texts.reverse.find? (PlacedText.covers place) with
          | some placed => placed.text[place - placed.column]?
          | none => some ' '
        else
          none) ∧
      line.spans = texts.filterMap PlacedText.span? := by
  refine ⟨length_putAll {} texts, fun place => ?_, spans_putAll {} texts⟩
  split_ifs with inside
  · rw [getElem?_of_lt_length _ _ inside, cell_putAll]
    cases found : texts.reverse.find? (PlacedText.covers place) with
    | none => rfl
    | some placed =>
      have covered : placed.covers place = true := List.find?_some found
      exact (PlacedText.getElem?_of_covers covered).symm
  · exact List.getElem?_eq_none (Nat.not_lt.1 inside)

end HexEditor.ScreenLine
