/-
Line breaks in what is printed. Lines are printed one below the other without the blanks at their
ends, and a break at the end of a line is such a blank. So all breaks in a printed text set off its
lines if no line has another one; otherwise there are more, and the printed lines are not the lines
that were printed.
-/

import HexEditor.Proofs.Number.Numeral
import HexEditor.Screen.Line
import Mathlib.Algebra.BigOperators.Group.List.Basic
import Mathlib.Data.List.TakeWhile

namespace HexEditor

/-- A text has no line break. -/
def Unbroken (text : List Char) : Prop := '\n' ∉ text

instance : DecidablePred Unbroken := fun text => inferInstanceAs (Decidable ('\n' ∉ text))

theorem unbroken_append_iff {front behind : List Char} :
    Unbroken (front ++ behind) ↔ Unbroken front ∧ Unbroken behind := by
  rw [Unbroken, List.mem_append, not_or]
  rfl

theorem Unbroken.append {front behind : List Char} (first : Unbroken front)
    (second : Unbroken behind) : Unbroken (front ++ behind) :=
  unbroken_append_iff.2 ⟨first, second⟩

theorem Unbroken.appendText {front behind : String} (first : Unbroken front.toList)
    (second : Unbroken behind.toList) : Unbroken (front ++ behind).toList := by
  rw [String.toList_append]
  exact first.append second

theorem Unbroken.mono {part text : List Char} (unbroken : Unbroken text)
    (within : part ⊆ text) : Unbroken part :=
  fun member => unbroken (within member)

theorem unbroken_replicate {character : Char} (other : character ≠ '\n') (count : Nat) :
    Unbroken (List.replicate count character) :=
  fun member => other (List.eq_of_mem_replicate member).symm

/-! ### Numbers -/

theorem digitChar_ne_break {digit : Nat} (small : digit < largestBase) :
    digitChar digit ≠ '\n' := by
  have all : ∀ digit < largestBase, digitChar digit ≠ '\n' := by decide
  exact all digit small

theorem unbroken_plainText (base : Radix) (value : Nat) : Unbroken (base.plainText value) := by
  rw [Radix.plainText]
  split
  · decide
  · intro member
    rw [Radix.digitText, Radix.digits_eq, List.mem_map] at member
    obtain ⟨digit, digitMember, same⟩ := member
    have small : digit < base.value :=
      Nat.digits_lt_base base.two_le (List.mem_reverse.1 digitMember)
    exact digitChar_ne_break (small.trans_le base.le_largest) same

theorem unbroken_hexDigits (value : Nat) : Unbroken (hexDigits value).toList := by
  rw [hexDigits, String.toList_ofList]
  exact unbroken_plainText _ _

theorem unbroken_decimalText (value : Int) : Unbroken (decimalText value).toList := by
  rw [decimalText]
  split
  · refine Unbroken.appendText (by decide) ?_
    rw [String.toList_ofList]
    exact unbroken_plainText _ _
  · rw [String.toList_ofList]
    exact unbroken_plainText _ _

theorem unbroken_signedHexDigits (value : Int) : Unbroken (signedHexDigits value).toList := by
  rw [signedHexDigits]
  split
  · exact Unbroken.appendText (by decide) (unbroken_hexDigits _)
  · exact unbroken_hexDigits _

theorem unbroken_hexText (value : Int) : Unbroken (hexText value).toList := by
  rw [hexText]
  refine Unbroken.appendText ?_ (unbroken_hexDigits _)
  split <;> decide

/-! ### The end of a line -/

/-- The end of a text is that of its last part if this is not blank. -/
theorem dropBlankEnd_append (front behind : List Char) :
    dropBlankEnd (front ++ behind) =
      if dropBlankEnd behind = [] then dropBlankEnd front else front ++ dropBlankEnd behind := by
  simp only [dropBlankEnd, List.reverse_append, List.dropWhile_append, List.reverse_eq_nil_iff,
    List.isEmpty_iff]
  split
  · rfl
  · rw [List.reverse_append, List.reverse_reverse]

theorem dropBlankEnd_subset (text : List Char) : dropBlankEnd text ⊆ text := by
  intro character member
  rw [dropBlankEnd, List.mem_reverse] at member
  exact List.mem_reverse.1 ((List.dropWhile_sublist isBlank).subset member)

theorem dropBlankEnd_blanks (count : Nat) : dropBlankEnd (List.replicate count ' ') = [] := by
  rw [dropBlankEnd, List.reverse_replicate, List.reverse_eq_nil_iff, List.dropWhile_eq_nil_iff]
  intro character member
  rw [List.eq_of_mem_replicate member]
  decide

/-- The breaks that are printed with a line. -/
def breaks (text : List Char) : Nat := (dropBlankEnd text).count '\n'

theorem breaks_eq_zero_iff {text : List Char} :
    breaks text = 0 ↔ Unbroken (dropBlankEnd text) :=
  List.count_eq_zero

theorem Unbroken.breaks_eq {text : List Char} (unbroken : Unbroken text) : breaks text = 0 :=
  breaks_eq_zero_iff.2 (unbroken.mono (dropBlankEnd_subset text))

/-- A front without a break adds none. -/
theorem Unbroken.breaks_append {front : List Char} (unbroken : Unbroken front)
    (behind : List Char) : breaks (front ++ behind) = breaks behind := by
  rw [breaks, dropBlankEnd_append]
  split
  · next blank =>
    have none : breaks behind = 0 := by rw [breaks, blank, List.count_nil]
    rw [none]
    exact unbroken.breaks_eq
  · rw [List.count_append, List.count_eq_zero.2 unbroken, Nat.zero_add]
    rfl

/-- Blanks between two texts do not matter. -/
theorem breaks_append_blanks (front behind : List Char) (count : Nat) :
    breaks (front ++ (List.replicate count ' ' ++ behind)) = breaks (front ++ behind) := by
  have gap : dropBlankEnd (List.replicate count ' ' ++ behind) =
      if dropBlankEnd behind = [] then [] else List.replicate count ' ' ++ dropBlankEnd behind := by
    rw [dropBlankEnd_append, dropBlankEnd_blanks]
  rw [breaks, breaks, dropBlankEnd_append, dropBlankEnd_append front behind, gap]
  by_cases blank : dropBlankEnd behind = []
  · rw [if_pos blank, if_pos rfl, if_pos blank]
  · have some : List.replicate count ' ' ++ dropBlankEnd behind ≠ [] :=
      List.append_ne_nil_of_right_ne_nil _ blank
    rw [if_neg blank, if_neg some, if_neg blank, List.count_append, List.count_append,
      List.count_append, List.count_eq_zero.2 (unbroken_replicate (by decide) count), Nat.zero_add]

/-! ### Printed lines -/

theorem toList_screenText (lines : List ScreenLine) :
    (screenText lines).toList =
      ['\n'].intercalate (lines.map fun line => dropBlankEnd line.text) := by
  rw [screenText, String.toList_intercalate, List.map_map]
  refine congrArg (List.intercalate _) (List.map_congr_left fun line _ => ?_)
  exact String.toList_ofList

theorem count_break_intercalate {texts : List (List Char)} (some : texts ≠ []) :
    (['\n'].intercalate texts).count '\n' + 1 =
      texts.length + (texts.map (List.count '\n')).sum := by
  induction texts with
  | nil => exact absurd rfl some
  | cons first rest inductionHypothesis =>
    cases rest with
    | nil => simp [Nat.add_comm]
    | cons second rest =>
      have behind := inductionHypothesis (List.cons_ne_nil _ _)
      rw [List.intercalate_cons_cons, List.count_append, List.count_append,
        List.count_singleton_self, List.length_cons, List.map_cons, List.sum_cons]
      omega

/-- A printed text has the breaks between its lines and those that its lines have themselves. -/
theorem count_break_screenText {lines : List ScreenLine} (some : lines ≠ []) :
    (screenText lines).toList.count '\n' + 1 =
      lines.length + (lines.map fun line => breaks line.text).sum := by
  have texts : lines.map (fun line => dropBlankEnd line.text) ≠ [] := by simpa using some
  rw [toList_screenText, count_break_intercalate texts, List.length_map, List.map_map]
  rfl

/-- Where no line has a break of its own, the lines of the printed text are those that were
printed. -/
theorem splitOn_screenText {lines : List ScreenLine} (some : lines ≠ [])
    (unbroken : ∀ line ∈ lines, breaks line.text = 0) :
    (screenText lines).toList.splitOn '\n' = lines.map fun line => dropBlankEnd line.text := by
  rw [toList_screenText]
  refine List.splitOn_intercalate '\n' (List.forall_mem_map.2 fun line member => ?_) ?_
  · exact breaks_eq_zero_iff.1 (unbroken line member)
  · simpa using some

end HexEditor
