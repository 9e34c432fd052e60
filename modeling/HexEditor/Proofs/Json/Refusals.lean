/-
Why documents are refused. A reader hands back an end of the text that it was given, so what it
fails on stands in the document: an integer is too long for a run of that many digits, and values
are nested too deep only where there are more brackets than the depth that is allowed. The
induction is on the calls that are left, over a value, the items of an array and the members of an
object at once; a bracket that is passed makes up for the level that it takes.
-/

import HexEditor.Json.Reader
import Mathlib.Data.List.Infix
import Mathlib.Data.List.TakeWhile

namespace HexEditor.Json

variable {value : Json} {text rest : List Char}

/-! ### What is left -/

theorem suffix_skipSpace (text : List Char) : skipSpace text <:+ text := List.dropWhile_suffix _

theorem suffix_of_after? {expected : List Char} (passed : after? expected text = some rest) :
    rest <:+ text := by
  fun_induction after? expected text with
  | case1 => cases passed; exact List.suffix_refl _
  | case2 _ _ _ _ _ inductionHypothesis =>
    exact (inductionHypothesis passed).trans (List.suffix_cons _ _)
  | case3 | case4 => cases passed

theorem suffix_of_readString {high : Option Nat} {read string : List Char}
    (found : readString high read text = some (string, rest)) : rest <:+ text := by
  fun_induction readString high read text with
  | case1 | case3 | case11 | case12 => cases found
  | case2 =>
    cases found
    exact List.suffix_cons _ _
  | case4 | case5 | case6 | case7 | case8 | case9 =>
    rename_i inductionHypothesis
    exact (inductionHypothesis found).trans (List.suffix_append [_, _, _, _, _, _] _)
  | case10 =>
    rename_i inductionHypothesis
    exact (inductionHypothesis found).trans (List.suffix_append [_, _] _)
  | case13 =>
    rename_i inductionHypothesis
    exact (inductionHypothesis found).trans (List.suffix_cons _ _)

theorem suffix_of_stringAt {string : String} (found : stringAt text = some (string, rest)) :
    rest <:+ text := by
  obtain ⟨_, read, same⟩ := Option.map_eq_some_iff.1 found
  cases same
  exact suffix_of_readString read

theorem suffix_fractionDigits (text : List Char) : (fractionDigits text).2 <:+ text := by
  unfold fractionDigits
  split
  · dsimp only
    split
    · exact List.suffix_refl _
    · exact (List.dropWhile_suffix _).trans (List.suffix_cons _ _)
  · exact List.suffix_refl _

theorem suffix_exponentOf (text : List Char) : (exponentOf text).2 <:+ text := by
  have digits (rest : List Char) := List.dropWhile_suffix isAsciiDigit (l := rest)
  unfold exponentOf
  split
  · split
    · -- A sign may stand between the letter and the digits.
      dsimp only
      split <;> dsimp only <;> split
      · exact List.suffix_refl _
      · exact (digits _).trans (List.suffix_append [_, _] _)
      · exact List.suffix_refl _
      · exact (digits _).trans (List.suffix_append [_, _] _)
      · exact List.suffix_refl _
      · exact (digits _).trans (List.suffix_cons _ _)
    · exact List.suffix_refl _
  · exact List.suffix_refl _

theorem suffix_of_numberAt {negative : Bool} (read : numberAt negative text = .ok (value, rest)) :
    rest <:+ text := by
  have behind (count : Nat) : (exponentOf (fractionDigits (text.drop count)).2).2 <:+ text :=
    (suffix_exponentOf _).trans ((suffix_fractionDigits _).trans (List.drop_suffix _ _))
  unfold numberAt at read
  extract_lets whole at read
  split at read
  · cases read
  · dsimp only at read
    split at read
    · split at read
      · cases read
      · cases read
        exact behind _
    · cases read
      exact behind _

theorem suffix_of_scalarAt (read : scalarAt text = .ok (value, rest)) : rest <:+ text := by
  unfold scalarAt at read
  split at read
  · next found known =>
    cases read
    obtain ⟨entry, -, word⟩ := List.exists_of_findSome?_eq_some known
    obtain ⟨behind, passed, same⟩ := Option.map_eq_some_iff.1 word
    cases same
    exact suffix_of_after? passed
  · split at read
    · exact (suffix_of_numberAt read).trans (List.suffix_cons _ _)
    · exact suffix_of_numberAt read

/-- With some number of calls left, every reader hands back an end of its text. -/
structure ReadsSuffix (fuel : Nat) : Prop where
  value : ∀ {depth : Nat} {text rest : List Char} {value : Json},
    readValue depth fuel text = .ok (value, rest) → rest <:+ text
  items : ∀ {depth : Nat} {text rest : List Char} {value : Json} {read : List Json},
    readItems depth fuel read text = .ok (value, rest) → rest <:+ text
  members : ∀ {depth : Nat} {text rest : List Char} {value : Json} {read : List (String × Json)},
    readMembers depth fuel read text = .ok (value, rest) → rest <:+ text

variable {depth fuel : Nat}

/-- What stands behind blanks and a mark is an end of the text. -/
theorem suffix_of_skipSpace {mark : Char} (skipped : skipSpace text = mark :: rest) : rest <:+ text := by
  have whole := suffix_skipSpace text
  rw [skipped] at whole
  exact (List.suffix_cons _ _).trans whole

theorem suffix_readValue (reads : ReadsSuffix fuel)
    (read : readValue depth (fuel + 1) text = .ok (value, rest)) : rest <:+ text := by
  unfold readValue at read
  split at read
  · split at read
    · next found =>
      cases read
      exact (suffix_of_stringAt found).trans (List.suffix_cons _ _)
    · cases read
  · split at read
    · cases read
    · refine List.IsSuffix.trans ?_ (List.suffix_cons _ _)
      split at read
      · next skipped =>
        cases read
        exact suffix_of_skipSpace skipped
      · exact (reads.items read).trans (suffix_skipSpace _)
  · split at read
    · cases read
    · refine List.IsSuffix.trans ?_ (List.suffix_cons _ _)
      split at read
      · next skipped =>
        cases read
        exact suffix_of_skipSpace skipped
      · exact (reads.members read).trans (suffix_skipSpace _)
  · exact suffix_of_scalarAt read

theorem suffix_readItems (reads : ReadsSuffix fuel) {items : List Json}
    (read : readItems depth (fuel + 1) items text = .ok (value, rest)) : rest <:+ text := by
  unfold readItems at read
  split at read
  · cases read
  · next item behind first =>
    refine List.IsSuffix.trans ?_ (reads.value first)
    split at read
    · next skipped =>
      cases read
      exact suffix_of_skipSpace skipped
    · next skipped =>
      exact ((reads.items read).trans (suffix_skipSpace _)).trans (suffix_of_skipSpace skipped)
    · cases read

/-- The value of a member stands behind its name and a colon. -/
theorem suffix_member {behind valueText : List Char} {name : String}
    (named : stringAt text = some (name, behind)) (skipped : skipSpace behind = ':' :: valueText) :
    skipSpace valueText <:+ '"' :: text :=
  ((suffix_skipSpace _).trans (suffix_of_skipSpace skipped)).trans
    ((suffix_of_stringAt named).trans (List.suffix_cons _ _))

theorem suffix_readMembers (reads : ReadsSuffix fuel) {members : List (String × Json)}
    (read : readMembers depth (fuel + 1) members text = .ok (value, rest)) : rest <:+ text := by
  unfold readMembers at read
  split at read
  · split at read
    · cases read
    · next named =>
      split at read
      · next colon =>
        split at read
        · cases read
        · next first =>
          refine List.IsSuffix.trans ?_ ((reads.value first).trans (suffix_member named colon))
          dsimp only at read
          split at read
          · next skipped =>
            cases read
            exact suffix_of_skipSpace skipped
          · next skipped =>
            exact ((reads.members read).trans (suffix_skipSpace _)).trans (suffix_of_skipSpace skipped)
          · cases read
      · cases read
  · cases read

theorem readsSuffix (fuel : Nat) : ReadsSuffix fuel := by
  induction fuel with
  | zero =>
    exact ⟨fun read => (by cases read), fun read => (by cases read), fun read => (by cases read)⟩
  | succ fuel inductionHypothesis =>
    exact ⟨suffix_readValue inductionHypothesis, suffix_readItems inductionHypothesis,
      suffix_readMembers inductionHypothesis⟩

/-! ### What is refused -/

/-- Whether a character opens an array or an object. -/
def isOpening (character : Char) : Bool := character == '[' || character == '{'

/-- A text shows why it is refused: there is a run of digits in it that is too long, or there are more
brackets than values may be nested deep. -/
def Failure.ShownBy (depth : Nat) (text : List Char) : Failure → Prop
  | .malformed => True
  | .tooLong count => literalDigitLimit < count ∧
      ∃ digits, digits <:+: text ∧ digits.length = count ∧ ∀ digit ∈ digits, isAsciiDigit digit = true
  | .tooDeep => depth < text.countP isOpening

namespace Failure

variable {failure : Failure}

theorem ShownBy.mono (shown : failure.ShownBy depth rest) (suffix : rest <:+ text) :
    failure.ShownBy depth text := by
  cases failure with
  | malformed => trivial
  | tooLong count =>
    obtain ⟨long, digits, inside, run⟩ := shown
    exact ⟨long, digits, inside.trans suffix.isInfix, run⟩
  | tooDeep => exact Nat.lt_of_lt_of_le shown suffix.sublist.countP_le

/-- A bracket makes up for the level that it takes. -/
theorem ShownBy.opened {bracket : Char} (shown : failure.ShownBy (depth - 1) rest)
    (room : depth ≠ 0) (opening : isOpening bracket = true) (suffix : rest <:+ text) :
    failure.ShownBy depth (bracket :: text) := by
  have inside := shown.mono suffix
  cases failure with
  | malformed => trivial
  | tooLong count =>
    have same : (Failure.tooLong count).ShownBy depth text := inside
    exact same.mono (List.suffix_cons _ _)
  | tooDeep =>
    have more : depth - 1 < text.countP isOpening := inside
    show depth < (bracket :: text).countP isOpening
    have positive := Nat.pos_of_ne_zero room
    rw [List.countP_cons_of_pos opening]
    omega

end Failure

variable {failure : Failure}

/-- The digits of a number in front of its point. -/
theorem whole_prefix (text : List Char) :
    let whole := match text with
      | '0' :: _ => ['0']
      | _ => text.takeWhile isAsciiDigit
    whole <+: text ∧ ∀ digit ∈ whole, isAsciiDigit digit = true := by
  dsimp only
  split
  · exact ⟨List.prefix_append ['0'] _, List.forall_mem_singleton.2 rfl⟩
  · exact ⟨List.takeWhile_prefix _, fun digit => List.mem_takeWhile_imp⟩

theorem shownBy_numberAt {negative : Bool} (failed : numberAt negative text = .error failure) :
    failure.ShownBy depth text := by
  unfold numberAt at failed
  extract_lets whole at failed
  split at failed
  · cases failed
    trivial
  · dsimp only at failed
    split at failed
    · split at failed
      · next long =>
        cases failed
        obtain ⟨start, digits⟩ := whole_prefix text
        exact ⟨long, whole, start.isInfix, rfl, digits⟩
      · cases failed
    · cases failed

theorem shownBy_scalarAt (failed : scalarAt text = .error failure) : failure.ShownBy depth text := by
  unfold scalarAt at failed
  split at failed
  · cases failed
  · split at failed
    · exact (shownBy_numberAt failed).mono (List.suffix_cons _ _)
    · exact shownBy_numberAt failed

/-- With some number of calls left, a text shows why a reader refuses it. -/
structure ShowsRefusal (fuel : Nat) : Prop where
  value : ∀ {depth : Nat} {text : List Char} {failure : Failure},
    readValue depth fuel text = .error failure → failure.ShownBy depth text
  items : ∀ {depth : Nat} {text : List Char} {failure : Failure} {read : List Json},
    readItems depth fuel read text = .error failure → failure.ShownBy depth text
  members : ∀ {depth : Nat} {text : List Char} {failure : Failure} {read : List (String × Json)},
    readMembers depth fuel read text = .error failure → failure.ShownBy depth text

theorem shownBy_readValue (shows : ShowsRefusal fuel)
    (failed : readValue depth (fuel + 1) text = .error failure) : failure.ShownBy depth text := by
  have tooDeep {bracket : Char} {rest : List Char} (opening : isOpening bracket = true) :
      Failure.tooDeep.ShownBy 0 (bracket :: rest) := by
    show 0 < (bracket :: rest).countP isOpening
    rw [List.countP_cons_of_pos opening]
    exact Nat.succ_pos _
  unfold readValue at failed
  split at failed
  · split at failed
    · cases failed
    · cases failed
      trivial
  · split at failed
    · next bottom =>
      cases failed
      rw [bottom]
      exact tooDeep rfl
    · next room =>
      split at failed
      · cases failed
      · exact (shows.items failed).opened room rfl (suffix_skipSpace _)
  · split at failed
    · next bottom =>
      cases failed
      rw [bottom]
      exact tooDeep rfl
    · next room =>
      split at failed
      · cases failed
      · exact (shows.members failed).opened room rfl (suffix_skipSpace _)
  · exact shownBy_scalarAt failed

theorem shownBy_readItems (shows : ShowsRefusal fuel) {items : List Json}
    (failed : readItems depth (fuel + 1) items text = .error failure) :
    failure.ShownBy depth text := by
  unfold readItems at failed
  split at failed
  · next first =>
    cases failed
    exact shows.value first
  · next item behind first =>
    split at failed
    · cases failed
    · next skipped =>
      exact (shows.items failed).mono (((suffix_skipSpace _).trans (suffix_of_skipSpace skipped)).trans
        ((readsSuffix fuel).value first))
    · cases failed
      trivial

theorem shownBy_readMembers (shows : ShowsRefusal fuel) {members : List (String × Json)}
    (failed : readMembers depth (fuel + 1) members text = .error failure) :
    failure.ShownBy depth text := by
  unfold readMembers at failed
  split at failed
  · split at failed
    · cases failed
      trivial
    · next named =>
      split at failed
      · next colon =>
        split at failed
        · next first =>
          cases failed
          exact (shows.value first).mono (suffix_member named colon)
        · next first =>
          have behind := ((readsSuffix fuel).value first).trans (suffix_member named colon)
          dsimp only at failed
          split at failed
          · cases failed
          · next skipped =>
            exact (shows.members failed).mono
              (((suffix_skipSpace _).trans (suffix_of_skipSpace skipped)).trans behind)
          · cases failed
            trivial
      · cases failed
        trivial
  · cases failed
    trivial

theorem showsRefusal (fuel : Nat) : ShowsRefusal fuel := by
  induction fuel with
  | zero =>
    exact ⟨fun failed => (by cases failed; trivial), fun failed => (by cases failed; trivial),
      fun failed => (by cases failed; trivial)⟩
  | succ fuel inductionHypothesis =>
    exact ⟨shownBy_readValue inductionHypothesis, shownBy_readItems inductionHypothesis,
      shownBy_readMembers inductionHypothesis⟩

/-- A document that is refused shows why. -/
theorem shownBy_read {document : List Char} (failed : read document = .error failure) :
    failure.ShownBy nestingLimit document := by
  rw [read] at failed
  split at failed
  · next whole =>
    cases failed
    exact ((showsRefusal _).value whole).mono (suffix_skipSpace _)
  · split at failed
    · cases failed
    · cases failed
      trivial

end HexEditor.Json
