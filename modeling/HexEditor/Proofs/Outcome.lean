/-
Results that are a value or a failure. Steps that follow one another give a value if each of
them does, and so does a list that is read item by item.
-/

import Mathlib.Data.List.Forall2

namespace HexEditor

variable {Item Value Other Failure : Type}

/-- Two steps give a value if the first one gives one with which the second one does. -/
theorem bind_eq_ok_iff {first : Except Failure Value} {next : Value → Except Failure Other}
    {result : Other} :
    (first >>= next) = .ok result ↔ ∃ value, first = .ok value ∧ next value = .ok result := by
  cases first with
  | error failure =>
    refine iff_of_false (fun same => by cases same) ?_
    rintro ⟨_, same, -⟩
    cases same
  | ok value =>
    constructor
    · exact fun ran => ⟨value, rfl, ran⟩
    · rintro ⟨_, same, ran⟩
      cases same
      exact ran

/-- Two steps fail if the first one does, or gives a value with which the second one does. -/
theorem bind_eq_error_iff {first : Except Failure Value} {next : Value → Except Failure Other}
    {failure : Failure} :
    (first >>= next) = .error failure ↔
      first = .error failure ∨ ∃ value, first = .ok value ∧ next value = .error failure := by
  cases first with
  | error other =>
    constructor
    · exact fun failed => .inl (congrArg Except.error (Except.error.inj failed))
    · rintro (failed | ⟨_, same, -⟩)
      · exact congrArg Except.error (Except.error.inj failed)
      · cases same
  | ok value =>
    constructor
    · exact fun failed => .inr ⟨value, rfl, failed⟩
    · rintro (failed | ⟨_, same, failed⟩)
      · cases failed
      · cases same
        exact failed

theorem map_eq_ok_iff {first : Except Failure Value} {change : Value → Other} {result : Other} :
    first.map change = .ok result ↔ ∃ value, first = .ok value ∧ change value = result := by
  cases first with
  | error failure => exact iff_of_false nofun nofun
  | ok value =>
    constructor
    · exact fun same => ⟨value, rfl, Except.ok.inj same⟩
    · rintro ⟨_, same, rfl⟩
      cases same
      rfl

theorem map_eq_error_iff {first : Except Failure Value} {change : Value → Other}
    {failure : Failure} : first.map change = .error failure ↔ first = .error failure := by
  cases first with
  | error other =>
    exact ⟨fun same => congrArg _ (Except.error.inj same), fun same => by cases same; rfl⟩
  | ok value => exact iff_of_false nofun nofun

section Renaming

variable {OtherFailure : Type} {first : Except Failure Value} {change : Failure → OtherFailure}

theorem mapError_eq_ok_iff {value : Value} :
    first.mapError change = .ok value ↔ first = .ok value := by
  cases first with
  | error failure => exact iff_of_false nofun nofun
  | ok other => exact ⟨fun same => congrArg _ (Except.ok.inj same), fun same => by cases same; rfl⟩

theorem mapError_eq_error_iff {other : OtherFailure} :
    first.mapError change = .error other ↔
      ∃ failure, first = .error failure ∧ change failure = other := by
  cases first with
  | error failure =>
    constructor
    · exact fun same => ⟨failure, rfl, Except.error.inj same⟩
    · rintro ⟨_, same, rfl⟩
      cases same
      rfl
  | ok value => exact iff_of_false nofun nofun

end Renaming

variable {read : Item → Except Failure Value} {items : List Item} {values : List Value}

/-- A list is read if each of its items is. -/
theorem mapM_eq_ok_iff :
    items.mapM read = .ok values ↔
      List.Forall₂ (fun item value => read item = .ok value) items values := by
  induction items generalizing values with
  | nil =>
    rw [List.mapM_nil, List.forall₂_nil_left_iff]
    exact ⟨fun same => (Except.ok.inj same).symm, fun same => congrArg Except.ok same.symm⟩
  | cons item rest inductionHypothesis =>
    rw [List.mapM_cons, bind_eq_ok_iff, List.forall₂_cons_left_iff]
    constructor
    · rintro ⟨value, first, ran⟩
      obtain ⟨behind, others, same⟩ := bind_eq_ok_iff.1 ran
      exact ⟨value, behind, first, inductionHypothesis.1 others, (Except.ok.inj same).symm⟩
    · rintro ⟨value, behind, first, others, rfl⟩
      exact ⟨value, first, bind_eq_ok_iff.2 ⟨behind, inductionHypothesis.2 others, rfl⟩⟩

/-- A list is read item by item if every item is. -/
theorem mapM_of_ok {value : Item → Value} (all : ∀ item ∈ items, read item = .ok (value item)) :
    items.mapM read = .ok (items.map value) :=
  mapM_eq_ok_iff.2 (List.forall₂_map_right_iff.2 (List.forall₂_same.2 all))

/-- A list cannot be read if an item of it cannot, where all items before it can. -/
theorem mapM_eq_error_iff {failure : Failure} :
    items.mapM read = .error failure ↔
      ∃ before item after, items = before ++ item :: after ∧
        (∀ earlier ∈ before, ∃ value, read earlier = .ok value) ∧ read item = .error failure := by
  induction items with
  | nil =>
    refine iff_of_false nofun ?_
    rintro ⟨before, item, after, same, -⟩
    exact List.append_ne_nil_of_right_ne_nil before (List.cons_ne_nil item after) same.symm
  | cons first rest inductionHypothesis =>
    rw [List.mapM_cons, bind_eq_error_iff]
    constructor
    · rintro (failed | ⟨value, done, failed⟩)
      · exact ⟨[], first, rest, rfl, nofun, failed⟩
      · rcases bind_eq_error_iff.1 failed with failed | ⟨values, -, impossible⟩
        · obtain ⟨before, item, after, rfl, earlier, failed⟩ := inductionHypothesis.1 failed
          exact ⟨first :: before, item, after, rfl,
            List.forall_mem_cons.2 ⟨⟨value, done⟩, earlier⟩, failed⟩
        · cases impossible
    · rintro ⟨before, item, after, same, earlier, failed⟩
      cases before with
      | nil =>
        cases same
        exact .inl failed
      | cons other before =>
        cases same
        obtain ⟨⟨value, done⟩, earlier⟩ := List.forall_mem_cons.1 earlier
        have behind := inductionHypothesis.2 ⟨before, item, after, rfl, earlier, failed⟩
        exact .inr ⟨value, done, bind_eq_error_iff.2 (.inl behind)⟩

/-- Every item of a list that was read can be read. -/
theorem exists_of_mapM (ran : items.mapM read = .ok values) :
    ∀ item ∈ items, ∃ value, read item = .ok value := by
  have all := mapM_eq_ok_iff.1 ran
  clear ran
  induction all with
  | nil => exact fun _ member => by cases member
  | cons first _ inductionHypothesis =>
    exact List.forall_mem_cons.2 ⟨⟨_, first⟩, inductionHypothesis⟩

/-- What holds of all that an item can be read as holds of all that was read. -/
theorem forall_of_mapM (ran : items.mapM read = .ok values) {Good : Value → Prop}
    (each : ∀ item value, read item = .ok value → Good value) : ∀ value ∈ values, Good value := by
  have all := mapM_eq_ok_iff.1 ran
  clear ran
  induction all with
  | nil => exact fun _ member => by cases member
  | cons first _ inductionHypothesis =>
    intro value member
    rcases List.mem_cons.1 member with rfl | later
    · exact each _ _ first
    · exact inductionHypothesis value later

end HexEditor
