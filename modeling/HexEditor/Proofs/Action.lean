/-
Actions on a state. An action that changes a state and may fail is followed by another
one only if it succeeds; a failure keeps the state as it was when it arose.
-/

import HexEditor.Number.Word

namespace HexEditor.Action

variable {Failure State Value Other : Type} {action : EStateM Failure State Value}
  {next : Value → EStateM Failure State Other} {before after : State}

/-- Behind an action that succeeds the next one goes on. -/
theorem bind_of_ok {value : Value} (done : action before = .ok value after) :
    (action >>= next) before = next value after := by
  show EStateM.bind action next before = _
  rw [EStateM.bind, done]

/-- Behind an action that fails nothing else happens. -/
theorem bind_of_error {failure : Failure} (failed : action before = .error failure after) :
    (action >>= next) before = .error failure after := by
  show EStateM.bind action next before = _
  rw [EStateM.bind, failed]

/-- Two actions that succeed one behind the other succeed each. -/
theorem ok_of_bind {value : Other} (done : (action >>= next) before = .ok value after) :
    ∃ first between, action before = .ok first between ∧ next first between = .ok value after := by
  cases ran : action before with
  | ok first between =>
    rw [bind_of_ok ran] at done
    exact ⟨first, between, rfl, done⟩
  | error failure between =>
    rw [bind_of_error ran] at done
    cases done

/-- Where one of two actions fails, the first one does, or the second one behind it. -/
theorem error_of_bind {failure : Failure}
    (failed : (action >>= next) before = .error failure after) :
    action before = .error failure after ∨
      ∃ value between, action before = .ok value between ∧
        next value between = .error failure after := by
  cases ran : action before with
  | ok value between =>
    rw [bind_of_ok ran] at failed
    exact .inr ⟨value, between, rfl, failed⟩
  | error other between =>
    rw [bind_of_error ran] at failed
    cases failed
    exact .inl rfl

theorem bind_get {next : State → EStateM Failure State Other} :
    ((get : EStateM Failure State State) >>= next) before = next before before := rfl

theorem bind_modify {change : State → State} {next : Unit → EStateM Failure State Other} :
    ((modify change : EStateM Failure State PUnit) >>= next) before = next () (change before) := rfl

/-! ### Kept properties -/

/-- The state that an action leaves behind. -/
def left : EStateM.Result Failure State Value → State
  | .ok _ after => after
  | .error _ after => after

/-- An action leads from states of one kind to states of another, whether it succeeds or not. -/
def Leads (first last : State → Prop) (action : EStateM Failure State Value) : Prop :=
  ∀ before, first before → last (left (action before))

/-- What comes between two actions has to be good enough where the first one fails. -/
theorem leads_bind {first between last : State → Prop} (leads : Leads first between action)
    (behind : ∀ value, Leads between last (next value))
    (enough : ∀ state, between state → last state) : Leads first last (action >>= next) := by
  intro before here
  have reached := leads before here
  cases ran : action before with
  | ok value after =>
    rw [ran] at reached
    rw [bind_of_ok ran]
    exact behind value after reached
  | error failure after =>
    rw [ran] at reached
    rw [bind_of_error ran]
    exact enough after reached

/-- An action keeps a property of the state, whether it succeeds or not. -/
def Keeps (holds : State → Prop) (action : EStateM Failure State Value) : Prop :=
  ∀ before, holds before → holds (left (action before))

variable {holds : State → Prop}

theorem Keeps.leads (keeps : Keeps holds action) : Leads holds holds action := keeps

theorem keeps_pure (value : Value) : Keeps holds (pure value : EStateM Failure State Value) :=
  fun _ here => here

theorem keeps_throw (failure : Failure) :
    Keeps holds (throw failure : EStateM Failure State Value) :=
  fun _ here => here

theorem keeps_modify {change : State → State}
    (keeps : ∀ state, holds state → holds (change state)) :
    Keeps holds (modify change : EStateM Failure State PUnit) :=
  fun before here => keeps before here

/-- Where the first action keeps a property and every next one does, both together do. -/
theorem keeps_bind (first : Keeps holds action) (second : ∀ value, Keeps holds (next value)) :
    Keeps holds (action >>= next) :=
  leads_bind first.leads (fun value => (second value).leads) fun _ here => here

/-- What an action comes to is kept behind it if every next one keeps it. -/
theorem keeps_behind (here : holds (left (action before)))
    (second : ∀ value, Keeps holds (next value)) : holds (left ((action >>= next) before)) := by
  have first : Leads (· = before) holds action := by
    rintro _ rfl
    exact here
  exact leads_bind first (fun value => (second value).leads) (fun _ kept => kept) before rfl

/-- What follows a look at the state may depend on the state that was seen. -/
theorem keeps_get_bind {next : State → EStateM Failure State Other}
    (keeps : ∀ state, Keeps holds (next state)) :
    Keeps holds ((get : EStateM Failure State State) >>= next) :=
  keeps_bind (fun _ here => here) keeps

/-! ### Ways to end -/

/-- An action keeps a property of the state, and fails for causes that are allowed only. -/
def Ends (holds : State → Prop) (allows : Failure → Prop)
    (action : EStateM Failure State Value) : Prop :=
  ∀ before, holds before →
    match action before with
    | .ok _ after => holds after
    | .error failure after => holds after ∧ allows failure

variable {allows : Failure → Prop}

theorem ends_pure (value : Value) :
    Ends holds allows (pure value : EStateM Failure State Value) :=
  fun _ here => here

theorem ends_throw {failure : Failure} (allowed : allows failure) :
    Ends holds allows (throw failure : EStateM Failure State Value) :=
  fun _ here => ⟨here, allowed⟩

/-- Behind a failure nothing else happens, whatever it would be. -/
theorem ends_throw_bind {failure : Failure} (allowed : allows failure) :
    Ends holds allows ((throw failure : EStateM Failure State Value) >>= next) :=
  fun _ here => ⟨here, allowed⟩

theorem ends_modify {change : State → State}
    (keeps : ∀ state, holds state → holds (change state)) :
    Ends holds allows (modify change : EStateM Failure State PUnit) :=
  fun before here => keeps before here

/-- Where the first action ends as allowed and every next one does, both together do. -/
theorem ends_bind (first : Ends holds allows action)
    (second : ∀ value, Ends holds allows (next value)) :
    Ends holds allows (action >>= next) := by
  intro before here
  have ended := first before here
  cases ran : action before with
  | ok value after =>
    rw [ran] at ended
    rw [bind_of_ok ran]
    exact second value after ended
  | error failure after =>
    rw [ran] at ended
    rw [bind_of_error ran]
    exact ended

theorem ends_get_bind {next : State → EStateM Failure State Other}
    (ends : ∀ state, Ends holds allows (next state)) :
    Ends holds allows ((get : EStateM Failure State State) >>= next) :=
  ends_bind (fun _ here => here) ends

theorem ends_map {change : Value → Other} (ends : Ends holds allows action) :
    Ends holds allows (change <$> action) := by
  rw [map_eq_pure_bind]
  exact ends_bind ends fun value => ends_pure (change value)

/-- What an action keeps, it also keeps where it ends as allowed. -/
theorem Keeps.ends {others : State → Prop} (keeps : Keeps others action)
    (ends : ∀ before, others before → holds before →
      match action before with
      | .ok _ after => holds after
      | .error failure after => holds after ∧ allows failure) :
    Ends (fun state => others state ∧ holds state) allows action := by
  rintro before ⟨other, here⟩
  have kept := keeps before other
  have ended := ends before other here
  cases ran : action before with
  | ok value after =>
    rw [ran] at kept ended
    exact ⟨kept, ended⟩
  | error failure after =>
    rw [ran] at kept ended
    exact ⟨⟨kept, ended.1⟩, ended.2⟩

end HexEditor.Action
