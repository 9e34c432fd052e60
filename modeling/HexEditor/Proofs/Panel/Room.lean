/-
How much room there is on a panel, and what that changes. Writing on a panel looks at the
room only to see whether its rows fit: where they do, more room makes no difference, and
where they do not, the panel is full but for one row at most. An action on a state that
holds a panel is cut short in the same way if it goes on only as long as its rows fit. Two
runs of it, one with little room and one with more, agree up to the first row that does not
fit; there the first one stops, and what the second one does from then on adds rows only.
-/

import HexEditor.Panel
import HexEditor.Proofs.Action

namespace HexEditor

/-! ### Writing -/

namespace Panel

/-- The panel with room for another number of rows. -/
def withRoom (panel : Panel) (room : Nat) : Panel := { panel with budget := room }

/-- There are no more rows than there is room for. -/
def Fits (panel : Panel) : Prop := panel.rows.size ≤ panel.budget

/-- Writing that adds rows, as far as they fit, and looks at nothing else of the room. -/
structure Writing (write : Panel → Bool × Panel) : Prop where
  budget_eq : ∀ panel, (write panel).2.budget = panel.budget
  fits : ∀ panel, panel.Fits → (write panel).2.Fits
  grows : ∀ panel, panel.rows.toList <+: (write panel).2.rows.toList
  /-- What fits is written in the same way if there is more room. -/
  written : ∀ panel room, panel.budget ≤ room → (write panel).1 = true →
    write (panel.withRoom room) = (true, (write panel).2.withRoom room)
  /-- Where something does not fit, what does is written with more room too. -/
  cut : ∀ panel room, panel.budget ≤ room → (write panel).1 = false →
    panel.budget ≤ (write panel).2.rows.size + 1 ∧
      (write panel).2.rows.toList <+: (write (panel.withRoom room)).2.rows.toList

/-- The panel behind a block of rows. -/
def behind (panel : Panel) (block : Array PanelRow) (flag : Bool → Bool) : Panel :=
  { panel with rows := panel.rows ++ block, afterHeader := flag panel.afterHeader }

theorem prefix_behind (panel : Panel) (block : Array PanelRow) (flag : Bool → Bool) :
    panel.rows.toList <+: (panel.behind block flag).rows.toList := by
  rw [behind, Array.toList_append]
  exact List.prefix_append _ _

/-- Whatever writes a block of one or two rows if it fits, and nothing otherwise, is writing. -/
theorem writing_of_block {write : Panel → Bool × Panel} (block : Array PanelRow)
    (flag : Bool → Bool) (some : 0 < block.size) (small : block.size ≤ 2)
    (written : ∀ panel, write panel =
      if panel.remaining < block.size then (false, panel) else (true, panel.behind block flag)) :
    Writing write where
  budget_eq panel := by
    rw [written]
    split <;> rfl
  fits panel fits := by
    rw [written]
    split
    · exact fits
    · next room =>
      show (panel.rows ++ block).size ≤ panel.budget
      rw [remaining] at room
      rw [Array.size_append]
      omega
  grows panel := by
    rw [written]
    split
    · exact List.prefix_rfl
    · exact panel.prefix_behind block flag
  written panel room larger fitted := by
    rw [written] at fitted
    rw [written, written]
    split at fitted
    · cases fitted
    · next fits =>
      have more : ¬ (panel.withRoom room).remaining < block.size := by
        show ¬ room - panel.rows.size < block.size
        rw [remaining] at fits
        omega
      rw [if_neg more, if_neg fits]
      rfl
  cut panel room larger missed := by
    rw [written] at missed
    rw [written, written]
    split at missed
    · next full =>
      rw [if_pos full]
      refine ⟨?_, ?_⟩
      · rw [remaining] at full
        show panel.budget ≤ panel.rows.size + 1
        omega
      · split
        · exact List.prefix_rfl
        · exact (panel.withRoom room).prefix_behind block flag
    · cases missed

theorem writing_value (name text : String) : Writing fun panel => panel.value name text :=
  writing_of_block #[⟨.value, name ++ ": " ++ text, 0⟩] (fun _ => false) Nat.one_pos
    (Nat.le_succ 1) fun panel => by
      rw [value, behind, push, Array.push_eq_append]
      rfl

theorem writing_headerRows (title : String) (level : Int) :
    Writing fun panel => panel.headerRows title level :=
  writing_of_block #[⟨.header, title, level⟩, ⟨.headerPad, "", level⟩] (fun _ => true)
    Nat.two_pos (Nat.le_refl 2) fun panel => by
      rw [headerRows, behind, push, push]
      rfl

/-- Writing that goes on with other writing as long as everything fits. -/
theorem Writing.andThen {first second : Panel → Bool × Panel} (before : Writing first)
    (after : Writing second) :
    Writing fun panel => if (first panel).1 then second (first panel).2 else first panel where
  budget_eq panel := by
    split
    · rw [after.budget_eq, before.budget_eq]
    · exact before.budget_eq panel
  fits panel fits := by
    split
    · exact after.fits _ (before.fits panel fits)
    · exact before.fits panel fits
  grows panel := by
    split
    · exact (before.grows panel).trans (after.grows _)
    · exact before.grows panel
  written panel room larger fitted := by
    cases firstFits : (first panel).1 with
    | false =>
      rw [firstFits, if_neg Bool.false_ne_true, firstFits] at fitted
      cases fitted
    | true =>
      rw [firstFits, if_pos rfl] at fitted
      rw [before.written panel room larger firstFits, if_pos rfl, if_pos rfl]
      exact after.written _ room (before.budget_eq panel ▸ larger) fitted
  cut panel room larger missed := by
    cases firstFits : (first panel).1 with
    | false =>
      obtain ⟨full, shown⟩ := before.cut panel room larger firstFits
      rw [if_neg Bool.false_ne_true]
      refine ⟨full, shown.trans ?_⟩
      split
      · exact after.grows _
      · exact List.prefix_rfl
    | true =>
      rw [firstFits, if_pos rfl] at missed
      have enough : (first panel).2.budget ≤ room := before.budget_eq panel ▸ larger
      obtain ⟨full, shown⟩ := after.cut _ room enough missed
      rw [before.written panel room larger firstFits, if_pos rfl, if_pos rfl]
      exact ⟨before.budget_eq panel ▸ full, shown⟩

/-- Writing that is chosen by what is on the panel. -/
theorem Writing.choose {first second : Panel → Bool × Panel} (one : Writing first)
    (other : Writing second) :
    Writing fun panel => if panel.afterHeader then first panel else second panel where
  budget_eq panel := by
    split
    · exact one.budget_eq panel
    · exact other.budget_eq panel
  fits panel := by
    split
    · exact one.fits panel
    · exact other.fits panel
  grows panel := by
    split
    · exact one.grows panel
    · exact other.grows panel
  written panel room := by
    show _ → _ → (if panel.afterHeader then _ else _) = _
    split
    · exact one.written panel room
    · exact other.written panel room
  cut panel room := by
    show _ → _ → _ ∧ _ <+: (if panel.afterHeader then _ else _ : Bool × Panel).2.rows.toList
    split
    · exact one.cut panel room
    · exact other.cut panel room

theorem writing_header (title : String) (level : Int) :
    Writing fun panel => panel.header title level := by
  have separator : Writing fun panel =>
      if panel.remaining < 1 then (false, panel) else (true, panel.push ⟨.separator, "", 0⟩) :=
    writing_of_block #[⟨.separator, "", 0⟩] id Nat.one_pos (Nat.le_succ 1) fun panel => by
        rw [behind, push, Array.push_eq_append]
        rfl
  have same : (fun panel : Panel => panel.header title level) = fun panel =>
      if panel.afterHeader then panel.headerRows title level
      else
        let separated :=
          if panel.remaining < 1 then (false, panel) else (true, panel.push ⟨.separator, "", 0⟩)
        if separated.1 then separated.2.headerRows title level else separated := by
    funext panel
    rw [header]
    split
    · rfl
    · dsimp only
      split <;> rfl
  rw [same]
  exact (writing_headerRows title level).choose (separator.andThen (writing_headerRows title level))

end Panel

/-! ### States with a panel -/

/-- States in which the panel can be exchanged for another one. -/
class HasPanel (State : Type) where
  panel : State → Panel
  withPanel : State → Panel → State
  panel_withPanel : ∀ state other, panel (withPanel state other) = other
  withPanel_withPanel : ∀ state other last,
    withPanel (withPanel state other) last = withPanel state last
  withPanel_panel : ∀ state, withPanel state (panel state) = state

namespace Action

open HasPanel

variable {Failure State Value Other : Type} {action : EStateM Failure State Value}
  {next : Value → EStateM Failure State Other}

/-- The result of an action with another state. -/
def mapState (change : State → State) :
    EStateM.Result Failure State Value → EStateM.Result Failure State Value
  | .ok value state => .ok value (change state)
  | .error failure state => .error failure (change state)

theorem left_mapState (change : State → State) (result : EStateM.Result Failure State Value) :
    left (mapState change result) = change (left result) := by
  cases result <;> rfl

variable [HasPanel State]

/-- The state with room for another number of rows. -/
def inRoom (room : Nat) (state : State) : State := withPanel state ((panel state).withRoom room)

theorem panel_inRoom (room : Nat) (state : State) :
    panel (inRoom room state) = (panel state).withRoom room :=
  panel_withPanel state _

/-! ### Actions beside the panel -/

/-- An action that has nothing to do with the panel. -/
def SparesPanel (action : EStateM Failure State Value) : Prop :=
  ∀ state other, action (withPanel state other) = mapState (withPanel · other) (action state)

theorem SparesPanel.panel_eq (spares : SparesPanel action) (state : State) :
    panel (left (action state)) = panel state := by
  have same := spares state (panel state)
  rw [withPanel_panel] at same
  rw [same, left_mapState, panel_withPanel]

theorem sparesPanel_pure (value : Value) :
    SparesPanel (pure value : EStateM Failure State Value) :=
  fun _ _ => rfl

theorem sparesPanel_throw (failure : Failure) :
    SparesPanel (throw failure : EStateM Failure State Value) :=
  fun _ _ => rfl

theorem SparesPanel.bind (first : SparesPanel action) (second : ∀ value, SparesPanel (next value)) :
    SparesPanel (action >>= next) := by
  intro state other
  have same := first state other
  cases ran : action state with
  | ok value after =>
    rw [ran] at same
    rw [bind_of_ok ran, bind_of_ok same]
    exact second value after other
  | error failure after =>
    rw [ran] at same
    rw [bind_of_error ran, bind_of_error same]
    rfl

/-- What follows a look at the state may look at everything but the panel. -/
theorem sparesPanel_get_bind {next : State → EStateM Failure State Other}
    (same : ∀ state other, next (withPanel state other) = next state)
    (spares : ∀ state, SparesPanel (next state)) :
    SparesPanel ((get : EStateM Failure State State) >>= next) := by
  intro state other
  rw [bind_get, bind_get, same]
  exact spares state state other

/-! ### Actions that are cut short -/

/-- What a run with room for a number of rows comes to, and what it comes to with more room. Either
the room makes no difference, or the first run stops with a panel that is full but for one row at
most, and the second one shows the same rows and others behind them. -/
inductive Agrees (stops : Value → State → Prop) (budget room : Nat) :
    EStateM.Result Failure State Value → EStateM.Result Failure State Value → Prop where
  | same (result : EStateM.Result Failure State Value) :
      Agrees stops budget room result (mapState (inRoom room) result)
  | cut {value : Value} {state : State} {long : EStateM.Result Failure State Value}
      (stopped : stops value state) (full : budget ≤ (panel state).rows.size + 1)
      (shown : (panel state).rows.toList <+: (panel (left long)).rows.toList) :
      Agrees stops budget room (.ok value state) long

/-- An action that adds rows as long as they fit, and stops at the first one that does not. -/
structure Budgeted (stops : Value → State → Prop) (action : EStateM Failure State Value) : Prop where
  budget_eq : ∀ state, (panel (left (action state))).budget = (panel state).budget
  fits : ∀ state, (panel state).Fits → (panel (left (action state))).Fits
  grows : ∀ state, (panel state).rows.toList <+: (panel (left (action state))).rows.toList
  agrees : ∀ state room, (panel state).budget ≤ room →
    Agrees stops (panel state).budget room (action state) (action (inRoom room state))

variable {stops : Value → State → Prop} {stopsBehind : Other → State → Prop}

theorem Budgeted.keeps_budget (budgeted : Budgeted stops action) (budget : Nat) :
    Keeps (fun state => (panel state).budget = budget) action :=
  fun before same => (budgeted.budget_eq before).trans same

theorem Budgeted.keeps_rows (budgeted : Budgeted stops action) (rows : List PanelRow) :
    Keeps (fun state => rows <+: (panel state).rows.toList) action :=
  fun before shown => shown.trans (budgeted.grows before)

theorem Budgeted.mono {others : Value → State → Prop} (budgeted : Budgeted stops action)
    (implies : ∀ value state, stops value state → others value state) :
    Budgeted others action where
  budget_eq := budgeted.budget_eq
  fits := budgeted.fits
  grows := budgeted.grows
  agrees state room larger := by
    have agree := budgeted.agrees state room larger
    generalize action (inRoom room state) = outcome at agree ⊢
    generalize action state = result at agree ⊢
    cases agree with
    | same => exact .same result
    | cut stopped full shown => exact .cut (implies _ _ stopped) full shown

theorem SparesPanel.budgeted (spares : SparesPanel action) : Budgeted stops action where
  budget_eq state := by rw [spares.panel_eq]
  fits state fits := by rwa [spares.panel_eq]
  grows state := by simp only [spares.panel_eq, List.prefix_rfl]
  agrees state room _ := by
    have same : action (inRoom room state) = mapState (inRoom room) (action state) := by
      have kept := spares.panel_eq state
      rw [inRoom, spares state]
      cases ran : action state with
      | ok value after =>
        rw [ran] at kept
        exact congrArg (EStateM.Result.ok value) (by rw [inRoom, ← kept]; rfl)
      | error failure after =>
        rw [ran] at kept
        exact congrArg (EStateM.Result.error failure) (by rw [inRoom, ← kept]; rfl)
    rw [same]
    exact .same _

/-- What follows a look at everything but the panel is cut short as it is. -/
theorem budgeted_get_bind {next : State → EStateM Failure State Value}
    (same : ∀ state other, next (withPanel state other) = next state)
    (budgeted : ∀ state, Budgeted stops (next state)) :
    Budgeted stops ((get : EStateM Failure State State) >>= next) where
  budget_eq state := (budgeted state).budget_eq state
  fits state := (budgeted state).fits state
  grows state := (budgeted state).grows state
  agrees state room larger := by
    rw [bind_get, bind_get, inRoom, same]
    exact (budgeted state).agrees state room larger

/-- Where the first action stops, the second one has to do nothing but stop as well. -/
theorem Budgeted.bind (first : Budgeted stops action)
    (second : ∀ value, Budgeted stopsBehind (next value))
    (stopping : ∀ value state, stops value state → ∃ last after,
      next value state = .ok last after ∧ stopsBehind last after ∧ panel after = panel state) :
    Budgeted stopsBehind (action >>= next) where
  budget_eq state :=
    keeps_bind (first.keeps_budget _) (fun value => (second value).keeps_budget _) state rfl
  fits := keeps_bind first.fits fun value => (second value).fits
  grows state := keeps_behind (first.grows state) fun value => (second value).keeps_rows _
  agrees state room larger := by
    have agree := first.agrees state room larger
    have budget := first.budget_eq state
    generalize long : action (inRoom room state) = outcome at agree
    generalize short : action state = result at agree budget
    cases agree with
    | same result =>
      cases result with
      | ok value after =>
        replace budget : (panel after).budget = (panel state).budget := budget
        rw [bind_of_ok short, bind_of_ok long, ← budget]
        exact (second value).agrees after room (budget ▸ larger)
      | error failure after =>
        rw [bind_of_error short, bind_of_error long]
        exact .same (.error failure after)
    | @cut value after outcome stopped full shown =>
      obtain ⟨last, behind, done, stoppedBehind, panel_eq⟩ := stopping value after stopped
      rw [bind_of_ok short, done]
      refine .cut stoppedBehind (panel_eq ▸ full) ?_
      rw [panel_eq]
      exact keeps_behind (long ▸ shown) fun value => (second value).keeps_rows _

/-- Writing on the panel is cut short where it does not fit; besides, the state may be marked with
whether it did. -/
theorem budgeted_writing {rows : Panel → Bool × Panel} (writing : Panel.Writing rows)
    (mark : Bool → State → State) {write : EStateM Failure State Bool}
    (beside : ∀ fitted state other,
      mark fitted (withPanel state other) = withPanel (mark fitted state) other)
    (written : ∀ state, write state =
      .ok (rows (panel state)).1
        (mark (rows (panel state)).1 (withPanel state (rows (panel state)).2))) :
    Budgeted (fun fitted state => fitted = false ∧ ∃ before, state = mark false before) write where
  budget_eq state := by
    rw [written, left, beside, panel_withPanel, writing.budget_eq]
  fits state fits := by
    rw [written, left, beside, panel_withPanel]
    exact writing.fits _ fits
  grows state := by
    rw [written, left, beside, panel_withPanel]
    exact writing.grows _
  agrees state room larger := by
    rw [written, written, panel_inRoom]
    cases fitted : (rows (panel state)).1 with
    | true =>
      rw [writing.written _ room larger fitted, inRoom, withPanel_withPanel]
      have same : mark true (withPanel state ((rows (panel state)).2.withRoom room)) =
          inRoom room (mark true (withPanel state (rows (panel state)).2)) := by
        rw [beside, beside, inRoom, panel_withPanel, withPanel_withPanel]
      rw [same]
      exact .same (.ok true _)
    | false =>
      obtain ⟨full, shown⟩ := writing.cut _ room larger fitted
      refine .cut ⟨rfl, _, rfl⟩ ?_ ?_
      · rw [beside, panel_withPanel]
        exact full
      · rw [left, beside, beside, panel_withPanel, panel_withPanel]
        exact shown

/-! ### Rows on show -/

/-- The rows on show behind an action, unless it failed. -/
def shown : EStateM.Result Failure State Value → Except Failure (List PanelRow)
  | .ok _ state => .ok (panel state).rows.toList
  | .error failure _ => .error failure

end Action

/-- What is shown with room for a number of rows is the beginning of what is shown with more. It is
cut short only where the room is used up, but for one row at most. -/
structure CutShort {Failure : Type} (budget : Nat) (short long : Except Failure (List PanelRow)) :
    Prop where
  same_failure : ∀ failure, short = .error failure → long = .error failure
  first_rows : ∀ rows, long = .ok rows → ∃ first, short = .ok first ∧ first <+: rows ∧
    first.length ≤ budget ∧ (first = rows ∨ budget - 1 ≤ first.length)

/-- An action that stops where its rows do not fit shows the first ones of the rows that it shows
with more room. -/
theorem Action.Budgeted.cutShort {Failure State Value : Type} [HasPanel State]
    {stops : Value → State → Prop} {action : EStateM Failure State Value}
    (budgeted : Budgeted stops action) (state : State) (fits : (HasPanel.panel state).Fits)
    {room : Nat} (larger : (HasPanel.panel state).budget ≤ room) :
    CutShort (HasPanel.panel state).budget (shown (action state))
      (shown (action (inRoom room state))) := by
  have agree := budgeted.agrees state room larger
  have budget := budgeted.budget_eq state
  have within := budgeted.fits state fits
  generalize action (inRoom room state) = outcome at agree ⊢
  generalize action state = result at agree budget within ⊢
  rw [Panel.Fits, budget] at within
  cases agree with
  | same =>
    cases result with
    | ok value after =>
      refine ⟨nofun, fun rows all => ?_⟩
      have same : (HasPanel.panel after).rows.toList = rows := by
        rw [← Except.ok.inj all, panel_inRoom]
        rfl
      exact ⟨_, rfl, same ▸ List.prefix_rfl, within, .inl same⟩
    | error failure after => exact ⟨fun _ failed => failed, nofun⟩
  | @cut value after _ stopped full first =>
    refine ⟨nofun, fun rows all => ?_⟩
    cases outcome with
    | ok value last =>
      rw [← Except.ok.inj all]
      refine ⟨_, rfl, first, within, .inr ?_⟩
      rw [Array.length_toList]
      omega
    | error failure last => cases all

end HexEditor
