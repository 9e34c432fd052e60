/-
How the rows of a panel stand. A header is two rows, and separators set it off from values
before it; the panel remembers only whether it has to write one. Every entry that fits keeps
the rows in order, so that another one may follow it. A header that does not fit may leave
its separator behind: then the rows are still well nested, but nothing may follow them. As
programs and layouts stop at the first entry that does not fit, nothing does.
-/

import HexEditor.Proofs.Panel.Budget
import Mathlib.Data.List.Chain

namespace HexEditor

/-! ### Rows in order -/

/-- Rows of a panel in which every header and every separator is in its place. -/
structure WellNested (rows : List PanelRow) : Prop where
  /-- Behind a header stands its second row. -/
  padded : ∀ front row behind, rows = front ++ row :: behind → row.kind = .header →
    ∃ pad, behind.head? = some pad ∧ pad.kind = .headerPad ∧ pad.level = row.level
  /-- The second row of a header stands behind the first one. -/
  headed : ∀ front row behind, rows = front ++ row :: behind → row.kind = .headerPad →
    ∃ header, front.getLast? = some header ∧ header.kind = .header ∧ header.level = row.level
  /-- A separator stands between a value and a header, or it is the last row. -/
  separates : ∀ front row behind, rows = front ++ row :: behind → row.kind = .separator →
    (∃ value, front.getLast? = some value ∧ value.kind = .value) ∧
      (behind = [] ∨ ∃ header, behind.head? = some header ∧ header.kind = .header)
  /-- A header is the first row, or stands behind a separator or another header. -/
  opened : ∀ front row behind, rows = front ++ row :: behind → row.kind = .header →
    front = [] ∨ ∃ before, front.getLast? = some before ∧
      (before.kind = .separator ∨ before.kind = .headerPad)

/-- Whether a row may stand in front of another one. -/
inductive PanelRow.Precedes (row next : PanelRow) : Prop where
  | values (here : row.kind = .value) (behind : next.kind = .value)
  | closing (here : row.kind = .value) (behind : next.kind = .separator)
  | opening (here : row.kind = .separator) (behind : next.kind = .header)
  | heading (here : row.kind = .header) (behind : next.kind = .headerPad)
      (level : next.level = row.level)
  | content (here : row.kind = .headerPad) (behind : next.kind = .value)
  | nested (here : row.kind = .headerPad) (behind : next.kind = .header)

namespace PanelRow.Precedes

variable {row next : PanelRow}

theorem pad_of_header (precedes : row.Precedes next) (here : row.kind = .header) :
    next.kind = .headerPad ∧ next.level = row.level := by
  cases precedes with
  | heading _ behind level => exact ⟨behind, level⟩
  | values other | closing other | opening other | content other | nested other =>
    cases here.symm.trans other

theorem header_of_pad (precedes : row.Precedes next) (here : next.kind = .headerPad) :
    row.kind = .header ∧ row.level = next.level := by
  cases precedes with
  | heading before _ level => exact ⟨before, level.symm⟩
  | values _ other | closing _ other | opening _ other | content _ other | nested _ other =>
    cases here.symm.trans other

theorem value_of_separator (precedes : row.Precedes next) (here : next.kind = .separator) :
    row.kind = .value := by
  cases precedes with
  | closing before => exact before
  | values _ other | opening _ other | heading _ other | content _ other | nested _ other =>
    cases here.symm.trans other

theorem header_of_separator (precedes : row.Precedes next) (here : row.kind = .separator) :
    next.kind = .header := by
  cases precedes with
  | opening _ behind => exact behind
  | values other | closing other | heading other | content other | nested other =>
    cases here.symm.trans other

theorem before_header (precedes : row.Precedes next) (here : next.kind = .header) :
    row.kind = .separator ∨ row.kind = .headerPad := by
  cases precedes with
  | opening before => exact .inl before
  | nested before => exact .inr before
  | values _ other | closing _ other | heading _ other | content _ other =>
    cases here.symm.trans other

end PanelRow.Precedes

/-- The upper edge of a panel, behind which the same rows may stand as behind a header. -/
def upperEdge : PanelRow := ⟨.headerPad, "", 0⟩

/-- Rows that may stand behind one another from the upper edge on, and do not end within a header,
are well nested. -/
theorem wellNested_of_isChain {rows : List PanelRow}
    (chain : (upperEdge :: rows).IsChain PanelRow.Precedes)
    (whole : ∀ last, rows.getLast? = some last → last.kind ≠ .header) : WellNested rows := by
  have edge : upperEdge.kind = .headerPad := rfl
  have next (front : List PanelRow) (row : PanelRow) (behind : List PanelRow)
      (split : rows = front ++ row :: behind) {other : PanelRow}
      (head : behind.head? = some other) : row.Precedes other := by
    subst split
    have parts := (List.isChain_append.1 (List.isChain_cons.1 chain).2).2.1
    exact (List.isChain_cons.1 parts).1 other head
  have before (front : List PanelRow) (row : PanelRow) (behind : List PanelRow)
      (split : rows = front ++ row :: behind) :
      ∃ other, (upperEdge :: front).getLast? = some other ∧ other.Precedes row := by
    subst split
    rw [← List.cons_append] at chain
    have last := List.getLast?_eq_some_getLast (List.cons_ne_nil upperEdge front)
    exact ⟨_, last, (List.isChain_append.1 chain).2.2 _ last row rfl⟩
  -- what stands in front of a row is the edge or another row
  have inside {front : List PanelRow} {other : PanelRow}
      (last : (upperEdge :: front).getLast? = some other) (noEdge : other.kind ≠ .headerPad) :
      front.getLast? = some other := by
    cases front with
    | nil => exact absurd (Option.some.inj last ▸ edge) noEdge
    | cons first rest => rwa [List.getLast?_cons_cons] at last
  refine ⟨fun front row behind split here => ?_, fun front row behind split here => ?_,
    fun front row behind split here => ⟨?_, ?_⟩, fun front row behind split here => ?_⟩
  · cases behind with
    | nil =>
      exact absurd here (whole row (by rw [split, List.getLast?_append, List.getLast?_singleton,
        Option.some_or]))
    | cons pad rest =>
      exact ⟨pad, rfl, (next front row (pad :: rest) split rfl).pad_of_header here⟩
  · obtain ⟨other, last, precedes⟩ := before front row behind split
    obtain ⟨kind, level⟩ := precedes.header_of_pad here
    exact ⟨other, inside last (by rw [kind]; decide), kind, level⟩
  · obtain ⟨other, last, precedes⟩ := before front row behind split
    have kind := precedes.value_of_separator here
    exact ⟨other, inside last (by rw [kind]; decide), kind⟩
  · cases behind with
    | nil => exact .inl rfl
    | cons header rest =>
      have precedes := next front row (header :: rest) split rfl
      exact .inr ⟨header, rfl, precedes.header_of_separator here⟩
  · cases front with
    | nil => exact .inl rfl
    | cons first rest =>
      obtain ⟨other, last, precedes⟩ := before (first :: rest) row behind split
      rw [List.getLast?_cons_cons] at last
      exact .inr ⟨other, last, precedes.before_header here⟩

namespace Panel

/-- A panel on which everything fitted so far: its rows are in order, and the last one is what the
panel takes it for. -/
structure Settled (panel : Panel) : Prop where
  inOrder : (upperEdge :: panel.rows.toList).IsChain PanelRow.Precedes
  last : ∃ last, (upperEdge :: panel.rows.toList).getLast? = some last ∧
    last.kind = if panel.afterHeader then .headerPad else .value

theorem settled_ofRows (rows : Int) : (ofRows rows).Settled :=
  ⟨List.isChain_singleton _, upperEdge, rfl, rfl⟩

theorem Settled.wellNested {panel : Panel} (settled : panel.Settled) :
    WellNested panel.rows.toList := by
  refine wellNested_of_isChain settled.inOrder fun last here => ?_
  obtain ⟨other, same, kind⟩ := settled.last
  cases rows : panel.rows.toList with
  | nil =>
    rw [rows] at here
    cases here
  | cons first rest =>
    rw [rows, List.getLast?_cons_cons, ← rows, here] at same
    rw [Option.some.inj same, kind]
    split <;> decide

theorem toList_push (panel : Panel) (row : PanelRow) :
    (panel.push row).rows.toList = panel.rows.toList ++ [row] :=
  Array.toList_push

/-- A row that may follow the last one is added to rows in order. -/
theorem isChain_push {rows : List PanelRow} {last row : PanelRow}
    (inOrder : (upperEdge :: rows).IsChain PanelRow.Precedes)
    (here : (upperEdge :: rows).getLast? = some last) (precedes : last.Precedes row) :
    (upperEdge :: (rows ++ [row])).IsChain PanelRow.Precedes := by
  rw [← List.cons_append]
  refine List.isChain_append.2 ⟨inOrder, List.isChain_singleton row, fun other same next head => ?_⟩
  cases head
  rw [here] at same
  cases same
  exact precedes

theorem getLast?_push (rows : List PanelRow) (row : PanelRow) :
    (upperEdge :: (rows ++ [row])).getLast? = some row := by
  rw [← List.cons_append, List.getLast?_append, List.getLast?_singleton, Option.some_or]

/-- What is left of a settled panel by writing: the rows are well nested in any case, and the panel
is settled again if what was written fitted. -/
def Nests (written : Bool × Panel) : Prop :=
  WellNested written.2.rows.toList ∧ (written.1 = true → written.2.Settled)

theorem Settled.nests {panel : Panel} {fitted : Bool} (settled : panel.Settled) :
    Nests (fitted, panel) :=
  ⟨settled.wellNested, fun _ => settled⟩

theorem Settled.value {panel : Panel} (settled : panel.Settled) (name text : String) :
    Nests (panel.value name text) := by
  rw [Panel.value]
  split
  · exact settled.nests
  · obtain ⟨last, here, kind⟩ := settled.last
    have precedes : last.Precedes ⟨.value, name ++ ": " ++ text, 0⟩ := by
      cases header : panel.afterHeader with
      | true => exact .content (by rw [kind, header]; rfl) rfl
      | false => exact .values (by rw [kind, header]; rfl) rfl
    refine Settled.nests ⟨?_, ⟨.value, name ++ ": " ++ text, 0⟩, ?_, rfl⟩
    · exact toList_push panel _ ▸ isChain_push settled.inOrder here precedes
    · exact toList_push panel _ ▸ getLast?_push _ _

/-- The rows of a header are written behind the upper edge, another header or a separator. -/
theorem nests_headerRows {panel : Panel} {last : PanelRow}
    (inOrder : (upperEdge :: panel.rows.toList).IsChain PanelRow.Precedes)
    (here : (upperEdge :: panel.rows.toList).getLast? = some last)
    (kind : last.kind = .headerPad ∨ last.kind = .separator)
    (nested : WellNested panel.rows.toList) (title : String) (level : Int) :
    Nests (panel.headerRows title level) := by
  rw [headerRows]
  split
  · exact ⟨nested, fun fitted => absurd fitted Bool.false_ne_true⟩
  · have precedes : last.Precedes ⟨.header, title, level⟩ := by
      rcases kind with pad | separator
      · exact .nested pad rfl
      · exact .opening separator rfl
    have first := isChain_push inOrder here precedes
    have pad : PanelRow.Precedes ⟨.header, title, level⟩ ⟨.headerPad, "", level⟩ :=
      .heading rfl rfl rfl
    have second := isChain_push first (getLast?_push _ _) pad
    refine Settled.nests ⟨?_, ⟨.headerPad, "", level⟩, ?_, rfl⟩
    · exact toList_push _ _ ▸ toList_push panel _ ▸ second
    · exact toList_push _ _ ▸ getLast?_push _ _

theorem Settled.header {panel : Panel} (settled : panel.Settled) (title : String) (level : Int) :
    Nests (panel.header title level) := by
  obtain ⟨last, here, kind⟩ := settled.last
  rw [Panel.header]
  split
  · next header =>
    rw [if_pos header] at kind
    exact nests_headerRows settled.inOrder here (.inl kind) settled.wellNested title level
  split
  · exact settled.nests
  · next content _ =>
    rw [if_neg content] at kind
    have inOrder : (upperEdge :: (panel.push ⟨.separator, "", 0⟩).rows.toList).IsChain
        PanelRow.Precedes :=
      toList_push panel _ ▸ isChain_push settled.inOrder here (.closing kind rfl)
    have behind : (upperEdge :: (panel.push ⟨.separator, "", 0⟩).rows.toList).getLast? =
        some ⟨.separator, "", 0⟩ :=
      toList_push panel _ ▸ getLast?_push _ _
    refine nests_headerRows inOrder behind (.inr rfl) (wellNested_of_isChain inOrder ?_) title level
    intro last same
    rw [toList_push, List.getLast?_append, List.getLast?_singleton, Option.some_or] at same
    rw [← Option.some.inj same]
    decide

theorem Settled.write {panel : Panel} (settled : panel.Settled) (entry : Entry) :
    Nests (entry.write panel) := by
  cases entry with
  | value name text => exact settled.value name text
  | header title level => exact settled.header title level

end Panel

/-! ### Actions that show something -/

namespace Action

open HasPanel

variable {Failure State Value : Type} [HasPanel State] {stops : Value → State → Prop}
  {action : EStateM Failure State Value}

/-- An action that begins with a settled panel leaves well-nested rows, and a settled panel unless it
stops. -/
structure Nesting (stops : Value → State → Prop) (action : EStateM Failure State Value) : Prop where
  wellNested : ∀ state, (panel state).Settled →
    WellNested (panel (left (action state))).rows.toList
  settled : ∀ state value after, (panel state).Settled → action state = .ok value after →
    stops value after ∨ (panel after).Settled

theorem SparesPanel.nesting (spares : SparesPanel action) : Nesting stops action where
  wellNested state settled := by
    rw [spares.panel_eq]
    exact settled.wellNested
  settled state value after settled done := by
    have same := spares.panel_eq state
    rw [done, left] at same
    exact .inr (same ▸ settled)

theorem Nesting.bind {Other : Type} {stopsBehind : Other → State → Prop}
    {next : Value → EStateM Failure State Other} (first : Nesting stops action)
    (second : ∀ value, Nesting stopsBehind (next value))
    (stopping : ∀ value state, stops value state → ∃ last after,
      next value state = .ok last after ∧ stopsBehind last after ∧ panel after = panel state) :
    Nesting stopsBehind (action >>= next) where
  wellNested state settled := by
    have nested := first.wellNested state settled
    cases ran : action state with
    | error failure after =>
      rw [bind_of_error ran]
      rwa [ran] at nested
    | ok value after =>
      rw [bind_of_ok ran]
      rcases first.settled state value after settled ran with stopped | kept
      · obtain ⟨last, behind, done, -, same⟩ := stopping value after stopped
        rw [ran, left] at nested
        rwa [done, left, same]
      · exact (second value).wellNested after kept
  settled state last behind settled done := by
    obtain ⟨value, after, ran, gone⟩ := ok_of_bind done
    rcases first.settled state value after settled ran with stopped | kept
    · obtain ⟨other, end_, done, stoppedBehind, -⟩ := stopping value after stopped
      rw [gone] at done
      cases done
      exact .inl stoppedBehind
    · exact (second value).settled after last behind kept gone

theorem Shows.nesting (shows : Shows stops action) : Nesting stops action := by
  induction shows with
  | spares spares => exact spares.nesting
  | write entry mark beside written stopped =>
    refine ⟨fun state settled => ?_, fun state fitted after settled done => ?_⟩
    · rw [written, left, beside, panel_withPanel]
      exact (settled.write entry).1
    · rw [written] at done
      cases done
      cases fits : (entry.write (panel state)).1 with
      | false => exact .inl (stopped _)
      | true =>
        rw [beside, panel_withPanel]
        exact .inr ((settled.write entry).2 fits)
  | look _ _ inductionHypothesis =>
    exact ⟨fun state => (inductionHypothesis state).wellNested state,
      fun state => (inductionHypothesis state).settled state⟩
  | bind _ _ stopping first second => exact first.bind second stopping

/-- The rows that an action leaves on an empty panel fit into it and are well nested. -/
theorem Shows.wellNested_left (shows : Shows stops action) {state : State} {rows : Int}
    (empty : panel state = .ofRows rows) :
    (panel (left (action state))).rows.size ≤ rows.toNat ∧
      WellNested (panel (left (action state))).rows.toList := by
  have within := shows.budgeted.fits state (empty ▸ Nat.zero_le rows.toNat)
  rw [Panel.Fits, shows.budgeted.budget_eq, empty] at within
  exact ⟨within, shows.nesting.wellNested state (empty ▸ Panel.settled_ofRows rows)⟩

end Action

open HexEditor.Action

/-- The rows beside the bytes are well nested. A program that is run with any limit on its steps,
and a layout that is decoded, whether they fail or not, leave no more rows than there is room for;
and among those, headers have their second rows, separators stand between values and headers, and
headers are set off from what is before them. -/
theorem rows_wellNested (rows : Int) :
    (∀ setting limit,
      (left (Machine.run setting rows limit)).panel.rows.size ≤ rows.toNat ∧
        WellNested (left (Machine.run setting rows limit)).panel.rows.toList) ∧
      ∀ (root : Node) reader cursor,
        let walked := left (Decoding.walk reader cursor 0 [] root { panel := .ofRows rows })
        walked.panel.rows.size ≤ rows.toNat ∧ WellNested walked.panel.rows.toList ∧
          ∀ lines values, root.decode reader cursor rows = .ok (lines, values) →
            lines = walked.panel.rows.toList := by
  refine ⟨fun setting limit => ?_, fun root reader cursor => ?_⟩
  · exact (Machine.shows_runSteps setting limit limit.toNat).wellNested_left rfl
  · have empty : HasPanel.panel ({ panel := .ofRows rows } : DecodingProgress) = .ofRows rows := rfl
    have nested := (Decoding.shows_walk reader cursor 0 [] root).wellNested_left empty
    refine ⟨nested.1, nested.2, fun lines values decoded => ?_⟩
    rw [Node.decode] at decoded
    split at decoded
    · next walked =>
      rw [walked, left]
      exact (congrArg Prod.fst (Except.ok.inj decoded)).symm
    · cases decoded

/-- A separator is the last row where the header behind it does not fit. -/
example : (Node.decode (.folder "f" [.value "v" (.absolute 0) (.text true (some 0)),
      .folder "g" []]) .refusing 0 5).map Prod.fst =
    .ok [⟨.header, "f", 0⟩, ⟨.headerPad, "", 0⟩, ⟨.value, "v: ", 0⟩, ⟨.separator, "", 0⟩] := by
  cbv

end HexEditor
