/-
Assembling a program part by part. As long as all labels have different names, a program
fails only at a statement that has no instruction under any labels, and the first of these
is the one reported. Otherwise every part becomes its own instructions wherever it stands,
so that the parts can be looked at one by one.
-/

import HexEditor.Proofs.Program.Boundaries

namespace HexEditor

namespace Statement

variable {program first second rest : List Statement} {statement : Statement} {offset : Nat}
  {labels : Labels} {position : Nat} {code firstCode secondCode : List Instruction}
  {instruction : Instruction} {name : String}

/-! ### Failures -/

/-- Why a statement has no instruction under any labels. -/
def failure? (statement : Statement) : Option AssemblyFailure :=
  match statement.length with
  | .ok _ => none
  | .error failure => some failure

theorem failure?_of_error {failure : AssemblyFailure}
    (failed : statement.settled.instruction? [] 0 = .error failure) :
    statement.failure? = some failure := by
  rw [failure?, Statement.length, failed]
  rfl

/-- The names of the labels that statements set, in order. -/
def labelNames (program : List Statement) : List String :=
  program.filterMap fun
    | label name => some name
    | _ => none

@[simp] theorem labelNames_nil : labelNames [] = [] := rfl

@[simp] theorem labelNames_label (name : String) (rest : List Statement) :
    labelNames (label name :: rest) = name :: labelNames rest := rfl

theorem labelNames_cons (noLabel : ∀ name, statement ≠ label name) (rest : List Statement) :
    labelNames (statement :: rest) = labelNames rest := by
  cases statement with
  | label name => exact absurd rfl (noLabel name)
  | _ => rfl

@[simp] theorem labelNames_append (first second : List Statement) :
    labelNames (first ++ second) = labelNames first ++ labelNames second :=
  List.filterMap_append

/-- Labels with different names are all found, unless some statement has no instruction. -/
theorem findLabels_of_nodup {known : Labels} (apart : (labelNames program).Nodup)
    (fresh : ∀ name ∈ labelNames program, known.lookup name = none) (position : Nat) :
    match program.findSome? failure? with
    | some failure => findLabels known position program = .error failure
    | none => ∃ labels, findLabels known position program = .ok labels := by
  induction program generalizing known position with
  | nil => exact ⟨known, rfl⟩
  | cons statement rest inductionHypothesis =>
    by_cases isLabel : ∃ name, statement = label name
    · obtain ⟨name, rfl⟩ := isLabel
      rw [labelNames_label, List.nodup_cons] at apart
      rw [labelNames_label, List.forall_mem_cons] at fresh
      have still : ∀ other ∈ labelNames rest,
          List.lookup other ((name, position) :: known) = none := by
        intro other member
        have different : other ≠ name := fun same => apart.1 (same ▸ member)
        rw [List.lookup_cons, beq_eq_false_iff_ne.2 different]
        exact fresh.2 other member
      have found : findLabels known position (label name :: rest) =
          findLabels ((name, position) :: known) position rest := by
        rw [findLabels, fresh.1]
      rw [found]
      exact inductionHypothesis apart.2 still position
    · have noLabel : ∀ name, statement ≠ label name := fun name same => isLabel ⟨name, same⟩
      have found : findLabels known position (statement :: rest) =
          match statement.length with
          | .ok length => findLabels known (position + length) rest
          | .error failure => .error failure := by
        cases statement with
        | label name => exact absurd rfl (noLabel name)
        | _ => rfl
      rw [labelNames_cons noLabel] at apart fresh
      rw [List.findSome?_cons, failure?, found]
      cases long : statement.length with
      | error failure => rfl
      | ok length => exact inductionHypothesis apart fresh (position + length)

/-! ### Parts -/

theorem IsAt.append_left (isAt : IsAt first offset statement) (second : List Statement) :
    IsAt (first ++ second) offset statement := by
  obtain ⟨before, after, rfl, rfl⟩ := isAt
  exact ⟨before, after ++ second, by simp, rfl⟩

theorem IsAt.append_right (isAt : IsAt second offset statement) (first : List Statement) :
    IsAt (first ++ second) (widthAll first + offset) statement := by
  obtain ⟨before, after, rfl, rfl⟩ := isAt
  exact ⟨first ++ before, after, by simp, by simp⟩

theorem placeStatements_append (placed : placeStatements labels position first = .ok firstCode)
    (behind : placeStatements labels (position + widthAll first) second = .ok secondCode) :
    placeStatements labels position (first ++ second) = .ok (firstCode ++ secondCode) := by
  fun_induction placeStatements labels position first generalizing firstCode with
  | case1 =>
    cases placed
    exact behind
  | case2 => cases placed
  | case3 position statement rest found inductionHypothesis =>
    have width : statement.width = 0 := (length_of_instruction? found).symm
    rw [widthAll_cons, width, Nat.zero_add] at behind
    rw [List.cons_append, placeStatements, found]
    exact inductionHypothesis placed behind
  | case4 position statement rest instruction found inductionHypothesis =>
    have width : instruction.encode.length = statement.width := length_of_instruction? found
    cases placedRest : placeStatements labels (position + instruction.encode.length) rest with
    | error failure =>
      rw [placedRest] at placed
      cases placed
    | ok others =>
      rw [placedRest] at placed
      cases placed
      rw [widthAll_cons, ← width, ← Nat.add_assoc] at behind
      rw [List.cons_append, placeStatements, found]
      dsimp only
      rw [inductionHypothesis placedRest behind]
      rfl

/-- A statement has the same instruction wherever it stands and whatever labels there are. -/
def AlwaysMeans (statement : Statement) (instruction : Instruction) : Prop :=
  ∀ labels position, statement.instruction? labels position = .ok (some instruction)

/-- A jump to a label means nothing without that label, so it is none of these statements. -/
theorem AlwaysMeans.failure?_eq_none (means : statement.AlwaysMeans instruction) :
    statement.failure? = none := by
  have settled : statement.settled = statement := by
    cases statement with
    | jump condition target =>
      cases target with
      | distance value => rfl
      | label name => cases means [] 0
    | _ => rfl
  rw [failure?, Statement.length, settled, means]
  rfl

/-- Statements become instructions wherever they stand, as long as the labels that they set are known
there. -/
structure Become (program : List Statement) (code : List Instruction) : Prop where
  sound : program.findSome? failure? = none
  placed : ∀ labels position,
    (∀ offset name, IsAt program offset (label name) →
      labels.lookup name = some (position + offset)) →
    placeStatements labels position program = .ok code

theorem become_nil : Become [] [] := ⟨rfl, fun _ _ _ => rfl⟩

theorem Become.append (here : Become first firstCode) (behind : Become second secondCode) :
    Become (first ++ second) (firstCode ++ secondCode) := by
  refine ⟨?_, fun labels position known => ?_⟩
  · rw [List.findSome?_append, here.sound, behind.sound]
    rfl
  · refine placeStatements_append (here.placed labels position fun offset name isAt => ?_)
      (behind.placed labels _ fun offset name isAt => ?_)
    · exact known offset name (isAt.append_left second)
    · rw [Nat.add_assoc]
      exact known _ name (isAt.append_right first)

/-- Behind statements that become instructions the first failure is that of the rest. -/
theorem Become.findSome?_append (here : Become first firstCode) (second : List Statement) :
    (first ++ second).findSome? failure? = second.findSome? failure? := by
  rw [List.findSome?_append, here.sound]
  rfl

theorem AlwaysMeans.become_cons (means : statement.AlwaysMeans instruction)
    (behind : Become rest code) : Become (statement :: rest) (instruction :: code) := by
  have here : Become [statement] [instruction] := by
    refine ⟨?_, fun labels position _ => ?_⟩
    · rw [List.findSome?_singleton, means.failure?_eq_none]
    · rw [placeStatements, means]
      rfl
  exact here.append behind

/-- A jump over statements to a label behind them holds the distance to their end. -/
theorem Become.jumpOver (become : Become program code) (condition : JumpCondition)
    (name : String) :
    Become (.jump condition (.label name) :: program ++ [label name])
      (.jump condition (UInt64.ofNat (9 + (encodeAll code).length)) :: code) := by
  refine ⟨?_, fun labels position known => ?_⟩
  · rw [List.findSome?_append, List.findSome?_cons, become.sound]
    rfl
  · let jump : Statement := .jump condition (.label name)
    have target : labels.lookup name = some (position + (9 + widthAll program)) :=
      known _ name ⟨jump :: program, [], by rw [List.cons_append], by rw [widthAll_cons]; rfl⟩
    have body : placeStatements labels (position + 9) (program ++ [label name]) =
        .ok (code ++ []) := by
      refine placeStatements_append (become.placed labels _ fun offset other isAt => ?_) rfl
      have inside : IsAt (jump :: program ++ [label name]) (9 + offset) (label other) :=
        (isAt.append_right [jump]).append_left [label name]
      rw [Nat.add_assoc]
      exact known _ other inside
    rw [List.append_nil] at body
    have far : (encodeAll code).length = widthAll program := by
      rw [length_of_placeStatements body, widthAll_append]
      rfl
    have distance : ((position + (9 + widthAll program) : Nat) : Int) - position =
        (9 + (encodeAll code).length : Nat) := by omega
    have width (distance : UInt64) : (Instruction.jump condition distance).encode.length = 9 :=
      congrArg (· + 1) (length_wordBytes distance)
    rw [List.cons_append, placeStatements, instruction?, target]
    dsimp only
    rw [distance, word_natCast, width, body]
    rfl

/-- A program becomes bytes if its labels have different names and its statements instructions. -/
theorem Become.assemble_eq (become : Become program code) (apart : (labelNames program).Nodup) :
    assemble program = .ok (encodeAll code) := by
  have found := findLabels_of_nodup apart (fun _ _ => List.lookup_nil) 0
  rw [become.sound] at found
  obtain ⟨labels, found⟩ := found
  have placed : placeStatements labels 0 program = .ok code := by
    refine become.placed labels 0 fun offset name isAt => ?_
    exact (lookup_findLabels found name _).2 (.inr ⟨offset, isAt, rfl⟩)
  rw [assemble, found]
  dsimp only
  rw [placed]
  rfl

/-- A program whose labels have different names fails at its first statement that has no instruction. -/
theorem assemble_of_failure {failure : AssemblyFailure} (apart : (labelNames program).Nodup)
    (failed : program.findSome? failure? = some failure) :
    assemble program = .error failure := by
  have found := findLabels_of_nodup apart (fun _ _ => List.lookup_nil) 0
  rw [failed] at found
  rw [assemble, found]

end Statement

end HexEditor
