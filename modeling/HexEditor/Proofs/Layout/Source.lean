/-
Layouts that have a program. Compiling a layout is writing a source program for it and
assembling that: behind the code that mends an integer stands a label with a number of its
own, so no name is set twice, and the jump to it is one over the mending code. What is in
the way of a program is an integer of a width that no instruction loads, or a folder whose
depth is more than a byte holds; the first of these that the compiler meets is reported.
-/

import HexEditor.Proofs.Layout.Definition
import HexEditor.Proofs.Program.Labels

namespace HexEditor

/-! ### Obstacles -/

mutual

/-- What keeps a layout at a depth from being compiled, in the order of its nodes. -/
def Node.obstacles (depth : Nat) : Node → List CompilationFailure
  | .folder _ children =>
    (if depth < 256 then [] else [.tooDeep depth]) ++ nodesObstacles (depth + 1) children
  | .value name _ (.integer kind) =>
    if kind.width ∈ [1, 2, 4, 8] then [] else [.noLoad name kind.width]
  | .value _ _ (.text _ _) => []

def nodesObstacles (depth : Nat) : List Node → List CompilationFailure
  | [] => []
  | node :: rest => node.obstacles depth ++ nodesObstacles depth rest

end

/-- A single node at a depth keeps a layout from being compiled. -/
inductive Node.Obstructs (depth : Nat) : Node → CompilationFailure → Prop where
  | tooDeep (name : String) (children : List Node) (deep : 256 ≤ depth) :
      Obstructs depth (.folder name children) (.tooDeep depth)
  | noLoad (name : String) (anchor : Anchor) (kind : IntegerKind)
      (odd : kind.width ∉ [1, 2, 4, 8]) :
      Obstructs depth (.value name anchor (.integer kind)) (.noLoad name kind.width)

variable {depth : Nat} {failure : CompilationFailure}

mutual

theorem Node.mem_obstacles_iff (depth : Nat) (node : Node) :
    failure ∈ node.obstacles depth ↔
      ∃ level inner, node.Holds level inner ∧ inner.Obstructs (depth + level) failure := by
  cases node with
  | folder name children =>
    rw [Node.obstacles, List.mem_append, mem_nodesObstacles_iff (depth + 1) children]
    constructor
    · rintro (top | ⟨child, member, level, inner, holds, obstructs⟩)
      · split at top
        · cases top
        · next deep =>
          rw [List.mem_singleton.1 top]
          exact ⟨0, _, .here _, .tooDeep name children (Nat.not_lt.1 deep)⟩
      · rw [Nat.add_assoc, Nat.add_comm 1] at obstructs
        exact ⟨level + 1, inner, .inside name member holds, obstructs⟩
    · rintro ⟨level, inner, holds, obstructs⟩
      cases holds with
      | here =>
        cases obstructs with
        | tooDeep _ _ deep =>
          rw [Nat.add_zero] at deep
          rw [if_neg (Nat.not_lt.2 deep)]
          exact .inl (List.mem_singleton.2 rfl)
      | @inside _ _ child _ level member holds =>
        rw [Nat.add_comm level, ← Nat.add_assoc] at obstructs
        exact .inr ⟨child, member, level, inner, holds, obstructs⟩
  | value name anchor kind =>
    constructor
    · intro member
      refine ⟨0, _, .here _, ?_⟩
      cases kind with
      | integer kind =>
        rw [Node.obstacles] at member
        split at member
        · cases member
        · next odd =>
          rw [List.mem_singleton.1 member]
          exact .noLoad name anchor kind odd
      | text asciiOnly length =>
        rw [Node.obstacles] at member
        cases member
    · rintro ⟨level, inner, holds, obstructs⟩
      cases holds
      cases obstructs with
      | noLoad _ _ kind odd =>
        rw [Node.obstacles, if_neg odd]
        exact List.mem_singleton.2 rfl

theorem mem_nodesObstacles_iff (depth : Nat) (nodes : List Node) :
    failure ∈ nodesObstacles depth nodes ↔
      ∃ node ∈ nodes, ∃ level inner,
        node.Holds level inner ∧ inner.Obstructs (depth + level) failure := by
  cases nodes with
  | nil =>
    rw [nodesObstacles]
    simp
  | cons node rest =>
    rw [nodesObstacles, List.mem_append, Node.mem_obstacles_iff depth node,
      mem_nodesObstacles_iff depth rest]
    simp

end

/-- There is a load for the widths that are a power of two, up to the one of a word. -/
theorem LoadWidth.ofBytes?_eq_none_iff {width : Nat} :
    LoadWidth.ofBytes? width = none ↔ width ∉ [1, 2, 4, 8] := by
  simp only [LoadWidth.ofBytes?, List.mem_cons, List.not_mem_nil]
  split_ifs <;> simp <;> omega

mutual

/-- Code is made of a layout that nothing obstructs, and its first obstacle is reported else. -/
theorem Node.code_outcome (depth : Nat) (order : ByteOrder) (node : Node) :
    match Node.code depth order node with
    | .ok _ => node.obstacles depth = []
    | .error failure => (node.obstacles depth).head? = some failure := by
  cases node with
  | folder name children =>
    rw [Node.code, Node.obstacles]
    by_cases shallow : depth < 256
    · have inside := nodesCode_outcome (depth + 1) order children
      rw [if_pos shallow, if_pos shallow, List.nil_append]
      cases coded : nodesCode (depth + 1) order children with
      | ok pair =>
        rw [coded] at inside
        exact inside
      | error failure =>
        rw [coded] at inside
        exact inside
    · rw [if_neg shallow, if_neg shallow]
      rfl
  | value name anchor kind =>
    cases kind with
    | integer kind =>
      rw [Node.code, Node.obstacles]
      cases wide : LoadWidth.ofBytes? kind.width with
      | none => exact congrArg List.head? (if_neg (LoadWidth.ofBytes?_eq_none_iff.1 wide))
      | some width =>
        refine if_pos (Decidable.of_not_not fun odd => ?_)
        rw [LoadWidth.ofBytes?_eq_none_iff.2 odd] at wide
        cases wide
    | text asciiOnly length =>
      rw [Node.code, Node.obstacles]

theorem nodesCode_outcome (depth : Nat) (order : ByteOrder) (nodes : List Node) :
    match nodesCode depth order nodes with
    | .ok _ => nodesObstacles depth nodes = []
    | .error failure => (nodesObstacles depth nodes).head? = some failure := by
  cases nodes with
  | nil =>
    rw [nodesCode, nodesObstacles]
  | cons node rest =>
    have first := Node.code_outcome depth order node
    rw [nodesCode, nodesObstacles]
    cases coded : Node.code depth order node with
    | error failure =>
      rw [coded] at first
      exact List.head?_append.trans (by rw [first]; rfl)
    | ok pair =>
      have behind := nodesCode_outcome depth pair.2 rest
      rw [coded] at first
      rw [first, List.nil_append]
      dsimp only [Bind.bind, Except.bind]
      cases others : nodesCode depth pair.2 rest with
      | error failure =>
        rw [others] at behind
        exact behind
      | ok last =>
        rw [others] at behind
        exact behind

end

/-- A layout is compiled as long as nothing obstructs it, and its first obstacle is reported else. -/
theorem Node.compile_outcome (root : Node) :
    match root.compile with
    | .ok _ => root.obstacles 0 = []
    | .error failure => (root.obstacles 0).head? = some failure := by
  have outcome := Node.code_outcome 0 .little root
  rw [compile, instructions]
  cases coded : Node.code 0 .little root with
  | error failure =>
    rw [coded] at outcome
    exact outcome
  | ok pair =>
    rw [coded] at outcome
    exact outcome

/-! ### Source programs -/

def Anchor.source : Anchor → List Statement
  | .absolute address => [.pushInteger address.toNat]
  | .cursor distance =>
    .plain .pushCursor :: if distance = 0 then [] else [.pushInteger distance, .plain .add]

/-- The label behind the code that mends an integer; the first one has the number one. -/
def signLabel (number : Nat) : String := "positive" ++ decimalText number

/-- Statements that are passed over, to a label behind them, where a word has no bit of a mask set. -/
def whereSetSource (mask : Int) (number : Nat) (body : List Statement) : List Statement :=
  [.plain .duplicate, .pushInteger mask, .plain .and] ++
    (.jump .zero (.label (signLabel number)) :: body ++ [.label (signLabel number)])

namespace IntegerKind

def signSource (kind : IntegerKind) (number : Nat) : List Statement :=
  let bit : Int := Nat.pow 2 (8 * kind.width - 1)
  match kind.sign with
  | .unsigned => []
  | .twosComplement => []
  | .onesComplement =>
    whereSetSource bit number [.pushInteger (2 * bit - 1), .plain .negate, .plain .add]
  | .signMagnitude =>
    whereSetSource bit number [.pushInteger (bit - 1), .plain .and, .plain .negate]

/-- How many labels the statements for an integer of a kind set. -/
def labelCount (kind : IntegerKind) : Nat :=
  match kind.sign with
  | .unsigned => 0
  | .twosComplement => 0
  | .onesComplement => 1
  | .signMagnitude => 1

/-- Statements that show an integer whose address is pushed twice, in a given byte order. -/
def source (kind : IntegerKind) (order : ByteOrder) (number : Nat) (name : String) :
    List Statement :=
  (if kind.order = order then [] else [.plain (.setOrder kind.order)]) ++
    .loadInteger kind.width (kind.sign == .twosComplement) :: kind.signSource number ++
    [.plain (.pushText name), .showInteger kind.base.value kind.signed]

end IntegerKind

/-- Statements that show a text whose address is pushed twice. -/
def textSource (asciiOnly : Bool) (length : Option Int) (name : String) : List Statement :=
  (match length with
    | some length => [.pushInteger length]
    | none => []) ++
    [.plain (.loadText asciiOnly length.isSome), .plain (.pushText name), .plain (.showText 0x00)]

/-- How far a source program has come: the labels set so far, and the byte order it is in. -/
structure SourceState where
  labels : Nat := 0
  order : ByteOrder := .little

mutual

/-- Statements that show a layout at a depth, entered in a state, and the state they are left in. -/
def Node.source (depth : Nat) (state : SourceState) : Node → List Statement × SourceState
  | .folder name children =>
    let (inner, next) := nodesSource (depth + 1) state children
    (.plain (.pushText name) :: .showHeader depth :: .plain .drop :: inner, next)
  | .value name anchor (.text asciiOnly length) =>
    (anchor.source ++ .plain .duplicate :: textSource asciiOnly length name, state)
  | .value name anchor (.integer kind) =>
    (anchor.source ++ .plain .duplicate :: kind.source state.order (state.labels + 1) name,
      { labels := state.labels + kind.labelCount, order := kind.order })

def nodesSource (depth : Nat) (state : SourceState) : List Node → List Statement × SourceState
  | [] => ([], state)
  | node :: rest =>
    let (first, next) := Node.source depth state node
    let (others, last) := nodesSource depth next rest
    (first ++ others, last)

end

/-- The source program of a layout. -/
def Node.program (root : Node) : List Statement := (root.source 0 {}).1 ++ [.plain .stop]

/-! ### Labels -/

theorem signLabel_injective : Function.Injective signLabel := numbered_injective "positive"

/-- Statements set labels with the next numbers. -/
def SourceState.Numbers (state next : SourceState) (program : List Statement) : Prop :=
  ∃ count, next.labels = state.labels + count ∧
    Statement.labelNames program = (List.range' (state.labels + 1) count).map signLabel

namespace SourceState

variable {state next last : SourceState} {first second program : List Statement}

theorem Numbers.append (here : state.Numbers next first) (behind : next.Numbers last second) :
    state.Numbers last (first ++ second) := by
  obtain ⟨count, reached, names⟩ := here
  obtain ⟨more, ended, others⟩ := behind
  refine ⟨count + more, by omega, ?_⟩
  rw [Statement.labelNames_append, names, others, reached, ← List.map_append,
    Nat.add_right_comm, List.range'_append_1]

theorem Numbers.of_none (none : Statement.labelNames program = [])
    (same : next.labels = state.labels) : state.Numbers next program :=
  ⟨0, same, none⟩

/-- Labels with different numbers have different names. -/
theorem Numbers.nodup (numbers : state.Numbers next program) :
    (Statement.labelNames program).Nodup := by
  obtain ⟨count, -, names⟩ := numbers
  rw [names]
  exact List.Nodup.map signLabel_injective List.nodup_range'

end SourceState

theorem Anchor.labelNames_source (anchor : Anchor) : Statement.labelNames anchor.source = [] := by
  cases anchor with
  | absolute address => rfl
  | cursor distance =>
    rw [source]
    split <;> rfl

theorem labelNames_textSource (asciiOnly : Bool) (length : Option Int) (name : String) :
    Statement.labelNames (textSource asciiOnly length name) = [] := by
  cases length <;> rfl

theorem IntegerKind.labelNames_signSource (kind : IntegerKind) (number : Nat) :
    Statement.labelNames (kind.signSource number) =
      (List.range' number kind.labelCount).map signLabel := by
  unfold signSource labelCount
  cases kind.sign <;> rfl

theorem IntegerKind.labelNames_source (kind : IntegerKind) (order : ByteOrder) (number : Nat)
    (name : String) :
    Statement.labelNames (kind.source order number name) =
      (List.range' number kind.labelCount).map signLabel := by
  have switch : Statement.labelNames
      (if kind.order = order then [] else [.plain (.setOrder kind.order)]) = [] := by
    split <;> rfl
  have load : Statement.labelNames
      (.loadInteger kind.width (kind.sign == .twosComplement) :: kind.signSource number) =
        Statement.labelNames (kind.signSource number) := rfl
  have shown : Statement.labelNames
      [.plain (.pushText name), .showInteger kind.base.value kind.signed] = [] := rfl
  rw [source, Statement.labelNames_append, Statement.labelNames_append, switch, load, shown,
    kind.labelNames_signSource]
  simp

mutual

theorem Node.numbers_source (depth : Nat) (state : SourceState) (node : Node) :
    state.Numbers (node.source depth state).2 (node.source depth state).1 := by
  cases node with
  | folder name children =>
    rw [Node.source]
    exact numbers_nodesSource (depth + 1) state children
  | value name anchor kind =>
    have address : state.Numbers state (anchor.source ++ [.plain .duplicate]) := by
      refine .of_none ?_ rfl
      rw [Statement.labelNames_append, anchor.labelNames_source]
      rfl
    cases kind with
    | integer kind =>
      rw [Node.source]
      have shown : state.Numbers { labels := state.labels + kind.labelCount, order := kind.order }
          (kind.source state.order (state.labels + 1) name) :=
        ⟨kind.labelCount, rfl, kind.labelNames_source _ _ name⟩
      have whole := address.append shown
      rwa [List.append_assoc] at whole
    | text asciiOnly length =>
      rw [Node.source]
      have whole := address.append
        (.of_none (labelNames_textSource asciiOnly length name) rfl)
      rwa [List.append_assoc] at whole

theorem numbers_nodesSource (depth : Nat) (state : SourceState) (nodes : List Node) :
    state.Numbers (nodesSource depth state nodes).2 (nodesSource depth state nodes).1 := by
  cases nodes with
  | nil => exact .of_none rfl rfl
  | cons node rest =>
    rw [nodesSource]
    exact (Node.numbers_source depth state node).append (numbers_nodesSource depth _ rest)

end

/-! ### Code -/

/-- What keeps the source program of a layout from being assembled where something obstructs it. -/
def CompilationFailure.cause : CompilationFailure → AssemblyFailure
  | .noLoad _ width => .noLoad width
  | .tooDeep depth => .notByte depth

open Statement

theorem alwaysMeans_plain (instruction : Instruction) :
    (Statement.plain instruction).AlwaysMeans instruction := fun _ _ => rfl

theorem alwaysMeans_pushInteger (value : Int) :
    (Statement.pushInteger value).AlwaysMeans (.pushInteger (word value)) := fun _ _ => rfl

/-- Plain statements become their instructions. -/
theorem become_plain (instructions : List Instruction) :
    Become (instructions.map .plain) instructions := by
  induction instructions with
  | nil => exact become_nil
  | cons instruction rest inductionHypothesis =>
    exact (alwaysMeans_plain instruction).become_cons inductionHypothesis

theorem alwaysMeans_loadInteger {width : LoadWidth} {bytes : Int}
    (wide : LoadWidth.ofBytes? bytes = some width) (signed : Bool) :
    (Statement.loadInteger bytes signed).AlwaysMeans (.loadInteger width signed) := by
  intro labels position
  rw [instruction?, wide]

theorem byte?_natCast {value : Nat} (small : value < 256) :
    byte? (value : Int) = some (UInt8.ofNat value) :=
  if_pos (by omega)

theorem alwaysMeans_showHeader {depth : Nat} (shallow : depth < 256) :
    (Statement.showHeader depth).AlwaysMeans (.showHeader (UInt8.ofNat depth)) := by
  intro labels position
  rw [instruction?, byte?_natCast shallow]

theorem failure?_showHeader {depth : Nat} (deep : 256 ≤ depth) :
    (Statement.showHeader depth).failure? = some (.notByte depth) := by
  have noByte : byte? (depth : Int) = none := if_neg (by omega)
  refine failure?_of_error (?_ : (Statement.showHeader depth).instruction? [] 0 = _)
  rw [instruction?, noByte]

/-- The base of an integer is a byte. -/
theorem alwaysMeans_showInteger (base : Radix) (signed : Bool) :
    (Statement.showInteger base.value signed).AlwaysMeans
      (.showInteger (if signed then 0x01 else 0x00) (UInt8.ofNat base.value)) := by
  intro labels position
  have small : base.value < 256 := Nat.lt_of_le_of_lt base.le_largest (by decide)
  rw [instruction?, byte?_natCast small]

theorem Anchor.become_source (anchor : Anchor) : Become anchor.source anchor.code := by
  cases anchor with
  | absolute address =>
    have same : word address.toNat = address := by rw [word_natCast, UInt64.ofNat_toNat]
    have pushed := (alwaysMeans_pushInteger address.toNat).become_cons become_nil
    rwa [same] at pushed
  | cursor distance =>
    refine (alwaysMeans_plain _).become_cons ?_
    by_cases here : distance = 0
    · rw [if_pos here, if_pos here]
      exact become_nil
    · rw [if_neg here, if_neg here]
      exact (alwaysMeans_pushInteger distance).become_cons (become_plain [.add])

theorem become_textSource (asciiOnly : Bool) (length : Option Int) (name : String) :
    Become (textSource asciiOnly length name) (textCode asciiOnly length name) := by
  refine Become.append ?_ (become_plain [.loadText asciiOnly length.isSome, .pushText name, _])
  cases length with
  | none => exact become_nil
  | some length => exact (alwaysMeans_pushInteger length).become_cons become_nil

theorem become_whereSetSource (mask : Int) (number : Nat) {body : List Statement}
    {code : List Instruction} (become : Become body code) :
    Become (whereSetSource mask number body) (whereSet (word mask) code) := by
  have front : Become [.plain .duplicate, .pushInteger mask, .plain .and]
      [.duplicate, .pushInteger (word mask), .and] :=
    (alwaysMeans_plain _).become_cons
      ((alwaysMeans_pushInteger mask).become_cons (become_plain [.and]))
  have distance : (Instruction.jump .zero 0).encode.length = 9 := rfl
  rw [whereSet, distance]
  exact front.append (become.jumpOver .zero (signLabel number))

theorem IntegerKind.become_signSource (kind : IntegerKind) (number : Nat) :
    Become (kind.signSource number) kind.signCode := by
  have full : word (2 * (Nat.pow 2 (8 * kind.width - 1) : Nat) - 1) = kind.fullMask := by
    have double : Nat.pow 2 (8 * kind.width) = Nat.pow 2 (8 * kind.width - 1) * 2 := by
      have bits : 8 * kind.width = 8 * kind.width - 1 + 1 := by
        have := kind.one_le_width
        omega
      exact (congrArg (Nat.pow 2) bits).trans (Nat.pow_succ ..)
    rw [fullMask, double, Int.natCast_mul, Int.mul_comm]
    rfl
  have low : word ((Nat.pow 2 (8 * kind.width - 1) : Nat) - 1) = kind.signMask - 1 :=
    (word_sub _ 1).symm
  unfold signSource signCode
  cases kind.sign with
  | unsigned => exact become_nil
  | twosComplement => exact become_nil
  | onesComplement =>
    rw [← full]
    exact become_whereSetSource _ number
      ((alwaysMeans_pushInteger _).become_cons (become_plain [.negate, .add]))
  | signMagnitude =>
    rw [← low]
    exact become_whereSetSource _ number
      ((alwaysMeans_pushInteger _).become_cons (become_plain [.and, .negate]))

theorem IntegerKind.become_switch (kind : IntegerKind) (order : ByteOrder) :
    Become (if kind.order = order then [] else [.plain (.setOrder kind.order)])
      (if kind.order = order then [] else [.setOrder kind.order]) := by
  split
  · exact become_nil
  · exact become_plain [.setOrder kind.order]

/-- The statements of an integer that there is a load for become its code. -/
theorem IntegerKind.become_source (kind : IntegerKind) {width : LoadWidth}
    (wide : LoadWidth.ofBytes? kind.width = some width) (order : ByteOrder) (number : Nat)
    (name : String) :
    Become (kind.source order number name) (kind.code width order name) := by
  have shown := (alwaysMeans_plain (.pushText name)).become_cons
    ((alwaysMeans_showInteger kind.base kind.signed).become_cons become_nil)
  have loaded := (alwaysMeans_loadInteger wide (kind.sign == .twosComplement)).become_cons
    (kind.become_signSource number)
  exact ((kind.become_switch order).append loaded).append shown

/-- The statements of an integer that there is no load for fail at the load. -/
theorem IntegerKind.findSome?_source (kind : IntegerKind)
    (wide : LoadWidth.ofBytes? kind.width = none) (order : ByteOrder) (number : Nat)
    (name : String) :
    (kind.source order number name).findSome? failure? = some (.noLoad kind.width) := by
  have failed : (Statement.loadInteger kind.width (kind.sign == .twosComplement)).failure? =
      some (.noLoad kind.width) := by
    refine failure?_of_error (?_ : (Statement.loadInteger kind.width _).instruction? [] 0 = _)
    rw [instruction?, wide]
  rw [source, List.append_assoc, (kind.become_switch order).findSome?_append, List.cons_append,
    List.findSome?_cons, failed]

/-- Statements become the code that was made, or fail where none was. -/
def Realizes (outcome : Except CompilationFailure (List Instruction × ByteOrder))
    (written : List Statement × SourceState) : Prop :=
  match outcome with
  | .ok (code, order) => written.2.order = order ∧ Become written.1 code
  | .error failure => written.1.findSome? failure? = some failure.cause

mutual

theorem Node.realizes_source (depth : Nat) (state : SourceState) (node : Node) :
    Realizes (Node.code depth state.order node) (node.source depth state) := by
  cases node with
  | folder name children =>
    rw [Node.code, Node.source]
    by_cases shallow : depth < 256
    · have inside := realizes_nodesSource (depth + 1) state children
      rw [if_pos shallow]
      have header {rest : List Statement} {code : List Instruction} (behind : Become rest code) :=
        (alwaysMeans_plain (.pushText name)).become_cons
          ((alwaysMeans_showHeader shallow).become_cons
            ((alwaysMeans_plain .drop).become_cons behind))
      cases coded : nodesCode (depth + 1) state.order children with
      | ok pair =>
        rw [coded] at inside
        exact ⟨inside.1, header inside.2⟩
      | error failure =>
        rw [coded] at inside
        exact ((header become_nil).findSome?_append _).trans inside
    · rw [if_neg shallow]
      refine ((become_plain [.pushText name]).findSome?_append
        (.showHeader depth :: .plain .drop :: (nodesSource (depth + 1) state children).1)).trans ?_
      rw [List.findSome?_cons, failure?_showHeader (Nat.not_lt.1 shallow)]
      rfl
  | value name anchor kind =>
    cases kind with
    | integer kind =>
      rw [Node.code, Node.source]
      have front := anchor.become_source.append (become_plain [.duplicate])
      cases wide : LoadWidth.ofBytes? kind.width with
      | none =>
        have failed := kind.findSome?_source wide state.order (state.labels + 1) name
        rw [← front.findSome?_append, List.append_assoc] at failed
        exact failed
      | some width =>
        have whole := front.append (kind.become_source wide state.order (state.labels + 1) name)
        rw [List.append_assoc, List.append_assoc] at whole
        exact ⟨rfl, whole⟩
    | text asciiOnly length =>
      rw [Node.code, Node.source]
      refine ⟨rfl, anchor.become_source.append ?_⟩
      exact (alwaysMeans_plain .duplicate).become_cons (become_textSource asciiOnly length name)

theorem realizes_nodesSource (depth : Nat) (state : SourceState) (nodes : List Node) :
    Realizes (nodesCode depth state.order nodes) (nodesSource depth state nodes) := by
  cases nodes with
  | nil =>
    rw [nodesCode, nodesSource]
    exact ⟨rfl, become_nil⟩
  | cons node rest =>
    have first := Node.realizes_source depth state node
    have behind := realizes_nodesSource depth (node.source depth state).2 rest
    rw [nodesCode, nodesSource]
    cases coded : Node.code depth state.order node with
    | error failure =>
      rw [coded] at first
      exact List.findSome?_append.trans (congrArg (Option.or · _) first)
    | ok pair =>
      rw [coded] at first
      obtain ⟨order, become⟩ := first
      dsimp only [Bind.bind, Except.bind]
      rw [order] at behind
      cases others : nodesCode depth pair.2 rest with
      | error failure =>
        rw [others] at behind
        exact (become.findSome?_append _).trans behind
      | ok last =>
        rw [others] at behind
        exact ⟨behind.1, become.append behind.2⟩

end

/-- Compiling a layout is assembling its source program. -/
theorem Node.assemble_program (root : Node) :
    assemble root.program =
      (root.compile.map Array.toList).mapError CompilationFailure.cause := by
  have apart : (labelNames root.program).Nodup := by
    have names := (Node.numbers_source 0 {} root).nodup
    rwa [program, labelNames_append, show labelNames [.plain .stop] = [] from rfl, List.append_nil]
  have realizes := Node.realizes_source 0 {} root
  rw [compile, instructions]
  cases coded : Node.code 0 .little root with
  | error failure =>
    rw [coded] at realizes
    refine assemble_of_failure apart ?_
    exact List.findSome?_append.trans (congrArg (Option.or · _) realizes)
  | ok pair =>
    rw [coded] at realizes
    exact (realizes.2.append (become_plain [.stop])).assemble_eq apart

/-! ### Layouts that are compiled -/

/-- There is a load for every integer in a layout. -/
def Node.Loads (root : Node) : Prop :=
  ∀ depth name anchor kind, root.Holds depth (.value name anchor (.integer kind)) →
    kind.width ∈ [1, 2, 4, 8]

/-- The depth of every folder in a layout is a byte. -/
def Node.Shallow (root : Node) : Prop :=
  ∀ depth name children, root.Holds depth (.folder name children) → depth < 256

theorem Node.obstacles_eq_nil_iff (root : Node) :
    root.obstacles 0 = [] ↔ root.Loads ∧ root.Shallow := by
  rw [List.eq_nil_iff_forall_not_mem]
  constructor
  · intro free
    refine ⟨fun depth name anchor kind holds => ?_, fun depth name children holds => ?_⟩
    · refine Decidable.of_not_not fun odd => ?_
      have obstructs : Obstructs (0 + depth) _ _ := .noLoad name anchor kind odd
      exact free _ ((root.mem_obstacles_iff 0).2 ⟨depth, _, holds, obstructs⟩)
    · refine Decidable.of_not_not fun deep => ?_
      have obstructs : Obstructs (0 + depth) _ _ := .tooDeep name children (by omega)
      exact free _ ((root.mem_obstacles_iff 0).2 ⟨depth, _, holds, obstructs⟩)
  · rintro ⟨loads, shallow⟩ failure member
    obtain ⟨depth, inner, holds, obstructs⟩ := (root.mem_obstacles_iff 0).1 member
    cases obstructs with
    | tooDeep name children deep =>
      have := shallow depth name children holds
      omega
    | noLoad name anchor kind odd => exact odd (loads depth name anchor kind holds)

/-- A layout is compiled if there are loads for all its integers and its folders are shallow, and
only then; a failure is that of an integer or a folder in it. Its labels are never in the way. -/
theorem Node.compiled_unless_obstructed (root : Node) :
    ((∃ code, root.compile = .ok code) ↔ root.Loads ∧ root.Shallow) ∧
      (∀ failure, root.compile = .error failure →
        ∃ depth inner, root.Holds depth inner ∧ inner.Obstructs depth failure) ∧
      assemble root.program =
        (root.compile.map Array.toList).mapError CompilationFailure.cause := by
  have outcome := root.compile_outcome
  refine ⟨?_, fun failure failed => ?_, root.assemble_program⟩
  · rw [← root.obstacles_eq_nil_iff]
    cases compiled : root.compile with
    | ok code =>
      rw [compiled] at outcome
      exact ⟨fun _ => outcome, fun _ => ⟨code, rfl⟩⟩
    | error failure =>
      rw [compiled] at outcome
      refine iff_of_false (fun made => ?_) fun free => ?_
      · obtain ⟨code, same⟩ := made
        cases same
      · rw [free] at outcome
        cases outcome
  · rw [failed] at outcome
    obtain ⟨depth, inner, holds, obstructs⟩ :=
      (root.mem_obstacles_iff 0).1 (List.mem_of_mem_head? outcome)
    rw [Nat.zero_add] at obstructs
    exact ⟨depth, inner, holds, obstructs⟩

/-- A folder, and a number of folders around it in one another. -/
def foldersAround (inner : List Node) : Nat → Node
  | 0 => .folder "f" inner
  | count + 1 => .folder "f" [foldersAround inner count]

def definitionsAround (inner : List Json) : Nat → Json
  | 0 => .object [("children", .array inner), ("name", .string "f")]
  | count + 1 =>
    .object [("children", .array [definitionsAround inner count]), ("name", .string "f")]

theorem ofJson_definitionsAround {items : List Json} {nodes : List Node}
    (read : nodesOf items = .ok nodes) (count : Nat) :
    Node.ofJson (definitionsAround items count) = .ok (foldersAround nodes count) := by
  have folder {items : List Json} {nodes : List Node} (read : nodesOf items = .ok nodes) :
      Node.ofJson (.object [("children", .array items), ("name", .string "f")]) =
        .ok (.folder "f" nodes) :=
    (ofJson_of_named rfl).trans (map_eq_ok_iff.2 ⟨nodes, read, rfl⟩)
  induction count with
  | zero => exact folder read
  | succ count inductionHypothesis =>
    have child : nodesOf [definitionsAround items count] = .ok [foldersAround nodes count] := by
      rw [nodesOf, inductionHypothesis]
      rfl
    exact folder child

theorem loads_foldersAround (count : Nat) : (foldersAround [] count).Loads := by
  intro depth name anchor kind holds
  induction count generalizing depth with
  | zero =>
    cases holds with
    | inside _ member => cases member
  | succ count inductionHypothesis =>
    cases holds with
    | inside _ member below =>
      rw [List.mem_singleton.1 member] at below
      exact inductionHypothesis _ below

/-- Folders in one another are not compiled if they go on to the depth 256. -/
theorem code_foldersAround (inner : List Node) {depth count : Nat} (start : depth ≤ 256)
    (deep : 256 ≤ depth + count) (order : ByteOrder) :
    Node.code depth order (foldersAround inner count) = .error (.tooDeep 256) := by
  induction count generalizing depth with
  | zero =>
    have last : depth = 256 := by omega
    subst last
    rfl
  | succ count inductionHypothesis =>
    rw [foldersAround, Node.code]
    by_cases shallow : depth < 256
    · rw [if_pos shallow, nodesCode, inductionHypothesis shallow (by omega)]
      rfl
    · have last : depth = 256 := by omega
      rw [if_neg shallow, last]

theorem compile_foldersAround (inner : List Node) :
    (foldersAround inner 256).compile = .error (.tooDeep 256) := by
  have failed : Node.code 0 .little (foldersAround inner 256) = _ :=
    code_foldersAround inner (Nat.zero_le _) (Nat.le_refl _) .little
  rw [Node.compile, Node.instructions, failed]
  rfl

/-- An integer of a width that no instruction loads. -/
def oddInteger : Node :=
  .value "x" (.absolute 0) (.integer ⟨3, .little, .unsigned, .ten, by decide, by decide⟩)

def oddDefinition : Json :=
  .object [
    ("kind", .object [("integer", .object [("width", .integer 3)])]),
    ("name", .string "x"),
    ("offset", .object [("absolute", .integer 0)])]

/-- A folder at the depth 256 keeps a layout from being compiled in which no integer is in the way,
and hides one that is. -/
theorem Node.tooDeep_foldersAround :
    (ofJson (definitionsAround [] 256) = .ok (foldersAround [] 256) ∧
        (foldersAround [] 256).Loads ∧
        (foldersAround [] 256).compile = .error (.tooDeep 256)) ∧
      ofJson (definitionsAround [oddDefinition] 256) = .ok (foldersAround [oddInteger] 256) ∧
        (foldersAround [oddInteger] 256).compile = .error (.tooDeep 256) :=
  ⟨⟨ofJson_definitionsAround rfl 256, loads_foldersAround 256, compile_foldersAround []⟩,
    ofJson_definitionsAround rfl 256, compile_foldersAround [oddInteger]⟩

end HexEditor
