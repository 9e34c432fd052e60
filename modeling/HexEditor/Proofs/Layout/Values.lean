/-
Which values decoding remembers. The walk through a layout comes to its values one after the
other and sets the decoded one under the names on the path to it. So where there is room for all
rows, and nothing fails, every value is decoded, and under each path there is the one that was
decoded last. A path is all that tells two values apart: names need not differ, and values under
one path share an entry, of which only the last one is left.
-/

import HexEditor.Layout.Definition
import HexEditor.Proofs.Layout.Compilation
import HexEditor.Proofs.Outcome
import HexEditor.Proofs.Table

namespace HexEditor

/-! ### The values of a layout -/

/-- A value of a layout, with the names on the path to it. -/
structure Leaf where
  path : List String
  anchor : Anchor
  kind : ValueKind
  deriving DecidableEq

mutual

/-- The values of a layout below a path, in the order in which they stand. -/
def Node.leaves (path : List String) : Node → List Leaf
  | .folder name children => leavesOf (path ++ [name]) children
  | .value name anchor kind => [⟨path ++ [name], anchor, kind⟩]

def leavesOf (path : List String) : List Node → List Leaf
  | [] => []
  | node :: rest => node.leaves path ++ leavesOf path rest

end

/-- What the bytes at an offset stand for. -/
def ValueKind.decode (reader : ByteReader) (offset : Nat) :
    ValueKind → Except ByteReader.TextFailure DecodedValue
  | .integer kind =>
    ((reader.read offset kind.width).mapError .storage).map fun bytes =>
      .integer (kind.decode bytes)
  | .text asciiOnly length => (reader.text asciiOnly (length.map Int.toNat) offset).map .text

/-- What the bytes of a value stand for when the cursor is at an offset. -/
def Leaf.decode (reader : ByteReader) (cursor : Int) (leaf : Leaf) :
    Except ByteReader.TextFailure DecodedValue :=
  leaf.kind.decode reader (leaf.anchor.address cursor).toNat

/-- The entry that a value is remembered by. -/
def Leaf.entry (reader : ByteReader) (cursor : Int) (leaf : Leaf) :
    Except ByteReader.TextFailure (List String × DecodedValue) :=
  (leaf.decode reader cursor).map fun value => (leaf.path, value)

mutual

/-- The number of rows that a layout takes on a panel whose last entry is a header or is not, and
whether the last entry behind it is one. -/
def Node.extent (afterHeader : Bool) : Node → Nat × Bool
  | .folder _ children =>
    let below := extentOf true children
    ((if afterHeader then 2 else 3) + below.1, below.2)
  | .value .. => (1, false)

def extentOf (afterHeader : Bool) : List Node → Nat × Bool
  | [] => (0, afterHeader)
  | node :: rest =>
    let first := node.extent afterHeader
    let behind := extentOf first.2 rest
    (first.1 + behind.1, behind.2)

end

/-! ### Walking with room for all -/

/-- A panel has grown by a number of rows, the last of which stands for a header or does not. -/
structure Panel.Grown (before : Panel) (extent : Nat × Bool) (after : Panel) : Prop where
  budget_eq : after.budget = before.budget
  size_eq : after.rows.size = before.rows.size + extent.1
  afterHeader_eq : after.afterHeader = extent.2

/-- There is room for as many rows. -/
def Panel.HasRoom (panel : Panel) (count : Nat) : Prop := panel.rows.size + count ≤ panel.budget

namespace Panel

variable {panel after last : Panel} {first behind : Nat × Bool}

theorem Grown.hasRoom (grown : panel.Grown first after)
    (room : panel.HasRoom (first.1 + behind.1)) : after.HasRoom behind.1 := by
  rw [HasRoom, grown.budget_eq, grown.size_eq, Nat.add_assoc]
  exact room

theorem Grown.trans (grown : panel.Grown first after) (onward : after.Grown behind last) :
    panel.Grown (first.1 + behind.1, behind.2) last where
  budget_eq := onward.budget_eq.trans grown.budget_eq
  size_eq := by rw [onward.size_eq, grown.size_eq, Nat.add_assoc]
  afterHeader_eq := onward.afterHeader_eq

theorem grown_value (room : panel.HasRoom 1) (name text : String) :
    ∃ after, panel.value name text = (true, after) ∧ panel.Grown (1, false) after := by
  have fits : ¬ panel.remaining < 1 := by
    rw [HasRoom] at room
    rw [remaining]
    omega
  exact ⟨_, if_neg fits, rfl, Array.size_push _, rfl⟩

theorem grown_header (room : panel.HasRoom (if panel.afterHeader then 2 else 3)) (title : String)
    (level : Int) :
    ∃ after, panel.header title level = (true, after) ∧
      panel.Grown (if panel.afterHeader then 2 else 3, true) after := by
  rw [HasRoom] at room
  rw [header]
  split
  · next directly =>
    rw [if_pos directly] at room
    have fits : ¬ panel.remaining < 2 := by
      rw [remaining]
      omega
    exact ⟨_, if_neg fits, rfl, by simp [push], rfl⟩
  · next apart =>
    rw [if_neg apart] at room
    have separated : ¬ panel.remaining < 1 := by
      rw [remaining]
      omega
    have fits : ¬ (panel.push ⟨.separator, "", 0⟩).remaining < 2 := by
      show ¬ panel.budget - (panel.rows.push _).size < 2
      rw [Array.size_push]
      omega
    rw [if_neg separated]
    exact ⟨_, if_neg fits, rfl, by simp [push], rfl⟩

end Panel

namespace Decoding

open Machine (Walked)

variable {reader : ByteReader} {cursor : Int} {progress : DecodingProgress}

/-- A part of a walk sets all of its entries and grows the panel by its rows, or fails where one of
the entries does. -/
def Gathers (entries : Except ByteReader.TextFailure DecodedValues) (extent : Nat × Bool)
    (progress : DecodingProgress) (walked : Walked) : Prop :=
  match entries with
  | .ok entries => ∃ panel, walked = .ok true ⟨panel, Table.setAll entries progress.values⟩ ∧
      progress.panel.Grown extent panel
  | .error failure => ∃ left, walked = .error failure left

/-- A part of a walk gathers what it does itself, and then what the next part does. -/
theorem Gathers.andThen {first second : Except ByteReader.TextFailure DecodedValues}
    {extent behind : Nat × Bool} {walked : Walked} {next : DecodingProgress → Walked}
    (gathers : Gathers first extent progress walked)
    (onward : ∀ later : DecodingProgress, progress.panel.Grown extent later.panel →
      Gathers second behind later (next later)) :
    Gathers (do return (← first) ++ (← second)) (extent.1 + behind.1, behind.2) progress
      (walked.andThen next) := by
  cases first with
  | error failure =>
    obtain ⟨left, rfl⟩ := gathers
    exact ⟨left, rfl⟩
  | ok entries =>
    obtain ⟨panel, rfl, grown⟩ := gathers
    have gathered := onward ⟨panel, Table.setAll entries progress.values⟩ grown
    cases second with
    | error failure => exact gathered
    | ok others =>
      obtain ⟨last, walked, grownBehind⟩ := gathered
      refine ⟨last, ?_, grown.trans grownBehind⟩
      rw [Table.setAll_append]
      exact walked

theorem gathers_decodeValue (room : progress.panel.HasRoom 1) (path : List String) (name : String)
    (anchor : Anchor) (kind : ValueKind) :
    Gathers (((⟨path ++ [name], anchor, kind⟩ : Leaf).entry reader cursor).map ([·])) (1, false)
      progress (decodeValue reader cursor path name anchor kind progress) := by
  have shows (value : DecodedValue) (text : String) :
      Gathers (.ok [(path ++ [name], value)]) (1, false) progress
        (shown progress path name value text) := by
    obtain ⟨panel, written, grown⟩ := Panel.grown_value room name text
    refine ⟨panel, ?_, grown⟩
    rw [shown, written]
    rfl
  cases kind with
  | integer kind =>
    cases found : reader.read (anchor.address cursor).toNat kind.width with
    | ok bytes =>
      rw [decodeValue_integer_of_ok path name found, Leaf.entry, Leaf.decode, ValueKind.decode,
        found]
      exact shows _ _
    | error failure =>
      rw [decodeValue_integer_of_error path name found, Leaf.entry, Leaf.decode, ValueKind.decode,
        found]
      exact ⟨progress, rfl⟩
  | text asciiOnly length =>
    cases found : reader.text asciiOnly (length.map Int.toNat) (anchor.address cursor).toNat with
    | ok text =>
      rw [decodeValue_text_of_ok path name found, Leaf.entry, Leaf.decode, ValueKind.decode, found]
      exact shows _ _
    | error failure =>
      rw [decodeValue_text_of_error path name found, Leaf.entry, Leaf.decode, ValueKind.decode,
        found]
      exact ⟨progress, rfl⟩

mutual

/-- A walk with room for all rows of a layout gathers its values. -/
theorem gathers_walk (depth : Nat) (path : List String) (node : Node) (progress : DecodingProgress)
    (room : progress.panel.HasRoom (node.extent progress.panel.afterHeader).1) :
    Gathers ((node.leaves path).mapM (Leaf.entry reader cursor))
      (node.extent progress.panel.afterHeader) progress
      (walk reader cursor depth path node progress) := by
  cases node with
  | folder name children =>
    rw [Node.extent] at room ⊢
    rw [Node.leaves, Machine.walk_folder]
    have here : progress.panel.HasRoom (if progress.panel.afterHeader then 2 else 3) :=
      Nat.le_trans (Nat.add_le_add_left (Nat.le_add_right _ _) _) room
    obtain ⟨panel, written, grown⟩ := Panel.grown_header here name depth
    rw [written]
    have header : Gathers (.ok []) (if progress.panel.afterHeader then 2 else 3, true) progress
        (.ok true { progress with panel }) :=
      ⟨panel, rfl, grown⟩
    have nothing (entries : Except ByteReader.TextFailure DecodedValues) :
        (do return (← (.ok [] : Except ByteReader.TextFailure DecodedValues)) ++ (← entries)) =
          entries := by
      cases entries <;> rfl
    rw [← nothing ((leavesOf (path ++ [name]) children).mapM _)]
    refine header.andThen fun later grownLater => ?_
    have below := gathers_walkAll (depth + 1) (path ++ [name]) children later
    rw [grownLater.afterHeader_eq] at below
    exact below (grownLater.hasRoom room)
  | value name anchor kind =>
    rw [Node.leaves, walk]
    exact gathers_decodeValue room path name anchor kind

theorem gathers_walkAll (depth : Nat) (path : List String) (nodes : List Node)
    (progress : DecodingProgress)
    (room : progress.panel.HasRoom (extentOf progress.panel.afterHeader nodes).1) :
    Gathers ((leavesOf path nodes).mapM (Leaf.entry reader cursor))
      (extentOf progress.panel.afterHeader nodes) progress
      (walkAll reader cursor depth path nodes progress) := by
  cases nodes with
  | nil => exact ⟨progress.panel, rfl, rfl, rfl, rfl⟩
  | cons node rest =>
    rw [extentOf] at room ⊢
    rw [leavesOf, Machine.walkAll_cons, List.mapM_append]
    have here := gathers_walk depth path node progress
      (Nat.le_trans (Nat.add_le_add_left (Nat.le_add_right _ _) _) room)
    refine here.andThen fun later grown => ?_
    have behind := gathers_walkAll depth path rest later
    rw [grown.afterHeader_eq] at behind
    exact behind (grown.hasRoom room)

end

end Decoding

/-! ### What is remembered -/

section Remembered

variable {reader : ByteReader} {cursor : Int} {leaves : List Leaf} {entries : DecodedValues}

section Entries

variable
  (each : List.Forall₂ (fun leaf entry => Leaf.entry reader cursor leaf = .ok entry) leaves entries)

include each

/-- The first entry under a path is that of the first value with this path. -/
theorem lookup_entries (path : List String) :
    entries.lookup path =
      (leaves.find? (·.path = path)).bind fun leaf => (leaf.decode reader cursor).toOption := by
  induction each with
  | nil => rfl
  | @cons leaf entry rest others here _ inductionHypothesis =>
    obtain ⟨value, decoded, rfl⟩ := map_eq_ok_iff.1 here
    rw [List.lookup_cons, List.find?_cons]
    by_cases same : leaf.path = path
    · rw [beq_iff_eq.2 same.symm, decide_eq_true same, Option.bind_some, decoded]
      rfl
    · rw [beq_eq_false_iff_ne.2 (Ne.symm same), decide_eq_false same]
      exact inductionHypothesis

theorem keys_entries : entries.map Prod.fst = leaves.map Leaf.path := by
  induction each with
  | nil => rfl
  | cons here _ inductionHypothesis =>
    obtain ⟨value, -, rfl⟩ := map_eq_ok_iff.1 here
    rw [List.map_cons, List.map_cons, inductionHypothesis]

theorem decodes_of_entries :
    ∀ leaf ∈ leaves, ∃ value, leaf.decode reader cursor = .ok value := by
  induction each with
  | nil => exact nofun
  | cons here _ inductionHypothesis =>
    obtain ⟨value, decoded, -⟩ := map_eq_ok_iff.1 here
    exact List.forall_mem_cons.2 ⟨⟨value, decoded⟩, inductionHypothesis⟩

end Entries

/-- Of values with different paths each one is the last one with its own. -/
theorem find?_reverse_of_nodup {leaf : Leaf} (distinct : (leaves.map Leaf.path).Nodup)
    (member : leaf ∈ leaves) : leaves.reverse.find? (·.path = leaf.path) = some leaf := by
  cases found : leaves.reverse.find? (·.path = leaf.path) with
  | none =>
    have apart := List.find?_eq_none.1 found leaf (List.mem_reverse.2 member)
    simp at apart
  | some other =>
    have same : other.path = leaf.path := by simpa using List.find?_some found
    have otherMember : other ∈ leaves := List.mem_reverse.1 (List.mem_of_find?_eq_some found)
    rw [List.inj_on_of_nodup_map distinct otherMember member same]

end Remembered

/-- Decoding that has room for all rows and succeeds remembers, under each path, the last value with
that path. So there are as many entries as there are different paths. Where no two values have the
same path, each value is remembered as it was decoded at its own offset and by its own kind; where
two have, there are fewer entries than values. -/
theorem Node.decode_remembers {root : Node} {reader : ByteReader} {cursor rows : Int}
    {lines : List PanelRow} {values : DecodedValues} (room : ((root.extent true).1 : Int) ≤ rows)
    (decoded : root.decode reader cursor rows = .ok (lines, values)) :
    let leaves := root.leaves []
    lines.length = (root.extent true).1 ∧
      (∀ leaf ∈ leaves, ∃ value, leaf.decode reader cursor = .ok value) ∧
      (∀ path, values.lookup path =
        (leaves.reverse.find? (·.path = path)).bind fun leaf =>
          (leaf.decode reader cursor).toOption) ∧
      values.length = (leaves.map Leaf.path).dedup.length ∧
      ((leaves.map Leaf.path).Nodup →
        (∀ leaf ∈ leaves, ∃ value, leaf.decode reader cursor = .ok value ∧
          values.lookup leaf.path = some value) ∧
        values.length = leaves.length) ∧
      (¬ (leaves.map Leaf.path).Nodup → values.length < leaves.length) := by
  extract_lets leaves
  have enough : (Panel.ofRows rows).HasRoom (root.extent true).1 := by
    show 0 + _ ≤ rows.toNat
    omega
  have gathered : Decoding.Gathers (leaves.mapM (Leaf.entry reader cursor)) (root.extent true)
      { panel := .ofRows rows } (Decoding.walk reader cursor 0 [] root { panel := .ofRows rows }) :=
    Decoding.gathers_walk 0 [] root _ enough
  cases ran : leaves.mapM (Leaf.entry reader cursor) with
  | error failure =>
    rw [ran] at gathered
    obtain ⟨left, failed⟩ := gathered
    rw [decode, failed] at decoded
    cases decoded
  | ok entries =>
    rw [ran] at gathered
    obtain ⟨panel, walked, grown⟩ := gathered
    rw [decode, walked] at decoded
    cases decoded
    have each := mapM_eq_ok_iff.1 ran
    have decodes := decodes_of_entries each
    have looked (path : List String) : (Table.setAll entries []).lookup path =
        (leaves.reverse.find? (·.path = path)).bind fun leaf =>
          (leaf.decode reader cursor).toOption := by
      rw [Table.lookup_setAll, List.lookup_nil, Option.or_none]
      exact lookup_entries (List.forall₂_reverse_iff.2 each) path
    have length : (Table.setAll entries []).length = (leaves.map Leaf.path).dedup.length := by
      rw [Table.length_setAll, keys_entries each]
    refine ⟨?_, decodes, looked, length, fun distinct => ⟨fun leaf member => ?_, ?_⟩,
      fun repeated => ?_⟩
    · rw [Array.length_toList, grown.size_eq]
      exact Nat.zero_add _
    · obtain ⟨value, decoded⟩ := decodes leaf member
      refine ⟨value, decoded, (looked leaf.path).trans ?_⟩
      rw [find?_reverse_of_nodup distinct member, Option.bind_some, decoded]
      rfl
    · rw [length, distinct.dedup, List.length_map]
    · have sublist := List.dedup_sublist (leaves.map Leaf.path)
      rw [length, ← List.length_map Leaf.path]
      refine Nat.lt_of_le_of_ne sublist.length_le fun same => repeated ?_
      exact List.dedup_eq_self.1 (sublist.eq_of_length same)

/-- A byte is no wider than the widest integer. -/
theorem width_byteKind_le : 1 ≤ 8 := by decide

/-- An integer of one byte. -/
def byteKind : IntegerKind := ⟨1, .little, .unsigned, .ten, Nat.one_pos, width_byteKind_le⟩

/-- Two values of one name in different folders. -/
def nestedValues : Node :=
  .folder "f" [.value "a" (.absolute 0) (.integer byteKind),
    .folder "g" [.value "a" (.cursor 1) (.integer byteKind)]]

theorem Node.decode_remembers_nestedValues :
    ((nestedValues.extent true).1 : Int) ≤ 7 ∧
      ∃ lines values, nestedValues.decode (.ofArray #[1, 2]) 0 7 = .ok (lines, values) ∧
        lines.length = 7 ∧ values.length = 2 ∧
        values.lookup ["f", "a"] = some (.integer 1) ∧
        values.lookup ["f", "g", "a"] = some (.integer 2) := by
  have room : ((nestedValues.extent true).1 : Int) ≤ 7 := by decide
  cases decoded : nestedValues.decode (.ofArray #[1, 2]) 0 7 with
  | error failure => cases decoded
  | ok result =>
    obtain ⟨shown, -, looked, length, -⟩ := decode_remembers room decoded
    exact ⟨room, result.1, result.2, rfl, shown, length, looked _, looked _⟩

/-- A folder with two values of one name. -/
def twinValues : Node :=
  .folder "f" [.value "a" (.absolute 0) (.integer byteKind),
    .value "a" (.absolute 1) (.integer byteKind)]

/-- The definition of an integer of one byte at an offset. -/
def byteDefinition (offset : Int) : Json :=
  .object [("name", .string "a"), ("offset", .object [("absolute", .integer offset)]),
    ("kind", .object [("integer", .object [("width", .integer 1)])])]

/-- The first of two values of one name is not remembered, though it is decoded and shown. -/
theorem Node.decode_twinValues :
    Node.ofJson (.object [("name", .string "f"),
        ("children", .array [byteDefinition 0, byteDefinition 1])]) = .ok twinValues ∧
      twinValues.decode (.ofArray #[1, 2]) 0 4 =
        .ok ([⟨.header, "f", 0⟩, ⟨.headerPad, "", 0⟩, ⟨.value, "a: 1", 0⟩, ⟨.value, "a: 2", 0⟩],
          [(["f", "a"], .integer 2)]) ∧
      twinValues.leaves [] =
        [⟨["f", "a"], .absolute 0, .integer byteKind⟩,
          ⟨["f", "a"], .absolute 1, .integer byteKind⟩] ∧
      Leaf.decode (.ofArray #[1, 2]) 0 ⟨["f", "a"], .absolute 0, .integer byteKind⟩ =
        .ok (.integer 1) :=
  ⟨rfl, by decide +kernel, rfl, rfl⟩

end HexEditor
