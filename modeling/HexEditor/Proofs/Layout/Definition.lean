/-
What definitions describe. A definition gives the numbers of a layout, as numbers or as
literals, and the layout that is read has just these: none is wrapped, rounded or left
out. The address of a value and the width and base of an integer have to be in range; a
distance from the cursor and the length of a text are taken as they are. What describes no
layout is refused, with a message about the definition unless it would have to show a
number that has too many digits.
-/

import HexEditor.Layout.Definition
import HexEditor.Proofs.Layout.Compilation
import HexEditor.Proofs.Number.Signed
import HexEditor.Proofs.Outcome
import HexEditor.Proofs.Table

namespace HexEditor

/-! ### Described layouts -/

/-- An integer is given as a number, or as a literal whose mark decides its base. -/
inductive Json.Gives : Json → Int → Prop where
  | number (value : Int) : Gives (.integer value) value
  | literal {text : String} {value : Int} (read : readInteger 0 text = .ok value) :
      Gives (.string text) value

/-- A definition describes where a value stands. -/
inductive Anchor.Described : Json → Anchor → Prop where
  | absolute {raw : Json} {address : UInt64} (given : raw.Gives address.toNat) :
      Described (.object [("absolute", raw)]) (.absolute address)
  | cursor {raw : Json} {distance : Int} (given : raw.Gives distance) :
      Described (.object [("cursor", raw)]) (.cursor distance)

/-- A definition describes how an integer is read; all of it but the width may be left out. -/
structure IntegerKind.Described (body : Json) (kind : IntegerKind) : Prop where
  width : ((body.member? "width").getD .null).Gives kind.width
  order : (body.member? "endian").getD (.string "little") = .string kind.order.name
  sign : (body.member? "sign").getD (.string "unsigned") = .string kind.sign.name
  base : ((body.member? "base").getD (.integer 10)).Gives kind.base.value

def encodingName (asciiOnly : Bool) : String := if asciiOnly then "ascii" else "utf-8"

/-- A definition gives the length of a text, or none for a text up to a NUL. -/
inductive Json.GivesLength : Json → Option Int → Prop where
  | none : GivesLength .null none
  | some {raw : Json} {length : Int} (given : raw.Gives length) : GivesLength raw (some length)

/-- A definition describes how a value is read. -/
inductive ValueKind.Described : Json → ValueKind → Prop where
  | integer {members : List (String × Json)} {kind : IntegerKind}
      (described : kind.Described (.object members)) :
      Described (.object [("integer", .object members)]) (.integer kind)
  | text {members : List (String × Json)} {asciiOnly : Bool} {length : Option Int}
      (encoding : (members.lookup "encoding").getD (.string "utf-8") =
        .string (encodingName asciiOnly))
      (given : ((members.lookup "length").getD .null).GivesLength length) :
      Described (.object [("string", .object members)]) (.text asciiOnly length)

/-- A definition describes a folder by its children, and a value by its place and kind. -/
inductive Node.Described : Json → Node → Prop where
  | folder {members : List (String × Json)} {name : String} {items : List Json}
      {children : List Node} (named : members.lookup "name" = some (.string name))
      (listed : members.lookup "children" = some (.array items))
      (each : List.Forall₂ Described items children) :
      Described (.object members) (.folder name children)
  | value {members : List (String × Json)} {name : String} {offset form : Json}
      {anchor : Anchor} {kind : ValueKind} (named : members.lookup "name" = some (.string name))
      (childless : members.lookup "children" = none)
      (placed : members.lookup "offset" = some offset) (anchored : anchor.Described offset)
      (formed : members.lookup "kind" = some form) (kinded : kind.Described form) :
      Described (.object members) (.value name anchor kind)

variable {raw body : Json} {field name : String} {members : List (String × Json)}

/-! ### Fields -/

theorem integerField_eq_ok_iff {value : Int} :
    integerField field raw = .ok value ↔ raw.Gives value := by
  constructor
  · intro found
    cases raw with
    | integer value =>
      cases found
      exact .number value
    | string text =>
      rw [integerField] at found
      split at found <;> cases found
      next read => exact .literal read
    | _ => cases found
  · intro given
    cases given with
    | number value => rfl
    | literal read => rw [integerField, read]

/-- A choice is read from its name, where all choices are known and no two share a name. -/
theorem choiceField_eq_ok_iff {Choice : Type} {name : Choice → String} {all : List Choice}
    (complete : ∀ choice, choice ∈ all) (injective : Function.Injective name) {choice : Choice} :
    choiceField name all field raw = .ok choice ↔ raw = .string (name choice) := by
  constructor
  · intro found
    cases raw with
    | string text =>
      rw [choiceField] at found
      split at found <;> cases found
      next named =>
      have same := List.find?_some named
      rw [beq_iff_eq] at same
      rw [same]
    | _ => cases found
  · rintro rfl
    have named : (all.find? fun other => name other == name choice) = some choice := by
      cases found : all.find? fun other => name other == name choice with
      | none =>
        have differs := List.find?_eq_none.1 found choice (complete choice)
        exact absurd (beq_self_eq_true (name choice)) differs
      | some other =>
        have same := List.find?_some found
        rw [beq_iff_eq] at same
        rw [injective same]
    rw [choiceField, named]

theorem ByteOrder.mem_all (order : ByteOrder) : order ∈ all := by
  cases order <;> decide

theorem ByteOrder.name_injective : Function.Injective ByteOrder.name := by
  intro first second same
  cases first <;> cases second <;> first | rfl | exact absurd same (by decide)

theorem SignEncoding.mem_all (sign : SignEncoding) : sign ∈ all := by
  cases sign <;> decide

theorem SignEncoding.name_injective : Function.Injective SignEncoding.name := by
  intro first second same
  cases first <;> cases second <;> first | rfl | exact absurd same (by decide)

theorem anchorOf_eq_ok_iff {anchor : Anchor} :
    anchorOf name raw = .ok anchor ↔ anchor.Described raw := by
  constructor
  · intro found
    unfold anchorOf at found
    split at found
    · next value =>
      obtain ⟨address, given, found⟩ := bind_eq_ok_iff.1 found
      rw [integerField_eq_ok_iff] at given
      split at found <;> cases found
      next fits =>
      rw [toNat_of_word? fits] at given
      exact .absolute given
    · next value =>
      obtain ⟨distance, given, found⟩ := bind_eq_ok_iff.1 found
      cases found
      exact .cursor (integerField_eq_ok_iff.1 given)
    · cases found
    · cases found
  · intro described
    cases described with
    | @absolute raw address given =>
      refine bind_eq_ok_iff.2 ⟨_, integerField_eq_ok_iff.2 given, ?_⟩
      rw [word?_toNat]
    | cursor given => exact bind_eq_ok_iff.2 ⟨_, integerField_eq_ok_iff.2 given, rfl⟩

/-- A width and a base that are in range are those of the kind. -/
theorem IntegerKind.ofFields_eq_ok_iff {width base : Int} {order : ByteOrder} {sign : SignEncoding}
    {kind : IntegerKind} :
    ofFields width order sign base = .ok kind ↔
      width = kind.width ∧ order = kind.order ∧ sign = kind.sign ∧ base = kind.base.value := by
  constructor
  · intro found
    rw [ofFields] at found
    split at found
    · next fits =>
      split at found <;> cases found
      next radix usable =>
      refine ⟨(Int.toNat_of_nonneg (by omega)).symm, rfl, rfl, ?_⟩
      rw [Radix.ofInt?] at usable
      split at usable <;> cases usable
      next inRange => exact (Int.toNat_of_nonneg (by omega)).symm
    · cases found
  · obtain ⟨width, order, sign, ⟨base, low, high⟩, one, eight⟩ := kind
    rintro ⟨rfl, rfl, rfl, rfl⟩
    have fits : 1 ≤ (width : Int).toNat ∧ (width : Int).toNat ≤ 8 := ⟨one, eight⟩
    have usable : Radix.ofInt? base = some ⟨base, low, high⟩ := dif_pos ⟨low, high⟩
    rw [ofFields, dif_pos fits, usable]
    rfl

theorem integerKindOf_eq_ok_iff {kind : IntegerKind} :
    integerKindOf name body = .ok kind ↔ kind.Described body := by
  simp only [integerKindOf, bind_eq_ok_iff, integerField_eq_ok_iff,
    choiceField_eq_ok_iff ByteOrder.mem_all ByteOrder.name_injective,
    choiceField_eq_ok_iff SignEncoding.mem_all SignEncoding.name_injective,
    IntegerKind.ofFields_eq_ok_iff]
  constructor
  · rintro ⟨_, width, _, order, _, sign, _, base, rfl, rfl, rfl, rfl⟩
    exact ⟨width, order, sign, base⟩
  · rintro ⟨width, order, sign, base⟩
    exact ⟨_, width, _, order, _, sign, _, base, rfl, rfl, rfl, rfl⟩

theorem asciiOnlyOf_eq_ok_iff {asciiOnly : Bool} :
    asciiOnlyOf name raw = .ok asciiOnly ↔ raw = .string (encodingName asciiOnly) := by
  constructor
  · intro found
    unfold asciiOnlyOf at found
    split at found <;> cases found <;> rfl
  · rintro rfl
    cases asciiOnly <;> rfl

theorem textKindOf_eq_ok_iff {kind : ValueKind} :
    textKindOf name body = .ok kind ↔
      ∃ asciiOnly length, kind = .text asciiOnly length ∧
        (body.member? "encoding").getD (.string "utf-8") = .string (encodingName asciiOnly) ∧
        ((body.member? "length").getD .null).GivesLength length := by
  rw [textKindOf, bind_eq_ok_iff]
  simp only [asciiOnlyOf_eq_ok_iff]
  constructor
  · rintro ⟨asciiOnly, encoding, found⟩
    split at found
    · next null =>
      cases found
      rw [null]
      exact ⟨asciiOnly, none, rfl, encoding, .none⟩
    · obtain ⟨length, given, found⟩ := bind_eq_ok_iff.1 found
      cases found
      exact ⟨asciiOnly, some length, rfl, encoding, .some (integerField_eq_ok_iff.1 given)⟩
  · rintro ⟨asciiOnly, length, rfl, encoding, given⟩
    refine ⟨asciiOnly, encoding, ?_⟩
    generalize (body.member? "length").getD .null = raw at given
    cases given with
    | none => rfl
    | some given =>
      have found : integerField (name ++ ".length") raw = .ok _ := integerField_eq_ok_iff.2 given
      cases given <;> exact bind_eq_ok_iff.2 ⟨_, found, rfl⟩

theorem kindOf_eq_ok_iff {kind : ValueKind} :
    kindOf name raw = .ok kind ↔ kind.Described raw := by
  constructor
  · intro found
    unfold kindOf at found
    split at found
    · next form members =>
      split at found
      · next same =>
        rw [beq_iff_eq] at same
        subst same
        obtain ⟨kind, read, rfl⟩ := map_eq_ok_iff.1 found
        exact .integer (integerKindOf_eq_ok_iff.1 read)
      split at found
      · next same =>
        rw [beq_iff_eq] at same
        subst same
        obtain ⟨asciiOnly, length, rfl, encoding, given⟩ := textKindOf_eq_ok_iff.1 found
        exact .text encoding given
      · cases found
    · cases found
    · cases found
  · intro described
    cases described with
    | integer described => exact map_eq_ok_iff.2 ⟨_, integerKindOf_eq_ok_iff.2 described, rfl⟩
    | text encoding given => exact textKindOf_eq_ok_iff.2 ⟨_, _, rfl, encoding, given⟩

/-! ### Nodes -/

theorem valueOf_eq_ok_iff {node : Node} :
    valueOf name (.object members) = .ok node ↔
      ∃ offset form anchor kind, members.lookup "offset" = some offset ∧
        members.lookup "kind" = some form ∧ anchor.Described offset ∧ kind.Described form ∧
        node = .value name anchor kind := by
  constructor
  · intro found
    unfold valueOf at found
    split at found
    · next offset form placed formed =>
      obtain ⟨anchor, anchored, found⟩ := bind_eq_ok_iff.1 found
      obtain ⟨kind, kinded, found⟩ := bind_eq_ok_iff.1 found
      cases found
      exact ⟨offset, form, anchor, kind, placed, formed, anchorOf_eq_ok_iff.1 anchored,
        kindOf_eq_ok_iff.1 kinded, rfl⟩
    · cases found
  · rintro ⟨offset, form, anchor, kind, placed, formed, anchored, kinded, rfl⟩
    rw [valueOf, Json.member?, Json.member?, placed, formed]
    exact bind_eq_ok_iff.2 ⟨anchor, anchorOf_eq_ok_iff.2 anchored,
      bind_eq_ok_iff.2 ⟨kind, kindOf_eq_ok_iff.2 kinded, rfl⟩⟩

/-- The children of a node are looked up by their name. -/
theorem childrenOf_eq (name : String) (members : List (String × Json)) :
    childrenOf name members = (members.lookup "children").map fun
      | .array items => nodesOf items
      | _ => .error (.childrenNoList name) := by
  induction members with
  | nil => rfl
  | cons entry rest inductionHypothesis =>
    obtain ⟨key, value⟩ := entry
    by_cases same : key = "children"
    · subst same
      rw [List.lookup_cons_self]
      cases value <;> rfl
    · have apart : (key == "children") = false := beq_eq_false_iff_ne.2 same
      rw [List.lookup_cons, BEq.comm, apart, ← inductionHypothesis]
      cases value <;> simp [childrenOf, apart]

/-- What is named is a value unless it lists children. -/
theorem ofJson_of_named (named : members.lookup "name" = some (.string name)) :
    Node.ofJson (.object members) =
      match members.lookup "children" with
      | none => valueOf name (.object members)
      | some (.array items) => (nodesOf items).map (.folder name)
      | some _ => .error (.childrenNoList name) := by
  rw [Node.ofJson, named]
  dsimp only
  rw [childrenOf_eq]
  cases members.lookup "children" with
  | none => rfl
  | some raw => cases raw <;> rfl

theorem ofJson_of_unnamed (unnamed : ∀ name, members.lookup "name" ≠ some (.string name)) :
    Node.ofJson (.object members) =
      .error (.quoting (.object members) (.unnamed (.object members))) := by
  rw [Node.ofJson]
  split
  · next name named => exact absurd named (unnamed name)
  · rfl

/-- What holds of a value if it holds of the children that it lists holds of every value. -/
theorem Json.induction_on_children {Good : Json → Prop}
    (step : ∀ raw, (∀ members items, raw = .object members →
      members.lookup "children" = some (.array items) → ∀ item ∈ items, Good item) → Good raw)
    (raw : Json) : Good raw := by
  refine step raw fun members items same listed item member => ?_
  have smaller : sizeOf item < sizeOf raw := by
    have within := List.sizeOf_lt_of_mem member
    have entry := List.sizeOf_lt_of_mem (Table.mem_of_lookup listed)
    rw [same]
    simp only [Json.object.sizeOf_spec, Json.array.sizeOf_spec, Prod.mk.sizeOf_spec] at entry ⊢
    omega
  exact induction_on_children step item
termination_by sizeOf raw

theorem nodesOf_eq_ok_iff {items : List Json} {nodes : List Node}
    (each : ∀ item ∈ items, ∀ node, Node.ofJson item = .ok node ↔ node.Described item) :
    nodesOf items = .ok nodes ↔
      List.Forall₂ (fun raw node => Node.Described raw node) items nodes := by
  induction items generalizing nodes with
  | nil =>
    rw [nodesOf, List.forall₂_nil_left_iff]
    exact ⟨fun same => (Except.ok.inj same).symm, fun same => congrArg Except.ok same.symm⟩
  | cons item rest inductionHypothesis =>
    have here := each item List.mem_cons_self
    have behind {nodes : List Node} := @inductionHypothesis nodes fun other member =>
      each other (List.mem_cons_of_mem _ member)
    rw [nodesOf, bind_eq_ok_iff, List.forall₂_cons_left_iff]
    constructor
    · rintro ⟨node, first, ran⟩
      obtain ⟨others, later, same⟩ := bind_eq_ok_iff.1 ran
      exact ⟨node, others, (here node).1 first, behind.1 later, (Except.ok.inj same).symm⟩
    · rintro ⟨node, others, first, later, rfl⟩
      exact ⟨node, (here node).2 first, bind_eq_ok_iff.2 ⟨others, behind.2 later, rfl⟩⟩

/-- A definition is read as the layout that it describes. -/
theorem Node.ofJson_eq_ok_iff (raw : Json) :
    ∀ node, Node.ofJson raw = .ok node ↔ node.Described raw := by
  induction raw using Json.induction_on_children with
  | step raw inductionHypothesis =>
    intro node
    cases raw with
    | object members =>
      have each {items : List Json} {children : List Node}
          (listed : members.lookup "children" = some (.array items)) :=
        @nodesOf_eq_ok_iff items children (inductionHypothesis members items rfl listed)
      constructor
      · intro found
        by_cases known : ∃ name, members.lookup "name" = some (.string name)
        · obtain ⟨name, named⟩ := known
          rw [ofJson_of_named named] at found
          split at found
          · next childless =>
            obtain ⟨offset, form, anchor, kind, placed, formed, anchored, kinded, rfl⟩ :=
              valueOf_eq_ok_iff.1 found
            exact .value named childless placed anchored formed kinded
          · next items listed =>
            obtain ⟨children, read, rfl⟩ := map_eq_ok_iff.1 found
            exact .folder named listed ((each listed).1 read)
          · cases found
        · rw [ofJson_of_unnamed fun name named => known ⟨name, named⟩] at found
          cases found
      · intro described
        cases described with
        | folder named listed described =>
          rw [ofJson_of_named named, listed]
          exact map_eq_ok_iff.2 ⟨_, (each listed).2 described, rfl⟩
        | value named childless placed anchored formed kinded =>
          rw [ofJson_of_named named, childless]
          exact valueOf_eq_ok_iff.2 ⟨_, _, _, _, placed, formed, anchored, kinded, rfl⟩
    | _ => exact iff_of_false nofun nofun

/-! ### Numbers that cannot be shown -/

/-- A value gives a number somewhere that has more digits than are shown. -/
inductive Json.HoldsLong : Json → Prop where
  | number {raw : Json} {value : Int} (given : raw.Gives value)
      (long : Nat.pow 10 literalDigitLimit ≤ value.natAbs) : HoldsLong raw
  | item {items : List Json} {item : Json} (member : item ∈ items) (long : HoldsLong item) :
      HoldsLong (.array items)
  | member {members : List (String × Json)} {entry : String × Json} (member : entry ∈ members)
      (long : HoldsLong entry.2) : HoldsLong (.object members)

mutual

theorem Json.holdsLong_of_isShowable (raw : Json) (hidden : raw.isShowable = false) :
    raw.HoldsLong := by
  cases raw with
  | integer value =>
    rw [Json.isShowable, decide_eq_false_iff_not, Nat.not_lt] at hidden
    exact .number (.number value) hidden
  | array items =>
    obtain ⟨item, member, long⟩ := holdsLong_of_areShowable items hidden
    exact .item member long
  | object members =>
    obtain ⟨entry, member, long⟩ := holdsLong_of_membersAreShowable members hidden
    exact .member member long
  | _ => cases hidden

theorem holdsLong_of_areShowable (items : List Json) (hidden : areShowable items = false) :
    ∃ item ∈ items, item.HoldsLong := by
  cases items with
  | nil => cases hidden
  | cons item rest =>
    rw [areShowable, Bool.and_eq_false_iff] at hidden
    rcases hidden with first | later
    · exact ⟨item, List.mem_cons_self, item.holdsLong_of_isShowable first⟩
    · obtain ⟨other, member, long⟩ := holdsLong_of_areShowable rest later
      exact ⟨other, List.mem_cons_of_mem _ member, long⟩

theorem holdsLong_of_membersAreShowable (members : List (String × Json))
    (hidden : membersAreShowable members = false) : ∃ entry ∈ members, entry.2.HoldsLong := by
  cases members with
  | nil => cases hidden
  | cons entry rest =>
    obtain ⟨key, value⟩ := entry
    rw [membersAreShowable, Bool.and_eq_false_iff] at hidden
    rcases hidden with first | later
    · exact ⟨(key, value), List.mem_cons_self, value.holdsLong_of_isShowable first⟩
    · obtain ⟨other, member, long⟩ := holdsLong_of_membersAreShowable rest later
      exact ⟨other, List.mem_cons_of_mem _ member, long⟩

end

theorem Json.HoldsLong.of_lookup {key : String} (found : members.lookup key = some raw)
    (long : raw.HoldsLong) : (Json.object members).HoldsLong :=
  .member (Table.mem_of_lookup found) long

/-- A long number among the members of a value is not one that stands for a member left out. -/
theorem Json.HoldsLong.of_getD {key : String} {default : Json} (short : ¬ default.HoldsLong)
    (long : ((body.member? key).getD default).HoldsLong) : body.HoldsLong := by
  cases found : body.member? key with
  | none =>
    rw [found] at long
    exact absurd long short
  | some raw =>
    rw [found] at long
    cases body with
    | object members => exact .of_lookup found long
    | _ => cases found

theorem Json.HoldsLong.of_gives {value : Int} (given : raw.Gives value)
    (long : (Json.integer value).HoldsLong) : raw.HoldsLong := by
  cases long with
  | number same long =>
    cases same
    exact .number given long

theorem Json.not_holdsLong_null : ¬ Json.null.HoldsLong := by
  rintro (given | _)
  cases given

theorem Json.not_holdsLong_string {text : String} {failure : LiteralFailure}
    (failed : readInteger 0 text = .error failure) : ¬ (Json.string text).HoldsLong := by
  rintro (given | _)
  cases given with
  | literal read =>
    rw [failed] at read
    cases read

theorem Json.not_holdsLong_ten : ¬ (Json.integer 10).HoldsLong := by
  rintro (given | _)
  cases given
  next long =>
    have short : (10 : Int).natAbs < Nat.pow 10 literalDigitLimit := by decide +kernel
    exact Nat.not_le.2 short long

/-- A message is left out for a number in the value that it quotes. -/
theorem holdsLong_of_quoting {Value : Type} {failure : DefinitionFailure}
    (failed : (.error (.quoting raw failure) : Except DefinitionFailure Value) =
      .error .unshowable)
    (named : failure ≠ .unshowable) : raw.HoldsLong := by
  have hidden := Except.error.inj failed
  rw [DefinitionFailure.quoting] at hidden
  split at hidden
  · exact absurd hidden named
  · next unshown => exact raw.holdsLong_of_isShowable (Bool.eq_false_of_not_eq_true unshown)

theorem holdsLong_of_integerField (failed : integerField field raw = .error .unshowable) :
    raw.HoldsLong := by
  cases raw with
  | integer value => cases failed
  | string text =>
    rw [integerField] at failed
    split at failed <;> cases failed
  | _ => exact holdsLong_of_quoting failed nofun

theorem holdsLong_of_choiceField {Choice : Type} {name : Choice → String} {all : List Choice}
    (failed : choiceField name all field raw = .error .unshowable) : raw.HoldsLong := by
  unfold choiceField at failed
  dsimp only at failed
  split at failed
  · cases failed
  · exact holdsLong_of_quoting failed nofun

theorem holdsLong_of_ofFields {width base : Int} {order : ByteOrder} {sign : SignEncoding}
    (failed : IntegerKind.ofFields width order sign base = .error .unshowable) :
    (Json.integer width).HoldsLong ∨ (Json.integer base).HoldsLong := by
  rw [IntegerKind.ofFields] at failed
  split at failed
  · split at failed
    · cases failed
    · exact .inr (holdsLong_of_quoting failed nofun)
  · exact .inl (holdsLong_of_quoting failed nofun)

theorem holdsLong_of_anchorOf (failed : anchorOf name raw = .error .unshowable) :
    raw.HoldsLong := by
  unfold anchorOf at failed
  split at failed
  · rcases bind_eq_error_iff.1 failed with failed | ⟨address, _, failed⟩
    · exact .member List.mem_cons_self (holdsLong_of_integerField failed)
    · split at failed <;> cases failed
  · rcases bind_eq_error_iff.1 failed with failed | ⟨distance, _, failed⟩
    · exact .member List.mem_cons_self (holdsLong_of_integerField failed)
    · cases failed
  · cases failed
  · cases failed

theorem holdsLong_of_integerKindOf (failed : integerKindOf name body = .error .unshowable) :
    body.HoldsLong := by
  rw [integerKindOf] at failed
  rcases bind_eq_error_iff.1 failed with failed | ⟨width, widthRead, failed⟩
  · exact .of_getD Json.not_holdsLong_null (holdsLong_of_integerField failed)
  rcases bind_eq_error_iff.1 failed with failed | ⟨order, _, failed⟩
  · exact .of_getD (Json.not_holdsLong_string rfl) (holdsLong_of_choiceField failed)
  rcases bind_eq_error_iff.1 failed with failed | ⟨sign, _, failed⟩
  · exact .of_getD (Json.not_holdsLong_string rfl) (holdsLong_of_choiceField failed)
  rcases bind_eq_error_iff.1 failed with failed | ⟨base, baseRead, failed⟩
  · exact .of_getD Json.not_holdsLong_ten (holdsLong_of_integerField failed)
  rcases holdsLong_of_ofFields failed with long | long
  · exact .of_getD Json.not_holdsLong_null (.of_gives (integerField_eq_ok_iff.1 widthRead) long)
  · exact .of_getD Json.not_holdsLong_ten (.of_gives (integerField_eq_ok_iff.1 baseRead) long)

theorem holdsLong_of_asciiOnlyOf (failed : asciiOnlyOf name raw = .error .unshowable) :
    raw.HoldsLong := by
  unfold asciiOnlyOf at failed
  split at failed
  · cases failed
  · cases failed
  · exact holdsLong_of_quoting failed nofun

theorem holdsLong_of_textKindOf (failed : textKindOf name body = .error .unshowable) :
    body.HoldsLong := by
  rw [textKindOf] at failed
  rcases bind_eq_error_iff.1 failed with failed | ⟨asciiOnly, _, failed⟩
  · exact .of_getD (Json.not_holdsLong_string rfl) (holdsLong_of_asciiOnlyOf failed)
  · split at failed
    · cases failed
    · rcases bind_eq_error_iff.1 failed with failed | ⟨length, _, failed⟩
      · exact .of_getD Json.not_holdsLong_null (holdsLong_of_integerField failed)
      · cases failed

theorem holdsLong_of_kindOf (failed : kindOf name raw = .error .unshowable) : raw.HoldsLong := by
  unfold kindOf at failed
  split at failed
  · next form members =>
    refine .member List.mem_cons_self ?_
    split at failed
    · exact holdsLong_of_integerKindOf (map_eq_error_iff.1 failed)
    split at failed
    · exact holdsLong_of_textKindOf failed
    · cases failed
  · cases failed
  · cases failed

theorem holdsLong_of_valueOf (failed : valueOf name (.object members) = .error .unshowable) :
    (Json.object members).HoldsLong := by
  unfold valueOf at failed
  split at failed
  · next offset form placed formed =>
    rcases bind_eq_error_iff.1 failed with failed | ⟨anchor, _, failed⟩
    · exact .of_lookup placed (holdsLong_of_anchorOf failed)
    rcases bind_eq_error_iff.1 failed with failed | ⟨kind, _, failed⟩
    · exact .of_lookup formed (holdsLong_of_kindOf failed)
    · cases failed
  · cases failed

theorem holdsLong_of_nodesOf {items : List Json}
    (each : ∀ item ∈ items, Node.ofJson item = .error .unshowable → item.HoldsLong)
    (failed : nodesOf items = .error .unshowable) : ∃ item ∈ items, item.HoldsLong := by
  induction items with
  | nil => cases failed
  | cons item rest inductionHypothesis =>
    rw [nodesOf] at failed
    rcases bind_eq_error_iff.1 failed with failed | ⟨node, _, failed⟩
    · exact ⟨item, List.mem_cons_self, each item List.mem_cons_self failed⟩
    rcases bind_eq_error_iff.1 failed with failed | ⟨others, _, failed⟩
    · obtain ⟨other, member, long⟩ := inductionHypothesis
        (fun other member => each other (List.mem_cons_of_mem _ member)) failed
      exact ⟨other, List.mem_cons_of_mem _ member, long⟩
    · cases failed

/-- Where a definition is refused without a message of its own, it gives a number that is too long. -/
theorem holdsLong_of_ofJson (raw : Json) :
    Node.ofJson raw = .error .unshowable → raw.HoldsLong := by
  induction raw using Json.induction_on_children with
  | step raw inductionHypothesis =>
    intro failed
    cases raw with
    | object members =>
      by_cases known : ∃ name, members.lookup "name" = some (.string name)
      · obtain ⟨name, named⟩ := known
        rw [ofJson_of_named named] at failed
        split at failed
        · exact holdsLong_of_valueOf failed
        · next items listed =>
          obtain ⟨item, member, long⟩ := holdsLong_of_nodesOf
            (inductionHypothesis members items rfl listed) (map_eq_error_iff.1 failed)
          exact .of_lookup listed (.item member long)
        · cases failed
      · rw [ofJson_of_unnamed fun name named => known ⟨name, named⟩] at failed
        exact holdsLong_of_quoting failed nofun
    | _ => exact holdsLong_of_quoting failed nofun

/-! ### Numbers in layouts -/

/-- A layout holds a layout at a depth, below folders in one another. -/
inductive Node.Holds : Node → Nat → Node → Prop where
  | here (node : Node) : Holds node 0 node
  | inside (name : String) {children : List Node} {child inner : Node} {depth : Nat}
      (member : child ∈ children) (holds : Holds child depth inner) :
      Holds (.folder name children) (depth + 1) inner

/-- The numbers of a place are words, with a sign if it follows the cursor. -/
def Anchor.InRange : Anchor → Prop
  | .absolute address => InWord false address.toNat
  | .cursor distance => InWord true distance

/-- The numbers of a kind are those that a program can have as operands. -/
def ValueKind.InRange : ValueKind → Prop
  | .integer kind =>
    (1 ≤ kind.width ∧ kind.width ≤ 8) ∧ 2 ≤ kind.base.value ∧ kind.base.value ≤ 36
  | .text _ length => ∀ count ∈ length, InWord false count

/-- All numbers in a layout are in range. -/
def Node.InRange (root : Node) : Prop :=
  ∀ depth name anchor kind, root.Holds depth (.value name anchor kind) →
    anchor.InRange ∧ kind.InRange

/-- A word stands for the integer that it was made of if that is a word, and only then. -/
theorem toNat_word_eq_iff {value : Int} : ((word value).toNat : Int) = value ↔ InWord false value := by
  have residue := toNat_word value
  constructor
  · exact fun same => ⟨by omega, by omega⟩
  · rintro ⟨low, high⟩
    omega

/-- Only distances and lengths can be out of range. -/
theorem Node.inRange_iff (root : Node) :
    root.InRange ↔
      (∀ depth name distance kind, root.Holds depth (.value name (.cursor distance) kind) →
        InWord true distance) ∧
      ∀ depth name anchor asciiOnly length,
        root.Holds depth (.value name anchor (.text asciiOnly (some length))) →
          ((word length).toNat : Int) = length := by
  constructor
  · intro inRange
    refine ⟨fun depth name distance kind holds => ?_, fun depth name anchor ascii length holds => ?_⟩
    · exact (inRange depth name (.cursor distance) kind holds).1
    · exact toNat_word_eq_iff.2 ((inRange depth name anchor _ holds).2 length rfl)
  · rintro ⟨near, short⟩ depth name anchor kind holds
    constructor
    · cases anchor with
      | absolute address => exact ⟨Int.natCast_nonneg _, Int.ofNat_lt.2 address.toNat_lt⟩
      | cursor distance => exact near depth name distance kind holds
    · cases kind with
      | integer kind =>
        exact ⟨⟨kind.one_le_width, kind.width_le_eight⟩, kind.base.two_le, kind.base.le_largest⟩
      | text asciiOnly length =>
        intro count given
        cases given
        exact toNat_word_eq_iff.1 (short depth name anchor asciiOnly count holds)

/-- A definition is read as what it describes or refused. What is read has an address, a width and
a base in range wherever there is one, and is in range altogether if its distances have 64 bits and its
lengths are what a program has for them. What is refused describes nothing, and is refused for a fault
in it unless it gives a number that is too long for a message. -/
theorem Node.ofJson_means (raw : Json) :
    match Node.ofJson raw with
    | .ok root =>
      root.Described raw ∧
        (root.InRange ↔
          (∀ depth name distance kind, root.Holds depth (.value name (.cursor distance) kind) →
            InWord true distance) ∧
          ∀ depth name anchor asciiOnly length,
            root.Holds depth (.value name anchor (.text asciiOnly (some length))) →
              ((word length).toNat : Int) = length)
    | .error failure =>
      (∀ root : Node, ¬ root.Described raw) ∧ (failure = .unshowable → raw.HoldsLong) := by
  cases read : Node.ofJson raw with
  | ok root => exact ⟨(ofJson_eq_ok_iff raw root).1 read, root.inRange_iff⟩
  | error failure =>
    refine ⟨fun root described => ?_, ?_⟩
    · rw [(ofJson_eq_ok_iff raw root).2 described] at read
      cases read
    · rintro rfl
      exact holdsLong_of_ofJson raw read

/-- A text of a number of characters at the beginning of a file. -/
def textDefinition (length : Int) : Json :=
  .object [
    ("kind", .object [("string", .object [("length", .integer length)])]),
    ("name", .string "a"),
    ("offset", .object [("absolute", .integer 0)])]

/-- A negative length is read as it is. In an empty file decoding then shows an empty text, and the
program, which asks for as many characters as a word can count, fails. -/
theorem Node.ofJson_negativeLength :
    ∃ root code, ofJson (textDefinition (-1)) = .ok root ∧ ¬ root.InRange ∧
      root.compile = .ok code ∧
      ((root.decode (.ofArray #[]) 0 40).map Prod.fst).toOption = some [⟨.value, "a: ", 0⟩] ∧
      (match Machine.run ⟨code, .ofArray #[], 0⟩ 40 5000 with
        | .ok _ _ => none
        | .error failure _ => some failure.message) = some "Short read at 0x0" := by
  refine ⟨.value "a" (.absolute 0) (.text false (some (-1))), _, rfl, fun inRange => ?_, rfl, ?_, ?_⟩
  · have negative := ((inRange 0 "a" _ _ (.here _)).2 (-1) rfl).1
    omega
  · decide +kernel
  · decide +kernel

/-! ### Long literals -/

/-- A one and zeros behind it in base sixteen. -/
def hexLiteral (zeros : Nat) : String := "0x1" ++ String.ofList (List.replicate zeros '0')

theorem readDigits_zeros (value count zeros : Nat) :
    readDigits 16 value count false (List.replicate zeros '0') =
      some (value * 16 ^ zeros, count + zeros, []) := by
  induction zeros generalizing value count with
  | zero => simp [readDigits]
  | succ zeros inductionHypothesis =>
    have step : readDigits 16 value count false ('0' :: List.replicate zeros '0') =
        readDigits 16 (value * 16) (count + 1) false (List.replicate zeros '0') := rfl
    rw [List.replicate_succ, step, inductionHypothesis, Nat.pow_succ', Nat.mul_assoc,
      Nat.add_assoc, Nat.add_comm 1]

theorem gives_hexLiteral (zeros : Nat) :
    (Json.string (hexLiteral zeros)).Gives (16 ^ zeros : Nat) := by
  have characters : (hexLiteral zeros).toList.map literalChar =
      '0' :: 'x' :: '1' :: List.replicate zeros '0' := by
    have behind : (String.ofList (List.replicate zeros '0')).toList = List.replicate zeros '0' :=
      String.toList_ofList
    rw [hexLiteral, String.toList_append, behind, List.map_append, List.map_replicate]
    rfl
  have digits : readDigits 16 0 0 true ('1' :: List.replicate zeros '0') =
      some (16 ^ zeros, 1 + zeros, []) := by
    have first : readDigits 16 0 0 true ('1' :: List.replicate zeros '0') =
        readDigits 16 1 1 false (List.replicate zeros '0') := rfl
    rw [first, readDigits_zeros, Nat.one_mul]
  have magnitude : readMagnitude 0 (hexLiteral zeros)
      ('0' :: 'x' :: '1' :: List.replicate zeros '0') = .ok (16 ^ zeros) := by
    have mark : splitMark 0 ('0' :: 'x' :: '1' :: List.replicate zeros '0') =
        (16, false, '1' :: List.replicate zeros '0') := rfl
    rw [readMagnitude, mark]
    dsimp only
    rw [digits]
    rfl
  have blank : ('0' :: 'x' :: '1' :: List.replicate zeros '0').dropWhile isLiteralBlank =
      '0' :: 'x' :: '1' :: List.replicate zeros '0' := rfl
  refine .literal ?_
  rw [readInteger, characters, blank]
  show Except.map id (Nat.cast <$> readMagnitude 0 (hexLiteral zeros) _) = _
  rw [magnitude]
  rfl

/-- A width that is too long for a message is refused without one. -/
theorem integerKindOf_hexLiteral {zeros : Nat}
    (long : Nat.pow 10 literalDigitLimit ≤ 16 ^ zeros) (name : String) :
    integerKindOf name (.object [("width", .string (hexLiteral zeros))]) =
      .error .unshowable := by
  have width : integerField (name ++ ".width") (.string (hexLiteral zeros)) =
      .ok (16 ^ zeros : Nat) :=
    integerField_eq_ok_iff.2 (gives_hexLiteral zeros)
  have outside : ¬ (1 ≤ ((16 ^ zeros : Nat) : Int).toNat ∧ ((16 ^ zeros : Nat) : Int).toNat ≤ 8) := by
    have large : 8 < Nat.pow 10 literalDigitLimit := by decide +kernel
    rw [Int.toNat_natCast]
    omega
  have hidden : (Json.integer (16 ^ zeros : Nat)).isShowable = false := by
    rw [Json.isShowable, decide_eq_false_iff_not, Int.natAbs_natCast]
    exact Nat.not_lt.2 long
  refine bind_eq_error_iff.2 (.inr ⟨_, width, ?_⟩)
  have refused : IntegerKind.ofFields (16 ^ zeros : Nat) .little .unsigned 10 =
      .error .unshowable := by
    rw [IntegerKind.ofFields, dif_neg outside, DefinitionFailure.quoting, hidden]
    rfl
  exact refused

example : integerKindOf "a" (.object [("width", .string (hexLiteral 3600))]) =
    .error .unshowable :=
  integerKindOf_hexLiteral (by decide +kernel) "a"

end HexEditor
