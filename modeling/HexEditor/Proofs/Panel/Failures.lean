/-
Why a struct may show nothing. Some failures are foreseen where the rows beside the bytes are
computed: those of a program and of a layout, errors of the operating system, and offsets that
no file has. Others would mean that there is no room, or that a cell lies before the first one
or holds no word, and nobody is prepared for them. Whatever a program or a layout does, they do
not arise unless the bytes themselves fail in such a way, and those of a file do not.
-/

import HexEditor.Proofs.Storage.Failures
import HexEditor.Struct

namespace HexEditor

/-! ### Foreseen failures -/

def CellFailure.isForeseen : CellFailure → Bool
  | unset _ => true
  | outOfRange _ => true
  | _ => false

def RunFailure.isForeseen : RunFailure → Bool
  | cell failure => failure.isForeseen
  | text failure => failure.isForeseen
  | storage failure => failure.isForeseen
  | _ => true

def AnnotationFailure.isForeseen : AnnotationFailure → Bool
  | run failure => failure.isForeseen
  | decoding failure => failure.isForeseen

/-! ### Programs -/

namespace Machine

variable {setting : RunSetting}

theorem Arises.isForeseen (foreseen : setting.reader.Foreseen) {instruction : Instruction}
    {failure : RunFailure} (arises : Arises setting instruction failure) :
    failure.isForeseen = true := by
  cases arises with
  | notRead refused => exact foreseen refused
  | noTextThere refused => exact foreseen.text refused
  | _ => rfl

theorem foreseen_of_step (foreseen : setting.reader.Foreseen) {machine after : Machine}
    {failure : RunFailure} (failed : step setting machine = .error failure after) :
    failure.isForeseen = true := by
  have possible := stepped setting machine
  rw [failed] at possible
  cases possible with
  | unfetched => rfl
  | failed _ arises => exact arises.isForeseen foreseen

/-- A run that fails does so where its budget is used up or at a step. -/
theorem foreseen_of_run (foreseen : setting.reader.Foreseen) {rows limit : Int}
    {after : Machine} {failure : RunFailure}
    (failed : run setting rows limit = .error failure after) : failure.isForeseen = true := by
  have ends := endsWithin_runSteps setting limit limit.toNat { panel := .ofRows rows }
  rw [run] at failed
  rw [failed] at ends
  cases ends with
  | spent => rfl
  | failed _ _ _ stopped => exact foreseen_of_step foreseen stopped

end Machine

/-! ### Layouts -/

namespace Decoding

/-- A part of a walk fails as foreseen only. -/
abbrev EndsForeseen {Value : Type} (part : Decoding Value) : Prop :=
  Action.Ends (fun _ => True) (fun failure => failure.isForeseen = true) part

theorem ends_orFail {Failure Value : Type} {cause : Failure → ByteReader.TextFailure}
    {result : Except Failure Value}
    (foreseen : ∀ failure, result = .error failure → (cause failure).isForeseen = true) :
    EndsForeseen (orFail cause result) := by
  cases result with
  | ok value => exact Action.ends_pure value
  | error failure => exact Action.ends_throw (foreseen failure rfl)

theorem ends_write (rows : Panel → Bool × Panel) : EndsForeseen (write rows) :=
  fun _ _ => trivial

theorem ends_remember (path : List String) (value : DecodedValue) :
    EndsForeseen (remember path value) :=
  fun _ _ => trivial

variable {reader : ByteReader}

theorem ends_decodeValue (foreseen : reader.Foreseen) (cursor : Int) (path : List String)
    (name : String) (anchor : Anchor) (kind : ValueKind) :
    EndsForeseen (decodeValue reader cursor path name anchor kind) := by
  cases kind with
  | integer kind =>
    refine Action.ends_bind (ends_orFail fun _ refused => foreseen refused) fun bytes => ?_
    exact Action.ends_bind (ends_remember _ _) fun _ => ends_write _
  | text asciiOnly length =>
    refine Action.ends_bind (ends_orFail fun _ refused => foreseen.text refused) fun text => ?_
    exact Action.ends_bind (ends_remember _ _) fun _ => ends_write _

/-- A walk goes on where there is room and stops where there is none. -/
theorem ends_goOn {first onward : Decoding Bool} (here : EndsForeseen first)
    (behind : EndsForeseen onward) :
    EndsForeseen (first >>= fun fitted => if fitted then onward else pure false) := by
  refine Action.ends_bind here fun fitted => ?_
  cases fitted with
  | true => exact behind
  | false => exact Action.ends_pure false

mutual

/-- A walk through a layout fails as foreseen if reads do. -/
theorem ends_walk (foreseen : reader.Foreseen) (cursor : Int) (depth : Nat)
    (path : List String) : (node : Node) → EndsForeseen (walk reader cursor depth path node)
  | .folder name children => by
    rw [walk]
    exact ends_goOn (ends_write _)
      (ends_walkAll foreseen cursor (depth + 1) (path ++ [name]) children)
  | .value name anchor kind => by
    rw [walk]
    exact ends_decodeValue foreseen cursor path name anchor kind

theorem ends_walkAll (foreseen : reader.Foreseen) (cursor : Int) (depth : Nat)
    (path : List String) :
    (nodes : List Node) → EndsForeseen (walkAll reader cursor depth path nodes)
  | [] => by
    rw [walkAll]
    exact Action.ends_pure true
  | node :: rest => by
    rw [walkAll]
    exact ends_goOn (ends_walk foreseen cursor depth path node)
      (ends_walkAll foreseen cursor depth path rest)

end

end Decoding

/-! ### Structs -/

/-- A struct shows its rows or fails as foreseen, if reads do. -/
theorem Struct.foreseen_of_annotate {struct : Struct} {reader : ByteReader}
    (foreseen : reader.Foreseen) {cursor rows : Int} {failure : AnnotationFailure}
    (failed : struct.annotate reader cursor rows = .error failure) :
    failure.isForeseen = true := by
  cases struct with
  | program code =>
    rw [annotate, runProgram] at failed
    cases ran : Machine.run ⟨code, reader, cursor⟩ rows defaultStepLimit with
    | ok value machine =>
      rw [ran] at failed
      cases failed
    | error cause machine =>
      rw [ran] at failed
      cases failed
      exact Machine.foreseen_of_run foreseen ran
  | layout root values =>
    rw [annotate, Node.decode] at failed
    have ends := Decoding.ends_walk foreseen cursor 0 [] root { panel := .ofRows rows } trivial
    generalize Decoding.walk reader cursor 0 [] root { panel := .ofRows rows } = walked
      at ends failed
    cases walked with
    | ok fitted progress => cases failed
    | error cause progress =>
      cases failed
      exact ends.2

end HexEditor
