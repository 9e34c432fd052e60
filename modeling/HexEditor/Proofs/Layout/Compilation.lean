/-
The program of a layout shows what decoding by the layout shows. The walk through the
tree and the run of its code go side by side: where the walk has come to some panel, the
machine is behind the code of the same nodes with the same panel, in the byte order that
the compiler keeps track of, and with both stacks as they were. Where the panel is full
the walk ends and the machine halts, and where the walk fails for want of bytes or text
the machine fails at the load of the same value.
-/

import HexEditor.Layout.Decoding
import HexEditor.Proofs.Action
import HexEditor.Proofs.Layout.Pieces

namespace HexEditor

/-- A failure of a run is the one that a walk meets at the same bytes. -/
inductive RunFailure.Mirrors : RunFailure → ByteReader.TextFailure → Prop where
  | text (failure : ByteReader.TextFailure) : Mirrors (.text failure) failure
  | storage (failure : StorageFailure) : Mirrors (.storage failure) (.storage failure)

theorem RunFailure.Mirrors.message_eq {cause : RunFailure} {failure : ByteReader.TextFailure}
    (mirrors : cause.Mirrors failure) : cause.message = failure.message := by
  cases mirrors with
  | text failure => rfl
  | storage failure => rfl

/-! ### Following a walk -/

namespace Machine

/-- What a part of a walk comes to. -/
abbrev Walked := EStateM.Result ByteReader.TextFailure DecodingProgress Bool

/-- Wherever some code stands, a machine that begins it does what a part of a walk comes to. -/
def Follows (setting : RunSetting) (code : List Instruction) (before : Machine)
    (after : Panel → Machine) (walked : Walked) : Prop :=
  ∀ position, Stands setting.code position (encodeAll code) →
    match walked with
    | .ok true progress =>
      Reaches setting code.length { before with counter := position }
        { after progress.panel with counter := position + (encodeAll code).length }
    | .ok false progress =>
      ∃ last, Reaches setting code.length { before with counter := position } last ∧
        last.halted = true ∧ last.panel = progress.panel
    | .error failure _ =>
      ∃ last cause left, Reaches setting code.length { before with counter := position } last ∧
        last.isDone setting = false ∧ step setting last = .error cause left ∧ cause.Mirrors failure

variable {setting : RunSetting} {before middle : Machine} {after : Panel → Machine}
  {first second : List Instruction} {progress : DecodingProgress} {walked : Walked}

theorem Carries.follows (carries : Carries setting first before (after progress.panel)) :
    Follows setting first before after (.ok true progress) :=
  carries

/-- Code that only prepares for other code comes before it. -/
theorem Carries.append_follows (carries : Carries setting first before middle)
    (follows : Follows setting second middle after walked) :
    Follows setting (first ++ second) before after walked := by
  intro position stands
  rw [encodeAll_append] at stands ⊢
  obtain ⟨here, behind⟩ := ByteSupply.supplies_append stands
  have reached := carries position here
  have followed := follows _ behind
  rw [List.length_append, List.length_append, ← Nat.add_assoc]
  cases walked with
  | ok fitted progress =>
    cases fitted with
    | true => exact reached.trans followed
    | false =>
      obtain ⟨last, onward, halted, panel⟩ := followed
      exact ⟨last, reached.trans onward, halted, panel⟩
  | error failure progress =>
    obtain ⟨last, cause, left, onward, going, failed, mirrors⟩ := followed
    exact ⟨last, cause, left, reached.trans onward, going, failed, mirrors⟩

/-- What a walk comes to that goes on in another part if there was room in the first. -/
def Walked.andThen (walked : Walked) (next : DecodingProgress → Walked) : Walked :=
  match walked with
  | .ok true progress => next progress
  | .ok false progress => .ok false progress
  | .error failure progress => .error failure progress

/-- The code of two parts of a walk follows both, one behind the other. -/
theorem Follows.append {between : Panel → Machine} {next : DecodingProgress → Walked}
    (follows : Follows setting first before between walked)
    (onward : ∀ progress, walked = .ok true progress →
      Follows setting second (between progress.panel) after (next progress)) :
    Follows setting (first ++ second) before after (walked.andThen next) := by
  cases walked with
  | ok fitted progress =>
    cases fitted with
    | true => exact Carries.append_follows follows (onward progress rfl)
    | false =>
      intro position stands
      rw [encodeAll_append] at stands
      obtain ⟨last, reached, halted, panel⟩ := follows _ (ByteSupply.supplies_append stands).1
      rw [List.length_append]
      exact ⟨last, reached.mono (Nat.le_add_right _ _), halted, panel⟩
  | error failure progress =>
    intro position stands
    rw [encodeAll_append] at stands
    obtain ⟨last, cause, left, reached, going, failed, mirrors⟩ :=
      follows _ (ByteSupply.supplies_append stands).1
    rw [List.length_append]
    exact ⟨last, cause, left, reached.mono (Nat.le_add_right _ _), going, failed, mirrors⟩

/-- An instruction that halts the machine ends the walk. -/
theorem follows_of_halt (room : setting.code.size ≤ wordLimit) (running : before.halted = false)
    {instruction : Instruction} {rest : List Instruction} (last : Machine)
    (executed : ∀ start counter,
      execute setting start instruction { before with counter } = .ok () { last with counter })
    (halted : last.halted = true) (panel : last.panel = progress.panel) :
    Follows setting (instruction :: rest) before after (.ok false progress) := by
  intro position stands
  obtain ⟨here, _⟩ := ByteSupply.supplies_append (stands : Stands _ _ (_ ++ encodeAll rest))
  have going : ({ before with counter := position } : Machine).isDone setting = false :=
    isDone_of_stands running here
  have stepped := step_of_stands room { before with counter := position } here
  rw [executed] at stepped
  refine ⟨_, (Reaches.step going stepped (.here 0 _)).mono ?_, halted, panel⟩
  exact Nat.le_add_left 1 rest.length

/-- An instruction that fails lets the walk fail. -/
theorem follows_of_error (room : setting.code.size ≤ wordLimit) (running : before.halted = false)
    {instruction : Instruction} {rest : List Instruction} {cause : RunFailure}
    {failure : ByteReader.TextFailure}
    (executed : ∀ start counter, ∃ left,
      execute setting start instruction { before with counter } = .error cause left)
    (mirrors : cause.Mirrors failure) :
    Follows setting (instruction :: rest) before after (.error failure progress) := by
  intro position stands
  obtain ⟨here, _⟩ := ByteSupply.supplies_append (stands : Stands _ _ (_ ++ encodeAll rest))
  have going : ({ before with counter := position } : Machine).isDone setting = false :=
    isDone_of_stands running here
  have stepped := step_of_stands room { before with counter := position } here
  obtain ⟨left, failed⟩ := executed position (position + instruction.encode.length)
  rw [failed] at stepped
  exact ⟨_, cause, left, .here _ _, going, stepped, mirrors⟩

end Machine

/-! ### Decoding one value -/

namespace Decoding

variable {reader : ByteReader} {cursor : Int} {progress : DecodingProgress}

/-- A value that is decoded is remembered and shown. -/
def shown (progress : DecodingProgress) (path : List String) (name : String) (value : DecodedValue)
    (text : String) : EStateM.Result ByteReader.TextFailure DecodingProgress Bool :=
  .ok (progress.panel.value name text).1
    { panel := (progress.panel.value name text).2
      values := Table.set (path ++ [name]) value progress.values }

theorem decodeValue_integer_of_ok (path : List String) (name : String) {anchor : Anchor}
    {kind : IntegerKind} {bytes : List UInt8}
    (found : reader.read (anchor.address cursor).toNat kind.width = .ok bytes) :
    decodeValue reader cursor path name anchor (.integer kind) progress =
      shown progress path name (.integer (kind.decode bytes))
        (kind.display (kind.decode bytes)) := by
  have taken : orFail .storage (reader.read (anchor.address cursor).toNat kind.width) progress =
      .ok bytes progress := by
    rw [found]
    rfl
  exact Action.bind_of_ok taken

theorem decodeValue_integer_of_error (path : List String) (name : String) {anchor : Anchor}
    {kind : IntegerKind} {failure : StorageFailure}
    (failed : reader.read (anchor.address cursor).toNat kind.width = .error failure) :
    decodeValue reader cursor path name anchor (.integer kind) progress =
      .error (.storage failure) progress := by
  have missed : orFail .storage (reader.read (anchor.address cursor).toNat kind.width) progress =
      .error (.storage failure) progress := by
    rw [failed]
    rfl
  exact Action.bind_of_error missed

theorem decodeValue_text_of_ok (path : List String) (name : String) {anchor : Anchor}
    {asciiOnly : Bool} {length : Option Int} {text : String}
    (found :
      reader.text asciiOnly (length.map Int.toNat) (anchor.address cursor).toNat = .ok text) :
    decodeValue reader cursor path name anchor (.text asciiOnly length) progress =
      shown progress path name (.text text) text := by
  have taken : orFail id
      (reader.text asciiOnly (length.map Int.toNat) (anchor.address cursor).toNat) progress =
        .ok text progress := by
    rw [found]
    rfl
  exact Action.bind_of_ok taken

theorem decodeValue_text_of_error (path : List String) (name : String) {anchor : Anchor}
    {asciiOnly : Bool} {length : Option Int} {failure : ByteReader.TextFailure}
    (failed : reader.text asciiOnly (length.map Int.toNat) (anchor.address cursor).toNat =
      .error failure) :
    decodeValue reader cursor path name anchor (.text asciiOnly length) progress =
      .error failure progress := by
  have missed : orFail id
      (reader.text asciiOnly (length.map Int.toNat) (anchor.address cursor).toNat) progress =
        .error failure progress := by
    rw [failed]
    rfl
  exact Action.bind_of_error missed

end Decoding

namespace Machine

variable {setting : RunSetting} {machine before : Machine} {progress : DecodingProgress}

/-! ### Loads and shows -/

/-- Loading an integer takes its offset off the stack. -/
theorem execute_loadInteger (machine : Machine) (width : LoadWidth) (signed : Bool)
    (offset : UInt64)
    (stack : List UInt64) (start : Nat) :
    execute setting start (.loadInteger width signed) { machine with stack := offset :: stack } =
      (orFail .storage (setting.reader.read offset.toNat width.bytes) >>= fun bytes => do
        push (decodeInteger (← get).order signed bytes)) { machine with stack } :=
  rfl

theorem execute_loadInteger_of_ok (machine : Machine) {width : LoadWidth} {offset : UInt64}
    {bytes : List UInt8}
    (found : setting.reader.read offset.toNat width.bytes = .ok bytes) (signed : Bool)
    (stack : List UInt64) (start : Nat) :
    execute setting start (.loadInteger width signed) { machine with stack := offset :: stack } =
      .ok () { machine with stack := decodeInteger machine.order signed bytes :: stack } := by
  have taken : orFail .storage (setting.reader.read offset.toNat width.bytes)
      { machine with stack } = .ok bytes { machine with stack } := by
    rw [found]
    rfl
  rw [execute_loadInteger, Action.bind_of_ok taken]
  rfl

theorem execute_loadInteger_of_error (machine : Machine) {width : LoadWidth} {offset : UInt64}
    {failure : StorageFailure}
    (failed : setting.reader.read offset.toNat width.bytes = .error failure) (signed : Bool)
    (stack : List UInt64) (start : Nat) :
    execute setting start (.loadInteger width signed) { machine with stack := offset :: stack } =
      .error (.storage failure) { machine with stack } := by
  have missed : orFail .storage (setting.reader.read offset.toNat width.bytes)
      { machine with stack } = .error (.storage failure) { machine with stack } := by
    rw [failed]
    rfl
  rw [execute_loadInteger, Action.bind_of_error missed]

/-- Loading a text takes its offset off the stack, and before it the number of characters if there
is one. -/
theorem execute_loadText (machine : Machine) (asciiOnly : Bool) (length : Option UInt64)
    (offset : UInt64)
    (stack : List UInt64) (start : Nat) :
    execute setting start (.loadText asciiOnly length.isSome)
        { machine with stack := length.toList ++ offset :: stack } =
      (orFail .text (setting.reader.text asciiOnly (length.map UInt64.toNat) offset.toNat) >>=
        pushText) { machine with stack } := by
  cases length with
  | none => rfl
  | some count => rfl

theorem execute_loadText_of_ok (machine : Machine) {asciiOnly : Bool} {length : Option UInt64}
    {offset : UInt64}
    {text : String}
    (found : setting.reader.text asciiOnly (length.map UInt64.toNat) offset.toNat = .ok text)
    (stack : List UInt64) (start : Nat) :
    execute setting start (.loadText asciiOnly length.isSome)
        { machine with stack := length.toList ++ offset :: stack } =
      .ok () { machine with stack, texts := text :: machine.texts } := by
  have taken : orFail .text (setting.reader.text asciiOnly (length.map UInt64.toNat) offset.toNat)
      { machine with stack } = .ok text { machine with stack } := by
    rw [found]
    rfl
  rw [execute_loadText, Action.bind_of_ok taken]
  rfl

theorem execute_loadText_of_error (machine : Machine) {asciiOnly : Bool} {length : Option UInt64}
    {offset : UInt64}
    {failure : ByteReader.TextFailure}
    (failed : setting.reader.text asciiOnly (length.map UInt64.toNat) offset.toNat = .error failure)
    (stack : List UInt64) (start : Nat) :
    execute setting start (.loadText asciiOnly length.isSome)
        { machine with stack := length.toList ++ offset :: stack } =
      .error (.text failure) { machine with stack } := by
  have missed : orFail .text (setting.reader.text asciiOnly (length.map UInt64.toNat) offset.toNat)
      { machine with stack } = .error (.text failure) { machine with stack } := by
    rw [failed]
    rfl
  rw [execute_loadText, Action.bind_of_error missed]

/-- Showing a value follows what the walk shows of it. -/
theorem follows_show (machine : Machine) (room : setting.code.size ≤ wordLimit)
    (running : before.halted = false)
    (after : machine.halted = false) {instruction : Instruction} {name text : String}
    (executed : ∀ start counter,
      execute setting start instruction { before with counter } =
        .ok () { machine with
          counter, panel := (machine.panel.value name text).2,
          halted := !(machine.panel.value name text).1 })
    (panel : progress.panel = machine.panel) (path : List String) (value : DecodedValue) :
    Follows setting [instruction] before (fun panel => { machine with panel })
      (Decoding.shown progress path name value text) := by
  rw [Decoding.shown, panel]
  rcases fits : machine.panel.value name text with ⟨fitted, written⟩
  rw [fits] at executed
  cases fitted with
  | true =>
    refine Carries.follows (.one room running fun start counter => ?_)
    rw [executed, Bool.not_true, ← after]
  | false =>
    exact follows_of_halt room running { machine with panel := written, halted := true } executed
      rfl rfl

/-! ### Values -/

theorem ofInt?_base (base : Radix) : Radix.ofInt? (UInt8.ofNat base.value).toNat = some base := by
  obtain ⟨value, low, high⟩ := base
  have small : (UInt8.ofNat value).toNat = value := by
    have limit : largestBase < 256 := by decide
    exact UInt8.toNat_ofNat_of_lt' (by show value < 256; omega)
  have same : ((UInt8.ofNat value).toNat : Int).toNat = value := by
    rw [small, Int.toNat_natCast]
  rw [Radix.ofInt?]
  simp only [same, low, high, and_self, dite_true]

/-- Showing an integer in the base and form of a kind shows it as that kind displays it. -/
theorem execute_showInteger (machine : Machine) (kind : IntegerKind) (name : String)
    (value origin : UInt64)
    (stack : List UInt64) (texts : List String) (start : Nat) :
    execute setting start
        (.showInteger (if kind.signed then 0x01 else 0x00) (UInt8.ofNat kind.base.value))
        { machine with stack := value :: origin :: stack, texts := name :: texts } =
      .ok () { machine with
        stack, texts, panel := (machine.panel.value name (kind.display value)).2,
        halted := !(machine.panel.value name (kind.display value)).1 } := by
  rw [IntegerKind.display, execute, ofInt?_base kind.base]
  cases kind.signed with
  | false => rfl
  | true => rfl

/-- The code of an integer follows the walk over it, and leaves the machine in its byte order. -/
theorem follows_integer (room : setting.code.size ≤ wordLimit) (running : machine.halted = false)
    {kind : IntegerKind} {width : LoadWidth} (wide : LoadWidth.ofBytes? kind.width = some width)
    (panel : progress.panel = machine.panel) (path : List String) (name : String)
    (anchor : Anchor) :
    Follows setting (anchor.code ++ .duplicate :: kind.code width machine.order name) machine
      (fun panel => { machine with order := kind.order, panel })
      (Decoding.decodeValue setting.reader setting.cursor path name anchor (.integer kind)
        progress) := by
  let address := anchor.address setting.cursor
  have duplicated : Carries setting [.duplicate]
      { machine with stack := address :: machine.stack }
      { machine with stack := address :: address :: machine.stack } :=
    .one room running fun _ _ => rfl
  have ordered : Carries setting
      (if kind.order = machine.order then [] else [.setOrder kind.order])
      { machine with stack := address :: address :: machine.stack }
      { machine with order := kind.order, stack := address :: address :: machine.stack } := by
    by_cases same : kind.order = machine.order
    · rw [if_pos same, same]
      exact .nil setting _
    · rw [if_neg same]
      exact .one room running fun _ _ => rfl
  have prepared := (carries_anchor room running anchor).append (duplicated.append ordered)
  have parts : anchor.code ++ .duplicate :: kind.code width machine.order name =
      anchor.code ++ ([.duplicate] ++ if kind.order = machine.order then [] else
        [.setOrder kind.order]) ++
      .loadInteger width (kind.sign == .twosComplement) :: (kind.signCode ++ ([.pushText name] ++
        [.showInteger (if kind.signed then 0x01 else 0x00) (UInt8.ofNat kind.base.value)])) := by
    simp [IntegerKind.code]
  rw [parts]
  refine prepared.append_follows ?_
  cases found : setting.reader.read address.toNat kind.width with
  | error failure =>
    rw [Decoding.decodeValue_integer_of_error path name found]
    rw [← Int.ofNat.inj (LoadWidth.bytes_of_ofBytes? wide)] at found
    refine follows_of_error room ?_ (fun start counter => ?_) (.storage failure)
    · exact running
    · exact ⟨_, execute_loadInteger_of_error { machine with counter, order := kind.order } found _ _
        start⟩
  | ok bytes =>
    rw [Decoding.decodeValue_integer_of_ok path name found, IntegerKind.decode_eq_mend]
    rw [← Int.ofNat.inj (LoadWidth.bytes_of_ofBytes? wide)] at found
    let loaded := decodeInteger kind.order (kind.sign == .twosComplement) bytes
    have load : Carries setting [.loadInteger width (kind.sign == .twosComplement)]
        { machine with order := kind.order, stack := address :: address :: machine.stack }
        { machine with order := kind.order, stack := loaded :: address :: machine.stack } :=
      .one room running fun start counter =>
        execute_loadInteger_of_ok { machine with counter, order := kind.order } found _ _ start
    have mended := carries_signCode { machine with order := kind.order } room running kind loaded
      (address :: machine.stack)
    have named : Carries setting [.pushText name]
        { machine with order := kind.order, stack := kind.mend loaded :: address :: machine.stack }
        { machine with
          order := kind.order, stack := kind.mend loaded :: address :: machine.stack,
          texts := name :: machine.texts } :=
      .one room running fun _ _ => rfl
    have shown : Follows setting
        [.showInteger (if kind.signed then 0x01 else 0x00) (UInt8.ofNat kind.base.value)]
        { machine with
          order := kind.order, stack := kind.mend loaded :: address :: machine.stack,
          texts := name :: machine.texts }
        (fun panel => { machine with order := kind.order, panel })
        (Decoding.shown progress path name (.integer (kind.mend loaded))
          (kind.display (kind.mend loaded))) := by
      refine follows_show { machine with order := kind.order } room ?_ running
        (fun start counter => ?_) panel path _
      · exact running
      · exact execute_showInteger { machine with counter, order := kind.order } kind name
          _ _ _ _ start
    exact load.append_follows (mended.append_follows (named.append_follows shown))

/-- The number of characters of a text that fits into a word is the one that is pushed. -/
theorem map_toNat_word {length : Option Int}
    (sized : ∀ count ∈ length, 0 ≤ count ∧ count ≤ wordLimit) :
    (length.map word).map UInt64.toNat = length.map Int.toNat := by
  cases length with
  | none => rfl
  | some count =>
    obtain ⟨natural, small⟩ := sized count rfl
    have here := toNat_word count
    rw [wordLimit] at small
    have same : (word count).toNat = count.toNat := by omega
    exact congrArg some same

/-- The code of a text follows the walk over it. -/
theorem follows_text (room : setting.code.size ≤ wordLimit) (running : machine.halted = false)
    (asciiOnly : Bool) {length : Option Int}
    (sized : ∀ count ∈ length, 0 ≤ count ∧ count ≤ wordLimit)
    (panel : progress.panel = machine.panel) (path : List String) (name : String)
    (anchor : Anchor) :
    Follows setting (anchor.code ++ .duplicate :: textCode asciiOnly length name) machine
      (fun panel => { machine with panel })
      (Decoding.decodeValue setting.reader setting.cursor path name anchor (.text asciiOnly length)
        progress) := by
  let address := anchor.address setting.cursor
  have duplicated : Carries setting [.duplicate]
      { machine with stack := address :: machine.stack }
      { machine with stack := address :: address :: machine.stack } :=
    .one room running fun _ _ => rfl
  have counted : Carries setting (length.map fun count => .pushInteger (word count)).toList
      { machine with stack := address :: address :: machine.stack }
      { machine with
        stack := (length.map word).toList ++ address :: address :: machine.stack } := by
    cases length with
    | none => exact .nil setting _
    | some count => exact .one room running fun _ _ => rfl
  have prepared := (carries_anchor room running anchor).append (duplicated.append counted)
  have parts : anchor.code ++ .duplicate :: textCode asciiOnly length name =
      anchor.code ++ ([.duplicate] ++ (length.map fun count => .pushInteger (word count)).toList) ++
      .loadText asciiOnly (length.map word).isSome :: ([.pushText name] ++ [.showText 0x00]) := by
    cases length with
    | none => simp [textCode]
    | some count => simp [textCode]
  rw [parts]
  refine prepared.append_follows ?_
  cases found : setting.reader.text asciiOnly (length.map Int.toNat) address.toNat with
  | error failure =>
    rw [Decoding.decodeValue_text_of_error path name found]
    rw [← map_toNat_word sized] at found
    refine follows_of_error room ?_ (fun start counter => ?_) (.text failure)
    · exact running
    · exact ⟨_, execute_loadText_of_error { machine with counter } found _ start⟩
  | ok text =>
    rw [Decoding.decodeValue_text_of_ok path name found]
    rw [← map_toNat_word sized] at found
    have load : Carries setting [.loadText asciiOnly (length.map word).isSome]
        { machine with stack := (length.map word).toList ++ address :: address :: machine.stack }
        { machine with stack := address :: machine.stack, texts := text :: machine.texts } :=
      .one room running fun start counter =>
        execute_loadText_of_ok { machine with counter } found _ start
    have named : Carries setting [.pushText name]
        { machine with stack := address :: machine.stack, texts := text :: machine.texts }
        { machine with
          stack := address :: machine.stack, texts := name :: text :: machine.texts } :=
      .one room running fun _ _ => rfl
    have shown : Follows setting [.showText 0x00]
        { machine with stack := address :: machine.stack, texts := name :: text :: machine.texts }
        (fun panel => { machine with panel })
        (Decoding.shown progress path name (.text text) text) := by
      refine follows_show machine room ?_ running (fun start counter => ?_) panel path _
      · exact running
      · rfl
    exact load.append_follows (named.append_follows shown)

end Machine

/-! ### Walking through layouts -/

/-- The number of characters of a text is a word, if it is given. -/
def ValueKind.Sized : ValueKind → Prop
  | .integer _ => True
  | .text _ length => ∀ count ∈ length, 0 ≤ count ∧ count ≤ wordLimit

mutual

/-- All numbers of characters in a layout are words. -/
def Node.Sized : Node → Prop
  | .folder _ children => nodesSized children
  | .value _ _ kind => kind.Sized

def nodesSized : List Node → Prop
  | [] => True
  | node :: rest => node.Sized ∧ nodesSized rest

end

namespace Machine

variable {setting : RunSetting}

/-- A walk through layouts goes on behind the first one if there was room. -/
theorem walkAll_cons (reader : ByteReader) (cursor : Int) (depth : Nat) (path : List String)
    (node : Node) (rest : List Node) (progress : DecodingProgress) :
    Decoding.walkAll reader cursor depth path (node :: rest) progress =
      Walked.andThen (Decoding.walk reader cursor depth path node progress)
        (Decoding.walkAll reader cursor depth path rest) := by
  rw [Decoding.walkAll]
  cases walked : Decoding.walk reader cursor depth path node progress with
  | ok fitted progress =>
    rw [Action.bind_of_ok walked]
    cases fitted with
    | true => rfl
    | false => rfl
  | error failure progress => exact Action.bind_of_error walked

/-- The header of a folder is shown before the walk goes on, which it does if there was room. -/
theorem walk_folder (reader : ByteReader) (cursor : Int) (depth : Nat) (path : List String)
    (name : String) (children : List Node) (progress : DecodingProgress) :
    Decoding.walk reader cursor depth path (.folder name children) progress =
      Walked.andThen
        (.ok (progress.panel.header name depth).1
          { progress with panel := (progress.panel.header name depth).2 })
        (Decoding.walkAll reader cursor (depth + 1) (path ++ [name]) children) := by
  rw [Decoding.walk]
  have wrote : Decoding.write (fun panel => panel.header name depth) progress =
      .ok (progress.panel.header name depth).1
        { progress with panel := (progress.panel.header name depth).2 } := rfl
  rw [Action.bind_of_ok wrote]
  cases (progress.panel.header name depth).1 with
  | true => rfl
  | false => rfl

/-- The code that shows the header of a folder. -/
def headerCode (name : String) (depth : Nat) : List Instruction :=
  [.pushText name, .showHeader (UInt8.ofNat depth), .drop]

/-- The header of a folder that is not too deep is shown at its depth, or the machine halts. -/
theorem follows_header {machine : Machine} (room : setting.code.size ≤ wordLimit)
    (running : machine.halted = false) (name : String) {depth : Nat} (shallow : depth < 256)
    (values : DecodedValues) :
    Follows setting (headerCode name depth) machine (fun panel => { machine with panel })
      (.ok (machine.panel.header name depth).1
        { panel := (machine.panel.header name depth).2, values }) := by
  have level : (UInt8.ofNat depth).toNat = depth := UInt8.toNat_ofNat_of_lt' shallow
  have named : Carries setting [.pushText name] machine
      { machine with texts := name :: machine.texts } :=
    .one room running fun _ _ => rfl
  rcases fits : machine.panel.header name depth with ⟨fitted, written⟩
  have executed : ∀ start counter, execute setting start (.showHeader (UInt8.ofNat depth))
      { machine with counter, texts := name :: machine.texts } =
        if fitted then
          .ok () { machine with
            counter, panel := written, halted := false, stack := 1 :: machine.stack }
        else .ok () { machine with counter, panel := written, halted := true } := by
    intro start counter
    have wrote : write (fun panel => panel.header name (UInt8.ofNat depth).toNat)
        { machine with counter } =
          .ok fitted { machine with counter, panel := written, halted := !fitted } := by
      rw [write, level, fits]
    refine (Action.bind_of_ok (rfl : popText
      { machine with counter, texts := name :: machine.texts } = .ok name _)).trans ?_
    rw [Action.bind_of_ok wrote]
    cases fitted with
    | true => rfl
    | false => rfl
  cases fitted with
  | true =>
    have shown : Carries setting [.showHeader (UInt8.ofNat depth)]
        { machine with texts := name :: machine.texts }
        { machine with panel := written, stack := 1 :: machine.stack } := by
      refine .one room running fun start counter => ?_
      rw [executed, if_pos rfl, ← running]
    have dropped : Carries setting [.drop]
        { machine with panel := written, stack := 1 :: machine.stack }
        { machine with panel := written } :=
      .one room running fun _ _ => rfl
    exact Carries.follows (named.cons (shown.cons dropped))
  | false =>
    refine named.append_follows (follows_of_halt room ?_
      { machine with panel := written, halted := true } (fun start counter => ?_) rfl rfl)
    · exact running
    · exact executed start counter

mutual

/-- The code of a layout follows the walk through it. -/
theorem follows_walk (machine : Machine) (progress : DecodingProgress)
    (room : setting.code.size ≤ wordLimit) (running : machine.halted = false)
    (panel : progress.panel = machine.panel) (node : Node) (sized : node.Sized) {depth : Nat}
    {code : List Instruction} {order : ByteOrder}
    (compiled : Node.code depth machine.order node = .ok (code, order)) (path : List String) :
    Follows setting code machine (fun panel => { machine with order, panel })
      (Decoding.walk setting.reader setting.cursor depth path node progress) := by
  cases node with
  | folder name children =>
    rw [Node.code] at compiled
    by_cases shallow : depth < 256
    · rw [if_pos shallow] at compiled
      cases inside : nodesCode (depth + 1) machine.order children with
      | error failure =>
        rw [inside] at compiled
        cases compiled
      | ok pair =>
        obtain ⟨childCode, childOrder⟩ := pair
        rw [inside] at compiled
        cases compiled
        -- the header is shown first, and the children are walked through if it fitted
        have header := follows_header room running name shallow progress.values
        rw [← panel] at header
        rw [walk_folder]
        refine header.append fun shown _ => ?_
        exact follows_walkAll { machine with panel := shown.panel } shown room running rfl children
          sized inside (path ++ [name])
    · rw [if_neg shallow] at compiled
      cases compiled
  | value name anchor kind =>
    cases kind with
    | integer kind =>
      rw [Node.code] at compiled
      cases wide : LoadWidth.ofBytes? kind.width with
      | none =>
        rw [wide] at compiled
        cases compiled
      | some width =>
        rw [wide] at compiled
        cases compiled
        rw [Decoding.walk]
        exact follows_integer room running wide panel path name anchor
    | text asciiOnly length =>
      rw [Node.code] at compiled
      cases compiled
      rw [Decoding.walk]
      exact follows_text room running asciiOnly sized panel path name anchor

/-- The code of layouts follows the walk through them, one after the other. -/
theorem follows_walkAll (machine : Machine) (progress : DecodingProgress)
    (room : setting.code.size ≤ wordLimit) (running : machine.halted = false)
    (panel : progress.panel = machine.panel) (nodes : List Node) (sized : nodesSized nodes)
    {depth : Nat} {code : List Instruction} {order : ByteOrder}
    (compiled : nodesCode depth machine.order nodes = .ok (code, order)) (path : List String) :
    Follows setting code machine (fun panel => { machine with order, panel })
      (Decoding.walkAll setting.reader setting.cursor depth path nodes progress) := by
  cases nodes with
  | nil =>
    rw [nodesCode] at compiled
    cases compiled
    have stays : Carries setting [] machine
        { machine with order := machine.order, panel := progress.panel } := by
      rw [panel]
      exact .nil setting machine
    exact stays.follows
  | cons node rest =>
    rw [nodesCode] at compiled
    cases first : Node.code depth machine.order node with
    | error failure =>
      rw [first] at compiled
      cases compiled
    | ok pair =>
      obtain ⟨nodeCode, middle⟩ := pair
      cases others : nodesCode depth middle rest with
      | error failure =>
        rw [first] at compiled
        dsimp only [Bind.bind, Except.bind] at compiled
        rw [others] at compiled
        cases compiled
      | ok pair =>
        obtain ⟨restCode, last⟩ := pair
        rw [first] at compiled
        dsimp only [Bind.bind, Except.bind] at compiled
        rw [others] at compiled
        cases compiled
        rw [walkAll_cons]
        -- the byte order that a layout leaves behind is the one that the next is compiled for
        refine (follows_walk machine progress room running panel node sized.1 first path).append
          fun shown _ => ?_
        exact follows_walkAll { machine with order := middle, panel := shown.panel } shown room
          running rfl rest sized.2 others path

end

end Machine

/-! ### Whole programs -/

namespace Machine

/-- A run of code that follows a walk, with a stop behind it, ends with the panel of the walk, or
fails as the walk does, unless its steps are used up. -/
theorem runSteps_of_follows {setting : RunSetting} {machine : Machine} {code : List Instruction}
    {order : ByteOrder} {walked : Walked} (room : setting.code.size ≤ wordLimit)
    (stands : Stands setting.code machine.counter (encodeAll (code ++ [.stop])))
    (running : machine.halted = false)
    (follows : Follows setting code machine (fun panel => { machine with order, panel }) walked)
    (limit : Int) (budget : Nat) :
    (∃ stuck, budget < code.length + 1 ∧
        runSteps setting limit budget machine = .error (.stepLimit limit) stuck) ∨
      (∃ fitted progress last, walked = .ok fitted progress ∧
        runSteps setting limit budget machine = .ok () last ∧ last.panel = progress.panel) ∨
      ∃ failure progress cause left, walked = .error failure progress ∧
        runSteps setting limit budget machine = .error cause left ∧ cause.Mirrors failure := by
  rw [encodeAll_append, encodeAll_singleton] at stands
  obtain ⟨here, behind⟩ := ByteSupply.supplies_append stands
  have followed := follows machine.counter here
  cases walked with
  | ok fitted progress =>
    cases fitted with
    | true =>
      let last : Machine := { machine with
        counter := machine.counter + (encodeAll code).length, order, panel := progress.panel }
      have going : last.isDone setting = false := isDone_of_stands running behind
      have stopped := step_of_stands room last behind
      have reached : Reaches setting (code.length + 1) machine
          { last with counter := last.counter + Instruction.stop.encode.length, halted := true } :=
        followed.trans (.step going stopped (.here 0 _))
      rcases reached.runSteps_of_halted rfl limit budget with done | short
      · exact .inr (.inl ⟨true, progress, _, rfl, done, rfl⟩)
      · obtain ⟨stuck, short, used⟩ := short
        exact .inl ⟨stuck, short, used⟩
    | false =>
      obtain ⟨last, reached, halted, panel⟩ := followed
      rcases reached.runSteps_of_halted halted limit budget with done | ⟨stuck, short, used⟩
      · exact .inr (.inl ⟨false, progress, last, rfl, done, panel⟩)
      · exact .inl ⟨stuck, Nat.lt_succ_of_lt short, used⟩
  | error failure progress =>
    obtain ⟨last, cause, left, reached, going, failed, mirrors⟩ := followed
    rcases reached.runSteps_of_error going failed limit budget with done | ⟨stuck, short, used⟩
    · exact .inr (.inr ⟨failure, progress, cause, left, rfl, done, mirrors⟩)
    · exact .inl ⟨stuck, short, used⟩

end Machine

/-- The program of a layout shows the rows that the layout shows, or fails as decoding does, unless
its steps are used up, of which it needs no more than it has bytes. The size of a program is a word,
like that of all bytes that there is memory for. -/
theorem Node.compile_correct {root : Node} {code : Array UInt8} (compiled : root.compile = .ok code)
    (room : code.size ≤ wordLimit) (sized : root.Sized) (reader : ByteReader)
    (cursor rows limit : Int) :
    match Machine.run ⟨code, reader, cursor⟩ rows limit with
    | .ok _ machine =>
      ∃ values, root.decode reader cursor rows = .ok (machine.panel.rows.toList, values)
    | .error cause _ =>
      (cause = .stepLimit limit ∧ limit < code.size) ∨
        ∃ failure, root.decode reader cursor rows = .error failure ∧ cause.Mirrors failure ∧
          cause.message = failure.message := by
  rw [compile, instructions] at compiled
  cases body : Node.code 0 .little root with
  | error failure =>
    rw [body] at compiled
    cases compiled
  | ok pair =>
    obtain ⟨instructions, order⟩ := pair
    rw [body] at compiled
    have same : (encodeAll (instructions ++ [.stop])).toArray = code := Except.ok.inj compiled
    subst same
    let setting : RunSetting := ⟨(encodeAll (instructions ++ [.stop])).toArray, reader, cursor⟩
    let start : Machine := { panel := .ofRows rows }
    let beginning : DecodingProgress := { panel := .ofRows rows }
    have follows : Machine.Follows setting instructions start
        (fun panel => { start with order, panel })
        (Decoding.walk reader cursor 0 [] root beginning) :=
      Machine.follows_walk start beginning room rfl rfl root sized body []
    have enough : instructions.length + 1 ≤ (encodeAll (instructions ++ [.stop])).toArray.size := by
      have := length_le_encodeAll (instructions ++ [.stop])
      rw [List.length_append] at this
      exact this
    have ran := Machine.runSteps_of_follows room (Stands.of_toArray _) rfl follows limit limit.toNat
    rw [Machine.run, decode]
    rcases ran with ⟨stuck, short, used⟩ | ⟨fitted, progress, last, walked, done, panel⟩ |
      ⟨failure, progress, cause, left, walked, failed, mirrors⟩
    · rw [used]
      exact .inl ⟨rfl, by omega⟩
    · rw [done, walked]
      exact ⟨progress.values, by rw [panel]⟩
    · rw [failed, walked]
      exact .inr ⟨failure, rfl, mirrors, mirrors.message_eq⟩

/-- A folder with an integer behind the cursor and a text at an address. -/
def sampleLayout : Node :=
  .folder "head" [
    .value "size" (.cursor 1)
      (.integer ⟨2, .big, .onesComplement, .sixteen, by decide, by decide⟩),
    .value "name" (.absolute 8) (.text false (some 3))]

theorem Node.compile_correct_sampleLayout :
    ∃ code, sampleLayout.compile = .ok code ∧ code.size = 116 ∧ sampleLayout.Sized ∧
      ∀ reader cursor rows limit,
        match Machine.run ⟨code, reader, cursor⟩ rows limit with
        | .ok _ machine =>
          ∃ values, sampleLayout.decode reader cursor rows =
            .ok (machine.panel.rows.toList, values)
        | .error cause _ =>
          (cause = .stepLimit limit ∧ limit < code.size) ∨
            ∃ failure, sampleLayout.decode reader cursor rows = .error failure ∧
              cause.Mirrors failure ∧ cause.message = failure.message := by
  have sized : sampleLayout.Sized := by
    refine ⟨trivial, fun count member => ?_, trivial⟩
    cases member
    decide
  cases compiled : sampleLayout.compile with
  | error failure => cases compiled
  | ok code =>
    have size : code.size = 116 := by
      cases compiled
      rfl
    exact ⟨code, rfl, size, sized, Node.compile_correct compiled (by rw [size]; decide) sized⟩

end HexEditor
