/-
Whatever is read as text is that text in UTF-8. The first byte of a character says in
which range the code lies and how many bytes follow, every further byte that is not
refused adds six bits, and the ranges for the second byte leave out the codes that fewer
bytes spell, those of surrogates and those past the last one. So the bytes that were taken
for a character are the ones that it is written with. Together with the other direction
the main statement tells exactly when a supply hands out a text: when it has the text's
bytes, and behind them the NUL that ends it unless the characters are counted.
-/

import HexEditor.Proofs.Text.Utf8

namespace HexEditor

/-! ### Single bytes -/

theorem lt_of_utf8Lead_eq_character {byte : Nat} {character : Char}
    (led : utf8Lead byte = .character character) :
    byte < 0x80 ∧ character = Char.ofNat byte := by
  unfold utf8Lead at led
  split at led
  · next one =>
    cases led
    exact ⟨one, rfl⟩
  all_goals
    repeat' split at led
    all_goals cases led

/-- A first byte that does not spell a character alone has the first bits of the code, behind the
mark of two, three or four bytes. -/
theorem utf8Lead_eq_more {byte : Nat} {next : Utf8State} (led : utf8Lead byte = .more next) :
    (∃ bits, 2 ≤ bits ∧ bits < 32 ∧ byte = 0xC0 + bits ∧ next = .inside 1 0x80 0xBF bits) ∨
      (∃ bits, bits < 16 ∧ byte = 0xE0 + bits ∧
        next = .inside 2 (Utf8State.lowOfThree bits) 0xBF bits) ∨
      ∃ bits, bits < 5 ∧ byte = 0xF0 + bits ∧
        next = .inside 3 (Utf8State.lowOfFour bits) (Utf8State.highOfFour bits) bits := by
  unfold utf8Lead at led
  split at led
  · cases led
  split at led
  · cases led
  split at led
  · cases led
    exact .inl ⟨byte - 0xC0, by omega, by omega, by omega, rfl⟩
  split at led
  · next first =>
    cases led
    exact .inr (.inl ⟨0, by decide, eq_of_beq first, rfl⟩)
  split at led
  · next notFirst _ =>
    cases led
    have bits : byte - 0xE0 ≠ 0 := by
      have apart := ne_of_beq_false (Bool.eq_false_iff.2 notFirst)
      omega
    refine .inr (.inl ⟨byte - 0xE0, by omega, by omega, ?_⟩)
    rw [Utf8State.lowOfThree, if_neg bits]
  split at led
  · next first =>
    cases led
    exact .inr (.inr ⟨0, by decide, eq_of_beq first, rfl⟩)
  split at led
  · next notFirst _ =>
    cases led
    have apart := ne_of_beq_false (Bool.eq_false_iff.2 notFirst)
    have first : byte - 0xF0 ≠ 0 := by omega
    have last : byte - 0xF0 ≠ 4 := by omega
    refine .inr (.inr ⟨byte - 0xF0, by omega, by omega, ?_⟩)
    rw [Utf8State.lowOfFour, if_neg first, Utf8State.highOfFour, if_neg last]
  split at led
  · next last =>
    cases led
    have same := eq_of_beq last
    subst same
    exact .inr (.inr ⟨4, by decide, rfl, rfl⟩)
  · cases led

namespace Utf8State

variable {missing low high value : Nat} {byte : UInt8} {bytes : List UInt8} {character : Char}

/-- A byte that is not refused inside a character has six bits of its code. -/
theorem bits_of_inside (above : 0x80 ≤ low)
    (taken : (inside missing low high value).step byte ≠ .refused) :
    ∃ bits, low ≤ 0x80 + bits ∧ 0x80 + bits ≤ high ∧ byte = UInt8.ofNat (0x80 + bits) ∧
      (inside missing low high value).step byte =
        if missing ≤ 1 then .character (Char.ofNat (value * 64 + bits))
        else if missing = 2 ∧ 0x360 ≤ value * 64 + bits ∧ value * 64 + bits < 0x380 then
          .more .surrogate
        else .more (.inside (missing - 1) 0x80 0xBF (value * 64 + bits)) := by
  rw [step] at taken ⊢
  split at taken
  · exact absurd rfl taken
  · next allowed =>
    rw [if_neg allowed]
    rw [Bool.or_eq_true, decide_eq_true_iff, decide_eq_true_iff, not_or] at allowed
    have whole : 0x80 + (byte.toNat - 0x80) = byte.toNat := by omega
    refine ⟨byte.toNat - 0x80, by omega, by omega, ?_, rfl⟩
    rw [whole, UInt8.ofNat_toNat]

/-- A character that is not complete is still being read. -/
theorem ne_between_of_step {state next : Utf8State} (more : state.step byte = .more next) :
    next ≠ .between := by
  cases state with
  | between =>
    rcases utf8Lead_eq_more more with ⟨_, -, -, -, rfl⟩ | ⟨_, -, -, rfl⟩ | ⟨_, -, -, rfl⟩
    · exact Utf8State.noConfusion
    · exact Utf8State.noConfusion
    · exact Utf8State.noConfusion
  | surrogate => cases more
  | inside missing low high value =>
    rw [step] at more
    split at more
    · cases more
    dsimp only at more
    split at more
    · cases more
    split at more
    · cases more
      exact Utf8State.noConfusion
    · cases more
      exact Utf8State.noConfusion

/-- The last byte of a character has the last six bits of its code. -/
theorem spells_one (above : 0x80 ≤ low)
    (spells : Spells (.inside 1 low high value) bytes character) :
    ∃ bits, low ≤ 0x80 + bits ∧ 0x80 + bits ≤ high ∧ bytes = [UInt8.ofNat (0x80 + bits)] ∧
      character = Char.ofNat (value * 64 + bits) := by
  cases spells with
  | last taken =>
    obtain ⟨bits, lower, upper, rfl, step⟩ := bits_of_inside above (by rw [taken]; simp)
    rw [taken, if_pos (Nat.le_refl 1)] at step
    exact ⟨bits, lower, upper, rfl, Utf8Step.character.inj step⟩
  | more taken spells =>
    obtain ⟨bits, -, -, -, step⟩ := bits_of_inside above (by rw [taken]; simp)
    rw [taken, if_pos (Nat.le_refl 1)] at step
    cases step

/-- A further byte of a character has the next six bits of its code, and does not make the
beginning of a surrogate. -/
theorem spells_further (several : 2 ≤ missing) (above : 0x80 ≤ low)
    (spells : Spells (.inside missing low high value) bytes character) :
    ∃ bits rest, low ≤ 0x80 + bits ∧ 0x80 + bits ≤ high ∧
      (missing ≠ 2 ∨ value * 64 + bits < 0x360 ∨ 0x380 ≤ value * 64 + bits) ∧
      bytes = UInt8.ofNat (0x80 + bits) :: rest ∧
      Spells (.inside (missing - 1) 0x80 0xBF (value * 64 + bits)) rest character := by
  cases spells with
  | last taken =>
    obtain ⟨bits, -, -, -, step⟩ := bits_of_inside above (by rw [taken]; simp)
    rw [taken, if_neg (by omega)] at step
    split at step <;> cases step
  | more taken spells =>
    obtain ⟨bits, lower, upper, rfl, step⟩ := bits_of_inside above (by rw [taken]; simp)
    rw [taken, if_neg (by omega)] at step
    split at step
    · cases step
      exact absurd spells not_spells_surrogate
    · next whole =>
      cases step
      exact ⟨bits, _, lower, upper, by omega, rfl, spells⟩

/-- The code of the character that some bits make up. -/
theorem toNat_ofNat_of_valid {code : Nat}
    (valid : code < 0xD800 ∨ 0xDFFF < code ∧ code < 0x110000) :
    (Char.ofNat code).toNat = code := by
  rw [Char.ofNat, dif_pos valid]
  rfl

/-- Bytes that spell a character are the bytes of that character. -/
theorem eq_utf8Char_of_spells (spells : Spells .between bytes character) :
    bytes = utf8Char character := by
  cases spells with
  | @last _ byte _ taken =>
    obtain ⟨one, rfl⟩ := lt_of_utf8Lead_eq_character taken
    rw [utf8Char, toNat_ofNat_of_valid (by omega), if_pos one, UInt8.ofNat_toNat]
  | @more _ _ byte rest _ taken spells =>
    have whole : byte = UInt8.ofNat byte.toNat := UInt8.ofNat_toNat.symm
    rcases utf8Lead_eq_more taken with
      ⟨first, least, most, lead, rfl⟩ | ⟨first, most, lead, rfl⟩ | ⟨first, most, lead, rfl⟩
    · obtain ⟨last, lower, upper, rfl, rfl⟩ := spells_one (Nat.le_refl _) spells
      have parts : (first * 64 + last) / 64 = first ∧ (first * 64 + last) % 64 = last := by omega
      rw [utf8Char, toNat_ofNat_of_valid (by omega), if_neg (by omega), if_pos (by omega), whole,
        lead, parts.1, parts.2]
    · have above : 0x80 ≤ lowOfThree first := by
        unfold lowOfThree
        split <;> omega
      obtain ⟨second, others, lower, upper, apart, rfl, further⟩ :=
        spells_further (Nat.le_refl 2) above spells
      obtain ⟨third, low, high, rfl, rfl⟩ := spells_one (Nat.le_refl _) further
      -- a code that fewer bytes spell would need a second byte below the range
      have large : 0x800 ≤ (first * 64 + second) * 64 + third := by
        unfold lowOfThree at lower
        split at lower <;> omega
      have parts : ((first * 64 + second) * 64 + third) / 4096 = first ∧
          ((first * 64 + second) * 64 + third) / 64 % 64 = second ∧
          ((first * 64 + second) * 64 + third) % 64 = third := by omega
      rw [utf8Char, toNat_ofNat_of_valid (by omega), if_neg (by omega), if_neg (by omega),
        if_pos (by omega), whole, lead, parts.1, parts.2.1, parts.2.2]
    · have above : 0x80 ≤ lowOfFour first := by
        unfold lowOfFour
        split <;> omega
      have below : highOfFour first ≤ 0xBF := by
        unfold highOfFour
        split <;> omega
      obtain ⟨second, others, lower, upper, -, rfl, further⟩ :=
        spells_further (by decide) above spells
      obtain ⟨third, rest, low, high, -, rfl, another⟩ :=
        spells_further (Nat.le_refl 2) (Nat.le_refl _) further
      obtain ⟨fourth, least, greatest, rfl, rfl⟩ := spells_one (Nat.le_refl _) another
      have large : 0x10000 ≤ ((first * 64 + second) * 64 + third) * 64 + fourth := by
        unfold lowOfFour at lower
        split at lower <;> omega
      have small : ((first * 64 + second) * 64 + third) * 64 + fourth < 0x110000 := by
        unfold highOfFour at upper
        split at upper <;> omega
      have parts : (((first * 64 + second) * 64 + third) * 64 + fourth) / 262144 = first ∧
          (((first * 64 + second) * 64 + third) * 64 + fourth) / 4096 % 64 = second ∧
          (((first * 64 + second) * 64 + third) * 64 + fourth) / 64 % 64 = third ∧
          (((first * 64 + second) * 64 + third) * 64 + fourth) % 64 = fourth := by omega
      rw [utf8Char, toNat_ofNat_of_valid (by omega), if_neg (by omega), if_neg (by omega),
        if_neg (by omega), whole, lead, parts.1, parts.2.1, parts.2.2.1, parts.2.2.2]

end Utf8State

/-- The bytes of a character are those that the library writes it with. -/
theorem utf8Char_eq (character : Char) : utf8Char character = String.utf8EncodeChar character := by
  have valid : character.toNat < 0xD800 ∨ 0xDFFF < character.toNat ∧ character.toNat < 0x110000 :=
    character.valid
  have code : character.val.toNat = character.toNat := rfl
  simp only [utf8Char, String.utf8EncodeChar, code]
  generalize character.toNat = code at valid
  by_cases one : code < 0x80
  · rw [if_pos one, if_pos (by omega)]
  by_cases two : code < 0x800
  · rw [if_neg one, if_pos two, if_neg (by omega), if_pos (by omega),
      Nat.mod_eq_of_lt (by omega : code / 64 < 32), Nat.add_comm (code / 64),
      Nat.add_comm (code % 64)]
  by_cases three : code < 0x10000
  · rw [if_neg one, if_neg two, if_pos three, if_neg (by omega), if_neg (by omega),
      if_pos (by omega), Nat.mod_eq_of_lt (by omega : code / 4096 < 16), Nat.add_comm (code / 4096),
      Nat.add_comm (code / 64 % 64), Nat.add_comm (code % 64)]
  · rw [if_neg one, if_neg two, if_neg three, if_neg (by omega), if_neg (by omega),
      if_neg (by omega), Nat.mod_eq_of_lt (by omega : code / 262144 < 8),
      Nat.add_comm (code / 262144), Nat.add_comm (code / 4096 % 64), Nat.add_comm (code / 64 % 64),
      Nat.add_comm (code % 64)]

/-- A character is one of ASCII if its bytes are, and only then. -/
theorem forall_utf8Char_lt_iff (character : Char) :
    (∀ byte ∈ utf8Char character, byte < 0x80) ↔ character.toNat < 0x80 := by
  dsimp only [utf8Char]
  generalize character.toNat = code
  by_cases one : code < 0x80
  · have small : UInt8.ofNat code < 0x80 := by
      rw [UInt8.lt_iff_toNat_lt, Utf8State.toNat_ofNat (by omega)]
      exact one
    rw [if_pos one, List.forall_mem_singleton]
    exact iff_of_true small one
  · have large : ¬ UInt8.ofNat (0x80 + code % 64) < 0x80 := by
      rw [UInt8.lt_iff_toNat_lt, Utf8State.toNat_ofNat (by omega), Nat.not_lt]
      exact Nat.le_add_right _ _
    refine iff_of_false (fun all => large (all _ ?_)) one
    rw [if_neg one]
    split
    · simp
    split
    · simp
    · simp

theorem forall_utf8Bytes_lt_iff (text : List Char) :
    (∀ byte ∈ utf8Bytes text, byte < 0x80) ↔ ∀ character ∈ text, character.toNat < 0x80 := by
  induction text with
  | nil => simp [utf8Bytes]
  | cons character rest inductionHypothesis =>
    have parts : utf8Bytes (character :: rest) = utf8Char character ++ utf8Bytes rest := rfl
    rw [parts, List.forall_mem_append, List.forall_mem_cons, forall_utf8Char_lt_iff,
      inductionHypothesis]

/-! ### Texts -/

/-- Bytes spell a text from a state on, where the state may be inside its first character. -/
inductive SpellsText : Utf8State → List UInt8 → List Char → Prop where
  | nil : SpellsText .between [] []
  | cons {state : Utf8State} {bytes rest : List UInt8} {character : Char} {text : List Char} :
      state.Spells bytes character → SpellsText .between rest text →
        SpellsText state (bytes ++ rest) (character :: text)

/-- A byte inside a character comes in front of the bytes that go on from there. -/
theorem SpellsText.more {state next : Utf8State} {byte : UInt8} {bytes : List UInt8}
    {text : List Char} (step : state.step byte = .more next) (spells : SpellsText next bytes text) :
    SpellsText state (byte :: bytes) text := by
  cases spells with
  | nil => exact absurd rfl (Utf8State.ne_between_of_step step)
  | cons first rest => exact .cons (.more step first) rest

theorem eq_utf8Bytes_of_spellsText {bytes : List UInt8} {text : List Char}
    (spells : SpellsText .between bytes text) : bytes = utf8Bytes text := by
  generalize fresh : Utf8State.between = state at spells
  induction spells with
  | nil => rfl
  | cons first _ inductionHypothesis =>
    cases fresh
    rw [Utf8State.eq_utf8Char_of_spells first, inductionHypothesis rfl]
    rfl

/-- What is read behind some characters is spelled by the bytes. -/
theorem spellsText_of_readUtf8 {state : Utf8State} {lead : UInt8} {first position : Nat}
    {read text : List Char} {bytes : List UInt8}
    (done : readUtf8 state lead first position read bytes = .ok text) :
    ∃ rest, text = read.reverse ++ rest ∧ SpellsText state bytes rest := by
  induction bytes generalizing state lead first position read with
  | nil =>
    rw [readUtf8] at done
    split at done <;> cases done
    next between =>
    rw [between]
    exact ⟨[], (List.append_nil _).symm, .nil⟩
  | cons byte bytes inductionHypothesis =>
    rw [readUtf8] at done
    split at done
    · next character last =>
      obtain ⟨rest, rfl, spells⟩ := inductionHypothesis done
      rw [List.reverse_cons, List.append_assoc, List.singleton_append]
      exact ⟨character :: rest, rfl, .cons (.last last) spells⟩
    · cases done
    · next more =>
      obtain ⟨rest, rfl, spells⟩ := inductionHypothesis done
      exact ⟨rest, rfl, .more more spells⟩
    · split at done <;> cases done

/-- A text is read from its bytes, and from no others. -/
theorem textOfUtf8_eq_ok_iff {bytes : List UInt8} {text : List Char} :
    textOfUtf8 bytes = .ok text ↔ bytes = utf8Bytes text := by
  constructor
  · intro done
    obtain ⟨rest, rfl, spells⟩ := spellsText_of_readUtf8 done
    exact eq_utf8Bytes_of_spellsText spells
  · rintro rfl
    exact textOfUtf8_utf8Bytes text

namespace ByteSupply

variable {Failure : Type} {supply : ByteSupply Failure} {asciiOnly : Bool} {count : Option Nat}
  {state : Utf8State} {read text : List Char} {position next : Nat}

/-- A text that was read is spelled, together with its ending, by the bytes that were taken. -/
theorem spellsText_of_readText
    (done : supply.readText asciiOnly count state read position = .text text next)
    (fresh : count = some 0 → state = .between) :
    ∃ rest bytes, text = read.reverse ++ rest ∧ Fits count rest ∧
      SpellsText state bytes (rest ++ ending count) ∧ supply.Supplies position bytes ∧
      next = position + bytes.length ∧ (asciiOnly = true → ∀ byte ∈ bytes, byte < 0x80) := by
  fun_induction supply.readText asciiOnly count state read position with
  | case1 state read position =>
    cases done
    cases fresh rfl
    exact ⟨[], [], (List.append_nil _).symm, rfl, .nil, trivial, rfl, by simp⟩
  | case2 => cases done
  | case3 => cases done
  | case4 => cases done
  | case5 count state read position wanted byte taken allowed following more inductionHypothesis =>
    obtain ⟨rest, bytes, rfl, fits, spells, supplies, rfl, ascii⟩ :=
      inductionHypothesis done fun zero => absurd zero wanted
    refine ⟨rest, byte :: bytes, rfl, fits, .more more spells, ⟨taken, supplies⟩, ?_, ?_⟩
    · rw [List.length_cons]
      omega
    · exact fun only => List.forall_mem_cons.2 ⟨allowed_iff.1 allowed only, ascii only⟩
  | case6 count state read position wanted byte taken allowed character last ends =>
    cases done
    rw [Bool.and_eq_true, Option.isNone_iff_eq_none, beq_iff_eq] at ends
    obtain ⟨rfl, rfl⟩ := ends
    refine ⟨[], [byte], (List.append_nil _).symm, List.not_mem_nil, .cons (.last last) .nil,
      ⟨taken, trivial⟩, rfl, fun only => ?_⟩
    exact List.forall_mem_singleton.2 (allowed_iff.1 allowed only)
  | case7 count state read position wanted byte taken allowed character last goesOn
      inductionHypothesis =>
    obtain ⟨rest, bytes, rfl, fits, spells, supplies, rfl, ascii⟩ :=
      inductionHypothesis done fun _ => rfl
    rw [ending_map] at spells
    refine ⟨character :: rest, byte :: bytes, ?_, ?_, .cons (.last last) spells,
      ⟨taken, supplies⟩, ?_, ?_⟩
    · rw [List.reverse_cons, List.append_assoc, List.singleton_append]
    · exact fits_cons_iff.2 ⟨wanted, Bool.eq_false_iff.2 goesOn, fits⟩
    · rw [List.length_cons]
      omega
    · exact fun only => List.forall_mem_cons.2 ⟨allowed_iff.1 allowed only, ascii only⟩

/-! ### When a text is handed out -/

/-- The bytes that a text is read from: those of its characters in UTF-8, which are as many as are
counted; or, if they are not counted, a NUL behind them, and none among them. -/
def IsWritten : Option Nat → List Char → List UInt8 → Prop
  | some wanted, text, bytes =>
    text.length = wanted ∧ bytes = text.flatMap String.utf8EncodeChar
  | none, text, bytes => '\x00' ∉ text ∧ bytes = text.flatMap String.utf8EncodeChar ++ [0]

theorem isWritten_iff {bytes : List UInt8} :
    IsWritten count text bytes ↔ Fits count text ∧ bytes = utf8Bytes (text ++ ending count) := by
  have library : utf8Char = String.utf8EncodeChar := funext utf8Char_eq
  cases count with
  | some wanted =>
    rw [ending, List.append_nil, utf8Bytes, library]
    rfl
  | none =>
    have nul : String.utf8EncodeChar '\x00' = [0] := rfl
    rw [ending, utf8Bytes, library, List.flatMap_append, List.flatMap_singleton, nul]
    rfl

/-- An ending is one of ASCII. -/
theorem forall_ending_lt : ∀ character ∈ ending count, character.toNat < 0x80 := by
  cases count with
  | none =>
    intro character member
    rw [List.mem_singleton.1 member]
    decide
  | some wanted => nofun

/-- A supply hands out a text, and goes on behind some bytes, if these are the bytes that the text
is written with and the supply has them; and then only. Where only ASCII is read, every character of
the text has to be one of ASCII. -/
theorem textAt_eq_text_iff (supply : ByteSupply Failure) (asciiOnly : Bool) (count : Option Nat)
    (position next : Nat) (text : List Char) :
    supply.textAt asciiOnly count position = .text text next ↔
      (asciiOnly = true → ∀ character ∈ text, character.toNat < 0x80) ∧
        ∃ bytes, IsWritten count text bytes ∧ supply.Supplies position bytes ∧
          next = position + bytes.length := by
  have ascii : (∀ byte ∈ utf8Bytes (text ++ ending count), byte < 0x80) ↔
      ∀ character ∈ text, character.toNat < 0x80 := by
    rw [forall_utf8Bytes_lt_iff, List.forall_mem_append]
    exact and_iff_left forall_ending_lt
  constructor
  · intro done
    obtain ⟨rest, bytes, rfl, fits, spells, supplies, rfl, allowed⟩ :=
      spellsText_of_readText done fun _ => rfl
    rw [eq_utf8Bytes_of_spellsText spells] at allowed supplies ⊢
    exact ⟨fun only => ascii.1 (allowed only), _, isWritten_iff.2 ⟨fits, rfl⟩, supplies, rfl⟩
  · rintro ⟨allowed, bytes, written, supplies, rfl⟩
    obtain ⟨fits, rfl⟩ := isWritten_iff.1 written
    exact readText_of_fits fits supplies fun only => ascii.2 (allowed only)

end ByteSupply

end HexEditor
