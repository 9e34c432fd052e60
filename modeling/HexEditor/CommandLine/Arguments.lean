/-
The arguments of the program. Options begin with a dash; a long one may be cut short
as long as only one begins that way, and its value may follow behind an equals sign.
Two dashes there give the option nothing, which is not the same as not giving it.
Options of one letter have no value and may be written together, also with an equals sign
behind the first. Two dashes end the options, and a negative number or anything with a
blank in it is no option. There is one argument that is no option, the path of the file to
edit.
-/

import HexEditor.Number.Literal

namespace HexEditor

/-- Where the settings are. -/
inductive SettingsPlace where
  /-- In the directory of the user. -/
  | home
  | directory (path : String)
  /-- The option for it was given nothing. -/
  | nothing
  deriving DecidableEq, Repr

/-- What the program is asked to do. -/
structure Arguments where
  path : String
  /-- The height of the screen, unless the option for it was given nothing. -/
  rows : Option Int := some 25
  /-- The size of the letters, unless the option for it was given nothing. -/
  fontSize : Option Int := some 13
  place : SettingsPlace := .home
  /-- Further struct files, or nothing where the option for one was given nothing. -/
  structs : List (Option String) := []
  active : Option String := none
  /-- Whether to read keys from the input and to print the last screen. -/
  headless : Bool := false
  verbose : Bool := false
  deriving DecidableEq, Repr

/-- Why the arguments ask for nothing: for help, or because they are misused. -/
inductive ArgumentsFailure where
  | help
  | misuse
  deriving DecidableEq, Repr

/-- The status that the program ends with. -/
def ArgumentsFailure.status : ArgumentsFailure → Nat
  | .help => 0
  | .misuse => 2

/-- An option. -/
inductive ProgramOption where
  | help
  | rows
  | fontSize
  | place
  | struct
  | active
  | headless
  | verbose
  deriving DecidableEq, Repr

def optionNames : List (String × ProgramOption) :=
  [("-h", .help), ("--help", .help), ("--rows", .rows), ("--font-size", .fontSize),
   ("--config-dir", .place), ("--struct", .struct), ("--activate", .active),
   ("--headless", .headless), ("-v", .verbose), ("--verbose", .verbose)]

def ProgramOption.hasValue : ProgramOption → Bool
  | help | headless | verbose => false
  | rows | fontSize | place | struct | active => true

/-! ### Kinds of arguments -/

/-- An argument as it is understood before any is acted upon. -/
inductive ArgumentKind where
  | plain
  /-- The two dashes that end the options. -/
  | separator
  /-- An option, and what an equals sign attaches to it. -/
  | option (option : ProgramOption) (attached : Option (List Char))
  /-- An option of one letter, and the letters that are written together with it, with or without an
  equals sign in front of them. -/
  | letters (option : ProgramOption) (more : List Char)
  | unknown
  deriving DecidableEq, Repr

def splitEquals (argument : List Char) : List Char × Option (List Char) :=
  let name := argument.takeWhile (· != '=')
  if name.length = argument.length then (argument, none)
  else (name, some (argument.drop (name.length + 1)))

/-- The options that an argument may be short for. -/
def optionsLike (argument : List Char) : List ArgumentKind :=
  match argument with
  | '-' :: '-' :: _ =>
    let (start, attached) := splitEquals argument
    optionNames.filterMap fun (name, option) =>
      if start.isPrefixOf name.toList then some (.option option attached) else none
  | '-' :: letter :: more =>
    optionNames.filterMap fun (name, option) =>
      if name.toList = ['-', letter] then some (.letters option more) else none
  | _ => []

/-- An option that is written in full, with something behind an equals sign. -/
def withAttached (name : List Char) (option : ProgramOption) (attached : List Char) :
    ArgumentKind :=
  if name.length = 2 then .letters option attached else .option option (some attached)

def isNegativeNumber (argument : List Char) : Bool :=
  match argument with
  | '-' :: number =>
    let isDigit (character : Char) : Bool := (decimalDigit? character).isSome
    let whole := number.takeWhile isDigit
    match number.dropWhile isDigit with
    | [] => !whole.isEmpty
    | ['\n'] => !whole.isEmpty
    | '.' :: fraction =>
      let places := fraction.takeWhile isDigit
      !places.isEmpty && (places.length = fraction.length || fraction.drop places.length == ['\n'])
    | _ => false
  | _ => false

/-- What an argument is understood as, unless it is short for several options. -/
def argumentKind (argument : String) : Except ArgumentsFailure ArgumentKind :=
  let characters := argument.toList
  if characters.head? ≠ some '-' then
    .ok .plain
  else
    match optionNames.lookup argument with
    | some option => .ok (.option option none)
    | none =>
      if characters.length = 1 then
        .ok .plain
      else
        let (name, attached) := splitEquals characters
        match optionNames.lookup (String.ofList name), attached with
        | some option, some attached => .ok (withAttached name option attached)
        | _, _ =>
          match optionsLike characters with
          | [kind] => .ok kind
          | _ :: _ :: _ => .error .misuse
          | [] =>
            if isNegativeNumber characters || characters.contains ' ' then .ok .plain
            else .ok .unknown

/-- What the arguments are understood as; behind two dashes there are no options. -/
def argumentKinds : List String → Except ArgumentsFailure (List (String × ArgumentKind))
  | [] => .ok []
  | "--" :: rest => .ok (("--", .separator) :: rest.map fun argument => (argument, .plain))
  | argument :: rest => do
    let kind ← argumentKind argument
    return (argument, kind) :: (← argumentKinds rest)

/-! ### Acting on arguments -/

/-- What has been understood so far: the path, if it was given, and whether anything was given that
has no use. -/
structure ArgumentsRead where
  path : Option String := none
  arguments : Arguments := { path := "" }
  useless : Bool := false

def integerValue (value : List Char) : Except ArgumentsFailure Int :=
  (readInteger 10 (String.ofList value)).mapError fun _ => .misuse

/-- The value that is attached to an option; two dashes attach nothing. -/
def attachedValue (attached : List Char) : Option (List Char) :=
  if attached = ['-', '-'] then none else some attached

/-- Acts on an option with a value, or with nothing in its place. -/
def setOption (read : ArgumentsRead) (option : ProgramOption) (value : Option (List Char)) :
    Except ArgumentsFailure ArgumentsRead := do
  let arguments := read.arguments
  let text := value.map String.ofList
  let changed ← match option with
    | .rows => do pure { arguments with rows := ← value.mapM integerValue }
    | .fontSize => do pure { arguments with fontSize := ← value.mapM integerValue }
    | .place => pure { arguments with place := (text.map .directory).getD .nothing }
    | .struct => pure { arguments with structs := arguments.structs ++ [text] }
    | .active => pure { arguments with active := text }
    | _ => pure arguments
  return { read with arguments := changed }

def setFlag (read : ArgumentsRead) (option : ProgramOption) :
    Except ArgumentsFailure ArgumentsRead :=
  match option with
  | .help => .error .help
  | .headless => .ok { read with arguments := { read.arguments with headless := true } }
  | .verbose => .ok { read with arguments := { read.arguments with verbose := true } }
  | _ => .ok read

/-- The options that letters written together stand for. -/
def optionsOfLetters (letters : List Char) : Except ArgumentsFailure (List ProgramOption) :=
  letters.mapM fun letter =>
    match optionNames.lookup (String.ofList ['-', letter]) with
    | some option => .ok option
    | none => .error .misuse

/-- The value of an option, which is attached to it or the next argument, and what follows. -/
def takeValue (attached : Option (List Char)) (rest : List (String × ArgumentKind)) :
    Option (Option (List Char) ×
      { left : List (String × ArgumentKind) // left.length ≤ rest.length }) :=
  match attached, rest with
  | some attached, rest => some (attachedValue attached, ⟨rest, Nat.le_refl _⟩)
  | none, (value, .plain) :: left => some (some value.toList, ⟨left, Nat.le_succ _⟩)
  | none, _ => none

/-- Acts on arguments one after the other. Two dashes are of use in front of the path or right
behind it, but not further on. -/
def readArguments (read : ArgumentsRead) (given : List (String × ArgumentKind)) :
    Except ArgumentsFailure ArgumentsRead :=
  match given with
  | [] => .ok read
  | (argument, .plain) :: rest =>
    if read.path.isNone then
      let read := { read with path := some argument }
      match rest with
      | (_, .separator) :: rest => readArguments read rest
      | rest => readArguments read rest
    else
      readArguments { read with useless := true } rest
  | (_, .separator) :: rest =>
    readArguments { read with useless := read.useless || read.path.isSome } rest
  | (_, .unknown) :: rest => readArguments { read with useless := true } rest
  | (_, .letters option more) :: rest =>
    if more.isEmpty then
      .error .misuse
    else do
      let read ← (option :: (← optionsOfLetters more)).foldlM setFlag read
      readArguments read rest
  | (_, .option option attached) :: rest =>
    if option.hasValue then
      match takeValue attached rest with
      | none => .error .misuse
      | some (value, left) => do
        let read ← setOption read option value
        readArguments read left.val
    else if attached.isSome then
      .error .misuse
    else do
      let read ← setFlag read option
      readArguments read rest
termination_by given.length
decreasing_by
  all_goals grind

def Arguments.ofList (given : List String) : Except ArgumentsFailure Arguments :=
  match argumentKinds given with
  | .error failure => .error failure
  | .ok kinds =>
    match readArguments {} kinds with
    | .error failure => .error failure
    | .ok read =>
      match read.path, read.useless with
      | some path, false => .ok { read.arguments with path }
      | _, _ => .error .misuse

end HexEditor
