/-
A run of the program: a session is started, the keys in the input are handled, the
last screen is printed, and the file and its log are written back. Nothing is asked of
the world but the files and the input, and the run says what is printed and how it
ends.
-/

import HexEditor.CommandLine.Startup
import HexEditor.Screen.Composition
import HexEditor.Session.Keys

namespace HexEditor

/-- How a run of the program ended. -/
inductive Ending where
  | finished (status : Nat) (output errors : String)
  | brokenDown (cause : Breakdown)
  deriving DecidableEq, Repr

/-- The smallest number of rows that there is a screen for. -/
def leastRows : Nat := 3

/-- The input that a terminal gives, without pauses. -/
def Input.ofBytes (bytes : List UInt8) : Input where
  stream := bytes.map some

namespace OpenSession

/-- The session behind the input; without a terminal there is none. -/
def handle (opened : OpenSession) (arguments : Arguments) (input : List UInt8) : Session :=
  if arguments.headless then opened.session.handleInput (.ofBytes input) else opened.session

/-- Writes back what the session has made of its file and its log. -/
def close (opened : OpenSession) (path : String) (session : Session) (tree : FileTree) : FileTree :=
  (tree.replace path session.file.leftBehind.toList).replace opened.logPath.text
    session.log.file.content

end OpenSession

/-- The ending of a run that is given up with a message about the file. -/
def givenUp (path message : String) : Ending :=
  .finished 1 "" (path ++ ": " ++ message ++ "\n")

def endingOfFailure (path : String) (failure : StartFailure) : Ending :=
  match failure.breakdown? with
  | some cause => .brokenDown cause
  | none => givenUp path failure.message

/-- How a run ends that prints the screen of a session. -/
def endingOf (path : String) (session : Session) : Ending :=
  match session.screen with
  | .ok lines => .finished 0 (screenText lines ++ "\n") ""
  | .error failure => givenUp path failure.message

def Arguments.run (arguments : Arguments) (input : List UInt8) (tree : FileTree) :
    Ending × FileTree :=
  match arguments.rows with
  | none => (.brokenDown .missingValue, tree)
  | some rows =>
    if rows < leastRows then
      (.finished 2 "" ("--rows must be at least " ++ decimalText leastRows ++ "\n"), tree)
    else
      match Startup.openSession arguments rows tree with
      | .error failure tree => (endingOfFailure arguments.path failure, tree)
      | .ok opened tree =>
        let session := opened.handle arguments input
        (endingOf arguments.path session, opened.close arguments.path session tree)

end HexEditor
