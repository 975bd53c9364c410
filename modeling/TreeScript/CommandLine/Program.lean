import TreeScript.CommandLine.Arguments
import TreeScript.CommandLine.Failure
import TreeScript.CommandLine.Files
import TreeScript.Interpreter.Basic
import TreeScript.Json.Read
import TreeScript.Json.Write
import TreeScript.Syntax.Listing
import TreeScript.Syntax.Metadata
import TreeScript.Syntax.Reading

/-!
# The program

`Program.perform` is all that the program does, as a function: from arguments,
files and standard input to an exit code and what is written.  Scripts are read
from JSON files; what they print and the prompts they show are written in the
order in which they happen.
-/

namespace TreeScript.CommandLine

open TreeScript

/-- How the program ends, and what it has written. -/
structure Report where
  code : Nat
  output : String
  errors : List String
  /-- The number of prompts that were shown. -/
  prompts : Nat

namespace Program

/-- The exit code for arguments that are not understood. -/
def usageCode : Nat := 2

/-- The exit code of a failure. -/
def failureCode : Nat := 1

/-- Read a file. -/
def readFile (files : Files) (path : String) : Except Failure String :=
  match files path with
  | .missing => .error (.fileNotFound path)
  | .directory => .error .unreadableFile
  | .text content => .ok content

/-- Read a script. -/
def readScript (files : Files) (path : String) : Except Failure (List Node) := do
  let text ← readFile files path
  match Node.listOfText? text with
  | some script => return script
  | none => throw (.invalidTree path)

/-- Read constants, which are the members of a JSON object. -/
def readConstants (files : Files) (path : String) :
    Except Failure (List (String × Datum Value)) := do
  let text ← readFile files path
  match Json.read? (some Json.nestingLimit) text with
  | some (.obj members) => return Datum.ofMembers members
  | some _ => throw (.invalidConstants path false)
  | none => throw (.invalidConstants path true)

/-- Drop the line breaks at the end of a line. -/
def chomp (line : String) : String :=
  let isBreak (character : Char) : Bool := character == '\n' || character == '\r'
  String.ofList (line.toList.reverse.dropWhile isBreak).reverse

/-- The lines that prompts are answered with. -/
def inputLines (input : String) : List String :=
  (input.splitOn "\n").map chomp

/-- What an event writes. -/
def written : Event Snapshot → String
  | .print picture => picture.display ++ "\n"
  | .prompt text => text
  | _ => ""

/-- What a record writes. -/
def output (events : Array (Event Snapshot)) : String :=
  String.join (events.toList.map written)

/-- The number of prompts in a record. -/
def promptCount (events : Array (Event Snapshot)) : Nat :=
  events.toList.countP fun event =>
    match event with
    | .prompt _ => true
    | _ => false

/-- The first error that was handed to the host. -/
def firstFailure? (events : Array (Event Snapshot)) : Option Error :=
  events.toList.findSome? fun event =>
    match event with
    | .failure error => some error
    | _ => none

/-- The options that a script is run with. -/
def runOptions (command : RunCommand) (irq : Irq) : Options where
  stepLimit := command.stepLimit.getD 0
  depthLimit := Options.defaultDepthLimit
  abortOnError := command.abortOnError
  reportsErrors := true
  reportsLog := false
  reportsOutput := true
  hasInput := true
  detail := .contents
  irq := irq

/-- The report on a failure before anything ran. -/
def failed (chain : List String) : Report :=
  ⟨failureCode, "", Failure.reportLines chain, 0⟩

/-- The report on a success without a run. -/
def succeeded (output : String) : Report :=
  ⟨0, output, [], 0⟩

/-- What is read before a script runs. -/
def prepare (files : Files) (command : RunCommand) (input : String) :
    Except Failure (List Node × Interpreter) := do
  let script ← readScript files command.input
  let constants ←
    match command.constants with
    | some path => readConstants files path
    | none => pure []
  match Irq.create command.irqRate (command.irqSleep.map .timed) with
  | .error error => throw (.script error)
  | .ok irq =>
      return (script,
        Interpreter.create (runOptions command irq) Host.none [] constants (inputLines input))

/-- Run a script to its end. -/
def runScript (fuel : Nat) (command : RunCommand) (script : List Node)
    (interpreter : Interpreter) : Option (Verdict × Interpreter) :=
  let run :=
    if command.isSynchronous then interpreter.startAtOnce script else interpreter.start script
  Interpreter.complete fuel fuel interpreter run

/-- The failure of a run: its own error, or the first that was handed to the host. -/
def failure? (verdict : Verdict) (events : Array (Event Snapshot)) : Option Error :=
  match verdict with
  | .error error => some error
  | .ok _ => firstFailure? events

/-- The report on a run that has ended. -/
def runReport (command : RunCommand) (context : String) (verdict : Verdict) (world : World) :
    Report :=
  let shown := output world.events
  let prompts := promptCount world.events
  match failure? verdict world.events, verdict with
  | some error, _ =>
      ⟨failureCode, shown, Failure.reportLines (context :: (Failure.script error).chain), prompts⟩
  | none, .ok (some value) =>
      let result := if command.printsResult then world.store.literal value ++ "\n" else ""
      ⟨0, shown ++ result, [], prompts⟩
  | none, _ => ⟨0, shown, [], prompts⟩

/-- The command `run`. -/
def run (fuel : Nat) (files : Files) (input : String) (command : RunCommand) : Option Report :=
  let context := "failed to run " ++ command.input
  match prepare files command input with
  | .error failure => some (failed (context :: failure.chain))
  | .ok (script, interpreter) =>
      (runScript fuel command script interpreter).map fun (verdict, interpreter) =>
        runReport command context verdict interpreter.world

/-- The listing of a script. -/
def list (files : Files) (path : String) : Report :=
  match readScript files path with
  | .error failure => failed failure.chain
  | .ok script => succeeded (Node.listing script)

/-- The document of a metadata block. -/
def blockDocument (block : Metadata.Block) : Document :=
  .obj [("name", match block.1 with
    | some name => .str name
    | none => .null), ("value", block.2)]

/-- The command `meta`. -/
def listMetadata (files : Files) (path : String) : Report :=
  match readScript files path with
  | .error failure => failed failure.chain
  | .ok script =>
      match Metadata.collect script with
      | .error error => failed (Failure.script error).chain
      | .ok blocks =>
          succeeded ((Document.arr ((blocks.getD []).map blockDocument)).pretty ++ "\n")

/-- The whole program.  There is no report when the fuel does not suffice. -/
def perform (fuel : Nat) (arguments : List String) (files : Files) (input : String) :
    Option Report :=
  match Command.ofArguments? arguments with
  | none => some ⟨usageCode, "", [], 0⟩
  | some (.metadata path) => some (listMetadata files path)
  | some (.run command) =>
      if command.listsTree then some (list files command.input)
      else run fuel files input command

end Program

end TreeScript.CommandLine
