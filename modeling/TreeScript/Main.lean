import TreeScript.CommandLine.Program

/-!
# The executable

Reads the files that the arguments name, performs the program, and writes its
report.  Standard input is read only for a script that has shown a prompt; the
script is then run again from its start with the lines that were typed.
-/

open TreeScript TreeScript.CommandLine

/-- More steps than any run takes. -/
def mainFuel : Nat :=
  1 <<< 60

/-- What stands at a path. -/
def fileState (path : String) : IO FileState := do
  try
    return .text (← IO.FS.readFile path)
  catch
    | .noFileOrDirectory .. => return .missing
    | _ => return .directory

/-- The files that the arguments may name. -/
def namedFiles (arguments : List String) : IO Files := do
  let paths := arguments ++ arguments.filterMap fun argument => (splitValue argument).2
  let states ← paths.mapM fun path => return (path, ← fileState path)
  return fun path => (states.lookup path).getD .missing

/-- Perform the program with some standard input. -/
def performWith (arguments : List String) (files : Files) (input : String) : IO Report :=
  match Program.perform mainFuel arguments files input with
  | some report => return report
  | none => throw (IO.userError "the script did not end")

/-- The program. -/
def main (arguments : List String) : IO UInt32 := do
  let files ← namedFiles arguments
  let first ← performWith arguments files ""
  let report ←
    if first.prompts = 0 then pure first
    else do
      let stdin ← IO.getStdin
      let mut input := ""
      let mut line ← stdin.getLine
      while !line.isEmpty do
        input := input ++ line
        line ← stdin.getLine
      performWith arguments files input
  IO.print report.output
  report.errors.forM IO.eprintln
  return UInt32.ofNat report.code
