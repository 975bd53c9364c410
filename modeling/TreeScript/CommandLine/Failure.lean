import TreeScript.Error

/-!
# Failures of the command line

A failure is told as a chain of messages, each caused by the next.  The
outermost message comes first; the others follow under `Caused by:`, indented,
and numbered when there are several.
-/

namespace TreeScript.CommandLine

open TreeScript

/-- Why a command fails. -/
inductive Failure where
  | fileNotFound (file : String)
  | unreadableFile
  | invalidTree (file : String)
  | invalidConstants (file : String) (isObject : Bool)
  | script (error : Error)

namespace Failure

/-- What stands for the details of an unreadable text. -/
def details : String :=
  "<parser message>"

/-- What is wrong with a path that names a directory. -/
def directoryMessage : String :=
  "Is a directory (os error 21)"

/-- The messages of a failure, outermost first. -/
def chain : Failure → List String
  | .fileNotFound file => ["File not found: " ++ file]
  | .unreadableFile => ["I/O error: " ++ directoryMessage, directoryMessage]
  | .invalidTree file => ["Invalid syntax tree in " ++ file ++ ": " ++ details]
  | .invalidConstants file isObject =>
      ["Invalid constants in " ++ file ++ ": "
        ++ (if isObject then details else "expected a JSON object")]
  | .script error => [error.display, error.display]

/-- Indent the lines of a cause; a number takes the place of blanks on the first line. -/
def indentCause (number : Option Nat) (message : String) : List String :=
  match number, message.splitOn "\n" with
  | _, [] => []
  | none, lines => lines.map fun line => "    " ++ line
  | some number, first :: rest =>
      let digits := toString number
      let padding := String.ofList (List.replicate (5 - digits.length) ' ')
      (padding ++ digits ++ ": " ++ first) :: rest.map fun line => "       " ++ line

/-- Number causes from a number on. -/
def numberCauses : Nat → List String → List String
  | _, [] => []
  | number, cause :: rest => indentCause (some number) cause ++ numberCauses (number + 1) rest

/-- The lines that tell a chain of messages. -/
def reportLines : List String → List String
  | [] => []
  | message :: causes =>
      let head := ("Error: " ++ message).splitOn "\n"
      match causes with
      | [] => head
      | [cause] => head ++ ["", "Caused by:"] ++ indentCause none cause
      | causes => head ++ ["", "Caused by:"] ++ numberCauses 0 causes

end Failure

end TreeScript.CommandLine
