/-!
# Files

What the command line knows about files: whether something stands at a path,
and the text of it.
-/

namespace TreeScript.CommandLine

/-- What stands at a path. -/
inductive FileState where
  | missing
  | directory
  | text (content : String)

/-- The files that a run may read. -/
abbrev Files := String → FileState

/-- The steps of a path; empty steps and single dots lead nowhere. -/
def steps (path : String) : List String :=
  (path.splitOn "/").filter fun step => step != "" && step != "."

/-- Whether a path can only name a directory. -/
def namesDirectory (path : String) : Bool :=
  match (path.splitOn "/").getLast? with
  | some last => last == "" || last == "."
  | none => false

/-- Whether a path leads nowhere, or only upward, and so to a directory that is always there. -/
def leadsUpward (path : String) : Bool :=
  path != "" && (steps path).all fun step => step == ".."

/-- The files of a working directory, given by the names and texts of the files in it. -/
def Files.ofDirectory (contents : List (String × String)) : Files :=
  fun path =>
    let wanted := steps path
    if leadsUpward path then .directory
    else if path.startsWith "/" then .missing
    else
      match contents.find? fun file => steps file.1 == wanted && !namesDirectory path with
      | some file => .text file.2
      | none =>
          let isInside (file : String × String) : Bool :=
            wanted.isPrefixOf (steps file.1) && steps file.1 != wanted
          if contents.any isInside then .directory else .missing

end TreeScript.CommandLine
