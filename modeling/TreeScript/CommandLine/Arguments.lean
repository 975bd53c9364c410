import TreeScript.Number.Reading

/-!
# Arguments of the command line

Two commands are known: `run` and `meta`, each with one file.  Options of
`run` start with two dashes and may stand before or after the file; an option
with a value takes it after an equals sign or as the next argument, which then
must not look like an option.  Every option may be given once.  After `--`
nothing is an option any more.
-/

namespace TreeScript.CommandLine

open TreeScript

/-- How a script is run. -/
structure RunCommand where
  input : String
  isSynchronous : Bool
  stepLimit : Option Nat
  irqRate : Option Float
  irqSleep : Option Float
  abortOnError : Bool
  constants : Option String
  /-- Print the syntax tree instead of running it. -/
  listsTree : Bool
  printsResult : Bool

/-- What the arguments ask for. -/
inductive Command where
  | run (command : RunCommand)
  | metadata (input : String)

/-- An argument, or two that belong together. -/
inductive Item where
  | file (path : String)
  | flag (name : String)
  | option (name value : String)

/-- The options without a value. -/
def flags : List String :=
  ["--sync", "--abort-on-error", "--dump-ast", "--print-result"]

/-- The options with a value. -/
def options : List String :=
  ["--max-step", "--irq-rate", "--irq-sleep", "--consts"]

/-- Split an argument at its first equals sign. -/
def splitValue (argument : String) : String × Option String :=
  let name := argument.toList.takeWhile (· != '=')
  match argument.toList.dropWhile (· != '=') with
  | [] => (argument, none)
  | _ :: value => (String.ofList name, some (String.ofList value))

/-- Whether an argument looks like an option; a single dash does not. -/
def looksLikeOption (argument : String) : Bool :=
  match argument.toList with
  | '-' :: _ :: _ => true
  | _ => false

/-- Sort arguments out, at most `count` of them, given the names that are known. -/
def items? (flags options : List String) : Nat → List String → Option (List Item)
  | _, [] => some []
  | 0, _ :: _ => none
  | count + 1, argument :: rest =>
      if argument = "--" then some (rest.map .file)
      else if looksLikeOption argument then
        let (name, value) := splitValue argument
        if flags.contains name && value.isNone then
          (items? flags options count rest).map (.flag name :: ·)
        else if options.contains name then
          match value, rest with
          | some value, rest => (items? flags options count rest).map (.option name value :: ·)
          | none, next :: rest =>
              if looksLikeOption next then none
              else (items? flags options count rest).map (.option name next :: ·)
          | none, [] => none
        else none
      else (items? flags options count rest).map (.file argument :: ·)

/-- The one file that has to be given. -/
def onlyFile? (items : List Item) : Option String :=
  let files := items.filterMap fun item =>
    match item with
    | .file path => some path
    | _ => none
  match files with
  | [path] => if path.isEmpty then none else some path
  | _ => none

/-- Whether a flag is given; giving it twice is an error. -/
def flag? (items : List Item) (name : String) : Option Bool :=
  let given := items.filter fun item =>
    match item with
    | .flag known => known == name
    | _ => false
  match given with
  | [] => some false
  | [_] => some true
  | _ => none

/-- Read the value of an option, if it is given; giving it twice is an error. -/
def value? {α : Type} (read : String → Option α) (items : List Item) (name : String) :
    Option (Option α) :=
  let given := items.filterMap fun item =>
    match item with
    | .option known value => if known == name then some value else none
    | _ => none
  match given with
  | [] => some none
  | [value] => (read value).map some
  | _ => none

/-- Counts are below this number. -/
def countLimit : Nat :=
  1 <<< 64

/-- Read a count: digits, perhaps after a plus sign, that fit into 64 bits. -/
def count? (text : String) : Option Nat :=
  let digits :=
    match text.toList with
    | '+' :: rest => rest
    | text => text
  if digits.isEmpty || !digits.all Char.isDigit then none
  else
    let count := Number.boundedValue countLimit digits
    if count < countLimit then some count else none

/-- Read a number. -/
def number? (text : String) : Option Float :=
  Number.ofText? text.toList

/-- Read the path of a file. -/
def path? (text : String) : Option String :=
  if text.isEmpty then none else some text

/-- Read the arguments of `run`. -/
def runCommand? (arguments : List String) : Option RunCommand := do
  let items ← items? flags options arguments.length arguments
  let input ← onlyFile? items
  let isSynchronous ← flag? items "--sync"
  let stepLimit ← value? count? items "--max-step"
  let irqRate ← value? number? items "--irq-rate"
  let irqSleep ← value? number? items "--irq-sleep"
  let abortOnError ← flag? items "--abort-on-error"
  let constants ← value? path? items "--consts"
  let listsTree ← flag? items "--dump-ast"
  let printsResult ← flag? items "--print-result"
  return ⟨input, isSynchronous, stepLimit, irqRate, irqSleep, abortOnError, constants, listsTree,
    printsResult⟩

/-- Read the arguments of the program; without a result they are not understood. -/
def Command.ofArguments? : List String → Option Command
  | "run" :: arguments => (runCommand? arguments).map .run
  | "meta" :: arguments => do
      let items ← items? [] [] arguments.length arguments
      return .metadata (← onlyFile? items)
  | _ => none

end TreeScript.CommandLine
