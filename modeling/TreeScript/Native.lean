import TreeScript.Value

/-!
# Native functions by name

A native function is known to the store only by what it is: a function of the
library, a method bound to its receiver, or a function that the host supplies
under a name.  What each of them does is settled elsewhere.
-/

namespace TreeScript

/-- The functions of the library. -/
inductive LibraryFunction where
  | add
  | sub
  | mul
  | div
  | pow
  | mod
  | lt
  | lteq
  | gt
  | gteq
  | eq
  | neq
  | type
  | toStr
  | range
  | createError
  | print
  | readline
  deriving DecidableEq, Repr

namespace LibraryFunction

/-- The name that a library function is bound to. -/
def name : LibraryFunction → String
  | .add => "Core:add"
  | .sub => "Core:sub"
  | .mul => "Core:mul"
  | .div => "Core:div"
  | .pow => "Core:pow"
  | .mod => "Core:mod"
  | .lt => "Core:lt"
  | .lteq => "Core:lteq"
  | .gt => "Core:gt"
  | .gteq => "Core:gteq"
  | .eq => "Core:eq"
  | .neq => "Core:neq"
  | .type => "Core:type"
  | .toStr => "Core:to_str"
  | .range => "Core:range"
  | .createError => "Error:create"
  | .print => "print"
  | .readline => "readline"

/-- All library functions. -/
def all : List LibraryFunction :=
  [.add, .sub, .mul, .div, .pow, .mod, .lt, .lteq, .gt, .gteq, .eq, .neq, .type, .toStr, .range,
    .createError, .print, .readline]

/-- The library function that an operator stands for. -/
def ofOperator : BinaryOperator → LibraryFunction
  | .pow => .pow
  | .mul => .mul
  | .div => .div
  | .rem => .mod
  | .add => .add
  | .sub => .sub
  | .lt => .lt
  | .lteq => .lteq
  | .gt => .gt
  | .gteq => .gteq
  | .eq => .eq
  | .neq => .neq

end LibraryFunction

/-- Properties that are functions, with the receiver they were taken from. -/
inductive Method where
  | strUpper (text : String)
  | strLower (text : String)
  | strToNum (text : String)
  | strSplit (text : String)
  | numToStr (number : Float)
  | boolToStr (truth : Bool)
  | arrPush (items : ArrayId)
  | arrPop (items : ArrayId)
  | arrJoin (items : ArrayId)
  | arrMap (items : ArrayId)
  deriving DecidableEq

/-- The name of the type of the receiver and of the property. -/
def Method.name : Method → String
  | .strUpper _ => "str.upper"
  | .strLower _ => "str.lower"
  | .strToNum _ => "str.to_num"
  | .strSplit _ => "str.split"
  | .numToStr _ => "num.to_str"
  | .boolToStr _ => "bool.to_str"
  | .arrPush _ => "arr.push"
  | .arrPop _ => "arr.pop"
  | .arrJoin _ => "arr.join"
  | .arrMap _ => "arr.map"

/-- A native function. -/
inductive Native where
  | library (function : LibraryFunction)
  | method (property : Method)
  | host (name : String)
  deriving DecidableEq

/-- The name that a native function is created with. -/
def Native.name : Native → String
  | .library function => function.name
  | .method property => property.name
  | .host name => name

end TreeScript
