import TreeScript.Json.Document
import TreeScript.Number.Reading

/-!
# The tokens of JSON texts

A JSON text is first cut into punctuation, words, numbers and strings.  The
grammar is strict: only the four blanks of the standard are skipped, numbers
have no leading zeros, and control characters must be escaped.

A number keeps at most the digits that fit into 64 bits; whole digits beyond
them raise the exponent and fraction digits beyond them are dropped.  The
result is scaled by one power of ten at a time.

Two tokens are well formed and still stand for nothing: a number too large for
a double, and a string with a surrogate escape that has no partner.  Whether
they are an error depends on where they stand, so they are tokens without a
numeral and without a text.
-/

namespace TreeScript.Json

open TreeScript

/-- A token of a JSON text; a number or string that stands for nothing has no content. -/
inductive Token where
  | openArray
  | closeArray
  | openObject
  | closeObject
  | comma
  | colon
  | null
  | bool (truth : Bool)
  | num (numeral : Option Numeral)
  | str (text : Option String)

/-- The number below which significands are kept. -/
def significandLimit : Nat :=
  1 <<< 64

/-- A significand that may have stopped taking digits, and the power of ten that goes with it. -/
structure Significand where
  value : Nat
  exponent : Int
  full : Bool

namespace Significand

/-- Take a digit before the decimal point; once the significand is full, count it instead. -/
def takeWhole (significand : Significand) (digit : Nat) : Significand :=
  let value := 10 * significand.value + digit
  if significand.full || significandLimit ≤ value then
    { significand with exponent := significand.exponent + 1, full := true }
  else { significand with value := value }

/-- Take a digit after the decimal point; once the significand is full, drop it. -/
def takeFraction (significand : Significand) (digit : Nat) : Significand :=
  let value := 10 * significand.value + digit
  if significand.full || significandLimit ≤ value then { significand with full := true }
  else { significand with value := value, exponent := significand.exponent - 1 }

end Significand

/-- The value of a digit character. -/
def digitValue (digit : Char) : Nat :=
  digit.toNat - '0'.toNat

/-- Divide by `10 ^ 308` until the exponent is one of a double, at most `rounds` times. -/
def scaleDown : Nat → Float → Int → Float
  | 0, _, _ => Float.ofBits 0
  | rounds + 1, number, exponent =>
      if exponent < -308 then
        if number == 0.0 then number
        else scaleDown rounds (number / Float.ofScientific 1 false 308) (exponent + 308)
      else number / Float.ofScientific 1 false exponent.natAbs

/-- `significand * 10 ^ exponent` as a double; refused when it is too large for one. -/
def scale? (significand : Nat) (exponent : Int) : Option Float :=
  let number := Float.ofNat significand
  if exponent < 0 then some (scaleDown 4 number exponent)
  else if 308 < exponent then if significand = 0 then some number else none
  else
    let scaled := number * Float.ofScientific 1 false exponent.toNat
    if scaled.isInf then none else some scaled

/-- The exponents from this one on are not added up but settled by their sign. -/
def exponentLimit : Nat :=
  1 <<< 31

/-- Scale a significand by a written exponent. -/
def scaleBy? (significand : Significand) (negative : Bool) (exponent : Nat) : Option Float :=
  if exponentLimit ≤ exponent then
    if significand.value = 0 || negative then some (Float.ofBits 0) else none
  else
    let written := if negative then -Int.ofNat exponent else Int.ofNat exponent
    scale? significand.value (significand.exponent + written)

/-- Read the digits of an exponent and scale a significand by them. -/
def exponentTail? (significand : Significand) (text : List Char) :
    Option (Option Float × List Char) :=
  let (negative, rest) := Number.spanSign text
  let (digits, rest) := Number.spanDigits rest
  if digits.isEmpty then none
  else some (scaleBy? significand negative (Number.boundedValue exponentLimit digits), rest)

/-- Finish a number that is not an integer: an exponent may still follow. -/
def realTail? (negative : Bool) (significand : Significand) (text : List Char) :
    Option (Option Numeral × List Char) :=
  let scaled :=
    match text with
    | 'e' :: rest => exponentTail? significand rest
    | 'E' :: rest => exponentTail? significand rest
    | rest => some (scale? significand.value significand.exponent, rest)
  scaled.map fun (number, rest) =>
    (number.map fun number => .real (if negative then -number else number), rest)

/-- The numeral of a number that was written as an integer. -/
def integerNumeral? (negative : Bool) (significand : Significand) : Option Numeral :=
  if significand.full then
    (scale? significand.value significand.exponent).map fun number =>
      .real (if negative then -number else number)
  else if negative then
    if significand.value = 0 || 1 <<< 63 < significand.value then
      some (.real (-(Float.ofNat significand.value)))
    else some (.negative significand.value)
  else some (.natural significand.value)

/-- Read a number without its sign. -/
def numberBody? (negative : Bool) (text : List Char) : Option (Option Numeral × List Char) :=
  let (whole, rest) := Number.spanDigits text
  if whole.isEmpty || (whole.head? == some '0' && 1 < whole.length) then none
  else
    let significand :=
      whole.foldl (fun taken digit => taken.takeWhole (digitValue digit)) ⟨0, 0, false⟩
    match rest with
    | '.' :: rest =>
        let (fraction, rest) := Number.spanDigits rest
        if fraction.isEmpty then none
        else
          let significand :=
            fraction.foldl (fun taken digit => taken.takeFraction (digitValue digit))
              { significand with full := false }
          realTail? negative significand rest
    | 'e' :: _ => realTail? negative significand rest
    | 'E' :: _ => realTail? negative significand rest
    | rest => some (integerNumeral? negative significand, rest)

/-- Read a number; one that is too large has no numeral. -/
def number? : List Char → Option (Option Numeral × List Char)
  | '-' :: rest => numberBody? true rest
  | text => numberBody? false text

/-- The value of a hexadecimal digit of either case. -/
def hexValue? (digit : Char) : Option Nat :=
  if digit.isDigit then some (digitValue digit)
  else if 'a' ≤ digit ∧ digit ≤ 'f' then some (digit.toNat - 'a'.toNat + 10)
  else if 'A' ≤ digit ∧ digit ≤ 'F' then some (digit.toNat - 'A'.toNat + 10)
  else none

/-- The code unit written by four hexadecimal digits. -/
def unit? (first second third fourth : Char) : Option Nat := do
  let first ← hexValue? first
  let second ← hexValue? second
  let third ← hexValue? third
  let fourth ← hexValue? fourth
  return ((first * 16 + second) * 16 + third) * 16 + fourth

/-- Whether a code unit opens a surrogate pair. -/
def isHighSurrogate (unit : Nat) : Bool :=
  0xD800 ≤ unit && unit < 0xDC00

/-- Whether a code unit closes a surrogate pair. -/
def isLowSurrogate (unit : Nat) : Bool :=
  0xDC00 ≤ unit && unit < 0xE000

/-- The character that a one-letter escape stands for. -/
def simpleEscape? : Char → Option Char
  | '"' => some '"'
  | '\\' => some '\\'
  | '/' => some '/'
  | 'b' => some (Char.ofNat 8)
  | 'f' => some (Char.ofNat 12)
  | 'n' => some '\n'
  | 'r' => some '\r'
  | 't' => some '\t'
  | _ => none

/-- Read the escape of a code unit that closes a surrogate pair. -/
def lowSurrogate? : List Char → Option (Nat × List Char)
  | '\\' :: 'u' :: first :: second :: third :: fourth :: rest => do
      let unit ← unit? first second third fourth
      if isLowSurrogate unit then some (unit, rest) else none
  | _ => none

/--
Read a string after its opening quote, at most `length` escapes and characters.
The characters read so far come in reverse order; there are none any more once
a surrogate without a partner has been met.
-/
def stringTail? : Nat → Option (List Char) → List Char → Option (Option String × List Char)
  | 0, _, _ => none
  | _ + 1, _, [] => none
  | _ + 1, read, '"' :: rest => some (read.map fun read => String.ofList read.reverse, rest)
  | length + 1, read, '\\' :: 'u' :: first :: second :: third :: fourth :: rest => do
      let unit ← unit? first second third fourth
      if isHighSurrogate unit then
        match lowSurrogate? rest with
        | some (low, rest) =>
            let point := 0x10000 + (unit - 0xD800) * 0x400 + (low - 0xDC00)
            stringTail? length (read.map (Char.ofNat point :: ·)) rest
        | none => stringTail? length none rest
      else if isLowSurrogate unit then stringTail? length none rest
      else stringTail? length (read.map (Char.ofNat unit :: ·)) rest
  | length + 1, read, '\\' :: letter :: rest => do
      let character ← simpleEscape? letter
      stringTail? length (read.map (character :: ·)) rest
  | length + 1, read, character :: rest =>
      if character.toNat < 32 || character == '\\' then none
      else stringTail? length (read.map (character :: ·)) rest

/-- Whether a character is skipped between tokens. -/
def isBlank (character : Char) : Bool :=
  character == ' ' || character == '\n' || character == '\t' || character == '\r'

/-- Cut a text into tokens, at most `length` of them. -/
def tokens? : Nat → List Char → Option (List Token)
  | _, [] => some []
  | 0, _ :: _ => none
  | length + 1, '[' :: rest => (tokens? length rest).map (.openArray :: ·)
  | length + 1, ']' :: rest => (tokens? length rest).map (.closeArray :: ·)
  | length + 1, '{' :: rest => (tokens? length rest).map (.openObject :: ·)
  | length + 1, '}' :: rest => (tokens? length rest).map (.closeObject :: ·)
  | length + 1, ',' :: rest => (tokens? length rest).map (.comma :: ·)
  | length + 1, ':' :: rest => (tokens? length rest).map (.colon :: ·)
  | length + 1, 'n' :: 'u' :: 'l' :: 'l' :: rest => (tokens? length rest).map (.null :: ·)
  | length + 1, 't' :: 'r' :: 'u' :: 'e' :: rest => (tokens? length rest).map (.bool true :: ·)
  | length + 1, 'f' :: 'a' :: 'l' :: 's' :: 'e' :: rest =>
      (tokens? length rest).map (.bool false :: ·)
  | length + 1, '"' :: rest => do
      let (text, rest) ← stringTail? (length + 1) (some []) rest
      (tokens? length rest).map (.str text :: ·)
  | length + 1, character :: rest =>
      if isBlank character then tokens? length rest
      else do
        let (numeral, rest) ← number? (character :: rest)
        (tokens? length rest).map (.num numeral :: ·)

end TreeScript.Json
