import RecordCache.Json
import RecordCache.Number.Decimal
import RecordCache.Text.Hex

/-!
Reading documents from JSON text. Besides the standard grammar, `NaN`, `Infinity` and `-Infinity`
are numbers. A number with a fraction or an exponent is a binary64, any other is whole.
-/

namespace RecordCache.Json.Reader

open Text (hexValue?)

def skipBlanks (s : List Char) : List Char :=
  s.dropWhile fun c => c == ' ' || c == '\t' || c == '\n' || c == '\r'

def codeUnit? : List Char → Option (Nat × List Char)
  | a :: b :: c :: d :: rest => do
    let high := 16 * (← hexValue? a) + (← hexValue? b)
    return (256 * high + 16 * (← hexValue? c) + (← hexValue? d), rest)
  | _ => none

def lowSurrogate? : List Char → Option (Nat × List Char)
  | '\\' :: 'u' :: rest => do
    let (unit, rest) ← codeUnit? rest
    if 0xdc00 ≤ unit && unit < 0xe000 then some (unit, rest) else none
  | _ => none

def escapedPoint? (s : List Char) : Option (Char × List Char) := do
  let (unit, rest) ← codeUnit? s
  if 0xd800 ≤ unit && unit < 0xdc00 then
    match lowSurrogate? rest with
    | some (low, rest) => some (Char.ofNat (0x10000 + (unit - 0xd800) * 0x400 + (low - 0xdc00)), rest)
    | none => some (Char.ofNat 0xfffd, rest)
  else if 0xdc00 ≤ unit && unit < 0xe000 then some (Char.ofNat 0xfffd, rest)
  else some (Char.ofNat unit, rest)

def simpleEscape? : Char → Option Char
  | '"' => some '"'
  | '\\' => some '\\'
  | '/' => some '/'
  | 'b' => some '\x08'
  | 'f' => some '\x0c'
  | 'n' => some '\n'
  | 'r' => some '\r'
  | 't' => some '\t'
  | _ => none

/-- The rest of a string after its opening quote; `seen` holds the characters so far, last first. -/
def stringTail? : Nat → List Char → List Char → Option (String × List Char)
  | 0, _, _ => none
  | fuel + 1, seen, s =>
    match s with
    | '"' :: rest => some (String.ofList seen.reverse, rest)
    | '\\' :: 'u' :: rest =>
      match escapedPoint? rest with
      | some (c, rest) => stringTail? fuel (c :: seen) rest
      | none => none
    | '\\' :: e :: rest =>
      match simpleEscape? e with
      | some c => stringTail? fuel (c :: seen) rest
      | none => none
    | c :: rest => if c.toNat < 0x20 then none else stringTail? fuel (c :: seen) rest
    | [] => none

def digits (s : List Char) : List Char × List Char := (s.takeWhile Char.isDigit, s.dropWhile Char.isDigit)

def natOfDigits (ds : List Char) : Nat := ds.foldl (fun n c => 10 * n + (c.toNat - '0'.toNat)) 0

def fraction (s : List Char) : List Char × List Char :=
  match s with
  | '.' :: rest =>
    match digits rest with
    | ([], _) => ([], s)
    | found => found
  | _ => ([], s)

def exponentDigits? (s : List Char) : Option (Int × List Char) :=
  let (negative, s) := match s with
    | '-' :: rest => (true, rest)
    | '+' :: rest => (false, rest)
    | s => (false, s)
  match digits s with
  | ([], _) => none
  | (ds, rest) => some (if negative then - (natOfDigits ds : Int) else natOfDigits ds, rest)

def exponent? (s : List Char) : Option (Int × List Char) :=
  match s with
  | 'e' :: rest => exponentDigits? rest
  | 'E' :: rest => exponentDigits? rest
  | _ => none

def mostDigits : Nat := 4300

/-- The number that starts with the given sign; a leading zero stands alone. -/
def number? (negative : Bool) (s : List Char) : Option (Number × List Char) :=
  let (whole, rest) := match s with
    | '0' :: rest => (['0'], rest)
    | s => digits s
  if whole.isEmpty then none
  else
    let (places, afterPoint) := fraction rest
    let scaled := exponent? afterPoint
    let magnitude := natOfDigits (whole ++ places)
    if places.isEmpty && scaled.isNone then
      if mostDigits < whole.length then none
      else some (.int (if negative then - (magnitude : Int) else magnitude), rest)
    else
      let (power, afterAll) := scaled.getD (0, afterPoint)
      let x := (Decimal.mk magnitude (power - places.length)).toFloat
      some (.float (if negative then -x else x), afterAll)

def infinity : Float := 1.0 / 0.0

mutual

def value? : Nat → List Char → Option (Json × List Char)
  | 0, _ => none
  | fuel + 1, s =>
    match s with
    | '"' :: rest => (stringTail? (rest.length + 1) [] rest).map fun (text, rest) => (.string text, rest)
    | '{' :: rest =>
      match skipBlanks rest with
      | '}' :: rest => some (.object [], rest)
      | rest => (fields? fuel [] rest).map fun (fields, rest) => (.object fields, rest)
    | '[' :: rest =>
      match skipBlanks rest with
      | ']' :: rest => some (.array [], rest)
      | rest => (items? fuel [] rest).map fun (items, rest) => (.array items, rest)
    | 'n' :: 'u' :: 'l' :: 'l' :: rest => some (.null, rest)
    | 't' :: 'r' :: 'u' :: 'e' :: rest => some (.bool true, rest)
    | 'f' :: 'a' :: 'l' :: 's' :: 'e' :: rest => some (.bool false, rest)
    | 'N' :: 'a' :: 'N' :: rest => some (.float (0.0 / 0.0), rest)
    | 'I' :: 'n' :: 'f' :: 'i' :: 'n' :: 'i' :: 't' :: 'y' :: rest => some (.float infinity, rest)
    | '-' :: 'I' :: 'n' :: 'f' :: 'i' :: 'n' :: 'i' :: 't' :: 'y' :: rest => some (.float (-infinity), rest)
    | '-' :: rest => (number? true rest).map fun (n, rest) => (.number n, rest)
    | s => (number? false s).map fun (n, rest) => (.number n, rest)

def fields? : Nat → Fields Json → List Char → Option (Fields Json × List Char)
  | 0, _, _ => none
  | fuel + 1, seen, s =>
    match s with
    | '"' :: rest => do
      let (name, rest) ← stringTail? (rest.length + 1) [] rest
      match skipBlanks rest with
      | ':' :: rest =>
        let (value, rest) ← value? fuel (skipBlanks rest)
        let seen := (name, value) :: seen
        match skipBlanks rest with
        | ',' :: rest => fields? fuel seen (skipBlanks rest)
        | '}' :: rest => some (Assoc.ofList seen.reverse, rest)
        | _ => none
      | _ => none
    | _ => none

def items? : Nat → List Json → List Char → Option (List Json × List Char)
  | 0, _, _ => none
  | fuel + 1, seen, s => do
    let (item, rest) ← value? fuel s
    match skipBlanks rest with
    | ',' :: rest => items? fuel (item :: seen) (skipBlanks rest)
    | ']' :: rest => some ((item :: seen).reverse, rest)
    | _ => none

end

end RecordCache.Json.Reader

namespace RecordCache.Json

def read? (text : String) : Option Json :=
  let s := text.toList
  match Reader.value? (2 * s.length + 2) (Reader.skipBlanks s) with
  | some (j, rest) => if (Reader.skipBlanks rest).isEmpty then some j else none
  | none => none

end RecordCache.Json
