import RecordCache.Text.Utf8

/-!
Text that comes in octets of a form that is not told. Documents start with two plain characters, so the
null octets among the first four tell how many octets a unit has, and which of them comes first.
-/

namespace RecordCache.Text.Encoding

inductive Form
  /-- UTF-8, perhaps behind a byte order mark. -/
  | octets
  | pairs (little : Bool)
  | fours (little : Bool)
  deriving DecidableEq

def guess (bytes : List UInt8) : Form :=
  match (bytes.take 4).map (· == 0) with
  | [true, false, true, false] => .pairs false
  | [false, true, false, true] => .pairs true
  | [true, true, true, false] => .fours false
  | [false, true, true, true] => .fours true
  | _ => .octets

def number (bytes : List UInt8) : Nat := bytes.foldl (fun n b => 0x100 * n + b.toNat) 0

def unit (little : Bool) (bytes : List UInt8) : Nat := number (if little then bytes.reverse else bytes)

def pairs? (little : Bool) : List UInt8 → Option (List Nat)
  | [] => some []
  | a :: b :: rest => (unit little [a, b] :: ·) <$> pairs? little rest
  | _ => none

def fours? (little : Bool) : List UInt8 → Option (List Nat)
  | [] => some []
  | a :: b :: c :: d :: rest => (unit little [a, b, c, d] :: ·) <$> fours? little rest
  | _ => none

def isHigh (unit : Nat) : Bool := 0xd800 ≤ unit && unit < 0xdc00

def isLow (unit : Nat) : Bool := 0xdc00 ≤ unit && unit < 0xe000

def char? (code : Nat) : Option Char :=
  if isHigh code || isLow code || 0x110000 ≤ code then none else some (Char.ofNat code)

def ofPairs? : List Nat → Option (List Char)
  | [] => some []
  | [unit] => ([·]) <$> char? unit
  | first :: second :: rest =>
    if isHigh first && isLow second then
      (Char.ofNat (0x10000 + (first - 0xd800) * 0x400 + (second - 0xdc00)) :: ·) <$> ofPairs? rest
    else do return (← char? first) :: (← ofPairs? (second :: rest))

def unmarked (text : String) : String :=
  match text.toList with
  | '\uFEFF' :: c :: rest => String.ofList (c :: rest)
  | _ => text

/-- The text, if the octets have the form that their start tells of. -/
def decode? (bytes : List UInt8) : Option String :=
  match guess bytes with
  | .octets => unmarked <$> Utf8.decode? bytes
  | .pairs little => do return String.ofList (← ofPairs? (← pairs? little bytes))
  | .fours little => do return String.ofList (← (← fours? little bytes).mapM char?)

end RecordCache.Text.Encoding
