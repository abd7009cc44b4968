/-!
Base64 text. Writing pads to whole quads. Reading skips characters outside of the alphabet, stops at
the padding that completes a quad, and refuses a quad that stays open.
-/

namespace RecordCache.Text.Base64

def digit (n : Nat) : Char :=
  if n < 26 then Char.ofNat ('A'.toNat + n)
  else if n < 52 then Char.ofNat ('a'.toNat + (n - 26))
  else if n < 62 then Char.ofNat ('0'.toNat + (n - 52))
  else if n = 62 then '+' else '/'

def digitValue? (c : Char) : Option Nat :=
  if 'A' ≤ c && c ≤ 'Z' then some (c.toNat - 'A'.toNat)
  else if 'a' ≤ c && c ≤ 'z' then some (c.toNat - 'a'.toNat + 26)
  else if '0' ≤ c && c ≤ '9' then some (c.toNat - '0'.toNat + 52)
  else if c = '+' then some 62
  else if c = '/' then some 63
  else none

def encodeChars : List UInt8 → List Char
  | [] => []
  | [a] => [digit (a.toNat / 4), digit (a.toNat % 4 * 16), '=', '=']
  | [a, b] => [digit (a.toNat / 4), digit (a.toNat % 4 * 16 + b.toNat / 16), digit (b.toNat % 16 * 4), '=']
  | a :: b :: c :: rest =>
    digit (a.toNat / 4) :: digit (a.toNat % 4 * 16 + b.toNat / 16) ::
      digit (b.toNat % 16 * 4 + c.toNat / 64) :: digit (c.toNat % 64) :: encodeChars rest

def encode (bytes : List UInt8) : String := String.ofList (encodeChars bytes)

def octets : List Nat → List UInt8
  | [a, b] => [UInt8.ofNat (a * 4 + b / 16)]
  | [a, b, c] => [UInt8.ofNat (a * 4 + b / 16), UInt8.ofNat (b % 16 * 16 + c / 4)]
  | [a, b, c, d] =>
    [UInt8.ofNat (a * 4 + b / 16), UInt8.ofNat (b % 16 * 16 + c / 4), UInt8.ofNat (c % 4 * 64 + d)]
  | _ => []

/-- `quad` holds the digits of the open quad, `pads` the padding right before the rest. -/
def decodeChars (quad : List Nat) (pads : Nat) : List Char → Option (List UInt8)
  | [] => if quad.isEmpty then some [] else none
  | c :: rest =>
    if c = '=' then
      if quad.length < 2 then decodeChars quad pads rest
      else if quad.length + pads + 1 ≥ 4 then some (octets quad)
      else decodeChars quad (pads + 1) rest
    else match digitValue? c with
      | none => decodeChars quad pads rest
      | some v =>
        if quad.length = 3 then (decodeChars [] 0 rest).map (octets (quad ++ [v]) ++ ·)
        else decodeChars (quad ++ [v]) 0 rest

def decode? (text : String) : Option (List UInt8) := decodeChars [] 0 text.toList

end RecordCache.Text.Base64
