/-!
Hexadecimal digits: of numbers, and of octets with two digits each. `decode_encode` says that octets
are read back from their digits.
-/

namespace RecordCache.Text

def hexDigits (width n : Nat) : List Char :=
  let digits := Nat.toDigits 16 n
  List.replicate (width - digits.length) '0' ++ digits

def hexValue? (c : Char) : Option Nat :=
  if '0' ≤ c && c ≤ '9' then some (c.toNat - '0'.toNat)
  else if 'a' ≤ c && c ≤ 'f' then some (c.toNat - 'a'.toNat + 10)
  else if 'A' ≤ c && c ≤ 'F' then some (c.toNat - 'A'.toNat + 10)
  else none

namespace Hex

def encodeChars : List UInt8 → List Char
  | [] => []
  | b :: rest => Nat.digitChar (b.toNat / 16) :: Nat.digitChar (b.toNat % 16) :: encodeChars rest

def encode (bytes : List UInt8) : String := String.ofList (encodeChars bytes)

/-- Reads pairs of digits up to the first one that is none. -/
def decodeChars : List Char → List UInt8
  | a :: b :: rest =>
    match hexValue? a, hexValue? b with
    | some high, some low => UInt8.ofNat (16 * high + low) :: decodeChars rest
    | _, _ => []
  | _ => []

def decode (s : String) : List UInt8 := decodeChars s.toList

theorem hexValue?_digitChar {n : Nat} (h : n < 16) : hexValue? (Nat.digitChar n) = some n := by
  have hAll : ∀ m : Fin 16, hexValue? (Nat.digitChar m) = some m.val := by decide
  exact hAll ⟨n, h⟩

theorem decodeChars_encodeChars (bytes : List UInt8) : decodeChars (encodeChars bytes) = bytes := by
  induction bytes with
  | nil => rfl
  | cons b rest ih =>
    have hByte : b.toNat < 256 := b.toNat_lt
    have hSum : 16 * (b.toNat / 16) + b.toNat % 16 = b.toNat := Nat.div_add_mod _ _
    simp only [encodeChars, decodeChars, hexValue?_digitChar (show b.toNat / 16 < 16 by omega),
      hexValue?_digitChar (show b.toNat % 16 < 16 by omega), hSum, ih, UInt8.ofNat_toNat]

theorem decode_encode (bytes : List UInt8) : decode (encode bytes) = bytes := by
  simp [decode, encode, decodeChars_encodeChars]

end Hex

end RecordCache.Text
