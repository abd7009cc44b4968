/-!
UTF-8, one octet at a time. What does not make a character shows as a gap: one gap for the longest
start of a character that is cut short, and one for an octet that starts none.
-/

namespace RecordCache.Text.Utf8

/-- Within a character: the octets still owed, the bounds of the next one, and the bits so far. -/
structure Pending where
  owed : Nat
  low : Nat
  high : Nat
  bits : Nat

/-- A finished character, or what an octet that starts a character leaves owing. -/
inductive Start
  | char (c : Char)
  | pending (state : Pending)
  | gap

def start (b : Nat) : Start :=
  if b < 0x80 then .char (Char.ofNat b)
  else if 0xc2 ≤ b && b ≤ 0xdf then .pending ⟨1, 0x80, 0xbf, b - 0xc0⟩
  else if b = 0xe0 then .pending ⟨2, 0xa0, 0xbf, 0⟩
  else if b = 0xed then .pending ⟨2, 0x80, 0x9f, 0xd⟩
  else if 0xe1 ≤ b && b ≤ 0xef then .pending ⟨2, 0x80, 0xbf, b - 0xe0⟩
  else if b = 0xf0 then .pending ⟨3, 0x90, 0xbf, 0⟩
  else if b = 0xf4 then .pending ⟨3, 0x80, 0x8f, 4⟩
  else if 0xf1 ≤ b && b ≤ 0xf3 then .pending ⟨3, 0x80, 0xbf, b - 0xf0⟩
  else .gap

/-- The characters of an octet sequence, `none` for every gap. -/
def pieces : Option Pending → List UInt8 → List (Option Char)
  | none, [] => []
  | some _, [] => [none]
  | none, b :: rest =>
    match start b.toNat with
    | .char c => some c :: pieces none rest
    | .pending state => pieces (some state) rest
    | .gap => none :: pieces none rest
  | some p, b :: rest =>
    let n := b.toNat
    if p.low ≤ n && n ≤ p.high then
      let bits := p.bits * 0x40 + (n - 0x80)
      if p.owed = 1 then some (Char.ofNat bits) :: pieces none rest
      else pieces (some ⟨p.owed - 1, 0x80, 0xbf, bits⟩) rest
    else match start n with
      | .char c => none :: some c :: pieces none rest
      | .pending state => none :: pieces (some state) rest
      | .gap => none :: none :: pieces none rest

def decode? (bytes : List UInt8) : Option String :=
  ((pieces none bytes).mapM id).map String.ofList

def decodeLossy (bytes : List UInt8) : String :=
  String.ofList ((pieces none bytes).map fun piece => piece.getD (Char.ofNat 0xfffd))

def encode (s : String) : List UInt8 := s.toUTF8.toList

end RecordCache.Text.Utf8
