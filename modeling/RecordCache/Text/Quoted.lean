import RecordCache.Text.CharClass
import RecordCache.Text.Hex

/-!
Quoted text. A string stands in single quotes, or in double quotes when it holds a single quote and
no double one; what has no printed form is escaped by its code point. Octets are quoted alike.
-/

namespace RecordCache.Text

def escapePoint (n : Nat) : List Char :=
  if n < 0x100 then '\\' :: 'x' :: hexDigits 2 n
  else if n < 0x10000 then '\\' :: 'u' :: hexDigits 4 n
  else '\\' :: 'U' :: hexDigits 8 n

def quoteMark (s : List Char) : Char :=
  if s.contains '\'' && !s.contains '"' then '"' else '\''

def escapeChar (mark c : Char) : List Char :=
  if c = mark || c = '\\' then ['\\', c]
  else if c = '\n' then ['\\', 'n']
  else if c = '\r' then ['\\', 'r']
  else if c = '\t' then ['\\', 't']
  else if isPrintable c then [c]
  else escapePoint c.toNat

def quoted (s : String) : String :=
  let mark := quoteMark s.toList
  String.ofList (mark :: s.toList.flatMap (escapeChar mark) ++ [mark])

/-- Octets stand for characters of their number; those beyond ASCII are escaped. -/
def escapeOctet (mark : Char) (b : UInt8) : List Char :=
  if b.toNat < 0x7f then escapeChar mark (Char.ofNat b.toNat) else escapePoint b.toNat

def quotedOctets (bytes : List UInt8) : String :=
  let mark := quoteMark (bytes.map fun b => Char.ofNat b.toNat)
  String.ofList ('b' :: mark :: bytes.flatMap (escapeOctet mark) ++ [mark])

end RecordCache.Text
