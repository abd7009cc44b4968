import RecordCache.Text.Table.Lowering
import RecordCache.Text.Table.NameMark
import RecordCache.Text.Table.Nameless
import RecordCache.Text.Table.Unprintable
import RecordCache.Text.Table.Word

/-!
Character classes over all of Unicode: blanks, decimal digits, word characters, printable
characters, and characters that differ in case only.
-/

namespace RecordCache.Text

def inRanges (ranges : List (Nat × Nat)) (c : Char) : Bool :=
  ranges.any fun r => r.1 ≤ c.toNat && c.toNat ≤ r.2

def blankRanges : List (Nat × Nat) :=
  [(0x9, 0xd), (0x1c, 0x20), (0x85, 0x85), (0xa0, 0xa0), (0x1680, 0x1680), (0x2000, 0x200a),
    (0x2028, 0x2029), (0x202f, 0x202f), (0x205f, 0x205f), (0x3000, 0x3000)]

def isBlank (c : Char) : Bool := inRanges blankRanges c

/-- The zero of every decimal numeral system; its digits follow in order. -/
def decimalZeros : List Nat :=
  [0x30, 0x660, 0x6f0, 0x7c0, 0x966, 0x9e6, 0xa66, 0xae6, 0xb66, 0xbe6, 0xc66, 0xce6, 0xd66, 0xde6,
    0xe50, 0xed0, 0xf20, 0x1040, 0x1090, 0x17e0, 0x1810, 0x1946, 0x19d0, 0x1a80, 0x1a90, 0x1b50,
    0x1bb0, 0x1c40, 0x1c50, 0xa620, 0xa8d0, 0xa900, 0xa9d0, 0xa9f0, 0xaa50, 0xabf0, 0xff10, 0x104a0,
    0x10d30, 0x11066, 0x110f0, 0x11136, 0x111d0, 0x112f0, 0x11450, 0x114d0, 0x11650, 0x116c0,
    0x11730, 0x118e0, 0x11950, 0x11c50, 0x11d50, 0x11da0, 0x16a60, 0x16ac0, 0x16b50, 0x1d7ce,
    0x1d7d8, 0x1d7e2, 0x1d7ec, 0x1d7f6, 0x1e140, 0x1e2f0, 0x1e950, 0x1fbf0]

def digitValue? (c : Char) : Option Nat :=
  (decimalZeros.find? fun start => start ≤ c.toNat && c.toNat < start + 10).map (c.toNat - ·)

def isDecimal (c : Char) : Bool := (digitValue? c).isSome

def isWord (c : Char) : Bool :=
  if c.toNat < 0x80 then c.isAlphanum || c == '_' else inRanges Table.word c

def nameSigns : List (Nat × Nat) := [(0x1885, 0x1886), (0x2118, 0x2118), (0x212e, 0x212e)]

def nameFollowers : List (Nat × Nat) :=
  [(0xe33, 0xe33), (0xeb3, 0xeb3), (0x1369, 0x1371), (0x19da, 0x19da), (0xff9e, 0xff9f)]

def isNamePart (c : Char) : Bool :=
  (isWord c && !inRanges Table.nameless c) || inRanges Table.nameMarks c

def isNameStart (c : Char) : Bool :=
  (isWord c && !isDecimal c && !inRanges Table.nameless c && !inRanges nameFollowers c) ||
    inRanges nameSigns c

/-- The form of a name: a letter, then letters, digits and marks. -/
def isName (s : List Char) : Bool :=
  match s with
  | c :: rest => isNameStart c && rest.all isNamePart
  | [] => false

def isPrintable (c : Char) : Bool :=
  if c.toNat < 0x7f then 0x20 ≤ c.toNat else !inRanges Table.unprintable c

def lowered (c : Char) : Char :=
  match Table.lowering.find? fun (first, last, step, _) =>
      first ≤ c.toNat && c.toNat ≤ last && (c.toNat - first) % step == 0 with
  | some (_, _, _, offset) => Char.ofNat ((c.toNat : Int) + offset).toNat
  | none => c

/-- Lower-case characters that count as one when case is ignored, first representative first. -/
def caseClasses : List (List Nat) :=
  [[0x69, 0x131], [0x73, 0x17f], [0xb5, 0x3bc], [0x345, 0x3b9, 0x1fbe], [0x390, 0x1fd3],
    [0x3b0, 0x1fe3], [0x3b2, 0x3d0], [0x3b5, 0x3f5], [0x3b8, 0x3d1], [0x3ba, 0x3f0], [0x3c0, 0x3d6],
    [0x3c1, 0x3f1], [0x3c2, 0x3c3], [0x3c6, 0x3d5], [0x432, 0x1c80], [0x434, 0x1c81], [0x43e, 0x1c82],
    [0x441, 0x1c83], [0x442, 0x1c84, 0x1c85], [0x44a, 0x1c86], [0x463, 0x1c87], [0x1c88, 0xa64b],
    [0x1e61, 0x1e9b], [0xfb05, 0xfb06]]

def lowClass (low : Nat) : List Nat := (caseClasses.find? (·.contains low)).getD [low]

def raisedForms (low : Nat) : List Nat :=
  Table.lowering.filterMap fun (first, last, step, offset) =>
    let origin := ((low : Int) - offset).toNat
    if (origin : Int) + offset = low && first ≤ origin && origin ≤ last && (origin - first) % step == 0
    then some origin else none

def caseVariants (c : Char) : List Nat :=
  let lows := lowClass (lowered c).toNat
  lows ++ lows.flatMap raisedForms

def trimLeft (s : List Char) : List Char := s.dropWhile isBlank

def trim (s : String) : String :=
  String.ofList (trimLeft (trimLeft s.toList).reverse).reverse

def splitOn (separator : Char) : List Char → List (List Char)
  | [] => [[]]
  | c :: rest =>
    if c = separator then [] :: splitOn separator rest
    else match splitOn separator rest with
      | piece :: pieces => (c :: piece) :: pieces
      | [] => [[c]]

def split (separator : Char) (s : String) : List String :=
  (splitOn separator s.toList).map String.ofList

def hasPiece (piece : List Char) : List Char → Bool
  | [] => piece.isEmpty
  | c :: rest => piece.isPrefixOf (c :: rest) || hasPiece piece rest

def join (separator : String) (pieces : List String) : String := separator.intercalate pieces

end RecordCache.Text
