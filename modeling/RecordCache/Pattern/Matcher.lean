import RecordCache.Pattern.Syntax

/-!
Matching by backtracking. A part is run with a continuation that matches what comes after it; the
first way that satisfies the continuation wins.
-/

namespace RecordCache.Pattern

/-- A place in a text, and the texts that the groups have matched so far. -/
structure Place where
  before : List Char
  after : List Char
  left : Nat
  captures : List (Nat × List Char)

abbrev Continuation := Place → Option Place

namespace CharTest

def planeSize : Nat := 0x10000

def lowerAscii (n : Nat) : Nat := if 0x41 ≤ n && n ≤ 0x5a then n + 0x20 else n

def lower (o : Options) (n : Nat) : Nat :=
  if o.ascii then lowerAscii n
  else if (Char.ofNat n).toNat = n then (Text.lowered (Char.ofNat n)).toNat
  else n

def lowClass (o : Options) (low : Nat) : List Nat := if o.ascii then [low] else Text.lowClass low

def variants (o : Options) (low : Nat) : List Nat :=
  if o.ascii then if 0x61 ≤ low && low ≤ 0x7a then [low, low - 0x20] else [low]
  else Text.caseVariants (Char.ofNat low)

def inRange (first last n : Nat) : Bool := first ≤ n && n ≤ last

/-- A character beyond the first plane is sought in a range in both cases. -/
def farInRange (first last low : Nat) : Bool :=
  planeSize ≤ last &&
    (inRange first last low || ((Text.raisedForms low).head?).any (inRange first last))

def itemHolds (o : Options) (c : Char) : SetItem → Bool
  | .char code => c.toNat == code
  | .range first last => inRange first last c.toNat
  | .class cls negated => cls.holds o.ascii c != negated

/-- Whether an item of a set accepts a lower-case code point when case is ignored. Beyond the first
plane a single character is taken as it is written. -/
def itemHoldsLow (o : Options) (low : Nat) : SetItem → Bool
  | .char code =>
    if lower o code < planeSize then (lowClass o (lower o code)).contains low else code == low
  | .range first last =>
    (variants o low).any (inRange first (min last (planeSize - 1))) || farInRange first last low
  | .class cls negated => cls.holds o.ascii (Char.ofNat low) != negated

def charHolds (o : Options) (code : Nat) (c : Char) : Bool :=
  if o.ignoreCase then (lowClass o (lower o code)).contains (lower o c.toNat) else c.toNat == code

def holds (o : Options) (c : Char) : CharTest → Bool
  | .char negated code => charHolds o code c != negated
  | .any => o.dotAll || c != '\n'
  | .set negated items =>
    (if o.ignoreCase then items.any (itemHoldsLow o (lower o c.toNat)) else items.any (itemHolds o c))
      != negated

end CharTest

namespace Anchor

def wordAt (ascii : Bool) : List Char → Bool
  | c :: _ => CharClass.word.holds ascii c
  | [] => false

def holds (p : Place) : Anchor → Bool
  | .textStart => p.before.isEmpty
  | .textEnd => p.after.isEmpty
  | .lineStart => p.before.isEmpty || p.before.head? == some '\n'
  | .lineEnd => p.after.isEmpty || p.after.head? == some '\n'
  | .lastLineEnd => p.after.isEmpty || p.after == ['\n']
  | .wordBoundary negated ascii =>
    if p.before.isEmpty && p.after.isEmpty then false
    else (wordAt ascii p.before != wordAt ascii p.after) != negated

end Anchor

namespace Place

def step? (p : Place) : Option Place :=
  match p.after with
  | c :: rest => some { p with before := c :: p.before, after := rest, left := p.left - 1 }
  | [] => none

def back? : Nat → Place → Option Place
  | 0, p => some p
  | n + 1, p =>
    match p.before with
    | c :: rest => back? n { p with before := rest, after := c :: p.after, left := p.left + 1 }
    | [] => none

def capture? (p : Place) (index : Nat) : Option (List Char) := p.captures.lookup index

def captured (p from_ : Place) (index : Nat) : Place :=
  { p with captures := (index, from_.after.take (from_.left - p.left)) :: p.captures }

def skip? (o : Options) : List Char → Place → Option Place
  | [], p => some p
  | c :: rest, p =>
    match p.after with
    | d :: _ =>
      if c == d || (o.ignoreCase && CharTest.lower o c.toNat == CharTest.lower o d.toNat) then
        (p.step?).bind (skip? o rest)
      else none
    | [] => none

end Place

/-- Repeats `body`, trying to go on first. A round that matches nothing ends the repetition. -/
def greedyLoop (body : Continuation → Continuation) (least : Nat) (most : Option Nat) (k : Continuation) :
    Nat → Nat → Option Nat → Continuation
  | 0, _, _, _ => none
  | fuel + 1, count, last, p =>
    if count < least then body (greedyLoop body least most k fuel (count + 1) last) p
    else if most.all (count < ·) && last != some p.left then
      match body (greedyLoop body least most k fuel (count + 1) (some p.left)) p with
      | some q => some q
      | none => k p
    else k p

def lazyLoop (body : Continuation → Continuation) (least : Nat) (most : Option Nat) (k : Continuation) :
    Nat → Nat → Option Nat → Continuation
  | 0, _, _, _ => none
  | fuel + 1, count, last, p =>
    if count < least then body (lazyLoop body least most k fuel (count + 1) last) p
    else match k p with
      | some q => some q
      | none =>
        if most.all (count < ·) && last != some p.left then
          body (lazyLoop body least most k fuel (count + 1) (some p.left)) p
        else none

namespace Node

/-- Rounds that can match something, after those that have to be made. -/
def rounds (least : Nat) (p : Place) : Nat := least + p.left + 2

def run : Node → Continuation → Continuation
  | .empty, k, p => k p
  | .one test options, k, p =>
    match p.after with
    | c :: _ => if test.holds options c then (p.step?).bind k else none
    | [] => none
  | .anchor a, k, p => if a.holds p then k p else none
  | .seq a b, k, p => a.run (b.run k) p
  | .alt a b, k, p =>
    match a.run k p with
    | some q => some q
    | none => b.run k p
  | .loop least most .greedy body, k, p => greedyLoop body.run least most k (rounds least p) 0 none p
  | .loop least most .lazy body, k, p => lazyLoop body.run least most k (rounds least p) 0 none p
  | .loop least most .possessive body, k, p =>
    (greedyLoop body.run least most some (rounds least p) 0 none p).bind k
  | .group index body, k, p => body.run (fun q => k (q.captured p index)) p
  | .backref index _ _ options, k, p =>
    match p.capture? index with
    | some text => (Place.skip? options text p).bind k
    | none => none
  | .given index yes no, k, p => if (p.capture? index).isSome then yes.run k p else no.run k p
  | .look ahead negated width body, k, p =>
    let found := (if ahead then some p else Place.back? width p).bind (body.run some)
    match found, negated with
    | some q, false => k { p with captures := q.captures }
    | none, true => k p
    | _, _ => none
  | .atomic body, k, p => (body.run some p).bind k

def foundFrom (n : Node) (before : List Char) (left : Nat) : List Char → Bool
  | [] => (n.run some ⟨before, [], left, []⟩).isSome
  | c :: rest =>
    (n.run some ⟨before, c :: rest, left, []⟩).isSome || foundFrom n (c :: before) (left - 1) rest

def foundIn (n : Node) (text : String) : Bool := n.foundFrom [] text.length text.toList

end Node

end RecordCache.Pattern
