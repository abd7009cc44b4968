import RecordCache.Text.CharClass

/-!
The parts of a search pattern. A part that matches one character carries the options that were in
force where it was written.
-/

namespace RecordCache.Pattern

structure Options where
  ignoreCase : Bool := false
  multiline : Bool := false
  dotAll : Bool := false
  verbose : Bool := false
  ascii : Bool := false
  deriving DecidableEq, Inhabited

inductive CharClass
  | digit
  | blank
  | word
  deriving DecidableEq

namespace CharClass

def holds (cls : CharClass) (ascii : Bool) (c : Char) : Bool :=
  (!ascii || c.toNat < 0x80) &&
    match cls with
    | .digit => Text.isDecimal c
    | .blank => if ascii then c == ' ' || (9 ≤ c.toNat && c.toNat ≤ 13) else Text.isBlank c
    | .word => Text.isWord c

end CharClass

inductive SetItem
  | char (code : Nat)
  | range (first last : Nat)
  | class (cls : CharClass) (negated : Bool)
  deriving DecidableEq

inductive CharTest
  | char (negated : Bool) (code : Nat)
  | any
  | set (negated : Bool) (items : List SetItem)
  deriving DecidableEq

inductive Anchor
  | textStart
  | textEnd
  | lineStart
  | lineEnd
  | lastLineEnd
  | wordBoundary (negated ascii : Bool)
  deriving DecidableEq

inductive Eagerness
  | greedy
  | lazy
  /-- Takes what it can and never gives it back. -/
  | possessive
  deriving DecidableEq

inductive Node
  | empty
  | one (test : CharTest) (options : Options)
  | anchor (a : Anchor)
  | seq (first second : Node)
  | alt (left right : Node)
  | loop (least : Nat) (most : Option Nat) (eagerness : Eagerness) (body : Node)
  | group (index : Nat) (body : Node)
  /-- The text that a group of this width has matched. -/
  | backref (index : Nat) (least : Nat) (most : Option Nat) (options : Options)
  /-- One of two parts, by whether a group has matched. -/
  | given (index : Nat) (yes no : Node)
  | look (ahead negated : Bool) (width : Nat) (body : Node)
  | atomic (body : Node)

namespace Node

/-- The most characters of a repetition; a part that matches none can be repeated without end. -/
def repeatedMost (most body : Option Nat) : Option Nat :=
  if most = some 0 || body = some 0 then some 0 else do return (← most) * (← body)

def width : Node → Nat × Option Nat
  | .empty => (0, some 0)
  | .one _ _ => (1, some 1)
  | .anchor _ => (0, some 0)
  | .seq a b =>
    (a.width.1 + b.width.1, do return (← a.width.2) + (← b.width.2))
  | .alt a b =>
    (min a.width.1 b.width.1, do return max (← a.width.2) (← b.width.2))
  | .loop least most _ body => (least * body.width.1, repeatedMost most body.width.2)
  | .group _ body => body.width
  | .backref _ least most _ => (least, most)
  | .given _ yes no =>
    (min yes.width.1 no.width.1, do return max (← yes.width.2) (← no.width.2))
  | .look _ _ _ _ => (0, some 0)
  | .atomic body => body.width

def farthest : Nat := 4294967295

def looksBackFixed : Node → Bool
  | .seq a b => a.looksBackFixed && b.looksBackFixed
  | .alt a b => a.looksBackFixed && b.looksBackFixed
  | .loop _ _ _ body => body.looksBackFixed
  | .group _ body => body.looksBackFixed
  | .given _ yes no => yes.looksBackFixed && no.looksBackFixed
  | .look ahead _ _ body =>
    body.looksBackFixed && (ahead || (body.width.2 = some body.width.1 && body.width.1 ≤ farthest))
  | .atomic body => body.looksBackFixed
  | _ => true

def isAnchor : Node → Bool
  | .anchor _ => true
  | _ => false

def isLoop : Node → Bool
  | .loop _ _ _ _ => true
  | _ => false

/-- Parts of one character, anchors and references that are written alike. -/
def sameUnit : Node → Node → Bool
  | .one t o, .one t' o' => t = t' && o = o'
  | .anchor a, .anchor b => a = b
  | .backref m _ _ o, .backref n _ _ o' => m = n && o = o'
  | _, _ => false

def setItems? : Node → Option (Options × List SetItem)
  | .one (.char false code) o => some (o, [.char code])
  | .one (.set false items) o => some (o, items)
  | _ => none

def ofList : List Node → Node
  | [] => .empty
  | [n] => n
  | n :: rest => .seq n (ofList rest)

end Node

end RecordCache.Pattern
