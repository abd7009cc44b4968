import RecordCache.Error
import RecordCache.Pattern.Syntax

/-!
Reading the text of a pattern. Options can be set for the whole pattern at its start, or for a group.
A backslash and the character after it are one token.
-/

namespace RecordCache.Pattern.Parser

inductive Token
  | plain (c : Char)
  | escaped (c : Char)
  | broken
  deriving DecidableEq

def tokens : List Char → List Token
  | [] => []
  | '\\' :: c :: rest => .escaped c :: tokens rest
  | '\\' :: [] => [.broken]
  | c :: rest => .plain c :: tokens rest

abbrev GroupWidth := Nat × Option Nat

/-- What is left to read, and the groups met so far; group 0 is the whole pattern. -/
structure Source where
  rest : List Token
  groups : Nat := 1
  names : List (String × Nat) := []
  widths : List (Nat × GroupWidth) := []
  /-- Inside of a look-behind, the number of groups in front of it. -/
  behind : Option Nat := none
  /-- The numbers of groups that conditions rest on. -/
  conditions : List Nat := []
  options : Options := {}
  /-- Classes and case are told to know all of Unicode. -/
  wide : Bool := false
  octets : Bool := false

abbrev Reading := StateT Source (Except PatternFault)

def failure {α : Type} : Reading α := throw .form

def peek : Reading (Option Token) := do return (← get).rest.head?

def next? : Reading (Option Token) := do
  match (← get).rest with
  | t :: rest =>
    if rest.head? = some .broken then failure
    modify fun s => { s with rest }
    return some t
  | [] => return none

def next : Reading Token := do
  match ← next? with
  | some t => return t
  | none => failure

def accept (c : Char) : Reading Bool := do
  if (← peek) = some (.plain c) then
    discard next?
    return true
  return false

def expect (c : Char) : Reading Unit := do
  if !(← accept c) then failure

def takeWhile (test : Char → Bool) : Nat → Reading (List Char)
  | 0 => return []
  | most + 1 => do
    match ← peek with
    | some (.plain c) =>
      if test c then
        discard next?
        return c :: (← takeWhile test most)
      return []
    | _ => return []

def readUntil (stop : Char) : Nat → Reading (List Char)
  | 0 => failure
  | fuel + 1 => do
    match ← next with
    | .plain c => if c = stop then return [] else return c :: (← readUntil stop fuel)
    | _ => failure

def skipUntil (stop : Token) : Nat → Reading Unit
  | 0 => failure
  | fuel + 1 => do
    if (← next) = stop then return () else skipUntil stop fuel

def remaining : Reading Nat := do return (← get).rest.length + 1

def isOctal (c : Char) : Bool := '0' ≤ c && c ≤ '7'

def isHex (c : Char) : Bool := c.isDigit || ('a' ≤ c && c ≤ 'f') || ('A' ≤ c && c ≤ 'F')

def digitOf (c : Char) : Nat :=
  if c.isDigit then c.toNat - '0'.toNat else c.toLower.toNat - 'a'.toNat + 10

def numeral (base : Nat) (ds : List Char) : Nat := ds.foldl (fun n c => base * n + digitOf c) 0

def codeOf (n : Nat) : Reading Nat := if n < 0x110000 then pure n else failure

def hexCode (width : Nat) : Reading Nat := do
  let ds ← takeWhile isHex width
  if ds.length = width then codeOf (numeral 16 ds) else failure

def octalCode (ds : List Char) : Reading Nat :=
  if numeral 8 ds > 0o377 then failure else pure (numeral 8 ds)

def classOf? : Char → Option (CharClass × Bool)
  | 'd' => some (.digit, false)
  | 'D' => some (.digit, true)
  | 's' => some (.blank, false)
  | 'S' => some (.blank, true)
  | 'w' => some (.word, false)
  | 'W' => some (.word, true)
  | _ => none

def anchorOf? (o : Options) : Char → Option Anchor
  | 'A' => some .textStart
  | 'Z' => some .textEnd
  | 'b' => some (.wordBoundary false o.ascii)
  | 'B' => some (.wordBoundary true o.ascii)
  | _ => none

def controlOf? : Char → Option Char
  | 'a' => some '\x07'
  | 'f' => some '\x0c'
  | 'n' => some '\n'
  | 'r' => some '\r'
  | 't' => some '\t'
  | 'v' => some '\x0b'
  | '\\' => some '\\'
  | _ => none

/-- An escaped character that is written by its code or stands for itself. Octets have no codes of
more than two digits. -/
def plainEscape (c : Char) : Reading Nat := do
  let octets := (← get).octets
  match c, octets with
  | 'x', _ => hexCode 2
  | 'u', false => hexCode 4
  | 'U', false => hexCode 8
  | c, _ => if c.isAlpha then failure else pure c.toNat

/-! ### Groups -/

def openGroup (name : Option String) : Reading Nat := do
  let s ← get
  let index := s.groups
  if let some n := name then
    if (s.names.lookup n).isSome then failure
  set { s with
    groups := index + 1
    names := match name with
      | some n => (n, index) :: s.names
      | none => s.names }
  return index

def closeGroup (index : Nat) (body : Node) : Reading Unit :=
  modify fun s => { s with widths := (index, body.width) :: s.widths }

def checkBehind (index : Nat) : Reading Unit := do
  let s ← get
  if let some limit := s.behind then
    if (s.widths.lookup index).isNone || limit ≤ index then failure

def reference (o : Options) (index : Nat) : Reading Node := do
  match (← get).widths.lookup index with
  | some (least, most) =>
    checkBehind index
    return .backref index least most o
  | none => failure

def groupName (stop : Char) : Reading String := do
  let name ← readUntil stop (← remaining)
  if Text.isName name then return String.ofList name
  failure

def namedIndex (name : String) : Reading Nat := do
  match (← get).names.lookup name with
  | some index => return index
  | none => failure

def conditionIndex : Reading Nat := do
  let name ← readUntil ')' (← remaining)
  if Text.isName name then namedIndex (String.ofList name)
  else if name.isEmpty || !name.all Char.isDigit || numeral 10 name = 0 then failure
  else
    modify fun s => { s with conditions := numeral 10 name :: s.conditions }
    return numeral 10 name

/-! ### Parts of one character -/

/-- A number of up to two digits names a group; three octal digits name a character. -/
def numbered (o : Options) (d : Char) : Reading Node := do
  let second ← takeWhile Char.isDigit 1
  let ds := d :: second
  if !second.isEmpty && ds.all isOctal then
    let third ← takeWhile isOctal 1
    if !third.isEmpty then return .one (.char false (← octalCode (ds ++ third))) o
  reference o (numeral 10 ds)

def escape (o : Options) (c : Char) : Reading Node := do
  match anchorOf? o c, classOf? c, controlOf? c with
  | some a, _, _ => return .anchor a
  | _, some (cls, negated), _ => return .one (.set false [.class cls negated]) o
  | _, _, some d => return .one (.char false d.toNat) o
  | _, _, _ =>
    if c = '0' then
      let ds ← takeWhile isOctal 2
      return .one (.char false (numeral 8 ds)) o
    else if c.isDigit then numbered o c
    else return .one (.char false (← plainEscape c)) o

/-- An escape inside of a set, where `\b` is a backspace and numbers are octal. -/
def setEscape (c : Char) : Reading SetItem := do
  match classOf? c, controlOf? c with
  | some (cls, negated), _ => return .class cls negated
  | _, some d => return .char d.toNat
  | _, _ =>
    if c = 'b' then return .char 8
    else if isOctal c then
      let ds ← takeWhile isOctal 2
      return .char (← octalCode (c :: ds))
    else if c.isDigit then failure
    else return .char (← plainEscape c)

def setItem : Token → Reading SetItem
  | .plain c => return .char c.toNat
  | .escaped c => setEscape c
  | .broken => failure

/-- The items of a set up to its closing bracket, which stands for itself when it comes first. -/
def setItems : Nat → List SetItem → Reading (List SetItem)
  | 0, _ => failure
  | fuel + 1, seen => do
    let t ← next
    if t = .plain ']' && !seen.isEmpty then return seen.reverse
    let first ← setItem t
    if ← accept '-' then
      let u ← next
      if u = .plain ']' then return (.char '-'.toNat :: first :: seen).reverse
      match first, ← setItem u with
      | .char low, .char high =>
        if high < low then failure
        setItems fuel (.range low high :: seen)
      | _, _ => failure
    else setItems fuel (first :: seen)

def charSet (o : Options) : Reading Node := do
  let negated ← accept '^'
  match (← setItems (← remaining) []).eraseDups with
  | [.char code] => return .one (.char negated code) o
  | items => return .one (.set negated items) o

/-! ### Repetitions -/

def countless : Nat := 4294967295

def bound (ds : List Char) : Reading Nat :=
  if countless ≤ numeral 10 ds then throw .bound else pure (numeral 10 ds)

/-- The bounds in braces; nothing is read when they have not the form of bounds. -/
def bounds? : Reading (Option (Nat × Option Nat)) := do
  let start ← get
  let all ← remaining
  let low ← takeWhile Char.isDigit all
  let high ← if ← accept ',' then takeWhile Char.isDigit all else pure low
  if start.rest.head? = some (.plain '}') || !(← accept '}') then
    set start
    return none
  let least ← if low.isEmpty then pure 0 else bound low
  if high.isEmpty then return some (least, none)
  let most ← bound high
  if most < least then failure
  return some (least, some most)

def repetition? (t : Token) : Reading (Option (Nat × Option Nat)) := do
  match t with
  | .plain '*' => return some (0, none)
  | .plain '+' => return some (1, none)
  | .plain '?' => return some (0, some 1)
  | .plain '{' => bounds?
  | _ => return none

def eagerness : Reading Eagerness := do
  if ← accept '?' then return .lazy
  if ← accept '+' then return .possessive
  return .greedy

/-- What is read of a branch: a part, or a group that only holds its parts together. -/
inductive Piece
  | part (node : Node)
  | bare (nodes : List Node)

namespace Piece

def nodes : Piece → List Node
  | .part n => [n]
  | .bare ns => ns

def isRepeatable : Piece → Bool
  | .part n => !n.isAnchor && !n.isLoop
  | .bare _ => true

end Piece

def repeatLast (bounds : Nat × Option Nat) : List Piece → Reading (List Piece)
  | [] => failure
  | last :: seen => do
    if !last.isRepeatable then failure
    return .part (.loop bounds.1 bounds.2 (← eagerness) (Node.ofList last.nodes)) :: seen

/-! ### Options -/

def setOption (value : Bool) (o : Options) : Char → Options
  | 'i' => { o with ignoreCase := value }
  | 'm' => { o with multiline := value }
  | 's' => { o with dotAll := value }
  | 'x' => { o with verbose := value }
  | 'a' => { o with ascii := true }
  | 'u' => { o with ascii := false }
  | _ => o

def setOptions (value : Bool) (o : Options) (letters : List Char) : Options :=
  letters.foldl (setOption value) o

def optionLetters (octets : Bool) : List Char :=
  if octets then ['i', 'm', 's', 'x', 'a', 'L'] else ['i', 'm', 's', 'x', 'a', 'u']

def kindLetters : List Char := ['a', 'u', 'L']

def letterRun : Nat → Reading (List Char × Char)
  | 0 => failure
  | fuel + 1 => do
    let octets := (← get).octets
    match ← next with
    | .plain c =>
      if (optionLetters octets).contains c then
        let (letters, stop) ← letterRun fuel
        return (c :: letters, stop)
      return ([], c)
    | _ => failure

/-- Options after a question mark: for the whole pattern when a parenthesis closes them, else for the
group that a colon opens. -/
def optionsChange (o : Options) : Reading (Bool × Options) := do
  let (on, stop) ← letterRun (← remaining)
  if (kindLetters.filter on.contains).length > 1 then failure
  let added := setOptions true o on
  match stop with
  | ')' =>
    if on.isEmpty then failure
    modify fun s => { s with
      options := setOptions true s.options (on.filter (· != 'u'))
      wide := s.wide || on.contains 'u' }
    return (true, (← get).options)
  | ':' => if on.isEmpty then failure else return (false, added)
  | '-' =>
    let (off, stop) ← letterRun (← remaining)
    if off.isEmpty || stop ≠ ':' || kindLetters.any off.contains || on.any off.contains then failure
    return (false, setOptions false added off)
  | _ => failure

/-! ### Branches -/

/-- Moves what all branches start with in front of them. -/
def commonStart : Nat → List (List Node) → List Node × List (List Node)
  | 0, branches => ([], branches)
  | fuel + 1, branches =>
    match branches with
    | (first :: _) :: _ =>
      if branches.all fun b => b.head?.any (first.sameUnit ·) then
        let (start, rest) := commonStart fuel (branches.map List.tail)
        (first :: start, rest)
      else ([], branches)
    | _ => ([], branches)

def setOfBranches? (branches : List (List Node)) : Option Node := do
  let parts ← branches.mapM fun b => match b with
    | [n] => n.setItems?
    | _ => none
  let (options, _) ← parts.head?
  return .one (.set false (parts.flatMap Prod.snd).eraseDups) options

def choice : List (List Node) → Node
  | [] => .empty
  | [b] => Node.ofList b
  | b :: rest => .alt (Node.ofList b) (choice rest)

def ofBranches (branches : List (List Node)) : List Node :=
  match branches with
  | [b] => b
  | _ =>
    let (start, rest) := commonStart ((branches.head?.map List.length).getD 0) branches
    start ++ [(setOfBranches? rest).getD (choice rest)]

def isLayout (t : Token) : Bool :=
  match t with
  | .plain c => c == ' ' || (9 ≤ c.toNat && c.toNat ≤ 13)
  | _ => false

def skipComment : Nat → Reading Unit
  | 0 => return ()
  | fuel + 1 => do
    match ← next? with
    | none => return ()
    | some t => if t = .plain '\n' then return () else skipComment fuel

def lookaround (ahead negated : Bool) (body : List Node) : Node :=
  .look ahead negated (if ahead then 0 else (Node.ofList body).width.1) (Node.ofList body)

mutual

def branches : Nat → Bool → Options → Reading (List Node)
  | 0, _, _ => failure
  | fuel + 1, outer, o => do
    let first ← branch fuel outer o
    let rest ← otherBranches fuel outer o
    return ofBranches (first :: rest)

def otherBranches : Nat → Bool → Options → Reading (List (List Node))
  | 0, _, _ => failure
  | fuel + 1, outer, o => do
    if ← accept '|' then
      let whole := (← get).options
      let o := if outer then whole else o
      let b ← branch fuel false o
      return b :: (← otherBranches fuel outer o)
    return []

def branch : Nat → Bool → Options → Reading (List Node)
  | 0, _, _ => failure
  | fuel + 1, leading, o => do
    return (← pieces fuel leading o []).reverse.flatMap Piece.nodes

/-- The pieces of a branch, the last one first. Options for the whole pattern can stand only where it
is `leading`, in front of every piece. -/
def pieces : Nat → Bool → Options → List Piece → Reading (List Piece)
  | 0, _, _, _ => failure
  | fuel + 1, leading, o, seen => do
    match ← peek with
    | none => return seen
    | some (.plain '|') => return seen
    | some (.plain ')') => return seen
    | some t =>
      discard next?
      if o.verbose && isLayout t then pieces fuel leading o seen
      else if o.verbose && t = .plain '#' then
        skipComment (← remaining)
        pieces fuel leading o seen
      else match ← repetition? t with
        | some bounds => pieces fuel leading o (← repeatLast bounds seen)
        | none =>
          let (found, changed) ← piece fuel (leading && seen.isEmpty) o t
          match found with
          | some p => pieces fuel leading o (p :: seen)
          | none => pieces fuel leading changed seen

def piece : Nat → Bool → Options → Token → Reading (Option Piece × Options)
  | 0, _, _, _ => failure
  | fuel + 1, leading, o, t => do
    let one (n : Node) : Option Piece × Options := (some (.part n), o)
    match t with
    | .escaped c => return one (← escape o c)
    | .plain '[' => return one (← charSet o)
    | .plain '.' => return one (.one .any o)
    | .plain '^' => return one (.anchor (if o.multiline then .lineStart else .textStart))
    | .plain '$' => return one (.anchor (if o.multiline then .lineEnd else .lastLineEnd))
    | .plain '(' =>
      if ← accept '?' then extension fuel leading o
      else return one (← capturing fuel o none)
    | .plain c => return one (.one (.char false c.toNat) o)
    | .broken => failure

def capturing : Nat → Options → Option String → Reading Node
  | 0, _, _ => failure
  | fuel + 1, o, name => do
    let index ← openGroup name
    let body ← enclosed fuel o
    closeGroup index (Node.ofList body)
    return .group index (Node.ofList body)

def extension : Nat → Bool → Options → Reading (Option Piece × Options)
  | 0, _, _ => failure
  | fuel + 1, leading, o => do
    let one (n : Node) : Option Piece × Options := (some (.part n), o)
    let t ← next
    match t with
    | .plain 'P' =>
      if ← accept '<' then
        let name ← groupName '>'
        return one (← capturing fuel o (some name))
      expect '='
      return one (← reference o (← namedIndex (← groupName ')')))
    | .plain ':' => return (some (.bare (← enclosed fuel o)), o)
    | .plain '#' =>
      skipUntil (.plain ')') (← remaining)
      return (none, o)
    | .plain '=' => return one (lookaround true false (← enclosed fuel o))
    | .plain '!' => return one (lookaround true true (← enclosed fuel o))
    | .plain '<' =>
      match ← next with
      | .plain '=' => return one (lookaround false false (← behind fuel o))
      | .plain '!' => return one (lookaround false true (← behind fuel o))
      | _ => failure
    | .plain '(' => return one (← conditional fuel o)
    | .plain '>' => return one (.atomic (Node.ofList (← enclosed fuel o)))
    | t =>
      modify fun s => { s with rest := t :: s.rest }
      let (whole, changed) ← optionsChange o
      if whole then
        if leading then return (none, changed) else failure
      return one (.seq (Node.ofList (← enclosed fuel changed)) .empty)

def behind : Nat → Options → Reading (List Node)
  | 0, _ => failure
  | fuel + 1, o => do
    let outside := (← get).behind
    modify fun s => { s with behind := some (outside.getD s.groups) }
    let body ← enclosed fuel o
    modify fun s => { s with behind := outside }
    return body

def conditional : Nat → Options → Reading Node
  | 0, _ => failure
  | fuel + 1, o => do
    let index ← conditionIndex
    checkBehind index
    let yes ← branch fuel false o
    let no ← if ← accept '|' then branch fuel false o else pure []
    expect ')'
    return .given index (Node.ofList yes) (Node.ofList no)

def enclosed : Nat → Options → Reading (List Node)
  | 0, _ => failure
  | fuel + 1, o => do
    let body ← branches fuel false o
    expect ')'
    return body

end

def whole : Reading (Options × Node) := do
  if (← peek) = some .broken then failure
  let fuel := 8 * (← remaining)
  let nodes ← branches fuel true (← get).options
  let s ← get
  if s.wide && s.options.ascii then throw .options
  if !s.rest.isEmpty || s.conditions.any (s.groups ≤ ·) then failure
  let node := Node.ofList nodes
  if node.looksBackFixed then return (s.options, node) else failure

/-- The pattern that a text holds, or octets of the same numbers, with the options that are in force
throughout. -/
def parse (octets : Bool) (o : Options) (text : List Char) : Except PatternFault (Options × Node) :=
  return (← whole.run { rest := tokens text, options := o, octets }).1

end RecordCache.Pattern.Parser
