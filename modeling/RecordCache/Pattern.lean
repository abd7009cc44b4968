import RecordCache.Pattern.Matcher
import RecordCache.Pattern.Parser

/-!
Search patterns for text fields: a text in the usual notation, and the options it is read with.
-/

namespace RecordCache

/-- The source is a text, or octets; no text can be searched for octets. -/
structure Pattern where
  source : Json
  options : Pattern.Options
  program : Pattern.Node

namespace Pattern

def optionLetters (p : Pattern) : String :=
  String.ofList ((if p.options.ignoreCase then ['i'] else []) ++
    (if p.options.multiline then ['m'] else []) ++
    (if p.options.dotAll then ['s'] else []) ++
    if p.options.verbose then ['x'] else [])

def allLetters (p : Pattern) : String := p.optionLetters ++ if p.options.ascii then "a" else ""

def optionsOfLetters (letters : String) : Options where
  ignoreCase := letters.contains 'i'
  multiline := letters.contains 'm'
  dotAll := letters.contains 's'
  verbose := letters.contains 'x'
  ascii := letters.contains 'a'

def ofChars (source : Json) (octets : Bool) (options : Options) (s : List Char) : Except Error Pattern :=
  match Parser.parse octets options s with
  | .ok (options, program) => .ok { source, options, program }
  | .error fault => .error (.pattern fault)

/-- Reads a source. A pattern that was read before keeps its options. -/
def compile (source : Json) (options : Options) : Except Error Pattern :=
  match source with
  | .string s => ofChars source false options s.toList
  | .other (.octets b false) _ => ofChars source true options (b.map fun n => Char.ofNat n.toNat)
  | .other (.pattern letters) [inner] =>
    if options ≠ {} then .error (.pattern .options)
    else match inner with
      | .string s => ofChars inner false (optionsOfLetters letters) s.toList
      | .other (.octets b _) _ =>
        ofChars inner true (optionsOfLetters letters) (b.map fun n => Char.ofNat n.toNat)
      | _ => .error (.pattern .source)
  | _ => .error (.pattern .source)

def json (p : Pattern) : Json := .other (.pattern p.allLetters) [p.source]

def isOctets (p : Pattern) : Bool := p.source.string?.isNone

def search (p : Pattern) (text : String) : Except DataFault Bool :=
  if p.isOctets then .error .octetsInText else .ok (p.program.foundIn text)

def same (a b : Pattern) : Bool := a.source.same b.source && a.optionLetters == b.optionLetters

end Pattern

end RecordCache
