import ResolverWiring.Decimal.DigitLimit
import ResolverWiring.Text.Base64
import ResolverWiring.Text.Quoted
import ResolverWiring.Text.Utf8
import ResolverWiring.Yaml.Mark

/-!
# `ResolverWiring.Yaml.Error` — why a YAML text cannot be loaded

Two sorts of error. A `Fault` is an error of form: what was being read, from where on, and what was
found where. A `ScalarError` says that a scalar looks like a value of some type, or is tagged as one,
but denotes none.

## Contents

* `NodeKind` — the three kinds of node, which messages name;
* `Context`, `Problem`, `Fault`;
* `ScalarError`;
* `LoadError` and its wording.
-/

namespace ResolverWiring.Yaml

open Decimal Text

/-- The three kinds of node. -/
inductive NodeKind where
  | scalar
  | sequence
  | mapping
deriving DecidableEq, Repr, Inhabited

/-- The name of a kind of node. -/
def NodeKind.name : NodeKind → String
  | .scalar => "scalar"
  | .sequence => "sequence"
  | .mapping => "mapping"

/-! ## Errors of form -/

/-- What was being read or built when a problem was met. -/
inductive Context where
  | seekingToken
  | scanningKey
  | scanningDirective
  | scanningAlias
  | scanningAnchor
  | scanningTag
  | scanningBlock
  | scanningQuoted
  | scanningDoubleQuoted
  | parsingDirective
  | parsingTag
  | parsingNode
  | parsingBlockNode
  | parsingFlowNode
  | parsingBlockSequence
  | parsingBlockMapping
  | parsingFlowSequence
  | parsingFlowMapping
  | oneDocument
  | firstAnchor (name : String)
  | constructingMapping
  | constructingOrderedMap
  | constructingPairs
deriving DecidableEq, Repr, Inhabited

/-- The wording of a context. -/
def Context.message : Context → String
  | .seekingToken => "while scanning for the next token"
  | .scanningKey => "while scanning a simple key"
  | .scanningDirective => "while scanning a directive"
  | .scanningAlias => "while scanning an alias"
  | .scanningAnchor => "while scanning an anchor"
  | .scanningTag => "while scanning a tag"
  | .scanningBlock => "while scanning a block scalar"
  | .scanningQuoted => "while scanning a quoted scalar"
  | .scanningDoubleQuoted => "while scanning a double-quoted scalar"
  | .parsingDirective => "while parsing a directive"
  | .parsingTag => "while parsing a tag"
  | .parsingNode => "while parsing a node"
  | .parsingBlockNode => "while parsing a block node"
  | .parsingFlowNode => "while parsing a flow node"
  | .parsingBlockSequence => "while parsing a block collection"
  | .parsingBlockMapping => "while parsing a block mapping"
  | .parsingFlowSequence => "while parsing a flow sequence"
  | .parsingFlowMapping => "while parsing a flow mapping"
  | .oneDocument => "expected a single document in the stream"
  | .firstAnchor name => "found duplicate anchor " ++ quoted name ++ "; first occurrence"
  | .constructingMapping => "while constructing a mapping"
  | .constructingOrderedMap => "while constructing an ordered map"
  | .constructingPairs => "while constructing pairs"

/-- What is wrong with a text or with its nodes. A character that was found is absent at the end of
the text; a token that was found is given by its name. -/
inductive Problem where
  | cannotStartToken (found : Option Char)
  | missingColon
  | entryNotAllowed
  | keyNotAllowed
  | valueNotAllowed
  | expectedCharacter (wanted : String) (found : Option Char)
  | zeroIndentation
  | unknownEscape (found : Option Char)
  | endInQuotes
  | separatorInQuotes
  | notUtf8 (fault : Utf8.Fault)
  | expectedToken (wanted : String) (found : String)
  | expectedInFlow (wanted : String) (found : String)
  | duplicateVersion
  | incompatibleVersion
  | duplicateHandle (handle : String)
  | undefinedHandle (handle : String)
  | anotherDocument
  | undefinedAlias (name : String)
  | secondAnchor
  | recursiveNode
  | unknownTag (tag : String)
  | expectedNode (wanted found : NodeKind)
  | unhashableKey
  | notMergeable (found : NodeKind)
  | notMergeableItem (found : NodeKind)
  | notItems (found : NodeKind)
  | notSingleton (found : NodeKind)
  | severalItems (count : Nat)
  | notAscii (first : Char) (position count : Nat)
  | notBase64 (error : Base64.DecodeError)
deriving DecidableEq, Repr, Inhabited

/-- The wording of a problem. -/
def Problem.message : Problem → String
  | .cannotStartToken found =>
    "found character " ++ quotedChar found ++ " that cannot start any token"
  | .missingColon => "could not find expected ':'"
  | .entryNotAllowed => "sequence entries are not allowed here"
  | .keyNotAllowed => "mapping keys are not allowed here"
  | .valueNotAllowed => "mapping values are not allowed here"
  | .expectedCharacter wanted found =>
    "expected " ++ wanted ++ ", but found " ++ quotedChar found
  | .zeroIndentation => "expected indentation indicator in the range 1-9, but found 0"
  | .unknownEscape found => "found unknown escape character " ++ quotedChar found
  | .endInQuotes => "found unexpected end of stream"
  | .separatorInQuotes => "found unexpected document separator"
  | .notUtf8 f => f.message
  | .expectedToken wanted found => "expected " ++ wanted ++ ", but found " ++ quoted found
  | .expectedInFlow wanted found => "expected " ++ wanted ++ ", but got " ++ quoted found
  | .duplicateVersion => "found duplicate YAML directive"
  | .incompatibleVersion => "found incompatible YAML document (version 1.* is required)"
  | .duplicateHandle handle => "duplicate tag handle " ++ quoted handle
  | .undefinedHandle handle => "found undefined tag handle " ++ quoted handle
  | .anotherDocument => "but found another document"
  | .undefinedAlias name => "found undefined alias " ++ quoted name
  | .secondAnchor => "second occurrence"
  | .recursiveNode => "found unconstructable recursive node"
  | .unknownTag tag => "could not determine a constructor for the tag " ++ quoted tag
  | .expectedNode wanted found =>
    "expected a " ++ wanted.name ++ " node, but found " ++ found.name
  | .unhashableKey => "found unhashable key"
  | .notMergeable found =>
    "expected a mapping or list of mappings for merging, but found " ++ found.name
  | .notMergeableItem found => "expected a mapping for merging, but found " ++ found.name
  | .notItems found => "expected a sequence, but found " ++ found.name
  | .notSingleton found => "expected a mapping of length 1, but found " ++ found.name
  | .severalItems count =>
    "expected a single mapping item, but found " ++ toString count ++ " items"
  | .notAscii first position count =>
    "failed to convert base64 data into ascii: 'ascii' codec can't encode character" ++
      (if count = 1 then
        " '" ++ String.ofList (escapeCode first.toNat) ++ "' in position " ++ toString position
      else "s in position " ++ toString position ++ "-" ++ toString (position + count - 1))
      ++ ": ordinal not in range(128)"
  | .notBase64 e => "failed to decode base64 data: " ++ e.message

/-- An error of form: perhaps a context with its place, and a problem with its place. -/
structure Fault where
  context : Option Context
  contextMark : Option Mark
  problem : Problem
  mark : Mark
deriving DecidableEq, Repr, Inhabited

namespace Fault

/-- A problem without a context. -/
def plain (problem : Problem) (mark : Mark) : Fault := ⟨none, none, problem, mark⟩

/-- A problem that was met in a context which started at a place. -/
def within (context : Context) (contextMark : Mark) (problem : Problem) (mark : Mark) : Fault :=
  ⟨some context, some contextMark, problem, mark⟩

/-- The wording of a fault in a text. The place of the context is left out where it is that of the
problem. -/
def message (f : Fault) (text : List Char) : String :=
  let contextMark? := f.contextMark.filter fun m =>
    m.line != f.mark.line || m.column != f.mark.column
  String.intercalate "\n"
    ((f.context.map (·.message)).toList ++ (contextMark?.map (·.describe text)).toList
      ++ [f.problem.message, f.mark.describe text])

end Fault

/-! ## Scalars without a value -/

/-- Why a scalar denotes no value. -/
inductive ScalarError where
  | yearOutOfRange (year : Nat)
  | monthOutOfRange
  | dayOutOfRange
  | hourOutOfRange
  | minuteOutOfRange
  | secondOutOfRange
  | offsetOutOfRange (minutes : Int)
  | notInteger (base : Nat) (digits : List Char)
  | notFloat (digits : List Char)
  | tooManyDigits (error : TooManyDigits)
  | noDigits
  | placeTooLarge
  | notBoolean (word : List Char)
  | notTimestamp
  | timestampOfEntries
  | notCharacter
  | codeTooLarge
deriving DecidableEq, Repr, Inhabited

/-- A signed duration in days and seconds, the seconds positive, as messages show it. -/
def describeOffset (minutes : Int) : String :=
  let seconds := minutes * 60
  let days := Int.fdiv seconds 86400
  let rest := Int.fmod seconds 86400
  let part (name : String) (n : Int) : List String :=
    if n = 0 then [] else [name ++ "=" ++ toString n]
  let parts := part "days" days ++ part "seconds" rest
  "datetime.timedelta(" ++ (if parts.isEmpty then "0" else String.intercalate ", " parts) ++ ")"

/-- Of a text that is no integer messages show this many characters. -/
def excerptLength : Nat := 200

/-- The wording of a scalar error. -/
def ScalarError.message : ScalarError → String
  | .yearOutOfRange year => "year " ++ toString year ++ " is out of range"
  | .monthOutOfRange => "month must be in 1..12"
  | .dayOutOfRange => "day is out of range for month"
  | .hourOutOfRange => "hour must be in 0..23"
  | .minuteOutOfRange => "minute must be in 0..59"
  | .secondOutOfRange => "second must be in 0..59"
  | .offsetOutOfRange minutes =>
    "offset must be a timedelta strictly between -timedelta(hours=24) and timedelta(hours=24), not "
      ++ describeOffset minutes ++ "."
  | .notInteger base digits =>
    "invalid literal for int() with base " ++ toString base ++ ": "
      ++ String.ofList ((quoteText digits).take excerptLength)
  | .notFloat digits => "could not convert string to float: " ++ String.ofList (quoteText digits)
  | .tooManyDigits e => e.message
  | .noDigits => "string index out of range"
  | .placeTooLarge => "int too large to convert to float"
  | .notBoolean word => String.ofList (quoteText word)
  | .notTimestamp => "'NoneType' object has no attribute 'groupdict'"
  | .timestampOfEntries => "expected string or bytes-like object, got 'list'"
  | .notCharacter => "chr() arg not in range(0x110000)"
  | .codeTooLarge => "Python int too large to convert to C int"

/-! ## Errors of loading -/

/-- Why a text cannot be loaded. -/
inductive LoadError where
  | unprintable (code : Nat) (position : Nat)
  | malformed (fault : Fault)
  | scalar (error : ScalarError)
deriving DecidableEq, Repr, Inhabited

/-- The wording of an error in a text. -/
def LoadError.message (text : List Char) : LoadError → String
  | .unprintable code position =>
    "unacceptable character #x" ++ String.ofList (lowerHex 4 code)
      ++ ": special characters are not allowed\n  in \"" ++ Mark.textName ++ "\", position "
      ++ toString position
  | .malformed fault => fault.message text
  | .scalar error => error.message

end ResolverWiring.Yaml
