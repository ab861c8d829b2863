import ResolverWiring.Decimal.Shortest
import ResolverWiring.Yaml.Node
import ResolverWiring.Yaml.Timestamp

/-!
# `ResolverWiring.Yaml.Value` — the values of YAML documents

What a document denotes. Mappings keep their entries in order, and keys that are equal as numbers are
one key (`Value.sameKey`).

Dates, timestamps, sets and floating-point numbers carry an origin: where one of them occurs several
times in a document by an alias, all occurrences have the same origin. Other values are the same
wherever they come from. Of the numbers the origin tells apart only those that are no number, since
nothing else does.

A collection can stand in itself. There it is a leaf (`Value.enclosing`), which knows the document that
it comes from and the number of the collection.
-/

namespace ResolverWiring.Yaml

open Decimal

/-- Where a value comes from; `none` if it comes from no document, or from no one place in it. -/
abbrev Origin := Option Nat

/-- A value of a document. -/
inductive Value where
  | null
  | bool (value : Bool)
  | int (value : Int)
  | float (origin : Origin) (value : Binary64)
  | string (text : String)
  | bytes (bytes : List UInt8)
  | date (origin : Origin) (date : Date)
  | timestamp (origin : Origin) (time : Timestamp)
  | list (items : List Value)
  | tuple (items : List Value)
  | set (origin : Origin) (members : List Value)
  | map (entries : List (Value × Value))
  /-- A collection of a document, where it stands in itself. -/
  | enclosing (root : Node) (target : NodeNumber)
deriving Repr, Inhabited

namespace Value

/-! ## Keys -/

/-- A truth value as a number. -/
def boolNumber (b : Bool) : Int := if b then 1 else 0

mutual

/-- Whether two values are one key. Numbers are compared as numbers, truth values among them, and
tuples item by item. A value that is no number is the same key only as itself. -/
def sameKey : Value → Value → Bool
  | null, null => true
  | bool a, bool b => a == b
  | bool a, int b => boolNumber a == b
  | int a, bool b => a == boolNumber b
  | int a, int b => a == b
  | bool a, float _ x => x.isInt (boolNumber a)
  | float _ x, bool a => x.isInt (boolNumber a)
  | int a, float _ x => x.isInt a
  | float _ x, int a => x.isInt a
  | float o x, float p y => x.sameNumber y || (x == .nan && y == .nan && o == p)
  | string a, string b => a == b
  | bytes a, bytes b => a == b
  | date _ a, date _ b => a == b
  | timestamp _ a, timestamp _ b => a.sameTime b
  | tuple a, tuple b => sameKeys a b
  | _, _ => false

/-- Whether two lists of values are the same keys in the same order. -/
def sameKeys : List Value → List Value → Bool
  | [], [] => true
  | a :: as, b :: bs => sameKey a b && sameKeys as bs
  | _, _ => false

end

/-- Entries with one more: it takes the place of one with the same key, whose key stays. -/
def insert (entries : List (Value × Value)) (key value : Value) : List (Value × Value) :=
  match entries with
  | [] => [(key, value)]
  | (k, v) :: others =>
    if k.sameKey key then (k, value) :: others else (k, v) :: insert others key value

/-- The entries of a mapping that is written with these. -/
def ofEntries (entries : List (Value × Value)) : List (Value × Value) :=
  entries.foldl (fun done (key, value) => insert done key value) []

/-- The value of the entry whose key is this text. -/
def lookup? (entries : List (Value × Value)) (key : String) : Option Value :=
  (entries.find? fun (k, _) => k.sameKey (.string key)).map (·.2)

/-! ## Emptiness -/

/-- Whether a value is null, false, zero or empty. -/
def isFalsy : Value → Bool
  | null => true
  | bool b => !b
  | int i => i == 0
  | float _ x => x.isInt 0
  | string text => text.isEmpty
  | bytes bs => bs.isEmpty
  | list items => items.isEmpty
  | tuple items => items.isEmpty
  | set _ members => members.isEmpty
  | map entries => entries.isEmpty
  | _ => false

end Value

end ResolverWiring.Yaml
