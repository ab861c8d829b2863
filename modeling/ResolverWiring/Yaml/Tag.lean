/-!
# `ResolverWiring.Yaml.Tag` — what a node is

A tag says what a node is. The tags of the language itself have names with a common front; a tag that
starts with an exclamation mark is local, and here the local tags are short forms of functions.
-/

namespace ResolverWiring.Yaml

/-- The tags of the language itself. -/
inductive CoreTag where
  | null
  | bool
  | int
  | float
  | binary
  | timestamp
  | orderedMap
  | pairs
  | set
  | string
  | sequence
  | mapping
  | merge
  | value
  | reserved
deriving DecidableEq, Repr, Inhabited

namespace CoreTag

/-- All tags of the language. -/
def all : List CoreTag :=
  [.null, .bool, .int, .float, .binary, .timestamp, .orderedMap, .pairs, .set, .string, .sequence,
    .mapping, .merge, .value, .reserved]

/-- The name of a tag behind the common front. -/
def name : CoreTag → String
  | .null => "null"
  | .bool => "bool"
  | .int => "int"
  | .float => "float"
  | .binary => "binary"
  | .timestamp => "timestamp"
  | .orderedMap => "omap"
  | .pairs => "pairs"
  | .set => "set"
  | .string => "str"
  | .sequence => "seq"
  | .mapping => "map"
  | .merge => "merge"
  | .value => "value"
  | .reserved => "yaml"

/-- The common front of the tags of the language. -/
def front : String := "tag:yaml.org,2002:"

end CoreTag

/-- A tag. -/
inductive Tag where
  | core (tag : CoreTag)
  | short (name : String)
  | other (text : String)
deriving DecidableEq, Repr, Inhabited

namespace Tag

/-- The text of a tag. -/
def text : Tag → String
  | .core tag => CoreTag.front ++ tag.name
  | .short name => "!" ++ name
  | .other text => text

/-- The tag with a text. -/
def ofText (text : String) : Tag :=
  match CoreTag.all.find? fun tag => CoreTag.front ++ tag.name == text with
  | some tag => .core tag
  | none =>
    match text.toList with
    | '!' :: name => .short (String.ofList name)
    | _ => .other text

end Tag

end ResolverWiring.Yaml
