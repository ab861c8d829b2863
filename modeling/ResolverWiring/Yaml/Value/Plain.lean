import ResolverWiring.Yaml.Value.KeyText

/-!
# `ResolverWiring.Yaml.Value.Plain` — values with text keys

A value is made plain before it is written: every key becomes a text, and every tuple a list. Keys with
the same text become one key, which keeps its place and takes the last value.
-/

namespace ResolverWiring.Yaml.Value

/-- Entries with one more: it takes the place of one whose key is this text. -/
def insertText (entries : List (Value × Value)) (key : String) (value : Value) :
    List (Value × Value) :=
  match entries with
  | [] => [(string key, value)]
  | (k, v) :: others =>
    if k.keyText = key then (k, value) :: others else (k, v) :: insertText others key value

mutual

/-- The value with texts as keys and lists for tuples. -/
def plain : Value → Value
  | list items => list (plainItems items)
  | tuple items => list (plainItems items)
  | map entries => map (plainEntries [] entries)
  | value => value

/-- Items made plain. -/
def plainItems : List Value → List Value
  | [] => []
  | item :: others => plain item :: plainItems others

/-- Entries made plain, behind those that are so already. -/
def plainEntries (done : List (Value × Value)) : List (Value × Value) → List (Value × Value)
  | [] => done
  | (key, value) :: others => plainEntries (insertText done key.keyText (plain value)) others

end

end ResolverWiring.Yaml.Value
