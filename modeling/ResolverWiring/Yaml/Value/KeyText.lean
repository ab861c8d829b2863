import ResolverWiring.Text.Quoted
import ResolverWiring.Yaml.Value

/-!
# `ResolverWiring.Yaml.Value.KeyText` — keys as texts

The text of a value that is used as a key. A text stands for itself, other scalars have the text by
which messages name them, and a tuple is written with its items between parentheses, so that texts in
it are quoted (`Value.literal`).
-/

namespace ResolverWiring.Yaml

open Decimal Text

/-- Numbers between parentheses, behind a word. -/
def callText (word : String) (arguments : List String) : String :=
  word ++ "(" ++ String.intercalate ", " arguments ++ ")"

/-- A date inside a tuple. -/
def Date.literal (d : Date) : String :=
  callText "datetime.date" [toString d.year, toString d.month, toString d.day]

/-- An offset from universal time inside a tuple. -/
def offsetLiteral (minutes : Int) : String :=
  if minutes = 0 then "datetime.timezone.utc"
  else callText "datetime.timezone" [describeOffset minutes]

/-- A timestamp inside a tuple. Seconds and parts of them are left out where they are zero. -/
def Timestamp.literal (t : Timestamp) : String :=
  let parts := if t.microsecond = 0 then [] else [t.microsecond]
  let seconds := if t.second = 0 && parts.isEmpty then [] else t.second :: parts
  let numbers := [t.date.year, t.date.month, t.date.day, t.hour, t.minute] ++ seconds
  callText "datetime.datetime" (numbers.map toString
    ++ (t.offset?.map fun minutes => "tzinfo=" ++ offsetLiteral minutes).toList)

namespace Value

mutual

/-- The text of a value inside a tuple. Collections other than tuples are not in keys. -/
def literal : Value → String
  | null => "None"
  | bool true => "True"
  | bool false => "False"
  | int i => toString i
  | float _ x => x.write .plain
  | string text => quoted text
  | bytes bs => String.ofList (quoteBytes bs)
  | date _ d => d.literal
  | timestamp _ t => t.literal
  | tuple items => "(" ++ literals items ++ ")"
  | list _ => ""
  | set _ _ => ""
  | map _ => ""
  | enclosing _ _ => ""

/-- The texts of the items of a tuple; a single one has a comma behind it. -/
def literals : List Value → String
  | [] => ""
  | [item] => item.literal ++ ","
  | item :: other :: others => item.literal ++ ", " ++ furtherLiterals (other :: others)

/-- The texts of the items of a tuple behind the first one. -/
def furtherLiterals : List Value → String
  | [] => ""
  | [item] => item.literal
  | item :: other :: others => item.literal ++ ", " ++ furtherLiterals (other :: others)

end

/-- The text of a value that is used as a key. -/
def keyText : Value → String
  | string text => text
  | date _ d => d.write
  | timestamp _ t => t.write
  | key => key.literal

end Value

end ResolverWiring.Yaml
