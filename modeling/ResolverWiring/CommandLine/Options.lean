import ResolverWiring.Files.Tree

/-!
# `ResolverWiring.CommandLine.Options` — options and how arguments are read

Arguments are options and plain words. An option stands with its value as `--name value` or
`--name=value`; of an option that is given again, the last value counts. Letters of flags may be joined
behind one dash. Behind `--` all arguments are plain.

## Contents

* `OptionSpec`, with what its value must be (`ValueSort.check`);
* `readArguments`, the options that arguments give and the words that are left.
-/

namespace ResolverWiring.CommandLine

open Files

/-! ## Options -/

/-- What follows an option. -/
inductive ValueSort where
  | nothing
  | text
  | path
  | file
  | directory
deriving DecidableEq, Repr, Inhabited

/-- The word for a value on help pages. -/
def ValueSort.placeholder? : ValueSort → Option String
  | .nothing => none
  | .text => some "TEXT"
  | .path => some "PATH"
  | .file => some "FILE"
  | .directory => some "DIRECTORY"

/-- Whether a path text ends in a name; `a/` and `a/.` do not, and denote directories only. -/
def endsInName (text : String) : Bool :=
  ((Path.splitSlashes text.toList).map String.ofList).getLast?.any Path.isName

/-- Whether the value of an option is a path. -/
def ValueSort.isPath : ValueSort → Bool
  | .nothing => false
  | .text => false
  | .path => true
  | .file => true
  | .directory => true

/-- What is wrong with the value of an option. -/
inductive ValueFault where
  /-- It will not do. -/
  | unfit
  /-- It cannot be looked at. -/
  | unusable (error : FileError)
deriving DecidableEq, Repr, Inhabited

/-- Whether a value will do that is a path, as far as it is known what it leads to. A path to nothing will
do for a file and for a directory. -/
def ValueSort.takes (files : FileSystem) (text : String) : ValueSort → Bool
  | .file => text.isEmpty || !isTrue (files.isDirectory (.ofString text))
  | .directory => !endsInName text || !isTrue (files.isFile (.ofString text))
  | _ => true
where
  /-- Whether an answer is positive. -/
  isTrue (answer : Except FileError Bool) : Bool := answer.toOption.getD false

/-- Checks the value of an option. -/
def ValueSort.check (files : FileSystem) (text : String) (sort : ValueSort) : Except ValueFault Unit :=
  if sort.isPath && (Path.ofString text).hasNull then .error (.unusable .nullInPath)
  else if sort.takes files text then .ok () else .error .unfit

/-- An option. `letter?` is its short form, which only flags have. -/
structure OptionSpec where
  name : String
  letter? : Option Char
  value : ValueSort
  required : Bool
  default? : Option String
  help : String
deriving Repr, Inhabited

/-- The name of an option as an argument. -/
def OptionSpec.flag (o : OptionSpec) : String := "--" ++ o.name

/-! ## Reading arguments -/

/-- An option that has been given, with its value. -/
structure Given where
  name : String
  value : String
deriving DecidableEq, Repr, Inhabited

/-- The options that arguments give, in order, and the words that are left. -/
structure Reading where
  given : List Given
  rest : List String
deriving DecidableEq, Repr, Inhabited

/-- The value of an option, which is the last one given. -/
def Reading.value? (r : Reading) (name : String) : Option String :=
  (r.given.reverse.find? (·.name == name)).map (·.value)

/-- Checks the values of options, each once, in the order in which they are given first. -/
def Reading.check (r : Reading) (options : List OptionSpec) (files : FileSystem) :
    Except ValueFault Unit :=
  (r.given.map (·.name)).eraseDups.forM fun name =>
    match options.find? (·.name == name), r.value? name with
    | some option, some value => option.value.check files value
    | _, _ => .ok ()

/-- A reading with one more option in front. -/
def Reading.give (name value : String) (r : Reading) : Reading := ⟨⟨name, value⟩ :: r.given, r.rest⟩

/-- A reading with one more word in front. -/
def Reading.word (argument : String) (r : Reading) : Reading := ⟨r.given, argument :: r.rest⟩

/-- What an argument with a dash in front means. -/
inductive Sign where
  /-- These flags. -/
  | flags (names : List String)
  /-- This option with the value behind `=`. -/
  | attached (name value : String)
  /-- This option; the next argument is its value. -/
  | awaiting (name : String)
deriving DecidableEq, Repr, Inhabited

/-- An argument in front of the first `=`, and what stands behind it. -/
def splitAttached (argument : String) : String × Option String :=
  let cs := argument.toList
  match cs.dropWhile (· != '=') with
  | [] => (argument, none)
  | _ :: value => (String.ofList (cs.takeWhile (· != '=')), some (String.ofList value))

/-- What an argument with a dash in front means, if anything. -/
def sign? (options : List OptionSpec) (argument : String) : Option Sign :=
  let (name, attached?) := splitAttached argument
  match options.find? (·.flag == name) with
  | some option =>
    match option.value, attached? with
    | .nothing, none => some (.flags [option.name])
    | .nothing, some _ => none
    | _, some value => some (.attached option.name value)
    | _, none => some (.awaiting option.name)
  | none =>
    if argument.startsWith "--" then none
    else
      ((argument.toList.drop 1).mapM fun letter =>
        (options.find? (·.letter? == some letter)).map (·.name)).map .flags

/-- Whether an argument can be an option: a single dash is a word. -/
def hasDash (argument : String) : Bool := argument.startsWith "-" && argument != "-"

/-- Reads arguments. Without `mixed`, all arguments from the first word on are left. -/
def readArguments (options : List OptionSpec) (mixed : Bool) : List String → Option Reading
  | [] => some ⟨[], []⟩
  | argument :: others =>
    if argument = "--" then some ⟨[], others⟩
    else if hasDash argument then
      match sign? options argument with
      | none => none
      | some (.flags names) =>
        (readArguments options mixed others).map fun r =>
          names.foldr (fun name r => r.give name "") r
      | some (.attached name value) => (readArguments options mixed others).map (·.give name value)
      | some (.awaiting name) =>
        match others with
        | [] => none
        | value :: others => (readArguments options mixed others).map (·.give name value)
    else if mixed then (readArguments options mixed others).map (·.word argument)
    else some ⟨[], argument :: others⟩

end ResolverWiring.CommandLine
