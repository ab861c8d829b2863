import ResolverWiring.Binding.LocalizedError
import ResolverWiring.Decimal.DigitLimit
import ResolverWiring.Decimal.Reading

/-!
# `ResolverWiring.Binding.Annotation` — directives on fields and their arguments

Looking up a directive on a field, and an argument of a directive with the kind it must have. Where a
name occurs more than once, the first occurrence counts.
-/

namespace ResolverWiring

open Graphql Decimal

/-! ## Directives -/

/-- The first directive of this name on a field. -/
def Graphql.FieldDef.directive? (field : FieldDef) (name : String) : Option Directive :=
  field.directives.find? (·.name == name)

/-- Where that directive stands among the directives of the field. -/
def Graphql.FieldDef.directiveIndex? (field : FieldDef) (name : String) : Option Nat :=
  field.directives.findIdx? (·.name == name)

/-! ## Arguments -/

/-- What a literal denotes. -/
inductive LiteralValue where
  | int (value : Int)
  | float (value : Binary64)
  | text (value : String)
  | boolean (value : Bool)
deriving DecidableEq, Repr, Inhabited

/-- Why an argument has no value. -/
inductive ArgumentError where
  | localized (error : LocalizedError)
  | tooManyDigits (error : TooManyDigits)
deriving DecidableEq, Repr, Inhabited

/-- The integer that a spelling with an optional minus sign denotes. -/
def readInt (spelling : String) : Except ArgumentError Int :=
  let (negative, digits) := splitSign spelling.toList
  if maxDigits < digits.length then .error (.tooManyDigits ⟨some digits.length⟩)
  else
    let magnitude := (readNat? 10 digits).getD 0
    .ok (if negative then -(magnitude : Int) else magnitude)

/-- What a value denotes, if it is a literal of this kind. -/
def Graphql.Value.denote? (value : Value) (kind : LiteralKind) :
    Option (Except ArgumentError LiteralValue) :=
  match kind, value with
  | .int, .int digits => some ((readInt digits).map .int)
  | .float, .float digits => some (.ok (.float ((readFloat? digits.toList).getD .nan)))
  | .string, .string literal => some (.ok (.text literal.text))
  | .boolean, .boolean b => some (.ok (.boolean b))
  | .enum, .enum symbol => some (.ok (.text symbol))
  | _, _ => none

/-- A directive as a caller may hand it over: it can lack its argument list, and arguments can lack
their values. -/
structure PartialDirective where
  name : String
  arguments : Option (List (String × Option Value))
deriving Repr, Inhabited

/-- A directive that lacks nothing. -/
def Graphql.Directive.complete (d : Directive) : PartialDirective :=
  ⟨d.name, some (d.arguments.map fun a => (a.name, some a.value))⟩

/-- The value of the argument `name` of a directive on the field `field`, which must be of this kind.
Without the argument there is no value, which is an error if it is required. -/
def PartialDirective.argument (d : PartialDirective) (field name : String) (kind : LiteralKind)
    (required : Bool) : Except ArgumentError (Option LiteralValue) :=
  let fail (problem : AnnotationProblem) : Except ArgumentError (Option LiteralValue) :=
    .error (.localized (.atNodes [some field, some d.name] problem))
  match d.arguments with
  | none => fail .noArguments
  | some arguments =>
    match (arguments.find? (·.1 == name)).bind (·.2) with
    | none => if required then fail (.missingArgument name) else .ok none
    | some value =>
      match value.denote? kind with
      | some denoted => denoted.map some
      | none => fail (.wrongKind name kind value.kind)

end ResolverWiring
