import ResolverWiring.Binding
import ResolverWiring.Binding.Annotation

/-!
# `ResolverWiring.Binding.Scan` — finding bindings and removing their annotations

`scan` looks at the fields of all object and interface types, in document order (`Document.fields`).
A field that carries the directive yields a binding to the handler that the directive names; the first
malformed annotation fails the scan. The scanned document is the same one without the directive on
any field (`Document.mapFields`): nothing but the field lists of those blocks is touched.

## Contents

* `Document.fields`, `Document.mapFields` — looking at fields, changing fields;
* `bindingOf?` — what a field yields;
* `findings`, `scan` — what a document yields.
-/

namespace ResolverWiring

open Graphql

/-! ## The fields of a document -/

/-- The fields that a definition declares, each with the name of its type. -/
def Graphql.Definition.fields : Definition → List (String × FieldDef)
  | .type _ decl => decl.body.outputFields.map (decl.name, ·)
  | .extendType decl => decl.body.outputFields.map (decl.name, ·)
  | _ => []

/-- The fields of all object and interface types and of their extensions, in order. -/
def Graphql.Document.fields (d : Document) : List (String × FieldDef) :=
  d.definitions.flatMap Definition.fields

/-- Changes the fields of a body; the other bodies have none. -/
def Graphql.TypeBody.mapFields (f : FieldDef → FieldDef) : TypeBody → TypeBody
  | .object interfaces fields => .object interfaces (fields.map f)
  | .interface interfaces fields => .interface interfaces (fields.map f)
  | body => body

/-- Changes the fields that a definition declares. -/
def Graphql.Definition.mapFields (f : FieldDef → FieldDef) : Definition → Definition
  | .type description decl => .type description { decl with body := decl.body.mapFields f }
  | .extendType decl => .extendType { decl with body := decl.body.mapFields f }
  | other => other

/-- Changes the fields of a document. -/
def Graphql.Document.mapFields (f : FieldDef → FieldDef) (d : Document) : Document :=
  ⟨d.definitions.map (Definition.mapFields f)⟩

/-! ## Bindings -/

/-- The directive that binds a field to a Lambda handler. -/
def lambdaDirective : String := "AWSLambda"

/-- The argument that names the handler. -/
def handlerArgument : String := "handler"

/-- The field without the directives of this name. -/
def Graphql.FieldDef.withoutDirective (name : String) (field : FieldDef) : FieldDef :=
  { field with directives := field.directives.filter (·.name != name) }

/-- The handler that a directive on a field names. -/
def Graphql.Directive.handler (d : Directive) (field : String) : Except LocalizedError String :=
  match d.complete.argument field handlerArgument .string true with
  | .ok (some (.text handler)) => .ok handler
  | .error (.localized error) => .error error
  -- a required string argument is a text or fails with a localized error
  | _ => .error (.atNodes [some field, some d.name] (.missingArgument handlerArgument))

/-- What a field of the type `parent` yields: nothing if it does not carry the directive, else a
binding or the error in its annotation. -/
def bindingOf? (directive parent : String) (field : FieldDef) :
    Option (Except LocalizedError Binding) :=
  (field.directive? directive).map fun found =>
    (found.handler field.name).map fun handler => ⟨parent, field.name, handler⟩

/-- What the annotated fields of a document yield, in order. -/
def findings (d : Document) (directive : String) : List (Except LocalizedError Binding) :=
  d.fields.filterMap fun (parent, field) => bindingOf? directive parent field

/-- The bindings in front of the first error. -/
def bindingsBeforeError : List (Except LocalizedError Binding) → List Binding
  | .ok binding :: others => binding :: bindingsBeforeError others
  | _ => []

/-! ## Scanning -/

/-- What a scan yields: the bindings, in document order, and the document without the directive on
its fields. The scan takes fields away from no type, so it empties none. -/
structure ScanResult where
  bindings : List Binding
  document : Document
  emptiedTypes : List String
deriving Repr, Inhabited

/-- Collects the bindings of a document and removes their annotations. -/
def scan (d : Document) (directive : String) : Except LocalizedError ScanResult := do
  let bindings ← (findings d directive).mapM id
  return ⟨bindings, d.mapFields (·.withoutDirective directive), []⟩

/-- The scan of a field that stands in no type, which must not carry the directive. -/
def scanBareField (directive : String) (field : FieldDef) : Except LocalizedError FieldDef :=
  match field.directive? directive with
  | none => .ok field
  | some _ => .error (.atNodes [some field.name] .outsideType)

end ResolverWiring
