import ResolverWiring.Graphql.Document

/-!
# `ResolverWiring.Schema.AppSync` — the definitions that AppSync provides

Schemas for AppSync use scalars and directives that the service itself defines. `withAppSync` puts
their definitions in front of a document; those whose name the document declares itself are left out.
-/

namespace ResolverWiring

open Graphql

/-- The scalars of AppSync. -/
def appSyncScalars : List String :=
  ["AWSDate", "AWSTime", "AWSDateTime", "AWSTimestamp", "AWSEmail", "AWSJSON", "AWSURL", "AWSPhone",
    "AWSIPAddress"]

/-- An argument that takes a list of strings. -/
def stringsArgument (name : String) : InputValueDef :=
  ⟨none, name, .list (.named "String" false) false, none, []⟩

/-- The directives of AppSync. -/
def appSyncDirectives : List DirectiveDef :=
  [⟨none, "aws_subscribe", [stringsArgument "mutations"], false, [.fieldDefinition]⟩,
    ⟨none, "aws_auth", [stringsArgument "cognito_groups"], false, [.fieldDefinition]⟩,
    ⟨none, "aws_api_key", [], false, [.fieldDefinition, .object]⟩,
    ⟨none, "aws_iam", [], false, [.fieldDefinition, .object]⟩,
    ⟨none, "aws_oidc", [], false, [.fieldDefinition, .object]⟩,
    ⟨none, "aws_lambda", [], false, [.fieldDefinition, .object]⟩,
    ⟨none, "aws_cognito_user_pools", [stringsArgument "cognito_groups"], false,
      [.fieldDefinition, .object]⟩]

/-- The definitions of AppSync, scalars first. -/
def appSyncDefinitions : List Definition :=
  appSyncScalars.map (fun name => .type none ⟨name, [], .scalar⟩)
    ++ appSyncDirectives.map Definition.directive

/-- The document with the AppSync definitions whose names it does not declare in front of it. Types,
extensions of types and directives count alike as declaring their name. -/
def Graphql.Document.withAppSync (d : Document) : Document :=
  let declared := d.definitions.filterMap Definition.declaredName?
  ⟨appSyncDefinitions.filter (fun a => !a.declaredName?.any declared.contains) ++ d.definitions⟩

end ResolverWiring
