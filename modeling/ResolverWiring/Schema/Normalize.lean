import ResolverWiring.Graphql.Document

/-!
# `ResolverWiring.Schema.Normalize` — dropping emptied types

A pass that removes fields can leave object types without any. `Document.normalize` drops those that
such a pass reports, and nothing else: not other kinds of type, not extensions, not an object type
that was declared without fields.
-/

namespace ResolverWiring.Graphql

/-- Whether a definition is an object type without fields whose name is reported as emptied. -/
def Definition.isEmptied (emptied : List String) : Definition → Bool
  | .type _ ⟨name, _, .object _ []⟩ => emptied.contains name
  | _ => false

/-- The document without the object types that were emptied. -/
def Document.normalize (d : Document) (emptied : List String) : Document :=
  ⟨d.definitions.filter (!·.isEmptied emptied)⟩

end ResolverWiring.Graphql
