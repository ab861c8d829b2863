/-!
# `ResolverWiring.Binding` — fields bound to handlers

A binding says which handler resolves a field. It is found in the schema and consumed by the
generated resources, which use its qualified name as their key.
-/

namespace ResolverWiring

/-- A field of a type, and the handler that resolves it. -/
structure Binding where
  parentType : String
  fieldName : String
  handler : String
deriving DecidableEq, Repr, Inhabited

/-- The key of a binding in the generated resources. Distinct fields can share it: `A_b` with `c`
and `A` with `b_c`. -/
def Binding.qualifiedName (b : Binding) : String := b.parentType ++ "_" ++ b.fieldName

end ResolverWiring
