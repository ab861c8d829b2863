import Mathlib
import ResolverWiring.Graphql.Parser.TypeSystem
import ResolverWiring.Graphql.Rules.Vocabulary
import ResolverWiring.Schema.AppSync

/-!
# `Proofs.AppSync` — the definitions that a document lacks

A document is complete with the definitions of AppSync that it lacks in front of it (`Document.completed`): the
scalars without a type of their name in the document, and the directives without a directive of theirs.

What `withAppSync` puts in front is always lacking. It goes by names alone, though, so a definition stays away also
where the document has a directive with the name of the scalar, a type with the name of the directive, or nothing
but an extension. Apart from these names, the document becomes complete (`withAppSync_eq_completed_iff`).
-/

namespace ResolverWiring

open Graphql

namespace Graphql.Document

/-! ## Complete documents -/

/-- Whether a document defines a type with a name. -/
def definesType (d : Document) (name : String) : Bool := (typeDecls d.definitions).any (·.name == name)

/-- Whether a document defines a directive with a name. -/
def definesDirective (d : Document) (name : String) : Bool := (directiveDefs d.definitions).any (·.name == name)

/-- Whether a document extends a type with a name. -/
def extendsType (d : Document) (name : String) : Bool :=
  d.definitions.any fun definition =>
    match definition with
    | .extendType decl => decl.name == name
    | _ => false

/-- Whether a definition is of a type or a directive that a document does not define. -/
def lacks (d : Document) : Definition → Bool
  | .type _ decl => !d.definesType decl.name
  | .directive definition => !d.definesDirective definition.name
  | _ => false

/-- The document with the definitions of AppSync that it lacks in front of it. -/
def completed (d : Document) : Document := ⟨appSyncDefinitions.filter d.lacks ++ d.definitions⟩

/-! ## Names -/

variable {d : Document} {name : String}

theorem definesType_iff : d.definesType name = true ↔
    ∃ description decl, Definition.type description decl ∈ d.definitions ∧ decl.name = name := by
  simp only [definesType, typeDecls, List.any_eq_true, beq_iff_eq]
  constructor
  · rintro ⟨decl, hdecl, hname⟩
    obtain ⟨definition, hmem, hsome⟩ := List.mem_filterMap.mp hdecl
    cases definition <;> cases hsome
    exact ⟨_, decl, hmem, hname⟩
  · rintro ⟨description, decl, hmem, hname⟩
    exact ⟨decl, List.mem_filterMap.mpr ⟨_, hmem, rfl⟩, hname⟩

theorem definesDirective_iff : d.definesDirective name = true ↔
    ∃ definition, Definition.directive definition ∈ d.definitions ∧ definition.name = name := by
  simp only [definesDirective, directiveDefs, List.any_eq_true, beq_iff_eq]
  constructor
  · rintro ⟨directive, hdirective, hname⟩
    obtain ⟨definition, hmem, hsome⟩ := List.mem_filterMap.mp hdirective
    cases definition <;> cases hsome
    exact ⟨directive, hmem, hname⟩
  · rintro ⟨directive, hmem, hname⟩
    exact ⟨directive, List.mem_filterMap.mpr ⟨_, hmem, rfl⟩, hname⟩

theorem extendsType_iff : d.extendsType name = true ↔
    ∃ decl, Definition.extendType decl ∈ d.definitions ∧ decl.name = name := by
  rw [extendsType, List.any_eq_true]
  constructor
  · rintro ⟨definition, hmem, hname⟩
    cases definition with
    | extendType decl => exact ⟨decl, hmem, eq_of_beq hname⟩
    | _ => cases hname
  · rintro ⟨decl, hmem, hname⟩
    exact ⟨_, hmem, beq_iff_eq.mpr hname⟩

/-- A document declares the names of the types and the directives that it defines, and of the types that it
extends. -/
theorem mem_declaredNames : name ∈ d.definitions.filterMap Definition.declaredName? ↔
    d.definesType name = true ∨ d.extendsType name = true ∨ d.definesDirective name = true := by
  rw [definesType_iff, extendsType_iff, definesDirective_iff, List.mem_filterMap]
  constructor
  · rintro ⟨definition, hmem, hname⟩
    cases definition with
    | type description decl => exact .inl ⟨description, decl, hmem, Option.some.inj hname⟩
    | extendType decl => exact .inr (.inl ⟨decl, hmem, Option.some.inj hname⟩)
    | directive directive => exact .inr (.inr ⟨directive, hmem, Option.some.inj hname⟩)
    | _ => cases hname
  · rintro (⟨description, decl, hmem, rfl⟩ | ⟨decl, hmem, rfl⟩ | ⟨directive, hmem, rfl⟩)
    · exact ⟨_, hmem, rfl⟩
    · exact ⟨_, hmem, rfl⟩
    · exact ⟨_, hmem, rfl⟩

/-! ## What is put in front -/

/-- A definition of AppSync is put in front if the document declares its name in no way. -/
def provides (d : Document) (definition : Definition) : Bool :=
  !definition.declaredName?.any (d.definitions.filterMap Definition.declaredName?).contains

theorem withAppSync_eq (d : Document) :
    d.withAppSync = ⟨appSyncDefinitions.filter d.provides ++ d.definitions⟩ := rfl

theorem provides_eq_true {definition : Definition} (name : String) (hname : definition.declaredName? = some name) :
    d.provides definition = true ↔
      ¬ (d.definesType name = true ∨ d.extendsType name = true ∨ d.definesDirective name = true) := by
  rw [provides, hname, ← mem_declaredNames]
  simp

/-- The definitions of AppSync are of scalars and of directives. -/
theorem mem_appSyncDefinitions {definition : Definition} : definition ∈ appSyncDefinitions ↔
    (∃ name ∈ appSyncScalars, definition = .type none ⟨name, [], .scalar⟩) ∨
      ∃ directive ∈ appSyncDirectives, definition = .directive directive := by
  simp only [appSyncDefinitions, List.mem_append, List.mem_map, eq_comm]

/-- What is put in front of a document, it lacks. -/
theorem lacks_of_provides {definition : Definition} (hmem : definition ∈ appSyncDefinitions)
    (h : d.provides definition = true) : d.lacks definition = true := by
  rcases mem_appSyncDefinitions.mp hmem with ⟨name, -, rfl⟩ | ⟨directive, -, rfl⟩
  · have hfree := (provides_eq_true name rfl).mp h
    simp only [lacks, Bool.not_eq_true', Bool.eq_false_iff]
    exact fun hdefined => hfree (.inl hdefined)
  · have hfree := (provides_eq_true directive.name rfl).mp h
    simp only [lacks, Bool.not_eq_true', Bool.eq_false_iff]
    exact fun hdefined => hfree (.inr (.inr hdefined))

/-- A document becomes complete if it declares no name of a definition that it lacks. -/
theorem withAppSync_eq_completed : d.withAppSync = d.completed ↔
    ∀ definition ∈ appSyncDefinitions, d.lacks definition = true → d.provides definition = true := by
  rw [withAppSync_eq, completed, mk.injEq, List.append_left_inj]
  constructor
  · intro heq definition hmem hlacks
    have hkept : definition ∈ appSyncDefinitions.filter d.lacks := List.mem_filter.mpr ⟨hmem, hlacks⟩
    rw [← heq] at hkept
    exact (List.mem_filter.mp hkept).2
  · intro hprovides
    apply List.filter_congr
    intro definition hmem
    apply Bool.eq_iff_iff.mpr
    exact ⟨lacks_of_provides hmem, hprovides definition hmem⟩

/-- Nothing is put in front of a document but what it lacks, in the same order. -/
theorem provided_sublist (d : Document) :
    (appSyncDefinitions.filter d.provides).Sublist (appSyncDefinitions.filter d.lacks) := by
  have hagain : (appSyncDefinitions.filter d.lacks).filter d.provides = appSyncDefinitions.filter d.provides := by
    rw [List.filter_filter]
    apply List.filter_congr
    intro definition hmem
    apply Bool.eq_iff_iff.mpr
    rw [Bool.and_eq_true]
    exact ⟨And.left, fun hprovides => ⟨hprovides, lacks_of_provides hmem hprovides⟩⟩
  rw [← hagain]
  exact List.filter_sublist

end Graphql.Document

open Graphql.Document in
/-- **Definitions of AppSync are put in front of a document if it lacks them.** A document is kept as it is behind
what is put in front of it, which is nothing but what it lacks, in the fixed order. It is all that the document
lacks exactly if no scalar that it does not define has the name of one of its directives or of a type that it
extends, and no directive that it does not define has the name of a type that it defines or extends. -/
theorem withAppSync_eq_completed_iff (d : Document) :
    (∃ provided, d.withAppSync.definitions = provided ++ d.definitions ∧
      provided.Sublist (appSyncDefinitions.filter d.lacks)) ∧
    (d.withAppSync = d.completed ↔
      (∀ name ∈ appSyncScalars, d.definesType name = false →
        d.extendsType name = false ∧ d.definesDirective name = false) ∧
      ∀ directive ∈ appSyncDirectives, d.definesDirective directive.name = false →
        d.definesType directive.name = false ∧ d.extendsType directive.name = false) := by
  refine ⟨⟨appSyncDefinitions.filter d.provides, rfl, provided_sublist d⟩, ?_⟩
  rw [withAppSync_eq_completed]
  constructor
  · intro hprovides
    constructor
    · intro name hname hundefined
      have hlacks : d.lacks (.type none ⟨name, [], .scalar⟩) = true := by simp [lacks, hundefined]
      -- what is lacking is put in front, so its name is free
      have hfree := (provides_eq_true name rfl).mp
        (hprovides _ (mem_appSyncDefinitions.mpr (.inl ⟨name, hname, rfl⟩)) hlacks)
      simp only [not_or, Bool.not_eq_true] at hfree
      exact hfree.2
    · intro directive hdirective hundefined
      have hlacks : d.lacks (.directive directive) = true := by simp [lacks, hundefined]
      have hfree := (provides_eq_true directive.name rfl).mp
        (hprovides _ (mem_appSyncDefinitions.mpr (.inr ⟨directive, hdirective, rfl⟩)) hlacks)
      simp only [not_or, Bool.not_eq_true] at hfree
      exact ⟨hfree.1, hfree.2.1⟩
  · rintro ⟨hscalars, hdirectives⟩ definition hmem hlacks
    rcases mem_appSyncDefinitions.mp hmem with ⟨name, hname, rfl⟩ | ⟨directive, hdirective, rfl⟩
    · have hundefined : d.definesType name = false := by simpa [lacks] using hlacks
      apply (provides_eq_true name rfl).mpr
      simp [hundefined, hscalars name hname hundefined]
    · have hundefined : d.definesDirective directive.name = false := by simpa [lacks] using hlacks
      apply (provides_eq_true directive.name rfl).mpr
      simp [hundefined, hdirectives directive hdirective hundefined]

/-- A type that is only extended, and a directive whose name is that of a type, stay away: neither document becomes
complete. -/
theorem withAppSync_incomplete :
    (∃ d, Document.parse "extend scalar AWSDate @d" = .ok d ∧ d.withAppSync ≠ d.completed) ∧
      ∃ d, Document.parse "enum aws_auth \x7b A \x7d" = .ok d ∧ d.withAppSync ≠ d.completed := by
  constructor
  · refine ⟨⟨[.extendType ⟨"AWSDate", [⟨"d", []⟩], .scalar⟩]⟩, by cbv, ?_⟩
    intro heq
    exact absurd (congrArg (·.definitions.length) heq) (by decide)
  · refine ⟨⟨[.type none ⟨"aws_auth", [], .enum [⟨none, "A", []⟩]⟩]⟩, by cbv, ?_⟩
    intro heq
    exact absurd (congrArg (·.definitions.length) heq) (by decide)

end ResolverWiring
