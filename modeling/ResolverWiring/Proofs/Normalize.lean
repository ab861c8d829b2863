import ResolverWiring.Proofs.Scan
import ResolverWiring.Schema.Normalize

/-!
# `Proofs.Normalize` — emptied types go, and no scan notices

Normalizing a document takes away the object types without fields whose names are reported, and nothing else
(`Definition.AreWithout`). So it makes no difference whether names are reported together or one after the other
(`normalize_normalize`).

A type that goes has no fields, so a scan finds the same before and after (`fields_normalize`); and a scan takes no
field away from a type, so the same types go before and after it (`isEmptied_mapFields`). Normalizing and scanning can
therefore change places (`scan_normalize`).
-/

namespace ResolverWiring

open Graphql

/-! ## What goes -/

/-- An object type that has no fields and one of these names. -/
inductive Graphql.Definition.IsEmptied (emptied : List String) : Definition → Prop where
  | object (description : Option StringLiteral) (directives : List Directive) (interfaces : List String)
      {name : String} (h : name ∈ emptied) :
    IsEmptied emptied (.type description ⟨name, directives, .object interfaces []⟩)

/-- Whether definitions are others without those that go; all that stay are as they were, and in their order. -/
inductive Graphql.Definition.AreWithout (goes : Definition → Prop) : List Definition → List Definition → Prop where
  | nil : AreWithout goes [] []
  | drop {d : Definition} {before after : List Definition} (h : goes d) (hothers : AreWithout goes before after) :
    AreWithout goes (d :: before) after
  | keep {d : Definition} {before after : List Definition} (h : ¬ goes d) (hothers : AreWithout goes before after) :
    AreWithout goes (d :: before) (d :: after)

variable {d : Definition} {emptied further : List String}

theorem isEmptied_iff : d.isEmptied emptied = true ↔ d.IsEmptied emptied := by
  constructor
  · intro h
    unfold Definition.isEmptied at h
    split at h
    · exact .object _ _ _ (List.contains_iff_mem.mp h)
    · cases h
  · rintro ⟨_, _, _, hname⟩
    exact List.contains_iff_mem.mpr hname

theorem areWithout_filter (emptied : List String) (definitions : List Definition) :
    Definition.AreWithout (·.IsEmptied emptied) definitions (definitions.filter (!·.isEmptied emptied)) := by
  induction definitions with
  | nil => exact .nil
  | cons d others ih =>
    by_cases hd : d.isEmptied emptied = true
    · rw [List.filter_cons_of_neg (by simp [hd])]
      exact .drop (isEmptied_iff.mp hd) ih
    · rw [List.filter_cons_of_pos (by simp [hd])]
      exact .keep (fun h => hd (isEmptied_iff.mpr h)) ih

/-! ## One report after the other -/

theorem isEmptied_append (d : Definition) (emptied further : List String) :
    d.isEmptied (emptied ++ further) = (d.isEmptied emptied || d.isEmptied further) := by
  rw [Bool.eq_iff_iff, Bool.or_eq_true, isEmptied_iff, isEmptied_iff, isEmptied_iff]
  constructor
  · rintro ⟨_, _, _, hname⟩
    rcases List.mem_append.mp hname with h | h
    · exact .inl (.object _ _ _ h)
    · exact .inr (.object _ _ _ h)
  · rintro (⟨_, _, _, h⟩ | ⟨_, _, _, h⟩)
    · exact .object _ _ _ (List.mem_append_left _ h)
    · exact .object _ _ _ (List.mem_append_right _ h)

/-- Names may be reported one after the other. -/
theorem normalize_normalize (document : Document) (emptied further : List String) :
    (document.normalize emptied).normalize further = document.normalize (emptied ++ further) := by
  apply congrArg Document.mk
  show (document.definitions.filter _).filter _ = document.definitions.filter _
  rw [List.filter_filter]
  apply List.filter_congr
  intro d _
  rw [isEmptied_append, Bool.not_or, Bool.and_comm]

/-! ## Scans -/

/-- Types that go have no fields. -/
theorem fields_of_isEmptied (h : d.isEmptied emptied = true) : d.fields = [] := by
  obtain ⟨_, _, _, -⟩ := isEmptied_iff.mp h
  rfl

/-- A change of fields leaves every type with as many as it had. -/
theorem isEmptied_mapFields (f : FieldDef → FieldDef) (d : Definition) (emptied : List String) :
    (d.mapFields f).isEmptied emptied = d.isEmptied emptied := by
  cases d with
  | type description decl =>
    obtain ⟨name, directives, body⟩ := decl
    cases body with
    | object interfaces fields => cases fields <;> rfl
    | _ => rfl
  | _ => rfl

theorem fields_normalize (document : Document) (emptied : List String) :
    (document.normalize emptied).fields = document.fields := by
  show (document.definitions.filter (!·.isEmptied emptied)).flatMap Definition.fields
    = document.definitions.flatMap Definition.fields
  induction document.definitions with
  | nil => rfl
  | cons d others ih =>
    by_cases hd : d.isEmptied emptied = true
    · rw [List.filter_cons_of_neg (by simp [hd]), ih, List.flatMap_cons, fields_of_isEmptied hd, List.nil_append]
    · rw [List.filter_cons_of_pos (by simp [hd]), List.flatMap_cons, List.flatMap_cons, ih]

/-- The same types go before and after a change of fields. -/
theorem mapFields_normalize (f : FieldDef → FieldDef) (document : Document) (emptied : List String) :
    (document.normalize emptied).mapFields f = (document.mapFields f).normalize emptied := by
  apply congrArg Document.mk
  show (document.definitions.filter _).map _ = (document.definitions.map _).filter _
  rw [List.filter_map]
  congr 1
  apply List.filter_congr
  intro d _
  show (!d.isEmptied emptied) = !(d.mapFields f).isEmptied emptied
  rw [isEmptied_mapFields]

/-- A scan and the removal of emptied types can change places. -/
theorem scan_normalize (document : Document) (emptied : List String) (directive : String) :
    scan (document.normalize emptied) directive
      = (scan document directive).map fun result =>
          { result with document := result.document.normalize emptied } := by
  -- Findings are read off the fields alone, so only the document that is left can differ.
  have hfindings : findings (document.normalize emptied) directive = findings document directive := by
    unfold findings
    rw [fields_normalize]
  unfold scan
  rw [hfindings, mapFields_normalize]
  cases (findings document directive).mapM id with
  | error e => rfl
  | ok bindings => rfl

/-- **Normalizing is exact.** Exactly the object types go that have no fields and are reported, together or one after
the other. A scan of what is left fails as one of the whole document does, and otherwise finds the same bindings and
leaves the document that normalizing makes of the scanned one. -/
theorem normalize_exact (document : Document) (emptied further : List String) (directive : String) :
    Definition.AreWithout (·.IsEmptied emptied) document.definitions (document.normalize emptied).definitions ∧
    (document.normalize emptied).normalize further = document.normalize (emptied ++ further) ∧
    scan (document.normalize emptied) directive
      = (scan document directive).map fun result =>
          { result with document := result.document.normalize emptied } := by
  refine ⟨areWithout_filter emptied document.definitions, normalize_normalize document emptied further, ?_⟩
  exact scan_normalize document emptied directive

end ResolverWiring
