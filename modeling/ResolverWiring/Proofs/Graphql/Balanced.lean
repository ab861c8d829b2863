import ResolverWiring.Proofs.Graphql.DirectiveUses
import ResolverWiring.Proofs.Graphql.RoundTrip.TypeSystem

/-!
# `Proofs.Graphql.Balanced` — braces and directives in the tokens of nodes

The tokens of a node close all braces that they open, and the names of the directives in the node stand behind
the marks `@` (`Balanced`). So the brace that closes the braces of a definition can be found in the tokens alone,
and the directives in between can be named, whatever these tokens are parsed as (`Balanced.eq_of_closed`).
-/

namespace ResolverWiring.Graphql

open Layout

/-! ## Balanced tokens -/

/-- Whether a token is neither a brace nor the mark of a directive. -/
def Token.IsPlain (t : Token) : Prop :=
  t ≠ .punctuator .braceOpen ∧ t ≠ .punctuator .braceClose ∧ t ≠ .punctuator .atSign

/-- Whether all braces in a list of tokens are closed in it; `names` are those behind the marks of
directives. -/
inductive Balanced : List String → List Token → Prop where
  | nil : Balanced [] []
  | plain {t : Token} (h : t.IsPlain) : Balanced [] [t]
  | directive (name : String) : Balanced [name] [.punctuator .atSign, .name name]
  | append {names names' : List String} {ts ts' : List Token} (h : Balanced names ts)
    (h' : Balanced names' ts') : Balanced (names ++ names') (ts ++ ts')
  | braces {names : List String} {ts : List Token} (h : Balanced names ts) :
    Balanced names (.punctuator .braceOpen :: (ts ++ [.punctuator .braceClose]))

/-- The names of the directives in front of the brace that closes `depth` open ones and one more, and the
tokens behind this brace. -/
def insideBraces : Nat → List Token → List String × List Token
  | _, [] => ([], [])
  | depth, .punctuator .braceOpen :: ts => insideBraces (depth + 1) ts
  | 0, .punctuator .braceClose :: ts => ([], ts)
  | depth + 1, .punctuator .braceClose :: ts => insideBraces depth ts
  | depth, .punctuator .atSign :: .name name :: ts =>
    (name :: (insideBraces depth ts).1, (insideBraces depth ts).2)
  | depth, _ :: ts => insideBraces depth ts

namespace Balanced

variable {names names' : List String} {ts ts' rest rest' : List Token}

/-- Behind a balanced part the depth is as before. -/
theorem insideBraces_append (h : Balanced names ts) (depth : Nat) (rest : List Token) :
    insideBraces depth (ts ++ rest)
      = (names ++ (insideBraces depth rest).1, (insideBraces depth rest).2) := by
  induction h generalizing depth rest with
  | nil => rfl
  | @plain t h =>
    obtain ⟨hopen, hclose, hsign⟩ := h
    show insideBraces depth (t :: rest) = insideBraces depth rest
    rw [insideBraces.eq_def]
    split <;> simp_all
  | directive name =>
    show insideBraces depth (_ :: _ :: rest) = _
    rw [insideBraces]
    rfl
  | append _ _ ih ih' =>
    rw [List.append_assoc, ih, ih', List.append_assoc]
  | braces _ ih =>
    rw [List.cons_append, insideBraces, List.append_assoc, ih, List.singleton_append, insideBraces]

/-- The brace behind balanced tokens is the one that closes them: what stands in front of it and behind it is
the same for all ways of reading the tokens. -/
theorem eq_of_closed (h : Balanced names ts) (h' : Balanced names' ts')
    (heq : ts ++ .punctuator .braceClose :: rest = ts' ++ .punctuator .braceClose :: rest') :
    names = names' ∧ rest = rest' := by
  have hinside := congrArg (insideBraces 0) heq
  rw [h.insideBraces_append, h'.insideBraces_append] at hinside
  simpa [insideBraces] using hinside

/-! ## Composed tokens -/

theorem congr (h : Balanced names ts) (heq : names = names') : Balanced names' ts := heq ▸ h

/-- A plain token in front changes neither the names nor the depth. -/
theorem cons {t : Token} (ht : t.IsPlain) (h : Balanced names ts) : Balanced names (t :: ts) :=
  (plain ht).append h

/-- A plain token behind changes neither the names nor the depth. -/
theorem concat {t : Token} (ht : t.IsPlain) (h : Balanced names ts) : Balanced names (ts ++ [t]) :=
  (h.append (plain ht)).congr (List.append_nil names)

theorem name (text : String) : (Token.name text).IsPlain := ⟨nofun, nofun, nofun⟩

section Items

variable {α : Type} {items : List α} {namesOf : α → List String} {spell : α → List Token}

/-- Balanced items one after the other are balanced. -/
theorem flatMap (h : ∀ a ∈ items, Balanced (namesOf a) (spell a)) :
    Balanced (items.flatMap namesOf) (items.flatMap spell) := by
  induction items with
  | nil => exact nil
  | cons a items ih =>
    obtain ⟨ha, hitems⟩ := List.forall_mem_cons.mp h
    rw [List.flatMap_cons, List.flatMap_cons]
    exact ha.append (ih hitems)

/-- Items without directives. -/
theorem flatMap_nil (h : ∀ a ∈ items, Balanced [] (spell a)) : Balanced [] (items.flatMap spell) :=
  (flatMap h).congr (List.flatMap_eq_nil_iff.mpr fun _ _ => rfl)

/-- Parentheses are no braces. -/
theorem parenthesized (h : ∀ a ∈ items, Balanced (namesOf a) (spell a)) :
    Balanced (items.flatMap namesOf) (enclosed .parenOpen .parenClose (items.map spell)) := by
  cases items with
  | nil => exact nil
  | cons a items =>
    have hitems := flatMap h
    rw [List.flatMap_def (f := spell)] at hitems
    exact cons ⟨nofun, nofun, nofun⟩ (concat ⟨nofun, nofun, nofun⟩ hitems)

/-- Items in braces, seen from inside of the braces. -/
theorem exists_inner (hne : items ≠ []) (h : ∀ a ∈ items, Balanced (namesOf a) (spell a)) :
    ∃ inner, Balanced (items.flatMap namesOf) inner ∧
      blockTokens spell items = .punctuator .braceOpen :: (inner ++ [.punctuator .braceClose]) := by
  obtain ⟨a, items, rfl⟩ := List.exists_cons_of_ne_nil hne
  have hitems := flatMap h
  rw [List.flatMap_def (f := spell)] at hitems
  exact ⟨_, hitems, rfl⟩

/-- A block opens one brace and closes it again, if it has items. -/
theorem block (h : ∀ a ∈ items, Balanced (namesOf a) (spell a)) :
    Balanced (items.flatMap namesOf) (blockTokens spell items) := by
  by_cases hne : items = []
  · subst hne
    exact nil
  · obtain ⟨inner, hinner, htokens⟩ := exists_inner hne h
    rw [htokens]
    exact hinner.braces

end Items

/-! ## Nodes -/

/-- Values hold no directives, and each closes the braces that it opens. -/
theorem value (v : Value) : Balanced [] v.layout.tokens := by
  induction v with
  | list items ih =>
    rw [Value.tokens_list]
    exact cons ⟨nofun, nofun, nofun⟩ (concat ⟨nofun, nofun, nofun⟩ (flatMap_nil ih))
  | object fields ih =>
    have hfields : ∀ field ∈ fields, Balanced [] (objectFieldTokens field) := by
      intro field hfield
      exact cons (name field.1) (cons ⟨nofun, nofun, nofun⟩ (ih field hfield))
    rw [Value.tokens_object]
    exact (flatMap_nil hfields).braces
  | «variable» text =>
    rw [Value.tokens_variable]
    exact cons ⟨nofun, nofun, nofun⟩ (plain (name text))
  | int digits =>
    rw [Value.tokens_int]
    exact plain ⟨nofun, nofun, nofun⟩
  | float digits =>
    rw [Value.tokens_float]
    exact plain ⟨nofun, nofun, nofun⟩
  | string literal =>
    rw [Value.tokens_string]
    exact plain ⟨nofun, nofun, nofun⟩
  | boolean value =>
    rw [Value.tokens_boolean]
    exact plain (name _)
  | null =>
    rw [Value.tokens_null]
    exact plain (name _)
  | enum symbol =>
    rw [Value.tokens_enum]
    exact plain (name symbol)

theorem arguments (items : List Argument) : Balanced [] (argumentsTokens items) := by
  have hitem : ∀ a ∈ items, Balanced [] a.layout.tokens := by
    intro a _
    rw [a.tokens_layout]
    exact cons (name a.name) (cons ⟨nofun, nofun, nofun⟩ (value a.value))
  exact (parenthesized hitem).congr (List.flatMap_eq_nil_iff.mpr fun _ _ => rfl)

/-- The names of directives stand behind their marks; their arguments hold none. -/
theorem directives (items : List Directive) :
    Balanced (items.map (·.name)) (items.flatMap fun d => d.layout.tokens) := by
  have hitem : ∀ d ∈ items, Balanced [d.name] d.layout.tokens := by
    intro d _
    rw [d.tokens_layout]
    exact (directive d.name).append (arguments d.arguments)
  exact (flatMap hitem).congr List.map_eq_flatMap.symm

theorem uses (location : DirectiveLocation) (items : List Directive) :
    Balanced (useNames (usesAt location items)) (items.flatMap fun d => d.layout.tokens) :=
  (directives items).congr (useNames_usesAt location items).symm

theorem typeRef (type : TypeRef) : Balanced [] type.layout.tokens := by
  have hmark : ∀ required, Balanced [] (requiredToken required) := by
    intro required
    cases required with
    | true => exact plain ⟨nofun, nofun, nofun⟩
    | false => exact nil
  induction type with
  | named text required =>
    rw [TypeRef.tokens_named]
    exact cons (name text) (hmark required)
  | list item required ih =>
    rw [TypeRef.tokens_list]
    exact cons ⟨nofun, nofun, nofun⟩ (ih.append (cons ⟨nofun, nofun, nofun⟩ (hmark required)))

theorem default (default? : Option Value) : Balanced [] (defaultTokens default?) := by
  cases default? with
  | none => exact nil
  | some v => exact cons ⟨nofun, nofun, nofun⟩ (value v)

theorem description (description : Option StringLiteral) : Balanced [] (descriptionTokens description) := by
  cases description with
  | none => exact nil
  | some literal => exact plain ⟨nofun, nofun, nofun⟩

theorem inputValueDef (location : DirectiveLocation) (i : InputValueDef) :
    Balanced (useNames (i.uses location)) i.layout.tokens := by
  rw [i.tokens_layout]
  exact (description i.description).append (cons (name i.name) (cons ⟨nofun, nofun, nofun⟩
    ((typeRef i.type).append ((default i.default?).append (uses location i.directives)))))

/-- The uses of a field, in the order of its tokens. -/
theorem fieldDef (f : FieldDef) : Balanced (useNames f.uses) f.layout.tokens := by
  have harguments : Balanced (useNames (f.arguments.flatMap (·.uses .argumentDefinition)))
      (argumentDefsTokens f.arguments) :=
    (parenthesized fun i _ => inputValueDef .argumentDefinition i).congr (useNames_flatMap _ _).symm
  rw [f.tokens_layout, FieldDef.uses, useNames_append]
  exact (description f.description).append (cons (name f.name) (harguments.append
    (cons ⟨nofun, nofun, nofun⟩ ((typeRef f.type).append (uses .fieldDefinition f.directives)))))

theorem enumValueDef (e : EnumValueDef) : Balanced (useNames e.uses) e.layout.tokens := by
  rw [e.tokens_layout]
  exact (description e.description).append (cons (name e.name) (uses .enumValue e.directives))

theorem rootType (r : RootType) : Balanced [] r.layout.tokens :=
  cons (name _) (cons ⟨nofun, nofun, nofun⟩ (plain (name r.type)))

/-- Selections, by induction on them. -/
theorem selection (s : Selection) : Balanced (useNames s.uses) s.layout.tokens := by
  have hset : ∀ selections : List Selection,
      (∀ item ∈ selections, Balanced (useNames item.uses) item.layout.tokens) →
      Balanced (useNames (selectionsUses selections)) (selectionsTokens selections) := by
    intro selections hitems
    rw [selectionsUses_eq, useNames_flatMap]
    exact block hitems
  cases s with
  | field alias? text arguments directives selections =>
    have hlabel : Balanced [] (labelTokens alias? text) := by
      cases alias? with
      | none => exact plain (name text)
      | some label => exact cons (name label) (cons ⟨nofun, nofun, nofun⟩ (plain (name text)))
    have hnested := hset selections fun item hitem => selection item
    rw [Selection.tokens_field, Selection.uses, useNames_append]
    exact hlabel.append ((Balanced.arguments arguments).append ((uses .field directives).append hnested))
  | spread fragment directives =>
    rw [Selection.tokens_spread, Selection.uses]
    exact cons ⟨nofun, nofun, nofun⟩ (cons (name fragment) (uses .fragmentSpread directives))
  | inline on? directives selections =>
    have hcondition : Balanced [] (conditionTokens on?) := by
      cases on? with
      | none => exact nil
      | some on => exact cons (name "on") (plain (name on))
    have hnested := hset selections fun item hitem => selection item
    rw [Selection.tokens_inline, Selection.uses, useNames_append]
    exact cons ⟨nofun, nofun, nofun⟩
      (hcondition.append ((uses .inlineFragment directives).append hnested))

end Balanced

end ResolverWiring.Graphql
