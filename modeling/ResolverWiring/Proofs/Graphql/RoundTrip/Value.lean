import ResolverWiring.Proofs.Graphql.ParserRun
import ResolverWiring.Proofs.Graphql.WellFormed

/-!
# `Proofs.Graphql.RoundTrip.Value` — values, directives and types are parsed as they are written

Every parser of the grammar reads the tokens of a well-formed node as this node (`Parser.Reads`). What must not
follow the tokens is stated with each lemma: a mark that would go on with the node. A value ends by itself, so
anything may follow it; behind a type, a default value or directives, the mark that starts the next optional part
must not come.
-/

namespace ResolverWiring.Graphql

namespace Parser

namespace Reads

variable {allowed : StringLiteral → Prop} {follow : Token → Prop}

/-! ## Values, directives and type references -/

/-- The tokens of an item are among those of all items, so there are no more of them. -/
theorem length_le_of_mem {α : Type} (spell : α → List Token) {items : List α} {a : α}
    (h : a ∈ items) : (spell a).length ≤ (items.flatMap spell).length := by
  obtain ⟨before, after, rfl⟩ := List.append_of_mem h
  rw [List.flatMap_append, List.flatMap_cons, List.length_append, List.length_append]
  omega

/-- A value starts with no closing mark. -/
theorem startsWith_value (v : Value) : StartsWith v.layout.tokens fun t =>
    t ≠ .punctuator .bracketClose := by
  cases v with
  | «variable» name =>
    rw [Value.tokens_variable]
    exact ⟨_, _, rfl, nofun⟩
  | int digits =>
    rw [Value.tokens_int]
    exact ⟨_, _, rfl, nofun⟩
  | float digits =>
    rw [Value.tokens_float]
    exact ⟨_, _, rfl, nofun⟩
  | string literal =>
    rw [Value.tokens_string]
    exact ⟨_, _, rfl, nofun⟩
  | boolean value =>
    rw [Value.tokens_boolean]
    exact ⟨_, _, rfl, nofun⟩
  | null =>
    rw [Value.tokens_null]
    exact ⟨_, _, rfl, nofun⟩
  | enum symbol =>
    rw [Value.tokens_enum]
    exact ⟨_, _, rfl, nofun⟩
  | list items =>
    rw [Value.tokens_list]
    exact ⟨_, _, rfl, by decide⟩
  | object fields =>
    rw [Value.tokens_object]
    exact ⟨_, _, rfl, by decide⟩

/-- A symbol is read back as a symbol, since it is none of the reserved names. -/
theorem namedValue_enum {symbol : String} (h : symbol ∉ reservedNames) :
    namedValue symbol = .enum symbol := by
  simp only [reservedNames, List.mem_cons, List.not_mem_nil, or_false, not_or] at h
  unfold namedValue
  split
  · exact absurd rfl h.1
  · exact absurd rfl h.2.1
  · exact absurd rfl h.2.2
  · rfl

/-- A field of an object is read back if its value is. -/
theorem objectField {field : String × Value} {p : Parser Value}
    (h : Reads p field.2.layout.tokens field.2 fun _ => True) :
    Reads (do
      let name ← Parser.parseName
      Parser.expect .colon
      let value ← p
      return (name, value)) (objectFieldTokens field) field fun _ => True :=
  (parseName field.1).seq ((expect .colon).seq h.result)

/-- A value is parsed within as many rounds as it has tokens: each part of it has fewer of them. -/
theorem valueWithin {constant : Bool} {v : Value} (h : v.WellFormed allowed constant) {bound : Nat}
    (hbound : v.layout.tokens.length ≤ bound) :
    Reads (valueWithin constant (bound + 1)) v.layout.tokens v follow := by
  induction h generalizing bound follow with
  | @«variable» name hconstant _ =>
    subst hconstant
    rw [Value.tokens_variable]
    exact peek ((expect .dollar).seq (parseName name)).result
  | @int digits _ =>
    rw [Value.tokens_int]
    exact peek (advance.seq (pure _))
  | @float digits _ =>
    rw [Value.tokens_float]
    exact peek (advance.seq (pure _))
  | @string literal _ =>
    rw [Value.tokens_string]
    exact peek (advance.seq (pure _))
  | boolean value =>
    rw [Value.tokens_boolean]
    cases value
    · exact peek (advance.seq (pure _))
    · exact peek (advance.seq (pure _))
  | null =>
    rw [Value.tokens_null]
    exact peek (advance.seq (pure _))
  | @enum symbol _ hfree =>
    rw [Value.tokens_enum, ← namedValue_enum hfree]
    exact peek (advance.seq (pure _))
  | @list items _ ih =>
    rw [Value.tokens_list, List.length_cons] at hbound
    obtain ⟨bound, rfl⟩ := Nat.exists_eq_add_one_of_ne_zero (Nat.ne_zero_of_lt hbound)
    rw [List.length_append] at hbound
    have hitems : ∀ item ∈ items, Reads (Parser.valueWithin constant (bound + 1))
        item.layout.tokens item fun _ => True := by
      intro item hitem
      have := length_le_of_mem (fun item : Value => item.layout.tokens) hitem
      exact ih item hitem (by omega)
    rw [Value.tokens_list]
    exact peek (anyBetween hitems
      (fun item _ => (startsWith_value item).mono fun _ ht => ⟨trivial, ht⟩) trivial).result
  | @object fields _ _ ih =>
    rw [Value.tokens_object, List.length_cons] at hbound
    obtain ⟨bound, rfl⟩ := Nat.exists_eq_add_one_of_ne_zero (Nat.ne_zero_of_lt hbound)
    rw [List.length_append] at hbound
    have hfields : ∀ field ∈ fields, Reads (do
        let name ← Parser.parseName
        Parser.expect .colon
        let value ← Parser.valueWithin constant (bound + 1)
        return (name, value)) (objectFieldTokens field) field fun _ => True := by
      intro field hfield
      have hlength := length_le_of_mem objectFieldTokens hfield
      rw [objectFieldTokens, List.length_cons, List.length_cons] at hlength
      exact objectField (ih field hfield (by omega))
    rw [Value.tokens_object]
    exact peek (anyBetween hfields (fun field _ => ⟨_, _, rfl, trivial, nofun⟩) trivial).result

/-- A value is read back whatever follows it. -/
theorem parseValue {constant : Bool} {v : Value} (h : v.WellFormed allowed constant) :
    Reads (parseValue constant) v.layout.tokens v follow :=
  bounded fun _ hbound => valueWithin h hbound

/-- An argument is read back as its name, a colon and its value. -/
theorem parseArgument {constant : Bool} {a : Argument} (h : a.WellFormed allowed constant) :
    Reads (parseArgument constant) a.layout.tokens a follow := by
  rw [a.tokens_layout]
  exact (parseName a.name).seq ((expect .colon).seq (parseValue h.value).result)

/-- An argument starts with its name, so it is not taken for the end of the arguments. -/
theorem startsWith_argument (a : Argument) {close : Punctuator} :
    StartsWith a.layout.tokens fun t => True ∧ t ≠ .punctuator close := by
  rw [a.tokens_layout]
  exact ⟨_, _, rfl, trivial, nofun⟩

/-- Arguments are read back unless another opening mark follows them, which would be taken for theirs if there are
none. -/
theorem parseArguments {constant : Bool} {arguments : List Argument}
    (h : ∀ a ∈ arguments, a.WellFormed allowed constant) :
    Reads (parseArguments constant) (argumentsTokens arguments) arguments
      (· ≠ .punctuator .parenOpen) :=
  (optionalBetween (fun a ha => parseArgument (h a ha)) (fun a _ => startsWith_argument a)
    trivial).mono fun _ ht _ => ht

/-- A directive without arguments is read back unless arguments follow it. -/
theorem parseDirective {constant : Bool} {d : Directive} (h : d.WellFormed allowed constant) :
    Reads (parseDirective constant) d.layout.tokens d (· ≠ .punctuator .parenOpen) := by
  rw [d.tokens_layout]
  exact (expect .atSign).seq ((parseName d.name).seq (parseArguments h.arguments).result)

/-- What must not follow directives. -/
def EndsDirectives (t : Token) : Prop := t ≠ .punctuator .atSign ∧ t ≠ .punctuator .parenOpen

instance : DecidablePred EndsDirectives :=
  fun t => inferInstanceAs (Decidable (t ≠ .punctuator .atSign ∧ t ≠ .punctuator .parenOpen))

theorem startsWith_directive (d : Directive) :
    StartsWith d.layout.tokens (· = .punctuator .atSign) := by
  rw [d.tokens_layout]
  exact ⟨_, _, rfl, rfl⟩

/-- The tokens of directives. -/
abbrev directivesTokens (directives : List Directive) : List Token :=
  directives.flatMap fun d => d.layout.tokens

/-- Directives are read back one by one; each is followed by the mark of the next one, or by what ends them all. -/
theorem parseDirectives {constant : Bool} {directives : List Directive}
    (h : ∀ d ∈ directives, d.WellFormed allowed constant) :
    Reads (parseDirectives constant) (directivesTokens directives) directives EndsDirectives := by
  -- a directive may be followed by the mark of the next one, but not by a parenthesis
  refine bounded fun bound hbound => itemsWhile (fun d hd => parseDirective (h d hd))
    (fun d _ => startsWith_directive d) (by decide) (Nat.le_trans ?_ hbound)
  exact length_le_length_flatMap fun d _ => startsWith_directive d

/-- Directives start with their mark, if there are any. -/
theorem startsWith_directives (directives : List Directive) :
    directivesTokens directives = [] ∨
      StartsWith (directivesTokens directives) (· = .punctuator .atSign) := by
  cases directives with
  | nil => exact .inl rfl
  | cons d directives => exact .inr ((startsWith_directive d).append _)

/-- A type that is not required must not be followed by the mark for it. -/
theorem takeRequired (required : Bool) :
    Reads (Parser.takeMark .bang) (requiredToken required) required (· ≠ .punctuator .bang) := by
  cases required
  · exact takeMark_none .bang
  · exact takeMark .bang

/-- References to types, by induction on them; each list takes two tokens, so the rounds suffice. -/
theorem typeWithin (type : TypeRef) {bound : Nat} (hbound : type.layout.tokens.length ≤ bound) :
    Reads (typeWithin (bound + 1)) type.layout.tokens type (· ≠ .punctuator .bang) := by
  induction type generalizing bound with
  | named name required =>
    rw [TypeRef.tokens_named]
    exact (takeMark_none .bracketOpen).bind ((parseName name).seq (takeRequired required).result)
      fun rest _ => nofun
  | list item required ih =>
    rw [TypeRef.tokens_list, List.length_cons] at hbound
    obtain ⟨bound, rfl⟩ := Nat.exists_eq_add_one_of_ne_zero (Nat.ne_zero_of_lt hbound)
    rw [List.length_append] at hbound
    have hitem : Reads (Parser.typeWithin (bound + 1)) item.layout.tokens item
        (· ≠ .punctuator .bang) := ih (by omega)
    rw [TypeRef.tokens_list]
    -- a mark behind the item would be taken for the item's, so the bracket has to come first
    exact (takeMark .bracketOpen).seq (hitem.bind
      ((expect .bracketClose).seq (takeRequired required).result) fun rest _ =>
        show Token.punctuator .bracketClose ≠ .punctuator .bang by decide)

theorem parseType (type : TypeRef) :
    Reads parseType type.layout.tokens type (· ≠ .punctuator .bang) :=
  bounded fun _ hbound => typeWithin type hbound

/-- A default is read back; where there is none, its mark must not follow. -/
theorem parseDefault {default? : Option Value} (h : DefaultWellFormed allowed default?) :
    Reads parseDefault (defaultTokens default?) default? (· ≠ .punctuator .equals) := by
  cases default? with
  | none => exact (takeMark_none .equals).bind (pure none) fun _ hfollow => hfollow
  | some v => exact (takeMark .equals).seq (parseValue (h v rfl)).result

end Reads

end Parser

end ResolverWiring.Graphql
