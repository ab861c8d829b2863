import ResolverWiring.Proofs.Graphql.ParserRun
import ResolverWiring.Proofs.Graphql.PrintedTokens

/-!
# `Proofs.Graphql.ParserInput` — what is parsed has been written

A parser takes the tokens that its result is written with, and no others. `Takes` states this for one parser, and
holds of a composed parser when it holds of its parts: what the first part has taken stands in front of what the
second takes.

The statements here are about the parts of type definitions, from names to root types. They have one written form
each. Other parts of the grammar do not: an operation may say `query` or not, and names may be listed behind a
mark.
-/

namespace ResolverWiring.Graphql

namespace Parser

variable {α β : Type} {p : Parser α} {before : List Token}

/-- Whether the tokens that a parser takes, behind tokens that have been taken before it, are those of its
result. -/
def Takes (before : List Token) (spell : α → List Token) (p : Parser α) : Prop :=
  ∀ ⦃ts a rest⦄, p ts = .ok (a, rest) → before ++ ts = spell a ++ rest

namespace Takes

variable {spell : α → List Token} {spell' : β → List Token}

/-! ## Composed parsers -/

/-- A result that is put together of parsed parts is spelled as they are. -/
theorem pure {a : α} (h : before = spell a) : Takes before spell (pure a) := by
  intro ts b rest hrun
  cases hrun
  rw [h]

/-- What a first parser has taken stands before what a second one takes. -/
theorem bind {f : α → Parser β} (hp : Takes [] spell p) (hf : ∀ a, Takes (before ++ spell a) spell' (f a)) :
    Takes before spell' (p >>= f) := by
  intro ts b rest hrun
  obtain ⟨a, mid, ha, hb⟩ := bind_eq_ok hrun
  have hts : ts = spell a ++ mid := hp ha
  rw [hts, ← List.append_assoc]
  exact hf a hb

/-- Of two parsers the one that is chosen may rely on why it is. -/
theorem ite {c : Prop} [Decidable c] {q : Parser α} (hp : c → Takes before spell p)
    (hq : ¬ c → Takes before spell q) : Takes before spell (if c then p else q) := by
  split
  · exact hp ‹c›
  · exact hq ‹¬ c›

/-- A parser that fails has taken nothing. -/
theorem unexpected : Takes before spell unexpected := fun _ _ _ h => by cases h

/-! ## Single tokens -/

/-- A token in front that is not the end of the input is the first of a list. -/
theorem cons_of_front {t : Token} {ts : List Token} (h : front ts = t) (hend : t ≠ .endOfInput) :
    ∃ others, ts = t :: others := by
  cases ts with
  | nil => exact absurd h.symm hend
  | cons t' others => exact ⟨others, congrArg (· :: others) h⟩

/-- To take a token is to leave what stands behind it. -/
theorem of_advance {t : Token} {ts rest : List Token} {u : Unit} (h : advance (t :: ts) = .ok (u, rest)) :
    rest = ts := by
  change resume () ts = _ at h
  unfold resume at h
  split at h
  · cases h
  · cases h
    rfl

/-- A token is looked at, and taken. -/
theorem of_taken {t : Token} {a b : β} {ts rest : List Token} (hfront : front ts = t)
    (hend : t ≠ .endOfInput) (h : (do
      advance
      return a : Parser β) ts = .ok (b, rest)) : b = a ∧ ts = t :: rest := by
  obtain ⟨others, rfl⟩ := cons_of_front hfront hend
  obtain ⟨_, mid, hadvance, hreturn⟩ := bind_eq_ok h
  obtain rfl := of_advance hadvance
  have hresult : Except.ok (a, mid) = Except.ok (b, rest) := hreturn
  cases hresult
  exact ⟨rfl, rfl⟩

/-- The tokens that are taken when nothing has been taken before. -/
theorem run {ts rest : List Token} {a : α} (hp : Takes [] spell p) (h : p ts = .ok (a, rest)) :
    ts = spell a ++ rest := hp h

/-- A mark is taken as it is. -/
theorem expect (mark : Punctuator) : Takes [] (fun _ => [.punctuator mark]) (expect mark) := by
  intro ts u rest h
  obtain ⟨t, mid, hpeek, h⟩ := bind_eq_ok h
  cases hpeek
  split at h
  · rename_i hfront
    obtain ⟨others, rfl⟩ := cons_of_front hfront nofun
    obtain rfl := of_advance h
    rfl
  · cases h

/-- The result tells whether the mark was there, so it tells what was taken. -/
theorem takeMark (mark : Punctuator) :
    Takes [] (fun taken => if taken then [.punctuator mark] else []) (takeMark mark) := by
  intro ts taken rest h
  obtain ⟨t, mid, hpeek, h⟩ := bind_eq_ok h
  cases hpeek
  split at h
  · rename_i hfront
    obtain ⟨rfl, rfl⟩ := of_taken hfront nofun h
    rfl
  · cases h
    rfl

/-- A name is taken as one token. -/
theorem parseName : Takes [] (fun name => [.name name]) parseName := by
  intro ts name rest h
  have hfront := front_of_parseName h
  obtain ⟨t, mid, hpeek, h⟩ := bind_eq_ok h
  cases hpeek
  rw [hfront] at h
  obtain ⟨-, rfl⟩ := of_taken hfront nofun h
  rfl

/-! ## Repetition -/

/-- How many rounds a parser may run does not matter for what it takes. -/
theorem bounded {p : Nat → Parser α} (h : ∀ bound, Takes before spell (p bound)) :
    Takes before spell (bounded p) := fun _ _ _ hrun => h _ hrun

/-- Items and the mark behind them, by induction on the rounds that are left. -/
theorem itemsUntil {closing : Punctuator} (hp : Takes [] spell p) (bound : Nat) :
    Takes [] (fun items => items.flatMap spell ++ [.punctuator closing]) (itemsUntil closing p bound) := by
  induction bound with
  | zero => exact unexpected
  | succ bound ih =>
    refine (takeMark closing).bind fun taken => ite (fun htaken => ?_) fun htaken => ?_
    · exact pure (by rw [htaken]; rfl)
    · rw [if_neg htaken]
      exact hp.bind fun first => ih.bind fun others => pure (by rw [List.flatMap_cons]; simp)

/-- Items between two marks, which are there even if there are no items. -/
theorem anyBetween {opening closing : Punctuator} (hp : Takes [] spell p) :
    Takes [] (fun items => .punctuator opening :: (items.flatMap spell ++ [.punctuator closing]))
      (anyBetween opening p closing) := by
  intro ts items rest h
  obtain ⟨_, mid, hopening, hitems⟩ := bind_eq_ok h
  show ts = _
  rw [(expect opening).run hopening, (itemsUntil hp _).run hitems]
  rfl

/-- Items between two marks, or nothing at all. -/
theorem optionalBetween {opening closing : Punctuator} (hp : Takes [] spell p) :
    Takes [] (fun items => Layout.enclosed opening closing (items.map spell))
      (optionalBetween opening p closing) := by
  intro ts items rest h
  obtain ⟨t, mid, hpeek, h⟩ := bind_eq_ok h
  cases hpeek
  split at h
  · -- one item or more between the marks
    obtain ⟨_, mid, hopening, h⟩ := bind_eq_ok h
    obtain ⟨first, mid', hfirst, h⟩ := bind_eq_ok h
    obtain ⟨others, mid'', hothers, h⟩ := bind_eq_ok h
    cases h
    show ts = _
    rw [(expect opening).run hopening, hp.run hfirst, (itemsUntil hp _).run hothers]
    simp [Layout.enclosed, List.flatMap_def]
  · cases h
    rfl

/-- Items one after the other, each with its own mark in front. -/
theorem itemsWhile {mark : Punctuator} (hp : Takes [] spell p) (bound : Nat) :
    Takes [] (·.flatMap spell) (itemsWhile mark p bound) := by
  induction bound with
  | zero => exact unexpected
  | succ bound ih =>
    intro ts items rest h
    obtain ⟨t, mid, hpeek, h⟩ := bind_eq_ok h
    cases hpeek
    split at h
    · refine (hp.bind fun first => ih.bind fun others => pure ?_ : Takes [] _ _) h
      rw [List.flatMap_cons]
      rfl
    · cases h
      rfl

/-! ## Values, directives and type references -/

/-- A name is spelled alike whatever it stands for. -/
theorem namedValue (name : String) : [Token.name name] = (namedValue name).layout.tokens := by
  unfold Parser.namedValue
  split
  · exact (Value.tokens_boolean true).symm
  · exact (Value.tokens_boolean false).symm
  · exact Value.tokens_null.symm
  · exact (Value.tokens_enum name).symm

/-- Values, by induction on their depth: the token in front tells which kind of value follows. -/
theorem valueWithin (constant : Bool) (bound : Nat) :
    Takes [] (fun v => v.layout.tokens) (valueWithin constant bound) := by
  induction bound with
  | zero => exact unexpected
  | succ bound ih =>
    have hfield : Takes [] objectFieldTokens (do
        let name ← Parser.parseName
        Parser.expect .colon
        let value ← Parser.valueWithin constant bound
        return (name, value)) :=
      parseName.bind fun name => (expect .colon).bind fun _ => ih.bind fun value => pure rfl
    have hvariable : Takes [] (fun name => [.punctuator .dollar, .name name]) Parser.parseVariable :=
      (expect .dollar).bind fun _ => fun _ _ _ h => congrArg (Token.punctuator .dollar :: ·) (parseName.run h)
    intro ts v rest h
    obtain ⟨t, mid, hpeek, h⟩ := bind_eq_ok h
    cases hpeek
    show ts = _
    generalize hfront : front ts = t at h
    -- one case for every sort of token that starts a value
    split at h
    · exact ((anyBetween ih).bind fun items => pure (Value.tokens_list items).symm :
        Takes [] (fun v : Value => v.layout.tokens) _) h
    · exact ((anyBetween hfield).bind fun fields => pure (Value.tokens_object fields).symm :
        Takes [] (fun v : Value => v.layout.tokens) _) h
    · obtain ⟨rfl, rfl⟩ := of_taken hfront nofun h
      exact congrArg (· ++ rest) (Value.tokens_int _).symm
    · obtain ⟨rfl, rfl⟩ := of_taken hfront nofun h
      exact congrArg (· ++ rest) (Value.tokens_float _).symm
    · obtain ⟨rfl, rfl⟩ := of_taken hfront nofun h
      exact congrArg (· ++ rest) (Value.tokens_string _).symm
    · obtain ⟨rfl, rfl⟩ := of_taken hfront nofun h
      exact congrArg (· ++ rest) (namedValue _)
    · split at h
      · -- a constant holds no variable
        obtain ⟨_, _, _, h⟩ := bind_eq_ok h
        obtain ⟨_, _, _, h⟩ := bind_eq_ok h
        obtain ⟨t, _, _, h⟩ := bind_eq_ok h
        cases t <;> cases h
      · exact (hvariable.bind fun name => pure (Value.tokens_variable name).symm :
          Takes [] (fun v : Value => v.layout.tokens) _) h
    · cases h

theorem parseValue (constant : Bool) : Takes [] (fun v => v.layout.tokens) (parseValue constant) :=
  bounded (valueWithin constant)

theorem parseArgument (constant : Bool) :
    Takes [] (fun a => a.layout.tokens) (parseArgument constant) :=
  parseName.bind fun name => (expect .colon).bind fun _ => (parseValue constant).bind fun value =>
    pure (Argument.tokens_layout ⟨name, value⟩).symm

theorem parseDirective (constant : Bool) :
    Takes [] (fun d => d.layout.tokens) (parseDirective constant) :=
  (expect .atSign).bind fun _ => parseName.bind fun name =>
    (optionalBetween (parseArgument constant)).bind fun arguments =>
      pure (Directive.tokens_layout ⟨name, arguments⟩).symm

/-- Directives are taken as long as the next one has its mark in front. -/
theorem parseDirectives (constant : Bool) :
    Takes [] (fun directives => directives.flatMap fun d => d.layout.tokens) (parseDirectives constant) :=
  bounded (itemsWhile (parseDirective constant))

/-- References to types, by induction on the lists that are opened. -/
theorem typeWithin (bound : Nat) : Takes [] (fun type => type.layout.tokens) (typeWithin bound) := by
  induction bound with
  | zero => exact unexpected
  | succ bound ih =>
    refine (takeMark .bracketOpen).bind fun taken => ite (fun htaken => ?_) fun htaken => ?_
    · refine ih.bind fun item => (expect .bracketClose).bind fun _ => (takeMark .bang).bind fun required => pure ?_
      rw [htaken, TypeRef.tokens_list]
      simp [requiredToken]
    · refine parseName.bind fun name => (takeMark .bang).bind fun required => pure ?_
      rw [if_neg htaken, TypeRef.tokens_named]
      rfl

theorem parseType : Takes [] (fun type => type.layout.tokens) parseType := bounded typeWithin

/-- A default is taken with the mark in front of it. -/
theorem parseDefault : Takes [] defaultTokens parseDefault := by
  refine (takeMark .equals).bind fun taken => ite (fun htaken => ?_) fun htaken => ?_
  · refine (parseValue true).bind fun value => pure ?_
    rw [htaken]
    rfl
  · exact pure (if_neg htaken)

/-! ## Parts of type definitions -/

/-- A description is taken as the literal that it is. -/
theorem parseDescription : Takes [] descriptionTokens parseDescription := by
  intro ts description rest h
  obtain ⟨t, mid, hpeek, h⟩ := bind_eq_ok h
  cases hpeek
  show ts = _
  generalize hfront : front ts = t at h
  cases t with
  | string literal =>
    obtain ⟨rfl, rfl⟩ := of_taken hfront nofun h
    rfl
  | _ =>
    cases h
    rfl

theorem parseInputValueDef : Takes [] (fun v => v.layout.tokens) parseInputValueDef := by
  refine parseDescription.bind fun description => parseName.bind fun name => (expect .colon).bind fun _ =>
    parseType.bind fun type => parseDefault.bind fun default? => (parseDirectives true).bind fun directives =>
      pure ?_
  rw [InputValueDef.tokens_layout]
  simp

/-- The arguments of a field are taken with their marks, if there are any. -/
theorem parseFieldDef : Takes [] (fun f => f.layout.tokens) parseFieldDef := by
  refine parseDescription.bind fun description => parseName.bind fun name =>
    (optionalBetween parseInputValueDef).bind fun arguments => (expect .colon).bind fun _ =>
      parseType.bind fun type => (parseDirectives true).bind fun directives => pure ?_
  rw [FieldDef.tokens_layout]
  simp [argumentDefsTokens]

/-- A value of an enum is taken as a name, which must not be a reserved one. -/
theorem parseEnumValueDef : Takes [] (fun v => v.layout.tokens) parseEnumValueDef := by
  refine parseDescription.bind fun description => ?_
  have hend : Takes (descriptionTokens description) (fun v : EnumValueDef => v.layout.tokens) (do
      let name ← Parser.parseName
      let directives ← Parser.parseDirectives true
      return EnumValueDef.mk description name directives) := by
    refine parseName.bind fun name => (parseDirectives true).bind fun directives => pure ?_
    rw [EnumValueDef.tokens_layout]
    simp
  intro ts value rest h
  -- the name is looked at before it is taken
  obtain ⟨start, mid, hstart, h⟩ := bind_eq_ok h
  cases hstart
  split at h
  · split at h
    · cases h
    · exact hend h
  · exact hend h

/-- No two kinds of operation have one keyword. -/
theorem keyword_of_ofKeyword? {word : String} {kind : OperationKind}
    (h : OperationKind.ofKeyword? word = some kind) : word = kind.keyword := by
  unfold OperationKind.ofKeyword? at h
  split at h
  · cases h
    rfl
  · cases h
    rfl
  · cases h
    rfl
  · cases h

theorem parseRootType : Takes [] (fun r => r.layout.tokens) parseRootType := by
  intro ts root rest h
  obtain ⟨operation, mid, hoperation, h⟩ := bind_eq_ok h
  -- the keyword is read as a name, and only then compared with the three that there are
  have hkeyword : ts = [Token.name operation.keyword] ++ mid := by
    obtain ⟨start, _, hstart, hoperation⟩ := bind_eq_ok hoperation
    cases hstart
    obtain ⟨word, mid', hword, hoperation⟩ := bind_eq_ok hoperation
    have hts := parseName hword
    cases hkind : OperationKind.ofKeyword? word with
    | none =>
      rw [hkind] at hoperation
      cases hoperation
    | some kind =>
      rw [hkind] at hoperation
      cases hoperation
      rw [← keyword_of_ofKeyword? hkind]
      exact hts
  have hparts : Takes [Token.name operation.keyword] (fun r : RootType => r.layout.tokens) (do
      Parser.expect .colon
      let type ← Parser.parseName
      return RootType.mk operation type) :=
    (expect .colon).bind fun _ => parseName.bind fun type => pure rfl
  rw [hkeyword]
  exact hparts h

end Takes

end Parser

end ResolverWiring.Graphql
