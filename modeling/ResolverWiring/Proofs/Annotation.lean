import Mathlib
import ResolverWiring.Proofs.Graphql.ParserOutput
import ResolverWiring.Proofs.Scan
import ResolverWiring.Proofs.Yaml.Integers

/-!
# `Proofs.Annotation` — looking up the arguments of a directive

The first argument of a name decides what is looked up (`Directive.IsFirst`). If it is a literal of the kind that is
asked for, its value is what the literal denotes (`Value.Denotes`); if it is of any other kind, or is missing although
it is required, the error says so and leads to the field and the directive (`argument_exact`).

Values are sorted twice on the way: by their kind, which is compared with the one that is asked for, and by their form,
which says how they are converted (`Value.convert?`). The two agree, so no value of the right kind is left without a
conversion (`denote?_eq`). An integer is converted from its spelling, which the grammar makes the decimal notation of a
number (`exists_toDigits`).
-/

namespace ResolverWiring

open Graphql Decimal Text

variable {text : String} {document : Document} {parent : String} {field : FieldDef} {d : Directive} {name : String}
  {a : Argument} {value : Value} {kind : LiteralKind} {required : Bool}

/-! ## First arguments -/

/-- Whether an argument is the first one of a name in a directive. -/
def Graphql.Directive.IsFirst (d : Directive) (name : String) (a : Argument) : Prop :=
  ∃ before behind, d.arguments = before ++ a :: behind ∧ a.name = name ∧ ∀ earlier ∈ before, earlier.name ≠ name

/-- Whether a directive has no argument of a name. -/
def Graphql.Directive.Lacks (d : Directive) (name : String) : Prop := ∀ a ∈ d.arguments, a.name ≠ name

theorem find?_eq_some : d.arguments.find? (·.name == name) = some a ↔ d.IsFirst name a := by
  rw [List.find?_eq_some_iff_append]
  constructor
  · rintro ⟨hname, before, behind, harguments, hbefore⟩
    refine ⟨before, behind, harguments, eq_of_beq hname, fun earlier hearlier heq => ?_⟩
    simpa [heq] using hbefore earlier hearlier
  · rintro ⟨before, behind, harguments, hname, hbefore⟩
    refine ⟨beq_iff_eq.mpr hname, before, behind, harguments, fun earlier hearlier => ?_⟩
    simpa using hbefore earlier hearlier

theorem find?_eq_none : d.arguments.find? (·.name == name) = none ↔ d.Lacks name := by
  rw [List.find?_eq_none]
  simp only [beq_iff_eq]
  rfl

/-! ## Kinds and forms -/

/-- What a value is converted to, by its form alone; only literals are converted. -/
def Graphql.Value.convert? : Value → Option (Except ArgumentError LiteralValue)
  | .int digits => some ((readInt digits).map .int)
  | .float digits => some (.ok (.float ((readFloat? digits.toList).getD .nan)))
  | .string literal => some (.ok (.text literal.text))
  | .boolean b => some (.ok (.boolean b))
  | .enum symbol => some (.ok (.text symbol))
  | _ => none

/-- A value denotes something as a literal of its own kind only, and then it is what its form says. -/
theorem denote?_eq (value : Value) (kind : LiteralKind) :
    value.denote? kind = if value.kind = .literal kind then value.convert? else none := by
  cases value <;> cases kind <;> rfl

/-- The values that are converted are those that have the kind of a literal. -/
theorem convert?_of_kind (h : value.kind = .literal kind) : ∃ result, value.convert? = some result := by
  cases value with
  | int digits => exact ⟨_, rfl⟩
  | float digits => exact ⟨_, rfl⟩
  | string literal => exact ⟨_, rfl⟩
  | boolean b => exact ⟨_, rfl⟩
  | enum symbol => exact ⟨_, rfl⟩
  | «variable» name => cases h
  | null => cases h
  | list items => cases h
  | object fields => cases h

/-! ## Integers -/

/-- Digits that do not start with a zero are the decimal notation of a number. -/
theorem exists_toDigits {cs : List Char} (hne : cs ≠ []) (hdigits : ∀ c ∈ cs, ∃ digit : Fin 10, c = digit.val.digitChar)
    (hfirst : ∀ c ∈ cs.head?, c ≠ '0') : ∃ n, 0 < n ∧ cs = Nat.toDigits 10 n := by
  -- The induction is on the last digit, which is the one that a number and its notation are extended by.
  induction cs using List.reverseRecOn with
  | nil => exact absurd rfl hne
  | append_singleton cs c ih =>
    obtain ⟨digit, rfl⟩ := hdigits c (by simp)
    by_cases hcs : cs = []
    · subst hcs
      have hzero : digit.val.digitChar ≠ '0' := hfirst _ rfl
      have hpositive : 0 < digit.val := by
        apply Nat.pos_of_ne_zero
        intro h
        exact hzero (by rw [h]; rfl)
      exact ⟨digit.val, hpositive, (Nat.toDigits_of_lt_base digit.isLt).symm⟩
    · have hhead : (cs ++ [digit.val.digitChar]).head? = cs.head? := by
        obtain ⟨first, others, rfl⟩ := List.exists_cons_of_ne_nil hcs
        rfl
      rw [hhead] at hfirst
      obtain ⟨n, hn, hrest⟩ := ih hcs (fun c hc => hdigits c (List.mem_append_left _ hc)) hfirst
      refine ⟨10 * n + digit.val, by omega, ?_⟩
      rw [← Nat.toDigits_append_toDigits (by decide) hn digit.isLt, Nat.toDigits_of_lt_base digit.isLt, ← hrest]

theorem isDigit_digitChar {c : Char} (h : Lexer.isDigit c = true) : ∃ digit : Fin 10, c = digit.val.digitChar := by
  simp only [Lexer.isDigit, Bool.and_eq_true, decide_eq_true_eq] at h
  have hlow : 48 ≤ c.toNat := h.1
  have hhigh : c.toNat ≤ 57 := h.2
  refine ⟨⟨c.toNat - 48, by omega⟩, ?_⟩
  apply Char.toNat_inj.mp
  rw [Nat.toNat_digitChar_of_lt_ten (by show c.toNat - 48 < 10; omega)]
  show c.toNat = 48 + (c.toNat - 48)
  omega

/-- The spelling of an integer is a sign, if it has one, and the decimal notation of a number. -/
theorem exists_spelling {spelling : String} (h : Lexer.IsNumber [] [] spelling.toList) :
    ∃ sign n, Yaml.IsSign sign ∧ spelling.toList = sign ++ Nat.toDigits 10 n := by
  generalize hcs : spelling.toList = cs at h
  cases h with
  | @intro sign whole _ _ hsign hwhole _ _ =>
    rw [List.append_nil, List.append_nil]
    rcases hwhole with rfl | ⟨⟨hne, hdigits⟩, hfirst⟩
    · exact ⟨sign, 0, hsign, rfl⟩
    · obtain ⟨n, -, rfl⟩ := exists_toDigits hne (fun c hc => isDigit_digitChar (hdigits c hc)) hfirst
      exact ⟨sign, n, hsign, rfl⟩

/-- Integers that are not read: those with more digits than `maxDigits`. -/
def Graphql.Value.IsTooLong : Value → Prop
  | .int digits => maxDigits < digits.toList.countP Char.isDigit
  | _ => False

/-- What a literal denotes; what a number with a fraction or an exponent denotes is left open. -/
inductive Graphql.Value.Denotes : Value → LiteralValue → Prop where
  | int {n : Nat} {digits : String} (h : digits = toString n) : Denotes (.int digits) (.int n)
  | negative {n : Nat} {digits : String} (h : digits = "-" ++ toString n) : Denotes (.int digits) (.int (-n))
  | float (digits : String) (x : Binary64) : Denotes (.float digits) (.float x)
  | string (literal : StringLiteral) : Denotes (.string literal) (.text literal.text)
  | boolean (b : Bool) : Denotes (.boolean b) (.boolean b)
  | enum (symbol : String) : Denotes (.enum symbol) (.text symbol)

/-- The digits of a spelling are all of it but the sign. -/
theorem countP_numeral {sign : List Char} (hsign : Yaml.IsSign sign) (n : Nat) :
    (sign ++ Nat.toDigits 10 n).countP Char.isDigit = (Nat.toDigits 10 n).length := by
  have hdigits : (Nat.toDigits 10 n).countP Char.isDigit = (Nat.toDigits 10 n).length := by
    apply List.countP_eq_length.mpr
    intro c hc
    exact ((Yaml.isNumeral_toDigits n).isDigit c hc).isDigit
  rcases hsign with rfl | rfl
  · exact hdigits
  · rw [List.countP_append, hdigits]
    exact Nat.zero_add _

/-- An integer is read as what it denotes, unless it is too long. -/
theorem readInt_spelling {digits : String} (h : Lexer.IsNumber [] [] digits.toList) :
    (maxDigits < digits.toList.countP Char.isDigit ∧ ∃ e, readInt digits = .error (.tooManyDigits e)) ∨
    (¬maxDigits < digits.toList.countP Char.isDigit ∧
      ∃ i, readInt digits = .ok i ∧ (Value.int digits).Denotes (.int i)) := by
  -- the spelling is a sign and the digits of one number, and only the digits are counted
  obtain ⟨sign, n, hsign, hspelling⟩ := exists_spelling h
  have hsplit : splitSign digits.toList = (!sign.isEmpty, Nat.toDigits 10 n) := by
    rw [hspelling]
    rcases hsign with rfl | rfl
    · exact Yaml.splitSign_numeral (Yaml.isNumeral_toDigits n)
    · rfl
  have hcount : digits.toList.countP Char.isDigit = (Nat.toDigits 10 n).length := by
    rw [hspelling, countP_numeral hsign]
  rw [hcount]
  by_cases hlong : maxDigits < (Nat.toDigits 10 n).length
  · refine .inl ⟨hlong, ⟨some (Nat.toDigits 10 n).length⟩, ?_⟩
    simp [readInt, hsplit, hlong]
  · refine .inr ⟨hlong, _, by simp [readInt, hsplit, hlong, readNat?_toDigits]; rfl, ?_⟩
    rcases hsign with rfl | rfl
    · apply Value.Denotes.int
      apply String.toList_inj.mp
      rw [hspelling]
      exact Nat.toList_repr.symm
    · apply Value.Denotes.negative
      apply String.toList_inj.mp
      rw [hspelling, String.toList_append]
      exact congrArg (['-'] ++ ·) Nat.toList_repr.symm

/-- What a conversion comes to: the value that the literal denotes, or an integer is too long. -/
theorem convert?_exact {allowed : StringLiteral → Prop} {constant : Bool} (hwf : value.WellFormed allowed constant)
    {converted : Except ArgumentError LiteralValue} (h : value.convert? = some converted) :
    (value.IsTooLong ∧ ∃ e, converted = .error (.tooManyDigits e)) ∨
    (¬value.IsTooLong ∧ ∃ denoted, converted = .ok denoted ∧ value.Denotes denoted) := by
  cases value with
  | int digits =>
    cases hwf with
    | int hnumber =>
      cases h
      rcases readInt_spelling hnumber with ⟨hlong, e, he⟩ | ⟨hlong, i, hi, hdenotes⟩
      · exact .inl ⟨hlong, e, by rw [he]; rfl⟩
      · exact .inr ⟨hlong, .int i, by rw [hi]; rfl, hdenotes⟩
  | float digits =>
    cases h
    exact .inr ⟨id, _, rfl, .float _ _⟩
  | string literal =>
    cases h
    exact .inr ⟨id, _, rfl, .string literal⟩
  | boolean b =>
    cases h
    exact .inr ⟨id, _, rfl, .boolean b⟩
  | enum symbol =>
    cases h
    exact .inr ⟨id, _, rfl, .enum symbol⟩
  -- the other forms have no conversion
  | «variable» name => cases h
  | null => cases h
  | list items => cases h
  | object fields => cases h

/-! ## Lookups -/

section Lookup

variable {fieldName : String}

/-- The error of a lookup, at a field and a directive that have names. -/
theorem atNodes_named (hfield : isName fieldName = true) (hdirective : isName d.name = true)
    (problem : AnnotationProblem) :
    LocalizedError.atNodes [some fieldName, some d.name] problem = ⟨[fieldName, d.name], problem⟩ := by
  have hfilled : ∀ {text : String}, isName text = true → text.isEmpty = false := by
    intro text htext
    by_contra hempty
    have hnil : text = "" := String.isEmpty_iff.mp (eq_true_of_ne_false hempty)
    rw [hnil] at htext
    cases htext
  rw [atNodes_pair]
  simp [hfilled hfield, hfilled hdirective]

/-- Without the argument there is no value, which matters if it is required. -/
theorem argument_of_lacks (hfield : isName fieldName = true) (hdirective : isName d.name = true)
    (h : d.Lacks name) (kind : LiteralKind) (required : Bool) :
    d.complete.argument fieldName name kind required
      = if required then .error (.localized ⟨[fieldName, d.name], .missingArgument name⟩) else .ok none := by
  rw [← atNodes_named hfield hdirective]
  unfold PartialDirective.argument Directive.complete
  simp only [find?_complete, find?_eq_none.mpr h]
  rfl

/-- The first argument is refused if it has another kind. -/
theorem argument_of_kind_ne (hfield : isName fieldName = true) (hdirective : isName d.name = true)
    (h : d.IsFirst name a) (hkind : a.value.kind ≠ .literal kind) (required : Bool) :
    d.complete.argument fieldName name kind required
      = .error (.localized ⟨[fieldName, d.name], .wrongKind name kind a.value.kind⟩) := by
  rw [← atNodes_named hfield hdirective]
  unfold PartialDirective.argument Directive.complete
  simp only [find?_complete, find?_eq_some.mpr h, Option.map_some, Option.bind_some]
  rw [denote?_eq, if_neg hkind]

/-- The first argument is converted if it has the kind that is asked for. -/
theorem argument_of_kind (h : d.IsFirst name a) (hkind : a.value.kind = .literal kind) (fieldName : String)
    (required : Bool) : ∃ converted, a.value.convert? = some converted ∧
      d.complete.argument fieldName name kind required = converted.map some := by
  obtain ⟨converted, hconverted⟩ := convert?_of_kind hkind
  refine ⟨converted, hconverted, ?_⟩
  unfold PartialDirective.argument Directive.complete
  simp only [find?_complete, find?_eq_some.mpr h, Option.map_some, Option.bind_some]
  rw [denote?_eq, if_pos hkind, hconverted]

/-- A lookup in two steps: the kinds are compared by their full names, and what passes is converted by its form. The
error is `none` if there is no conversion for the form. -/
def Graphql.Directive.argumentInSteps (d : Directive) (field name : String) (kind : LiteralKind) (required : Bool) :
    Except (Option ArgumentError) (Option LiteralValue) :=
  match d.arguments.find? (·.name == name) with
  | none => if required then .error (some (.localized ⟨[field, d.name], .missingArgument name⟩)) else .ok none
  | some a =>
    if a.value.kind.fullName ≠ (ValueKind.literal kind).fullName then
      .error (some (.localized ⟨[field, d.name], .wrongKind name kind a.value.kind⟩))
    else
      match a.value.convert? with
      | none => .error none
      | some converted => (converted.map some).mapError some

/-- Kinds are told apart by their full names. -/
theorem fullName_inj {kind kind' : ValueKind} (h : kind.fullName = kind'.fullName) : kind = kind' := by
  cases kind with
  | literal literal => cases literal <;> cases kind' with
    | literal literal' => cases literal' <;> first | rfl | exact absurd h (by decide)
    | _ => exact absurd h (by decide)
  | _ => cases kind' with
    | literal literal' => cases literal' <;> exact absurd h (by decide)
    | _ => first | rfl | exact absurd h (by decide)

/-- The two steps agree: no value that passes the first is left without a conversion. -/
theorem argumentInSteps_eq (hfield : isName fieldName = true) (hdirective : isName d.name = true) (name : String)
    (kind : LiteralKind) (required : Bool) :
    d.argumentInSteps fieldName name kind required
      = (d.complete.argument fieldName name kind required).mapError some := by
  unfold Directive.argumentInSteps
  cases hfind : d.arguments.find? (·.name == name) with
  | none =>
    rw [argument_of_lacks hfield hdirective (find?_eq_none.mp hfind)]
    cases required <;> rfl
  | some a =>
    have hfirst := find?_eq_some.mp hfind
    by_cases hkind : a.value.kind = .literal kind
    · obtain ⟨converted, hconverted, hargument⟩ := argument_of_kind hfirst hkind fieldName required
      simp [hkind, hconverted, hargument]
    · -- Comparing names is comparing kinds, so a value of another kind is stopped in both.
      have hname : a.value.kind.fullName ≠ (ValueKind.literal kind).fullName := fun h => hkind (fullName_inj h)
      rw [argument_of_kind_ne hfield hdirective hfirst hkind]
      simp [hname, Except.mapError]

theorem Graphql.Directive.IsFirst.mem (h : d.IsFirst name a) : a ∈ d.arguments := by
  obtain ⟨before, behind, harguments, -, -⟩ := h
  rw [harguments]
  exact List.mem_append_right _ List.mem_cons_self

/-- A name has one first argument at most. -/
theorem Graphql.Directive.IsFirst.eq {b : Argument} (ha : d.IsFirst name a) (hb : d.IsFirst name b) : a = b := by
  apply Option.some.inj
  rw [← find?_eq_some.mpr ha, find?_eq_some.mpr hb]

theorem Graphql.Directive.IsFirst.not_lacks (h : d.IsFirst name a) : ¬d.Lacks name := by
  obtain ⟨_, _, _, hname, _⟩ := id h
  exact fun hlacks => hlacks a h.mem hname

theorem lacks_or_isFirst (d : Directive) (name : String) : d.Lacks name ∨ ∃ a, d.IsFirst name a := by
  cases hfind : d.arguments.find? (·.name == name) with
  | none => exact .inl (find?_eq_none.mp hfind)
  | some a => exact .inr ⟨a, find?_eq_some.mp hfind⟩

end Lookup

/-- What a lookup on a field comes to: one of five outcomes, each with what it says of the arguments. -/
inductive Graphql.Directive.LooksUp (d : Directive) (fieldName name : String) (kind : LiteralKind) (required : Bool) :
    Except ArgumentError (Option LiteralValue) → Prop where
  | value {a : Argument} {denoted : LiteralValue} (hfirst : d.IsFirst name a) (hkind : a.value.kind = .literal kind)
      (hlong : ¬a.value.IsTooLong) (hdenotes : a.value.Denotes denoted) :
      LooksUp d fieldName name kind required (.ok (some denoted))
  | nothing (hlacks : d.Lacks name) (hrequired : required = false) :
      LooksUp d fieldName name kind required (.ok none)
  | missing (hlacks : d.Lacks name) (hrequired : required = true) :
      LooksUp d fieldName name kind required (.error (.localized ⟨[fieldName, d.name], .missingArgument name⟩))
  | wrongKind {a : Argument} (hfirst : d.IsFirst name a) (hkind : a.value.kind ≠ .literal kind) :
      LooksUp d fieldName name kind required
        (.error (.localized ⟨[fieldName, d.name], .wrongKind name kind a.value.kind⟩))
  | tooLong {a : Argument} {e : TooManyDigits} (hfirst : d.IsFirst name a) (hkind : a.value.kind = .literal kind)
      (hlong : a.value.IsTooLong) : LooksUp d fieldName name kind required (.error (.tooManyDigits e))

/-- Every lookup of a well-formed directive has one of the outcomes. -/
theorem argument_looksUp {allowed : StringLiteral → Prop} {constant : Bool} {fieldName : String}
    (hfield : isName fieldName = true) (hwf : d.WellFormed allowed constant) (name : String) (kind : LiteralKind)
    (required : Bool) :
    d.LooksUp fieldName name kind required (d.complete.argument fieldName name kind required) := by
  rcases lacks_or_isFirst d name with hlacks | ⟨a, hfirst⟩
  · rw [argument_of_lacks hfield hwf.name hlacks]
    cases hrequired : required with
    | true => exact .missing hlacks rfl
    | false => exact .nothing hlacks rfl
  · by_cases hkind : a.value.kind = .literal kind
    · obtain ⟨converted, hconverted, hargument⟩ := argument_of_kind hfirst hkind fieldName required
      rw [hargument]
      have hexact := convert?_exact (hwf.arguments a hfirst.mem).value hconverted
      rcases hexact with ⟨hlong, e, rfl⟩ | ⟨hlong, denoted, rfl, hdenotes⟩
      · exact .tooLong hfirst hkind hlong
      · exact .value hfirst hkind hlong hdenotes
    · rw [argument_of_kind_ne hfield hwf.name hfirst hkind]
      exact .wrongKind hfirst hkind

section LooksUp

variable {fieldName : String} {found : Except ArgumentError (Option LiteralValue)}

/-- When a value is found. -/
theorem Graphql.Directive.LooksUp.value_iff (h : d.LooksUp fieldName name kind required found) :
    (∃ denoted, found = .ok (some denoted)) ↔
      ∃ a, d.IsFirst name a ∧ a.value.kind = .literal kind ∧ ¬a.value.IsTooLong := by
  constructor
  · rintro ⟨denoted, rfl⟩
    cases h with
    | value hfirst hkind hlong _ => exact ⟨_, hfirst, hkind, hlong⟩
  · rintro ⟨a, hfirst, hkind, hlong⟩
    cases h with
    | value _ _ _ _ => exact ⟨_, rfl⟩
    | nothing hlacks _ => exact absurd hlacks hfirst.not_lacks
    | missing hlacks _ => exact absurd hlacks hfirst.not_lacks
    | wrongKind hfirst' hkind' => exact absurd hkind (hfirst'.eq hfirst ▸ hkind')
    | tooLong hfirst' _ hlong' => exact absurd (hfirst'.eq hfirst ▸ hlong') hlong

/-- When nothing is found and nothing is wrong. -/
theorem Graphql.Directive.LooksUp.nothing_iff (h : d.LooksUp fieldName name kind required found) :
    found = .ok none ↔ d.Lacks name ∧ required = false := by
  constructor
  · rintro rfl
    cases h with
    | nothing hlacks hrequired => exact ⟨hlacks, hrequired⟩
  · rintro ⟨hlacks, hrequired⟩
    cases h with
    | value hfirst _ _ _ => exact absurd hlacks hfirst.not_lacks
    | nothing _ _ => rfl
    | missing _ hrequired' => exact Bool.noConfusion (hrequired.symm.trans hrequired')
    | wrongKind hfirst _ => exact absurd hlacks hfirst.not_lacks
    | tooLong hfirst _ _ => exact absurd hlacks hfirst.not_lacks

/-- When the error leads to the field and the directive, and which one it is. -/
theorem Graphql.Directive.LooksUp.localized_iff (h : d.LooksUp fieldName name kind required found)
    {error : LocalizedError} :
    found = .error (.localized error) ↔
      d.Lacks name ∧ required = true ∧ error = ⟨[fieldName, d.name], .missingArgument name⟩ ∨
      ∃ a, d.IsFirst name a ∧ a.value.kind ≠ .literal kind ∧
        error = ⟨[fieldName, d.name], .wrongKind name kind a.value.kind⟩ := by
  constructor
  · rintro rfl
    cases h with
    | missing hlacks hrequired => exact .inl ⟨hlacks, hrequired, rfl⟩
    | wrongKind hfirst hkind => exact .inr ⟨_, hfirst, hkind, rfl⟩
  · rintro (⟨hlacks, hrequired, rfl⟩ | ⟨a, hfirst, hkind, rfl⟩)
    · cases h with
      | value hfirst _ _ _ => exact absurd hlacks hfirst.not_lacks
      | nothing _ hrequired' => exact Bool.noConfusion (hrequired'.symm.trans hrequired)
      | missing _ _ => rfl
      | wrongKind hfirst _ => exact absurd hlacks hfirst.not_lacks
      | tooLong hfirst _ _ => exact absurd hlacks hfirst.not_lacks
    · -- the first argument of a name is only one, so the other ways to look it up are excluded
      cases h with
      | value hfirst' hkind' _ _ => exact absurd hkind' (hfirst.eq hfirst' ▸ hkind)
      | nothing hlacks _ => exact absurd hlacks hfirst.not_lacks
      | missing hlacks _ => exact absurd hlacks hfirst.not_lacks
      | wrongKind hfirst' _ => rw [hfirst'.eq hfirst]
      | tooLong hfirst' hkind' _ => exact absurd hkind' (hfirst.eq hfirst' ▸ hkind)

/-- When the limit on the length of integers is exceeded. -/
theorem Graphql.Directive.LooksUp.tooManyDigits_iff (h : d.LooksUp fieldName name kind required found) :
    (∃ e, found = .error (.tooManyDigits e)) ↔
      ∃ a, d.IsFirst name a ∧ a.value.kind = .literal kind ∧ a.value.IsTooLong := by
  constructor
  · rintro ⟨e, rfl⟩
    cases h with
    | tooLong hfirst hkind hlong => exact ⟨_, hfirst, hkind, hlong⟩
  · rintro ⟨a, hfirst, hkind, hlong⟩
    cases h with
    | value hfirst' _ hlong' _ => exact absurd (hfirst.eq hfirst' ▸ hlong) hlong'
    | nothing hlacks _ => exact absurd hlacks hfirst.not_lacks
    | missing hlacks _ => exact absurd hlacks hfirst.not_lacks
    | wrongKind hfirst' hkind' => exact absurd hkind (hfirst'.eq hfirst ▸ hkind')
    | tooLong _ _ _ => exact ⟨_, rfl⟩

end LooksUp

/-- The wording of an error at two nodes. -/
theorem message_pair (outer inner : String) (problem : AnnotationProblem) :
    LocalizedError.message ⟨[outer, inner], problem⟩
      = "[" ++ outer ++ " > " ++ inner ++ "]: " ++ problem.message := by
  have hpath : String.intercalate " > " [outer, inner] = outer ++ " > " ++ inner := by
    rw [String.intercalate_cons_cons, String.intercalate_singleton]
  show "[" ++ String.intercalate " > " [outer, inner] ++ "]: " ++ problem.message = _
  rw [hpath]
  simp only [String.append_assoc]

/-! ## Parsed fields -/

theorem body_of_mem_outputFields {allowed : StringLiteral → Prop} {body : TypeBody} (hwf : body.WellFormed allowed)
    (h : field ∈ body.outputFields) : field.WellFormed allowed := by
  cases body with
  | object interfaces fields => exact hwf.2 field h
  | interface interfaces fields => exact hwf.2 field h
  | _ => cases h

/-- The fields of a well-formed document are well formed. -/
theorem Graphql.Document.WellFormed.of_mem_fields {allowed : StringLiteral → Prop} (hwf : document.WellFormed allowed)
    (h : (parent, field) ∈ document.fields) : field.WellFormed allowed := by
  obtain ⟨definition, hdefinition, hfield⟩ := List.mem_flatMap.mp h
  have hwf := hwf.definitions definition hdefinition
  cases definition with
  | type description decl =>
    obtain ⟨f, hf, heq⟩ := List.mem_map.mp hfield
    cases heq
    exact body_of_mem_outputFields hwf.2.body hf
  | extendType decl =>
    obtain ⟨f, hf, heq⟩ := List.mem_map.mp hfield
    cases heq
    exact body_of_mem_outputFields hwf.1.body hf
  | _ => cases hfield

/-- **Looking up an argument is exact.** A value is found exactly if the first argument of the name is a literal of the
kind that is asked for, unless that is an integer which is too long, and it is what the literal denotes. Nothing is
found exactly if there is no such argument and none is required. Otherwise the error leads to the field and the
directive, and says what is missing, or which kind is expected and which one received. Comparing kinds first and
converting by form afterwards comes to the same: no value is left without a conversion. -/
theorem argument_exact (h : Document.parse text = .ok document) (hfield : (parent, field) ∈ document.fields)
    (hd : d ∈ field.directives) (name : String) (kind : LiteralKind) (required : Bool) :
    let found := d.complete.argument field.name name kind required
    ((∃ denoted, found = .ok (some denoted)) ↔
      ∃ a, d.IsFirst name a ∧ a.value.kind = .literal kind ∧ ¬a.value.IsTooLong) ∧
    (∀ denoted, found = .ok (some denoted) → ∀ a, d.IsFirst name a → a.value.Denotes denoted) ∧
    (found = .ok none ↔ d.Lacks name ∧ required = false) ∧
    (∀ path message, (∃ e, found = .error (.localized e) ∧ e.path = path ∧ e.message = message) ↔
      path = [field.name, d.name] ∧
        (d.Lacks name ∧ required = true ∧
          message = "[" ++ field.name ++ " > " ++ d.name ++ "]: "
            ++ ("is missing required argument (" ++ name ++ ").") ∨
        ∃ a, d.IsFirst name a ∧ a.value.kind ≠ .literal kind ∧
          message = "[" ++ field.name ++ " > " ++ d.name ++ "]: "
            ++ ("Argument " ++ name ++ " expected to be of type " ++ kind.typeName ++ " but received "
              ++ a.value.kind.typeName ++ " instead."))) ∧
    ((∃ e, found = .error (.tooManyDigits e)) ↔
      ∃ a, d.IsFirst name a ∧ a.value.kind = .literal kind ∧ a.value.IsTooLong) ∧
    d.argumentInSteps field.name name kind required = found.mapError some := by
  intro found
  have hwf := (Document.parse_wellFormed h fun _ _ hread => hread).of_mem_fields hfield
  have hlooksUp : d.LooksUp field.name name kind required found :=
    argument_looksUp hwf.name (hwf.directives d hd) name kind required
  refine ⟨hlooksUp.value_iff, ?_, hlooksUp.nothing_iff, ?_, hlooksUp.tooManyDigits_iff, ?_⟩
  · intro denoted hfound a hfirst
    rw [hfound] at hlooksUp
    cases hlooksUp with
    | value hfirst' _ _ hdenotes => exact hfirst'.eq hfirst ▸ hdenotes
  · intro path message
    simp only [hlooksUp.localized_iff]
    constructor
    · rintro ⟨error, ⟨hlacks, hrequired, rfl⟩ | ⟨a, hfirst, hkind, rfl⟩, rfl, rfl⟩
      · exact ⟨rfl, .inl ⟨hlacks, hrequired, message_pair _ _ _⟩⟩
      · exact ⟨rfl, .inr ⟨a, hfirst, hkind, message_pair _ _ _⟩⟩
    · rintro ⟨rfl, ⟨hlacks, hrequired, rfl⟩ | ⟨a, hfirst, hkind, rfl⟩⟩
      · exact ⟨_, .inl ⟨hlacks, hrequired, rfl⟩, rfl, message_pair _ _ _⟩
      · exact ⟨_, .inr ⟨a, hfirst, hkind, rfl⟩, rfl, message_pair _ _ _⟩
  · exact argumentInSteps_eq hwf.name (hwf.directives d hd).name name kind required

/-- A directive with an argument that is given twice, first as an integer and then as a truth value, and with a list. -/
theorem argument_exact_twice : ∃ document field d,
    Document.parse "type Query \x7b f: Int @d(n: -7, n: true, o: [1]) \x7d" = .ok document ∧
    ("Query", field) ∈ document.fields ∧ d ∈ field.directives ∧
    (∃ denoted, d.complete.argument field.name "n" .int true = .ok (some denoted)
      ∧ ∀ a, d.IsFirst "n" a → a.value.Denotes denoted) ∧
    (∃ e, d.complete.argument field.name "o" .string false = .error (.localized e) ∧ e.path = ["f", "d"]
      ∧ e.message = "[f > d]: Argument o expected to be of type String but received List instead.") := by
  let n : Argument := ⟨"n", .int "-7"⟩
  let o : Argument := ⟨"o", .list [.int "1"]⟩
  let d : Directive := ⟨"d", [n, ⟨"n", .boolean true⟩, o]⟩
  let f : FieldDef := ⟨none, "f", [], .named "Int" false, [d]⟩
  have hparse : Document.parse "type Query \x7b f: Int @d(n: -7, n: true, o: [1]) \x7d"
      = .ok ⟨[.type none ⟨"Query", [], .object [] [f]⟩]⟩ := by cbv
  have hf : ("Query", f) ∈ Document.fields ⟨[.type none ⟨"Query", [], .object [] [f]⟩]⟩ := List.mem_cons_self
  have hd : d ∈ f.directives := List.mem_cons_self
  have hn : d.IsFirst "n" n := ⟨[], _, rfl, rfl, by simp⟩
  have hshort : ¬n.value.IsTooLong := by
    show ¬maxDigits < "-7".toList.countP Char.isDigit
    decide
  have ho : d.IsFirst "o" o := ⟨[n, ⟨"n", .boolean true⟩], [], rfl, rfl, by simp [n]⟩
  refine ⟨_, f, d, hparse, hf, hd, ?_, ?_⟩
  · have hexact := argument_exact hparse hf hd "n" .int true
    obtain ⟨denoted, hfound⟩ := hexact.1.mpr ⟨n, hn, rfl, hshort⟩
    exact ⟨denoted, hfound, hexact.2.1 denoted hfound⟩
  · have hexact := argument_exact hparse hf hd "o" .string false
    apply (hexact.2.2.2.1 ["f", "d"] _).mpr
    exact ⟨rfl, .inr ⟨o, ho, by decide, by decide⟩⟩

end ResolverWiring
