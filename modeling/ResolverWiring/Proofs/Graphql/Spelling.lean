import Mathlib.Data.List.TakeWhile
import ResolverWiring.Proofs.Graphql.BlockString

/-!
# `Proofs.Graphql.Spelling` — what tokens are spelled like

Tokens carry texts, and not every text can stand in a token. `Token.WellFormed` says which ones can: names
and numbers follow the grammar of the lexer, and strings satisfy a condition that is left open. What the
lexer reads is well formed (`tokens_wellFormed`), with `StringLiteral.IsRead` as that condition.
-/

namespace ResolverWiring.Graphql

open ResolverWiring.Text

/-! ## Spellings -/

/-- Whether a text is a name. -/
def isName (text : String) : Bool :=
  match text.toList with
  | [] => false
  | c :: cs => Lexer.isNameStart c && cs.all Lexer.isNameContinue

namespace Lexer

/-- One digit or more. -/
def IsDigits (cs : List Char) : Prop := cs ≠ [] ∧ ∀ c ∈ cs, isDigit c = true

/-- The whole part of a number. -/
def IsWhole (cs : List Char) : Prop := cs = ['0'] ∨ IsDigits cs ∧ ∀ c ∈ cs.head?, c ≠ '0'

/-- The fraction of a number, if it has one. -/
def IsFraction (cs : List Char) : Prop := cs = [] ∨ ∃ digits, IsDigits digits ∧ cs = '.' :: digits

/-- The exponent of a number, if it has one. -/
def IsExponent (cs : List Char) : Prop :=
  cs = [] ∨ ∃ e sign digits, (e = 'e' ∨ e = 'E') ∧ (sign = [] ∨ sign = ['+'] ∨ sign = ['-']) ∧
    IsDigits digits ∧ cs = e :: (sign ++ digits)

/-- The spelling of a number, with its fraction and its exponent. -/
inductive IsNumber : (fraction exponent cs : List Char) → Prop where
  | intro {sign whole fraction exponent : List Char} (hsign : sign = [] ∨ sign = ['-'])
      (hwhole : IsWhole whole) (hfraction : IsFraction fraction) (hexponent : IsExponent exponent) :
      IsNumber fraction exponent (sign ++ whole ++ fraction ++ exponent)

end Lexer

open Lexer

/-- Whether a token has a spelling, and the one that its sort asks for, with strings that satisfy a
condition. -/
def Token.WellFormed (allowed : StringLiteral → Prop) : Token → Prop
  | .punctuator _ => True
  | .name text => isName text = true
  | .int digits => IsNumber [] [] digits.toList
  | .float digits =>
    ∃ fraction exponent, (fraction ≠ [] ∨ exponent ≠ []) ∧
      IsNumber fraction exponent digits.toList
  | .string literal => allowed literal
  | .endOfInput => False
  | .invalid _ => False

/-- The string literals that are read from a text: the text of a block string is dedented. -/
def StringLiteral.IsRead (literal : StringLiteral) : Prop :=
  literal.block = true → BlockString.IsDedented literal.text.toList

theorem Token.WellFormed.ne_endOfInput {allowed : StringLiteral → Prop} {t : Token} (h : t.WellFormed allowed) :
    t ≠ .endOfInput := by
  rintro rfl
  exact h

theorem Token.WellFormed.mono {allowed allowed' : StringLiteral → Prop} {t : Token}
    (h : t.WellFormed allowed) (himp : ∀ literal, t = .string literal → allowed literal →
      allowed' literal) : t.WellFormed allowed' := by
  cases t with
  | string literal => exact himp literal rfl h
  | _ => exact h

namespace Lexer

/-! ## Numbers are read as they are spelled -/

variable {cs rest text : List Char}

theorem readDigits_spelled (h : readDigits cs = .done text rest) :
    IsDigits text ∧ cs = text ++ rest := by
  unfold readDigits at h
  split at h
  · cases h
  · rename_i digits hne
    cases h
    refine ⟨⟨hne, fun c hc => ?_⟩, (List.takeWhile_append_dropWhile).symm⟩
    exact List.mem_takeWhile_imp hc

theorem readWhole_spelled (h : readWhole cs = .done text rest) : IsWhole text := by
  unfold readWhole at h
  split at h
  · split at h
    · cases h
    · cases h
      exact .inl rfl
  · rename_i hzero
    obtain ⟨hdigits, rfl⟩ := readDigits_spelled h
    refine .inr ⟨hdigits, fun c hc hc0 => ?_⟩
    subst hc0
    cases text with
    | nil => cases hc
    | cons d ds =>
      cases hc
      exact hzero (ds ++ rest) rfl

theorem readFraction_spelled (h : readFraction cs = .done text rest) : IsFraction text := by
  unfold readFraction at h
  split at h
  · obtain ⟨digits, hd, rfl⟩ := Reading.map_eq_done h
    exact .inr ⟨digits, (readDigits_spelled hd).1, rfl⟩
  · cases h
    exact .inl rfl

theorem readExponent_spelled (h : readExponent cs = .done text rest) : IsExponent text := by
  unfold readExponent at h
  split at h
  · rename_i e cs
    split at h
    · rename_i he
      have he : e = 'e' ∨ e = 'E' := by simpa using he
      split at h
      · rename_i sign digits
        split at h
        · rename_i hsign
          have hsign : sign = '+' ∨ sign = '-' := by simpa using hsign
          obtain ⟨ds, hd, rfl⟩ := Reading.map_eq_done h
          exact .inr ⟨e, [sign], ds, he, .inr (hsign.imp (congrArg ([·])) (congrArg ([·]))),
            (readDigits_spelled hd).1, rfl⟩
        · obtain ⟨ds, hd, rfl⟩ := Reading.map_eq_done h
          exact .inr ⟨e, [], ds, he, .inl rfl, (readDigits_spelled hd).1, rfl⟩
      · cases h
    · cases h
      exact .inl rfl
  · cases h
    exact .inl rfl

theorem readNumber_wellFormed {token : Token} (h : readNumber cs = .done token rest)
    (allowed : StringLiteral → Prop) : token.WellFormed allowed := by
  unfold readNumber at h
  split at h
  rename_i sign unsigned hsplit
  have hsign : sign = [] ∨ sign = ['-'] := by
    split at hsplit <;> cases hsplit
    · exact .inr rfl
    · exact .inl rfl
  obtain ⟨whole, r₁, hwhole, h⟩ := Reading.bind_eq_done h
  obtain ⟨fraction, r₂, hfraction, h⟩ := Reading.bind_eq_done h
  obtain ⟨exponent, r₃, hexponent, h⟩ := Reading.bind_eq_done h
  have hnumber : IsNumber fraction exponent (sign ++ whole ++ fraction ++ exponent) :=
    .intro hsign (readWhole_spelled hwhole) (readFraction_spelled hfraction)
      (readExponent_spelled hexponent)
  split at h
  · cases h
  · dsimp only at h
    split at h
    · rename_i hint
      cases h
      simp only [Bool.and_eq_true, List.isEmpty_iff] at hint
      obtain ⟨rfl, rfl⟩ := hint
      simpa [Token.WellFormed] using hnumber
    · rename_i hint
      cases h
      simp only [Bool.and_eq_true, List.isEmpty_iff, not_and_or] at hint
      exact ⟨fraction, exponent, hint, by simpa using hnumber⟩

/-! ## Tokens are read as they are spelled -/

theorem readAnyString_wellFormed {token : Token} (h : readAnyString cs = .done token rest) :
    token.WellFormed StringLiteral.IsRead := by
  unfold readAnyString at h
  split at h
  · obtain ⟨written, -, rfl⟩ := Reading.map_eq_done h
    intro _
    rw [String.toList_ofList]
    exact BlockString.dedent_isDedented written
  · obtain ⟨text, -, rfl⟩ := Reading.map_eq_done h
    intro hblock
    cases hblock

theorem isName_of_nameStart {c : Char} (hc : isNameStart c = true) (cs : List Char) :
    isName (String.ofList ((c :: cs).takeWhile isNameContinue)) = true := by
  have hcontinue : isNameContinue c = true := by simp [isNameContinue, hc]
  rw [isName, String.toList_ofList, List.takeWhile_cons, if_pos hcontinue]
  simp only [hc, Bool.true_and]
  exact List.all_eq_true.mpr fun d hd => List.mem_takeWhile_imp hd

/-- What is read at the front of a text is well formed, unless the text is empty. -/
theorem next_wellFormed {c : Char} {token : Token} (h : next (c :: cs) = .done token rest) :
    token.WellFormed StringLiteral.IsRead := by
  unfold next at h
  split at h
  · rename_i heq
    cases heq
  · rename_i heq
    cases heq
    -- a string, a mark, a number, a name, or nothing that starts a token
    split at h
    · exact readAnyString_wellFormed h
    · split at h
      · cases h
        trivial
      · split at h
        · exact readNumber_wellFormed h _
        · split at h
          · rename_i hc
            cases h
            exact isName_of_nameStart hc cs
          · split at h
            · cases h
              trivial
            · cases h

end Lexer

/-- Every token of a text is well formed but the last one, which says why the list ends. -/
theorem tokens_wellFormed (cs : List Char) : ∀ t ∈ tokens cs,
    t = .endOfInput ∨ (∃ cause, t = .invalid cause) ∨ t.WellFormed StringLiteral.IsRead := by
  unfold tokens
  fun_induction lex cs with
  | case1 cs h => exact List.forall_mem_singleton.mpr (.inl rfl)
  | case2 cs c r h token rest hnext ih =>
    exact List.forall_mem_cons.mpr ⟨.inr (.inr (Lexer.next_wellFormed hnext)), ih⟩
  | case3 cs c r h cause place hnext =>
    exact List.forall_mem_singleton.mpr (.inr (.inl ⟨cause, rfl⟩))

end ResolverWiring.Graphql
