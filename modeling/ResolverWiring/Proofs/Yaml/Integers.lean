import Mathlib.Data.List.TakeWhile
import ResolverWiring.Decimal.DigitLimit
import ResolverWiring.Proofs.Text.Numeral
import ResolverWiring.Proofs.Yaml.Written
import ResolverWiring.Yaml.Value.Scalar

/-!
# `Proofs.Yaml.Integers` — integers are written without quotes and read back

The text of an integer is a sign, if it is negative, and digits that do not start with a zero, unless zero is all of
it (`IsNumeral`). Such a text shows that it is an integer (`resolve_numeral`), so it needs no quotes
(`styleOf_integer`), and it is read as the integer it is the text of, if that is not too long
(`readIntScalar_integer`).
-/

namespace ResolverWiring.Yaml

open Decimal Text

/-! ## Digits -/

/-- The digits of a number: a lone zero, or a first digit that is none and other digits. -/
structure IsNumeral (digits : List Char) : Prop where
  decimal : ∀ c ∈ digits, ∃ digit : Fin 10, c = digit.val.digitChar
  first : digits = ['0'] ∨ ∃ c cs, digits = c :: cs ∧ '1' ≤ c ∧ c ≤ '9'

theorem isNumeral_toDigits (n : Nat) : IsNumeral (Nat.toDigits 10 n) := by
  refine ⟨fun c hc => ?_, ?_⟩
  · obtain ⟨digit, hdigit, rfl⟩ := toDigits_mem (by decide) hc
    exact ⟨⟨digit, hdigit⟩, rfl⟩
  · have hone : ∀ digit : Fin 10, digit = 0 ∨ '1' ≤ digit.val.digitChar ∧ digit.val.digitChar ≤ '9' := by decide
    induction n using Nat.base_induction 10 (by decide) with
    | single m hm =>
      rw [Nat.toDigits_of_lt_base hm]
      rcases hone ⟨m, hm⟩ with hzero | hrange
      · cases hzero
        exact .inl rfl
      · exact .inr ⟨_, [], rfl, hrange⟩
    | digit m k hk hm ih =>
      rw [← Nat.toDigits_append_toDigits (by decide) hm hk]
      rcases ih with hzero | ⟨c, cs, hcs, hrange⟩
      · -- a number above zero is not written as a zero
        have hread := readNat?_toDigits m
        rw [hzero] at hread
        cases hread
        exact absurd hm (Nat.lt_irrefl 0)
      · exact .inr ⟨c, cs ++ _, by rw [hcs]; rfl, hrange⟩

variable {digits : List Char}

/-- What the forms of scalars ask of a digit. -/
structure IsDigit (c : Char) : Prop where
  decimal : isDecimal c = true
  visible : isVisible c = true
  noColon : c ≠ ':'
  noNumberSign : c ≠ '#'
  noSpace : c ≠ ' '
  noGap : c ≠ '_'
  noNumberSpace : isNumberSpace c = false
  ascii : asciiDigit c = c
  isDigit : c.isDigit = true

theorem isDigit_digitChar (digit : Fin 10) : IsDigit digit.val.digitChar where
  decimal := by decide +revert
  visible := by decide +revert
  noColon := by decide +revert
  noNumberSign := by decide +revert
  noSpace := by decide +revert
  noGap := by decide +revert
  noNumberSpace := by decide +revert
  ascii := by decide +revert
  isDigit := by decide +revert

theorem IsNumeral.isDigit (h : IsNumeral digits) : ∀ c ∈ digits, IsDigit c := by
  intro c hc
  obtain ⟨digit, rfl⟩ := h.decimal c hc
  exact isDigit_digitChar digit

theorem IsNumeral.exists_cons (h : IsNumeral digits) : ∃ c cs, digits = c :: cs ∧ isDecimal c = true := by
  have hne : digits ≠ [] := by
    rcases h.first with rfl | ⟨c, cs, rfl, -⟩ <;> exact List.cons_ne_nil _ _
  obtain ⟨c, cs, rfl⟩ := List.exists_cons_of_ne_nil hne
  exact ⟨c, cs, rfl, (h.isDigit c List.mem_cons_self).decimal⟩

/-! ## The form of integers -/

theorem skipRun?_all {p q : Char → Bool} {c : Char} {cs : List Char} (hc : p c = true) (hcs : ∀ d ∈ cs, q d = true) :
    skipRun? p q (c :: cs) = some [] := by
  rw [skipRun?, if_pos hc, List.dropWhile_eq_nil_iff.mpr hcs]

theorem IsNumeral.skipRun? (h : IsNumeral digits) : skipRun? isDecimal isDigitOrGap digits = some [] := by
  obtain ⟨c, cs, rfl, hc⟩ := h.exists_cons
  refine skipRun?_all hc fun d hd => ?_
  simp [isDigitOrGap, (h.isDigit d (List.mem_cons_of_mem _ hd)).decimal]

/-- A sign that an integer is written with. -/
def IsSign (sign : List Char) : Prop := sign = [] ∨ sign = ['-']

variable {sign : List Char}

theorem skipSign_numeral (hsign : IsSign sign) (h : IsNumeral digits) : skipSign (sign ++ digits) = digits := by
  obtain ⟨c, cs, rfl, hc⟩ := h.exists_cons
  rcases hsign with rfl | rfl
  · rw [List.nil_append]
    unfold skipSign
    split
    · rename_i heq
      cases heq
      cases hc
    · rename_i heq
      cases heq
      cases hc
    · rfl
  · rfl

theorem isFloatForm_numeral (hsign : IsSign sign) (h : IsNumeral digits) : isFloatForm (sign ++ digits) = false := by
  have hskip := skipSign_numeral hsign h
  obtain ⟨c, cs, rfl, hc⟩ := h.exists_cons
  have hpoint : c ≠ '.' := by
    rintro rfl
    cases hc
  have hpointForm : isPointForm (sign ++ c :: cs) = false := by
    rw [isPointForm, hskip, h.skipRun?]
  have hsexagesimal : isSexagesimalPointForm (sign ++ c :: cs) = false := by
    rw [isSexagesimalPointForm, hskip, h.skipRun?]
    rfl
  have hfraction : isFractionForm (sign ++ c :: cs) = false := by
    rcases hsign with rfl | rfl
    · unfold isFractionForm
      split
      · rename_i heq
        cases heq
        exact absurd rfl hpoint
      · rfl
    · rfl
  have hinfinity : c :: cs ∉ infinityWords := by
    simp [infinityWords, hpoint]
  have hnan : sign ++ c :: cs ∉ nanWords := by
    rcases hsign with rfl | rfl <;> simp [nanWords, hpoint]
  simp [isFloatForm, hpointForm, hfraction, hsexagesimal, hskip, hinfinity, hnan]

theorem isIntForm_numeral (hsign : IsSign sign) (h : IsNumeral digits) : isIntForm (sign ++ digits) = true := by
  rw [isIntForm, skipSign_numeral hsign h]
  rcases h.first with rfl | ⟨c, cs, rfl, hlow, hhigh⟩
  · rfl
  · have hrun : skipRun? (fun c => '1' ≤ c && c ≤ '9') isDigitOrGap (c :: cs) = some [] := by
      refine skipRun?_all (by simp [hlow, hhigh]) fun d hd => ?_
      simp [isDigitOrGap, (h.isDigit d (List.mem_cons_of_mem _ hd)).decimal]
    split
    · rename_i heq
      cases heq
      exact absurd hlow (by decide)
    · rename_i heq
      cases heq
      exact absurd hlow (by decide)
    · rename_i heq
      cases heq
      exact absurd hlow (by decide)
    · rw [hrun]
      rfl

/-- The first character of an integer. -/
theorem exists_front_numeral (hsign : IsSign sign) (h : IsNumeral digits) :
    ∃ c cs, sign ++ digits = c :: cs ∧ (isDecimal c = true ∨ c = '-') := by
  obtain ⟨c, cs, rfl, hc⟩ := h.exists_cons
  rcases hsign with rfl | rfl
  · exact ⟨c, cs, rfl, .inl hc⟩
  · exact ⟨'-', c :: cs, rfl, .inr rfl⟩

theorem visible_numeral (hsign : IsSign sign) (h : IsNumeral digits) : Visible (sign ++ digits) := by
  have hdigits : Visible digits := fun c hc => (h.isDigit c hc).visible
  rcases hsign with rfl | rfl
  · exact hdigits
  · exact visible_cons.mpr ⟨by decide, hdigits⟩

/-- Such a text shows that it is an integer. -/
theorem resolve_numeral (hsign : IsSign sign) (h : IsNumeral digits) : resolve (sign ++ digits) = .int := by
  have hfloat := isFloatForm_numeral hsign h
  have hint := isIntForm_numeral hsign h
  have hvisible := visible_numeral hsign h
  have hlast : dropFinalFeed (sign ++ digits) = sign ++ digits := by
    refine if_neg fun hfeed => ?_
    have hmem := List.mem_of_getLast? (eq_of_beq hfeed)
    exact absurd (hvisible _ hmem) (by decide)
  have hfeed : sign ++ digits ≠ ['\n'] := fun heq => absurd (hvisible '\n' (heq ▸ List.mem_cons_self)) (by decide)
  have hbool : sign ++ digits ∉ boolWords := by
    obtain ⟨c, cs, htext, hc⟩ := exists_front_numeral hsign h
    have hletter : ∀ word ∈ boolWords, word.head?.all (fun d => !isDecimal d && d != '-') = true := by decide
    intro hmem
    have hfirst := hletter _ hmem
    rw [htext] at hfirst
    obtain ⟨hdecimal, hminus⟩ : isDecimal c = false ∧ c ≠ '-' := by simpa using hfirst
    rcases hc with hc | rfl
    · rw [hdecimal] at hc
      cases hc
    · exact hminus rfl
  simp [resolve, hlast, hfeed, hbool, hfloat, hint]

/-! ## Writing -/

/-- A text without colons and number signs holds no mark. -/
theorem holdsMark_of_forall {cs : List Char} (h : ∀ c ∈ cs, c ≠ ':' ∧ c ≠ '#') : holdsMark cs = false := by
  induction cs with
  | nil => rfl
  | cons a cs ih =>
    have hrest := ih fun c hc => h c (List.mem_cons_of_mem _ hc)
    cases cs with
    | nil => rfl
    | cons b cs =>
      obtain ⟨hcolon, hnumber⟩ := h b (List.mem_cons_of_mem _ List.mem_cons_self)
      simp [holdsMark, hcolon, hnumber, hrest]

/-- A text of an integer starts like nothing else. -/
theorem startsLikeDocument_numeral (hsign : IsSign sign) (h : IsNumeral digits) :
    startsLikeDocument (sign ++ digits) = false := by
  obtain ⟨c, cs, rfl, hc⟩ := h.exists_cons
  have hminus : '-' ≠ c := by
    rintro rfl
    cases hc
  have hpoint : '.' ≠ c := by
    rintro rfl
    cases hc
  rcases hsign with rfl | rfl <;> simp [startsLikeDocument, List.isPrefixOf, hminus, hpoint]

theorem startsWithMark_numeral (hsign : IsSign sign) (h : IsNumeral digits) : startsWithMark (sign ++ digits) = false := by
  obtain ⟨c, cs, rfl, hc⟩ := h.exists_cons
  rcases hsign with rfl | rfl
  · have hdigit : ∀ digit : Fin 10, isLeadingMark digit.val.digitChar = false ∧ digit.val.digitChar ≠ '?'
        ∧ digit.val.digitChar ≠ ':' ∧ digit.val.digitChar ≠ '-' := by
      decide
    obtain ⟨digit, rfl⟩ := h.decimal c List.mem_cons_self
    simp [startsWithMark, hdigit digit]
  · have hfirst := h.isDigit c List.mem_cons_self
    have hink := isVisible_ink hfirst.visible hfirst.noSpace
    have hmark : isLeadingMark '-' = false := by decide
    simp [startsWithMark, atBlankOrEnd, hmark, hink]

/-- The characters of an integer mean nothing else. -/
theorem mem_numeral {c : Char} (hsign : IsSign sign) (h : IsNumeral digits) (hc : c ∈ sign ++ digits) :
    c ≠ ':' ∧ c ≠ '#' ∧ c ≠ ' ' ∧ c ≠ '_' := by
  rcases List.mem_append.mp hc with hc | hc
  · rcases hsign with rfl | rfl
    · cases hc
    · rw [List.mem_singleton.mp hc]
      decide
  · have hdigit := h.isDigit c hc
    exact ⟨hdigit.noColon, hdigit.noNumberSign, hdigit.noSpace, hdigit.noGap⟩

/-- Such a text may stand without quotes. -/
theorem allowsPlain_numeral (hsign : IsSign sign) (h : IsNumeral digits) : allowsPlain (sign ++ digits) = true := by
  have hvisible := visible_numeral hsign h
  have hline : isOneLine (sign ++ digits) = true :=
    List.all_eq_true.mpr fun c hc => by simp [(isVisible_plain (hvisible c hc)).1]
  have hshow : isShowable (sign ++ digits) = true :=
    List.all_eq_true.mpr fun c hc => by simp [hvisible c hc]
  have houter : hasOuterSpace (sign ++ digits) = false := by
    refine Bool.or_eq_false_iff.mpr ⟨beq_eq_false_iff_ne.mpr fun heq => ?_, beq_eq_false_iff_ne.mpr fun heq => ?_⟩
    · exact (mem_numeral hsign h (List.mem_of_head? heq)).2.2.1 rfl
    · exact (mem_numeral hsign h (List.mem_of_getLast? heq)).2.2.1 rfl
  have hmark : holdsMark (sign ++ digits) = false := holdsMark_of_forall fun c hc =>
    ⟨(mem_numeral hsign h hc).1, (mem_numeral hsign h hc).2.1⟩
  simp [allowsPlain, hline, hshow, houter, hmark, startsLikeDocument_numeral hsign h, startsWithMark_numeral hsign h]

/-- The text of an integer: its sign and its digits. -/
theorem toList_integer (i : Int) : ∃ sign, IsSign sign ∧ (toString i).toList = sign ++ Nat.toDigits 10 i.natAbs
    ∧ (if sign = [] then (i.natAbs : Int) else -i.natAbs) = i := by
  cases i with
  | ofNat n => exact ⟨[], .inl rfl, Nat.toList_repr, rfl⟩
  | negSucc n =>
    refine ⟨['-'], .inr rfl, ?_, rfl⟩
    show ("-" ++ Nat.repr (n + 1)).toList = _
    rw [String.toList_append, Nat.toList_repr]
    rfl

/-- An integer is written without quotes. -/
theorem styleOf_integer (i : Int) : styleOf .int (toString i).toList = .plain := by
  obtain ⟨sign, hsign, htext, -⟩ := toList_integer i
  have h := isNumeral_toDigits i.natAbs
  rw [htext, styleOf, if_neg (by decide), resolve_numeral hsign h, allowsPlain_numeral hsign h]
  rfl

/-! ## Reading -/

theorem strip_of_forall {p : Char → Bool} {cs : List Char} (h : ∀ c ∈ cs, p c = false) : strip p cs = cs := by
  have hkeep : ∀ cs : List Char, (∀ c ∈ cs, p c = false) → cs.dropWhile p = cs := by
    intro cs hcs
    cases cs with
    | nil => rfl
    | cons c cs => exact List.dropWhile_cons_of_neg (by rw [hcs c List.mem_cons_self]; decide)
  rw [strip, hkeep cs h, hkeep _ fun c hc => h c (List.mem_reverse.mp hc), List.reverse_reverse]

theorem numberText_numeral (h : IsNumeral digits) : numberText digits = digits := by
  have hmap : digits.map asciiDigit = digits := by
    conv => rhs; rw [← List.map_id digits]
    exact List.map_congr_left fun c hc => (h.isDigit c hc).ascii
  rw [numberText, hmap, strip_of_forall fun c hc => (h.isDigit c hc).noNumberSpace]

theorem splitSign_numeral (h : IsNumeral digits) : splitSign digits = (false, digits) := by
  obtain ⟨c, cs, rfl, hc⟩ := h.exists_cons
  unfold splitSign
  split
  · rename_i heq
    cases heq
    cases hc
  · rename_i heq
    cases heq
    cases hc
  · rfl

theorem readInteger_numeral {n : Nat} (hlength : (Nat.toDigits 10 n).length ≤ maxDigits) :
    readInteger 10 (Nat.toDigits 10 n) = .ok n := by
  have h := isNumeral_toDigits n
  have hcount : (Nat.toDigits 10 n).takeWhile Char.isDigit = Nat.toDigits 10 n :=
    List.takeWhile_eq_self_iff.mpr fun c hc => (h.isDigit c hc).isDigit
  have hbase : dropBaseLetter 10 (Nat.toDigits 10 n) = Nat.toDigits 10 n := by
    unfold dropBaseLetter
    split
    · exact if_neg (by simp [baseLetter?])
    · rfl
  rw [readInteger, numberText_numeral h, splitSign_numeral h]
  simp [hcount, hbase, readNat?_toDigits, Nat.not_lt.mpr hlength]

/-- An integer that is not too long is read from its text. -/
theorem readIntScalar_integer {i : Int} (hlength : (Nat.toDigits 10 i.natAbs).length ≤ maxDigits) :
    readIntScalar (toString i).toList = .ok i := by
  obtain ⟨sign, hsign, htext, hvalue⟩ := toList_integer i
  have h := isNumeral_toDigits i.natAbs
  have hread := readInteger_numeral hlength
  have hzero : Nat.toDigits 10 i.natAbs = ['0'] → i.natAbs = 0 := by
    intro heq
    have hnat := readNat?_toDigits i.natAbs
    rw [heq] at hnat
    exact (Option.some.inj hnat).symm
  rw [htext]
  generalize i.natAbs = n at *
  generalize Nat.toDigits 10 n = digits at *
  have hkeep : (sign ++ digits).filter (· != '_') = sign ++ digits :=
    List.filter_eq_self.mpr fun c hc => bne_iff_ne.mpr (mem_numeral hsign h hc).2.2.2
  have hsplit : splitSign (sign ++ digits) = (!sign.isEmpty, digits) := by
    rcases hsign with rfl | rfl
    · exact splitSign_numeral h
    · rfl
  have hnonempty : (sign ++ digits).isEmpty = false := by
    obtain ⟨c, cs, rfl, -⟩ := h.exists_cons
    simp
  rw [readIntScalar]
  simp only [hkeep, hsplit, hnonempty, Bool.false_eq_true, if_false]
  have hsigned : Except.map (fun n : Int => if !sign.isEmpty then -n else n) (.ok (n : Int) : Except ScalarError Int)
      = .ok i := by
    rw [← hvalue]
    rcases hsign with rfl | rfl <;> rfl
  rcases h.first with rfl | ⟨c, cs, rfl, hlow, -⟩
  · rw [hzero rfl] at hsigned
    exact hsigned
  · have hcolon : (c :: cs).contains ':' = false := by
      simpa using fun hmem => (h.isDigit ':' hmem).noColon rfl
    have hfirst : c ≠ '0' := by
      rintro rfl
      exact absurd hlow (by decide)
    rw [← hsigned, ← hread]
    congr 1
    -- no form with a zero in front
    split
    case h_1 heq => cases heq
    case h_6 => rw [hcolon, if_neg Bool.false_ne_true]
    all_goals
      rename_i heq
      exact absurd (List.cons.inj heq).1 hfirst

end ResolverWiring.Yaml
