import ResolverWiring.Proofs.Graphql.Spelling

/-!
# `Proofs.Graphql.ReadBack` — a written token is read back

`Lexer.next` reads what `Token.write` writes (`next_write`), provided that what follows cannot be taken for
a part of the token (`StandsApart`). Marks need no such proviso: none of them is the beginning of another.
-/

namespace ResolverWiring.Graphql

open ResolverWiring.Text

namespace Lexer

/-- Whether a character behind a name, a number or a string would change what is read. -/
def sticks (c : Char) : Bool := isNameContinue c || c == '.' || c == '"'

/-- Whether a text does not go on with the token in front of it. -/
def StandsApart (rest : List Char) : Prop := ∀ c ∈ rest.head?, sticks c = false

variable {cs rest : List Char}

/-! ## Runs of characters of one class -/

theorem takeWhile_run {p : Char → Bool} (hcs : ∀ c ∈ cs, p c = true)
    (hrest : ∀ c ∈ rest.head?, p c = false) : (cs ++ rest).takeWhile p = cs := by
  rw [List.takeWhile_append_of_pos hcs]
  cases rest with
  | nil => rw [List.takeWhile_nil, List.append_nil]
  | cons c rest =>
    have hc : p c = false := hrest c rfl
    rw [List.takeWhile_cons_of_neg (by rw [hc]; exact Bool.false_ne_true), List.append_nil]

theorem dropWhile_run {p : Char → Bool} (hcs : ∀ c ∈ cs, p c = true)
    (hrest : ∀ c ∈ rest.head?, p c = false) : (cs ++ rest).dropWhile p = rest := by
  rw [List.dropWhile_append_of_pos hcs]
  cases rest with
  | nil => rfl
  | cons c rest =>
    have hc : p c = false := hrest c rfl
    rw [List.dropWhile_cons_of_neg (by rw [hc]; exact Bool.false_ne_true)]

/-- The first character of a text in two parts, the first of which may be empty. -/
theorem forall_head_append {P : Char → Prop} (hcs : ∀ c ∈ cs.head?, P c)
    (hrest : ∀ c ∈ rest.head?, P c) : ∀ c ∈ (cs ++ rest).head?, P c := by
  cases cs with
  | nil => exact hrest
  | cons => exact hcs

/-! ## Numbers -/

theorem readDigits_append (h : IsDigits cs) (hrest : ∀ c ∈ rest.head?, isDigit c = false) :
    readDigits (cs ++ rest) = .done cs rest := by
  obtain ⟨hne, hdigits⟩ := h
  rw [readDigits, takeWhile_run hdigits hrest, dropWhile_run hdigits hrest]
  cases cs with
  | nil => exact absurd rfl hne
  | cons => rfl

theorem readWhole_append (h : IsWhole cs) (hrest : ∀ c ∈ rest.head?, isDigit c = false) :
    readWhole (cs ++ rest) = .done cs rest := by
  rcases h with rfl | ⟨hdigits, hzero⟩
  · have : rest.head?.any isDigit = false := by
      cases rest with
      | nil => rfl
      | cons c rest => exact hrest c rfl
    simp only [List.cons_append, List.nil_append, readWhole, this]
    rfl
  · unfold readWhole
    split
    · rename_i cs' heq
      cases cs with
      | nil => exact absurd rfl hdigits.1
      | cons c cs =>
        cases heq
        exact absurd rfl (hzero '0' rfl)
    · exact readDigits_append hdigits hrest

theorem readFraction_append (h : IsFraction cs)
    (hrest : ∀ c ∈ rest.head?, isDigit c = false ∧ c ≠ '.') :
    readFraction (cs ++ rest) = .done cs rest := by
  rcases h with rfl | ⟨digits, hdigits, rfl⟩
  · unfold readFraction
    split
    · rename_i heq
      exact absurd rfl (hrest '.' (by rw [← List.nil_append rest, heq]; rfl)).2
    · rfl
  · rw [List.cons_append, readFraction,
      readDigits_append hdigits fun c hc => (hrest c hc).1]
    rfl

theorem readExponent_append (h : IsExponent cs)
    (hrest : ∀ c ∈ rest.head?, isDigit c = false ∧ c ≠ 'e' ∧ c ≠ 'E') :
    readExponent (cs ++ rest) = .done cs rest := by
  have hbehind : ∀ c ∈ rest.head?, isDigit c = false := fun c hc => (hrest c hc).1
  rcases h with rfl | ⟨e, sign, digits, he, hsign, hdigits, rfl⟩
  · cases rest with
    | nil => rfl
    | cons c rest =>
      obtain ⟨-, he, hE⟩ := hrest c rfl
      simp [readExponent, he, hE]
  · have hletter : (e == 'e' || e == 'E') = true := by rcases he with rfl | rfl <;> rfl
    rcases hsign with rfl | rfl | rfl
    · obtain ⟨d, ds, rfl⟩ := List.exists_cons_of_ne_nil hdigits.1
      have hd : (d == '+' || d == '-') = false := by
        have : isDigit d = true := hdigits.2 d List.mem_cons_self
        rw [Bool.or_eq_false_iff, beq_eq_false_iff_ne, beq_eq_false_iff_ne]
        constructor <;> rintro rfl <;> simp [isDigit] at this
      have hread := readDigits_append hdigits hbehind
      rw [List.cons_append] at hread
      simp only [List.nil_append, List.cons_append, readExponent, hletter, hd, hread]
      rfl
    · simp only [List.cons_append, List.nil_append, readExponent, hletter,
        readDigits_append hdigits hbehind]
      rfl
    · simp only [List.cons_append, List.nil_append, readExponent, hletter,
        readDigits_append hdigits hbehind]
      rfl

/-- The first character of a whole part is a digit. -/
theorem IsWhole.head_digit (h : IsWhole cs) : ∃ c cs', cs = c :: cs' ∧ isDigit c = true := by
  rcases h with rfl | ⟨⟨hne, hdigits⟩, -⟩
  · exact ⟨'0', [], rfl, rfl⟩
  · obtain ⟨c, cs', rfl⟩ := List.exists_cons_of_ne_nil hne
    exact ⟨c, cs', rfl, hdigits c List.mem_cons_self⟩

theorem IsFraction.head_point (h : IsFraction cs) : ∀ c ∈ cs.head?, c = '.' := by
  rcases h with rfl | ⟨digits, -, rfl⟩
  · intro c hc
    cases hc
  · intro c hc
    cases hc
    rfl

theorem IsExponent.head_letter (h : IsExponent cs) : ∀ c ∈ cs.head?, c = 'e' ∨ c = 'E' := by
  rcases h with rfl | ⟨e, sign, digits, he, -, -, rfl⟩
  · intro c hc
    cases hc
  · intro c hc
    cases hc
    exact he

/-- What a character is not if it does not stick. -/
theorem not_sticks {c : Char} (h : sticks c = false) :
    isNameContinue c = false ∧ isDigit c = false ∧ isNameStart c = false ∧ c ≠ '.' ∧ c ≠ '"' := by
  simp only [sticks, isNameContinue, Bool.or_eq_false_iff, beq_eq_false_iff_ne] at h ⊢
  obtain ⟨⟨⟨hstart, hdigit⟩, hpoint⟩, hquote⟩ := h
  exact ⟨⟨hstart, hdigit⟩, hdigit, hstart, hpoint, hquote⟩

/-- What stands apart is no part of a number, wherever the number ends. -/
theorem StandsApart.not_number (hrest : StandsApart rest) :
    ∀ c ∈ rest.head?, isDigit c = false ∧ c ≠ '.' ∧ c ≠ 'e' ∧ c ≠ 'E' := by
  intro c hc
  obtain ⟨-, hdigit, hstart, hpoint, -⟩ := not_sticks (hrest c hc)
  refine ⟨hdigit, hpoint, ?_, ?_⟩ <;> rintro rfl <;> cases hstart

/-- A number is read to its end: its sort is told by the parts that it has. -/
theorem readNumber_append {fraction exponent : List Char} (h : IsNumber fraction exponent cs)
    (hrest : StandsApart rest) :
    readNumber (cs ++ rest) = .done (if fraction.isEmpty && exponent.isEmpty
      then .int (String.ofList cs) else .float (String.ofList cs)) rest := by
  obtain ⟨hsign, hwhole, hfraction, hexponent⟩ := h
  rename_i sign whole
  have hbehind := hrest.not_number
  -- what follows each part does not start like a continuation of it
  have hletter : ∀ c ∈ (exponent ++ rest).head?, isDigit c = false ∧ c ≠ '.' := by
    refine forall_head_append (fun c hc => ?_) fun c hc => ⟨(hbehind c hc).1, (hbehind c hc).2.1⟩
    rcases hexponent.head_letter c hc with rfl | rfl <;> exact ⟨rfl, by decide⟩
  have hpoint : ∀ c ∈ (fraction ++ (exponent ++ rest)).head?, isDigit c = false := by
    refine forall_head_append (fun c hc => ?_) fun c hc => (hletter c hc).1
    rw [hfraction.head_point c hc]
    rfl
  have hend : rest.head?.any sticksToNumber = false := by
    cases rest with
    | nil => rfl
    | cons c rest =>
      obtain ⟨-, -, hstart, hpoint, -⟩ := not_sticks (hrest c rfl)
      simp [sticksToNumber, hstart, hpoint]
  have hassoc : sign ++ whole ++ fraction ++ exponent ++ rest
      = sign ++ (whole ++ (fraction ++ (exponent ++ rest))) := by
    simp only [List.append_assoc]
  rw [hassoc]
  unfold readNumber
  split
  rename_i sign' unsigned hsplit
  -- the sign is taken off as it was put on: a whole part does not start with one
  obtain ⟨rfl, rfl⟩ : sign' = sign ∧ unsigned = whole ++ (fraction ++ (exponent ++ rest)) := by
    rcases hsign with rfl | rfl
    · obtain ⟨c, whole, rfl, hc⟩ := hwhole.head_digit
      rw [List.nil_append, List.cons_append] at hsplit
      split at hsplit
      · rename_i heq
        cases heq
        cases hc
      · cases hsplit
        exact ⟨rfl, rfl⟩
    · cases hsplit
      exact ⟨rfl, rfl⟩
  rw [readWhole_append hwhole hpoint]
  simp only [Reading.bind, readFraction_append hfraction hletter,
    readExponent_append hexponent fun c hc => ⟨(hbehind c hc).1, (hbehind c hc).2.2⟩, hend]
  cases fraction.isEmpty && exponent.isEmpty <;> rfl

/-! ## Strings -/

theorem readString_plain {c : Char} (hquote : c ≠ '"') (hslash : c ≠ '\\')
    (hline : isLineEnd c = false) (cs : List Char) :
    readString (c :: cs) = (readString cs).map (c :: ·) := by
  rw [readString, if_neg (by simpa using hquote), if_neg (by simpa using hslash), hline]
  rfl

theorem readString_letter {letter c : Char} (h : escapedCharacter? letter = some c)
    (hletter : letter ≠ 'u') (cs : List Char) :
    readString ('\\' :: letter :: cs) = (readString cs).map (c :: ·) := by
  have hescape : readEscape ('\\' :: letter :: cs) = .character c 2 := by
    unfold readEscape
    split
    · rename_i heq
      cases heq
      exact absurd rfl hletter
    · rename_i heq
      cases heq
      exact absurd rfl hletter
    · rename_i heq
      cases heq
      rw [h]
    · rename_i heq
      cases heq
  rw [readString, if_neg (by decide), if_pos (by decide), hescape]
  rfl

/-- The control characters are written by their code, in four digits. -/
theorem upperHex_read : ∀ code : Fin 160, (upperHex 4 code).length = 4 ∧
    (upperHex 4 code).head? ≠ some '{' ∧ hexValue? (upperHex 4 code) = some code.val ∧
    isScalar code = true := by
  decide +kernel

theorem readString_code {c : Char} (hc : c.toNat < 160) (cs : List Char) :
    readString ('\\' :: 'u' :: (upperHex 4 c.toNat ++ cs)) = (readString cs).map (c :: ·) := by
  obtain ⟨hlength, hbrace, hvalue, hscalar⟩ := upperHex_read ⟨c.toNat, hc⟩
  dsimp only at hlength hbrace hvalue hscalar
  generalize upperHex 4 c.toNat = digits at *
  have hcodes : readCodes ('\\' :: 'u' :: (digits ++ cs)) = some (c, 6) := by
    have htake : (digits ++ cs).take 4 = digits := List.take_left' hlength
    have hcode : readCode4 (digits ++ cs) = some c.toNat := by
      rw [readCode4, htake, if_neg (by omega), hvalue]
    simp only [readCodes, List.drop_succ_cons, List.drop_zero, hcode, bind, Option.bind, hscalar, if_true,
      Char.ofNat_toNat]
    rfl
  have hescape : readEscape ('\\' :: 'u' :: (digits ++ cs)) = .character c 6 := by
    unfold readEscape
    split
    · rename_i heq
      obtain ⟨d, digits, rfl⟩ := List.exists_cons_of_length_eq_add_one hlength
      cases heq
      exact absurd rfl hbrace
    · rw [readUnicodeFixed, hcodes]
    · rename_i hletter heq
      cases heq
      exact absurd rfl hletter
    · rename_i heq
      cases heq
  rw [readString, if_neg (by decide), if_pos (by decide), hescape]
  show (readString ((digits ++ cs).drop 4)).map (c :: ·) = _
  rw [List.drop_left' hlength]

/-- A character is written by a letter, by its code, or as itself. -/
theorem escapeCharacter_cases (c : Char) :
    (∃ letter, escapeCharacter c = ['\\', letter] ∧ escapedCharacter? letter = some c ∧
      letter ≠ 'u') ∨
    (escapeCharacter c = '\\' :: 'u' :: upperHex 4 c.toNat ∧ c.toNat < 160) ∨
    (escapeCharacter c = [c] ∧ c ≠ '"' ∧ c ≠ '\\' ∧ isLineEnd c = false) := by
  by_cases hletter : c ∈ ['"', '\\', '\x08', '\t', '\n', '\x0c', '\r']
  · left
    simp only [List.mem_cons, List.not_mem_nil, or_false] at hletter
    rcases hletter with rfl | rfl | rfl | rfl | rfl | rfl | rfl <;>
      exact ⟨_, rfl, rfl, by decide⟩
  · right
    simp only [List.mem_cons, List.not_mem_nil, or_false, not_or] at hletter
    obtain ⟨hquote, hslash, hback, htab, hnewline, hfeed, hreturn⟩ := hletter
    by_cases hcode : (c < ' ' || ('\x7f' ≤ c && c ≤ '\u009f')) = true
    · left
      refine ⟨?_, ?_⟩
      · simp [escapeCharacter, hquote, hslash, hback, htab, hnewline, hfeed, hreturn, hcode]
      · rw [Bool.or_eq_true, Bool.and_eq_true, decide_eq_true_eq, decide_eq_true_eq,
          decide_eq_true_eq] at hcode
        rcases hcode with hlow | ⟨-, hhigh⟩
        · exact Nat.lt_trans (Char.lt_def.mp hlow) (by decide)
        · exact Nat.lt_of_le_of_lt (Char.le_def.mp hhigh) (by decide)
    · right
      refine ⟨?_, hquote, hslash, ?_⟩
      · simp [escapeCharacter, hquote, hslash, hback, htab, hnewline, hfeed, hreturn, hcode]
      · simp [isLineEnd, hnewline, hreturn]

theorem readString_escapeCharacter (c : Char) (cs : List Char) :
    readString (escapeCharacter c ++ cs) = (readString cs).map (c :: ·) := by
  rcases escapeCharacter_cases c with ⟨letter, hwritten, hread, hne⟩ | ⟨hwritten, hcode⟩ |
    ⟨hwritten, hquote, hslash, hline⟩ <;> rw [hwritten]
  · exact readString_letter hread hne cs
  · exact readString_code hcode cs
  · exact readString_plain hquote hslash hline cs

/-- The text of a quoted string is read from its escapes. -/
theorem readString_escaped (text rest : List Char) :
    readString (text.flatMap escapeCharacter ++ '"' :: rest) = .done text rest := by
  induction text with
  | nil =>
    rw [List.flatMap_nil, List.nil_append, readString, if_pos (by decide)]
  | cons c text ih =>
    rw [List.flatMap_cons, List.append_assoc, readString_escapeCharacter, ih]
    rfl

/-- A quoted string is not taken for a block string. -/
theorem readAnyString_escaped (text : List Char) (hrest : StandsApart rest) :
    readAnyString (text.flatMap escapeCharacter ++ '"' :: rest)
      = .done (.string ⟨String.ofList text, false⟩) rest := by
  have hread := readString_escaped text rest
  unfold readAnyString
  split
  · -- three quotes: the text is empty and a quote follows, or it starts with a bare quote
    rename_i cs heq
    cases text with
    | nil =>
      rw [List.flatMap_nil, List.nil_append] at heq
      cases heq
      exact absurd (hrest '"' rfl) (by decide)
    | cons c text =>
      rw [List.flatMap_cons, List.append_assoc] at heq
      have hhead := congrArg List.head? heq
      rcases escapeCharacter_cases c with ⟨_, hwritten, -⟩ | ⟨hwritten, -⟩ |
        ⟨hwritten, hquote, -⟩ <;> rw [hwritten] at hhead <;> cases hhead
      exact absurd rfl hquote
  · rw [hread]
    rfl

/-! ## One token -/

/-- A character that starts a name or a number is no mark and no quote. -/
theorem ofChar?_eq_none {c : Char} (h : isNameStart c = true ∨ isDigit c = true ∨ c = '-') :
    c ≠ '"' ∧ Punctuator.ofChar? c = none := by
  constructor
  · rintro rfl
    revert h
    decide
  · unfold Punctuator.ofChar?
    split <;> first | rfl | (revert h; decide)

theorem next_number {c : Char} (h : isDigit c = true ∨ c = '-') (cs : List Char) :
    next (c :: cs) = readNumber (c :: cs) := by
  obtain ⟨hquote, hmark⟩ := ofChar?_eq_none (.inr h)
  have hnumber : (isDigit c || c == '-') = true := by simpa using h
  simp [next, hquote, hmark, hnumber]

theorem next_name {c : Char} (h : isNameStart c = true) (cs : List Char) :
    next (c :: cs) = .done (.name (String.ofList ((c :: cs).takeWhile isNameContinue)))
      ((c :: cs).dropWhile isNameContinue) := by
  obtain ⟨hquote, hmark⟩ := ofChar?_eq_none (.inl h)
  have hnumber : (isDigit c || c == '-') = false := by
    rw [Bool.or_eq_false_iff, beq_eq_false_iff_ne]
    constructor
    · rw [Bool.eq_false_iff]
      intro hdigit
      simp only [isNameStart, isDigit, Bool.or_eq_true, Bool.and_eq_true, decide_eq_true_eq,
        beq_iff_eq, Char.le_def] at h hdigit
      rcases h with (⟨hlow, -⟩ | ⟨hlow, -⟩) | rfl
      · exact absurd (Nat.le_trans hlow hdigit.2) (by decide)
      · exact absurd (Nat.le_trans hlow hdigit.2) (by decide)
      · exact absurd hdigit (by decide)
    · rintro rfl
      cases h
  simp [next, hquote, hmark, hnumber, h]

/-- A mark is read back whatever follows it. -/
theorem next_mark (mark : Punctuator) (rest : List Char) :
    next (mark.text ++ rest) = .done (.punctuator mark) rest := by
  cases mark <;> rfl

theorem IsNumber.exists_cons {fraction exponent : List Char} (h : IsNumber fraction exponent cs) :
    ∃ c cs', cs = c :: cs' ∧ (isDigit c = true ∨ c = '-') := by
  obtain ⟨hsign, hwhole, -, -⟩ := h
  rcases hsign with rfl | rfl
  · obtain ⟨c, cs', rfl, hc⟩ := hwhole.head_digit
    exact ⟨c, _, rfl, .inl hc⟩
  · exact ⟨'-', _, rfl, .inr rfl⟩

theorem next_writtenName {text : String} (h : isName text = true) (hrest : StandsApart rest) :
    next (text.toList ++ rest) = .done (.name text) rest := by
  obtain ⟨c, cs, htext, hc, hcs⟩ : ∃ c cs, text.toList = c :: cs ∧ isNameStart c = true ∧
      ∀ d ∈ cs, isNameContinue d = true := by
    unfold isName at h
    split at h
    · cases h
    · rename_i c cs htext
      rw [Bool.and_eq_true, List.all_eq_true] at h
      exact ⟨c, cs, htext, h⟩
  have hall : ∀ d ∈ c :: cs, isNameContinue d = true :=
    List.forall_mem_cons.mpr ⟨by simp [isNameContinue, hc], hcs⟩
  have hapart : ∀ d ∈ rest.head?, isNameContinue d = false := fun d hd =>
    (not_sticks (hrest d hd)).1
  rw [htext, List.cons_append, next_name hc, ← List.cons_append, takeWhile_run hall hapart,
    dropWhile_run hall hapart, ← htext, String.ofList_toList]

theorem next_writtenNumber {digits : String} {fraction exponent : List Char}
    (h : IsNumber fraction exponent digits.toList) (hrest : StandsApart rest) :
    next (digits.toList ++ rest) = .done (if fraction.isEmpty && exponent.isEmpty
      then .int digits else .float digits) rest := by
  obtain ⟨c, cs, hdigits, hc⟩ := h.exists_cons
  have hread := readNumber_append h hrest
  rw [String.ofList_toList] at hread
  rw [hdigits, List.cons_append] at hread ⊢
  rw [next_number hc, hread]

/-- A block string is read back whatever follows it, at any depth. -/
theorem next_block {text : String} (h : StringLiteral.IsRead ⟨text, true⟩) (depth : Nat)
    (rest : List Char) :
    next (indentLines depth (BlockString.write text.toList) ++ rest)
      = .done (.string ⟨text, true⟩) rest := by
  obtain ⟨written, hwritten, hread⟩ := BlockString.readBlock_write (h rfl) depth rest
  obtain ⟨inner, hinner, htext⟩ := Reading.map_eq_done hread
  rw [hwritten]
  show (readBlock written).map _ = _
  rw [hinner]
  show Reading.done (Token.string ⟨String.ofList (BlockString.dedent inner), true⟩) rest = _
  rw [htext, String.ofList_toList]

/-- **Tokens are read as they are written**, when nothing that follows sticks to them. -/
theorem next_write {t : Token} (h : t.WellFormed StringLiteral.IsRead)
    (hrest : StandsApart rest) : next (t.write ++ rest) = .done t rest := by
  cases t with
  | punctuator mark => exact next_mark mark rest
  | name text => exact next_writtenName h hrest
  | int digits => exact next_writtenNumber h hrest
  | float digits =>
    obtain ⟨fraction, exponent, hparts, h⟩ := h
    have hfloat : (fraction.isEmpty && exponent.isEmpty) = false := by
      rw [Bool.and_eq_false_iff, List.isEmpty_eq_false_iff, List.isEmpty_eq_false_iff]
      exact hparts
    have hread := next_writtenNumber h hrest
    rw [hfloat] at hread
    exact hread
  | string literal =>
    obtain ⟨text, block⟩ := literal
    cases block with
    | true =>
      -- a block string on its own is one that is indented by nothing
      have := next_block h 0 rest
      rwa [Text.indentLines_zero] at this
    | false =>
      show readAnyString (text.toList.flatMap escapeCharacter ++ ['"'] ++ rest) = _
      rw [List.append_assoc, List.singleton_append, readAnyString_escaped _ hrest,
        String.ofList_toList]
  | endOfInput => exact h.elim
  | invalid => exact h.elim

/-! ## All tokens -/

/-- A token starts with no separator and with no comment. -/
theorem skipIgnored_of_next {c : Char} {t : Token} (h : next (c :: cs) = .done t rest) :
    skipIgnored false (c :: cs) = c :: cs := by
  -- `next` fails at everything that is skipped
  have hseparator : c ∉ [' ', '\t', ',', '\ufeff', '\n', '\r', '#'] := by
    intro hc
    simp only [List.mem_cons, List.not_mem_nil, or_false] at hc
    rcases hc with rfl | rfl | rfl | rfl | rfl | rfl | rfl <;>
      · simp only [next] at h
        cases h
  simp only [List.mem_cons, List.not_mem_nil, or_false, not_or] at hseparator
  obtain ⟨hspace, htab, hcomma, hmark, hnewline, hreturn, hcomment⟩ := hseparator
  simp [skipIgnored, isIgnored, isLineEnd, hspace, htab, hcomma, hmark, hnewline, hreturn, hcomment]

theorem skipIgnored_separators {separators : List Char} (h : ∀ c ∈ separators, isIgnored c = true)
    (cs : List Char) : skipIgnored false (separators ++ cs) = skipIgnored false cs := by
  induction separators with
  | nil => rfl
  | cons c separators ih =>
    obtain ⟨hc, hseparators⟩ := List.forall_mem_cons.mp h
    rw [List.cons_append, skipIgnored, if_neg Bool.false_ne_true, if_pos hc, ih hseparators]

end Lexer

open Lexer

theorem tokens_nil : tokens [] = [.endOfInput] := by
  rw [tokens, lex]
  rfl

theorem lex_eq (cs : List Char) : lex cs = match skipIgnored false cs with
    | [] => [⟨.endOfInput, []⟩]
    | front => match next front with
      | .done t rest => ⟨t, front⟩ :: lex rest
      | .fault cause place => [⟨.invalid cause, place⟩] := by
  rw [lex]
  split
  · rename_i hs
    rw [hs]
  · rename_i hs
    rw [hs]
    split
    · rename_i hn
      simp only [hn]
    · rename_i hn
      simp only [hn]

/-- What is skipped in front of a text does not count. -/
theorem lex_congr {cs cs' : List Char} (h : skipIgnored false cs = skipIgnored false cs') :
    lex cs = lex cs' := by
  rw [lex_eq, lex_eq cs', h]

/-- The first lexeme of a text, which is not empty. -/
theorem lex_of_next {cs rest : List Char} {t : Token} (h : next cs = .done t rest)
    (ht : t ≠ .endOfInput) : lex cs = ⟨t, cs⟩ :: lex rest := by
  cases cs with
  | nil =>
    cases h
    exact absurd rfl ht
  | cons c cs =>
    rw [lex_eq, skipIgnored_of_next h]
    simp only [h]

theorem tokens_congr {cs cs' : List Char} (h : skipIgnored false cs = skipIgnored false cs') :
    tokens cs = tokens cs' :=
  congrArg (List.map Lexeme.token) (lex_congr h)

theorem tokens_of_next {cs rest : List Char} {t : Token} (h : next cs = .done t rest)
    (ht : t ≠ .endOfInput) : tokens cs = t :: tokens rest :=
  congrArg (List.map Lexeme.token) (lex_of_next h ht)

end ResolverWiring.Graphql
