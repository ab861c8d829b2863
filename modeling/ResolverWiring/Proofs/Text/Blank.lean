import Mathlib.Data.List.TakeWhile
import ResolverWiring.Text.Blank

/-!
# `Proofs.Text.Blank` — what stripping a text leaves

A text without the white space around it is a part of the text with nothing but white space in front of it and behind
it, and with none at its own ends (`IsTrimmed`). There is one such part, and stripping gives it (`isTrimmed_iff`).
-/

namespace ResolverWiring.Text

/-- Whether a character is white space, by its code point. -/
def IsBlank (c : Char) : Prop :=
  c.toNat ∈ [0x9, 0xa, 0xb, 0xc, 0xd, 0x1c, 0x1d, 0x1e, 0x1f, 0x20, 0x85, 0xa0, 0x1680, 0x2000, 0x2001, 0x2002, 0x2003,
    0x2004, 0x2005, 0x2006, 0x2007, 0x2008, 0x2009, 0x200a, 0x2028, 0x2029, 0x202f, 0x205f, 0x3000]

/-- Whether a text is another one without the white space around it. -/
structure IsTrimmed (text trimmed : List Char) : Prop where
  cut : ∃ before behind, text = before ++ trimmed ++ behind ∧ (∀ c ∈ before, IsBlank c) ∧ ∀ c ∈ behind, IsBlank c
  first : ∀ c ∈ trimmed.head?, ¬ IsBlank c
  last : ∀ c ∈ trimmed.getLast?, ¬ IsBlank c

variable {text trimmed : List Char}

theorem isBlank_iff {c : Char} : IsBlank c ↔ isWhitespace c = true := by
  have hcode (d : Char) : c = d ↔ c.toNat = d.toNat := Char.toNat_inj.symm
  have hle (a b : Char) : a ≤ b ↔ a.toNat ≤ b.toNat := Iff.rfl
  simp only [IsBlank, isWhitespace, Bool.or_eq_true, Bool.and_eq_true, decide_eq_true_eq, beq_iff_eq, hcode, hle,
    List.mem_cons, List.not_mem_nil, or_false, Char.reduceToNat]
  constructor
  · intro h
    omega
  · intro h
    omega

theorem not_isBlank_iff {c : Char} : ¬ IsBlank c ↔ isWhitespace c = false := by
  rw [isBlank_iff, Bool.not_eq_true]

/-! ## Stripping -/

theorem blank_of_mem_takeWhile {c : Char} (h : c ∈ text.takeWhile isWhitespace) : IsBlank c :=
  isBlank_iff.mpr (List.mem_takeWhile_imp h)

/-- Behind the white space in front of a text comes none. -/
theorem not_blank_of_head?_dropWhile {c : Char} (h : c ∈ (text.dropWhile isWhitespace).head?) : ¬ IsBlank c := by
  have hnot := text.head?_dropWhile_not isWhitespace
  rw [h] at hnot
  exact not_isBlank_iff.mpr hnot

/-- White space in front is dropped, up to what is none. -/
theorem dropWhile_blanks_append {before : List Char} (hbefore : ∀ c ∈ before, IsBlank c)
    (htrimmed : ∀ c ∈ trimmed.head?, ¬ IsBlank c) : (before ++ trimmed).dropWhile isWhitespace = trimmed := by
  rw [List.dropWhile_append_of_pos fun c hc => isBlank_iff.mp (hbefore c hc)]
  cases trimmed with
  | nil => rfl
  | cons c cs => exact List.dropWhile_cons_of_neg (isBlank_iff.not.mp (htrimmed c rfl))

theorem isTrimmed_stripBlanks (text : List Char) : IsTrimmed text (stripBlanks text) := by
  let rest := text.dropWhile isWhitespace
  have hrest : rest = stripBlanks text ++ (rest.reverse.takeWhile isWhitespace).reverse := by
    have hends := congrArg List.reverse (rest.reverse.takeWhile_append_dropWhile (p := isWhitespace))
    rw [List.reverse_append, List.reverse_reverse] at hends
    exact hends.symm
  refine ⟨⟨text.takeWhile isWhitespace, (rest.reverse.takeWhile isWhitespace).reverse, ?_, ?_, ?_⟩, ?_, ?_⟩
  · rw [List.append_assoc, ← hrest, List.takeWhile_append_dropWhile]
  · exact fun c hc => blank_of_mem_takeWhile hc
  · exact fun c hc => blank_of_mem_takeWhile (List.mem_reverse.mp hc)
  · -- a text that is left starts where the rest does
    intro c hc
    apply not_blank_of_head?_dropWhile
    show c ∈ rest.head?
    rw [hrest, List.head?_append, hc]
    rfl
  · intro c hc
    rw [stripBlanks, strip, List.getLast?_reverse] at hc
    exact not_blank_of_head?_dropWhile hc

/-- There is one text without the white space around a text. -/
theorem isTrimmed_iff : IsTrimmed text trimmed ↔ trimmed = stripBlanks text := by
  refine ⟨?_, fun h => h ▸ isTrimmed_stripBlanks text⟩
  rintro ⟨⟨before, behind, rfl, hbefore, hbehind⟩, hfirst, hlast⟩
  have hreverse : ∀ c ∈ behind.reverse, IsBlank c := fun c hc => hbehind c (List.mem_reverse.mp hc)
  rw [stripBlanks, strip, List.append_assoc]
  cases trimmed with
  | nil =>
    have hblank : ∀ c ∈ before ++ ([] ++ behind), isWhitespace c = true :=
      fun c hc => isBlank_iff.mp (List.forall_mem_append.mpr ⟨hbefore, hbehind⟩ c hc)
    rw [List.dropWhile_eq_nil_iff.mpr hblank]
    rfl
  | cons c cs =>
    have hfront : (before ++ (c :: cs ++ behind)).dropWhile isWhitespace = c :: cs ++ behind :=
      dropWhile_blanks_append hbefore hfirst
    have hback : (behind.reverse ++ (c :: cs).reverse).dropWhile isWhitespace = (c :: cs).reverse :=
      dropWhile_blanks_append hreverse (by rwa [List.head?_reverse])
    rw [hfront, List.reverse_append, hback, List.reverse_reverse]

/-- A text of which stripping leaves nothing is blank. -/
theorem forall_blank_of_stripBlanks (h : stripBlanks text = []) : ∀ c ∈ text, IsBlank c := by
  obtain ⟨before, behind, htext, hbefore, hbehind⟩ := (isTrimmed_stripBlanks text).cut
  rw [h, List.append_nil] at htext
  rw [htext]
  exact List.forall_mem_append.mpr ⟨hbefore, hbehind⟩

end ResolverWiring.Text
