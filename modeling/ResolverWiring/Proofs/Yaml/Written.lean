import Mathlib.Algebra.Order.BigOperators.Group.List
import Mathlib.Algebra.Order.Group.Nat
import ResolverWiring.Proofs.Text.Numeral
import ResolverWiring.Yaml.Printer.Scalar

/-!
# `Proofs.Yaml.Written` — the characters of written scalars

The writers of scalars write nothing but characters that show as themselves and line feeds (`Written`), and a
scalar that stays on its line without any line feed (`Visible`). A character of a text in double quotes takes at
most ten characters, and a visible one in any quotes at most two.
-/

namespace ResolverWiring.Yaml

open Text

variable {c : Char} {cs ds text : List Char} {layout : Layout}

/-! ## Characters -/

/-- Whether a character can stand in a written text. -/
def isWritten (c : Char) : Bool := isVisible c || c == '\n'

/-- Every character shows as itself. -/
def Visible (cs : List Char) : Prop := ∀ c ∈ cs, isVisible c = true

/-- Every character shows as itself or is a line feed. -/
def Written (cs : List Char) : Prop := ∀ c ∈ cs, isWritten c = true

theorem isVisible_iff : isVisible c = true ↔ ' ' ≤ c ∧ c ≤ '~' := by simp [isVisible]

/-- A character that shows as itself ends no line, and is blank only as a space. -/
theorem isVisible_plain (h : isVisible c = true) : isBreak c = false ∧ (isBlank c = true ↔ c = ' ') := by
  have hne : ∀ {d : Char}, isVisible d = false → c ≠ d := by
    rintro d hd rfl
    rw [hd] at h
    cases h
  constructor
  · simp only [isBreak, Bool.or_eq_false_iff, beq_eq_false_iff_ne]
    exact ⟨⟨⟨⟨hne (by decide), hne (by decide)⟩, hne (by decide)⟩, hne (by decide)⟩, hne (by decide)⟩
  · have htab : c ≠ '\t' := hne (by decide)
    simp [isBlank, htab]

/-- A character that shows as itself is ink, unless it is a space. -/
theorem isVisible_ink (h : isVisible c = true) (hspace : c ≠ ' ') : isBlank c = false ∧ isBreak c = false :=
  ⟨eq_false_of_ne_true fun hblank => hspace ((isVisible_plain h).2.mp hblank), (isVisible_plain h).1⟩

@[simp] theorem visible_nil : Visible [] := nofun

@[simp] theorem visible_cons : Visible (c :: cs) ↔ isVisible c = true ∧ Visible cs := List.forall_mem_cons

@[simp] theorem visible_append : Visible (cs ++ ds) ↔ Visible cs ∧ Visible ds := List.forall_mem_append

@[simp] theorem written_nil : Written [] := nofun

@[simp] theorem written_cons : Written (c :: cs) ↔ isWritten c = true ∧ Written cs := List.forall_mem_cons

@[simp] theorem written_append : Written (cs ++ ds) ↔ Written cs ∧ Written ds := List.forall_mem_append

theorem isWritten_of_visible (h : isVisible c = true) : isWritten c = true := by simp [isWritten, h]

theorem Visible.written (h : Visible cs) : Written cs := fun c hc => isWritten_of_visible (h c hc)

theorem Written.visible (h : Written cs) (hfeed : '\n' ∉ cs) : Visible cs := by
  intro c hc
  have hne : c ≠ '\n' := by
    rintro rfl
    exact hfeed hc
  simpa [isWritten, hne] using h c hc

theorem visible_spaces (count : Nat) : Visible (List.replicate count ' ') := by
  intro c hc
  rw [List.eq_of_mem_replicate hc]
  decide

@[simp] theorem written_newLine (indent : Nat) : Written (newLine indent) :=
  written_cons.mpr ⟨by decide, (visible_spaces indent).written⟩

/-! ## Plain and single-quoted scalars -/

theorem written_writePlain (column : Nat) (before? : Option Char) (h : Visible text) :
    Written (writePlain layout column before? text) := by
  induction text generalizing column before? with
  | nil => exact written_nil
  | cons c cs ih =>
    obtain ⟨hc, hcs⟩ := visible_cons.mp h
    rw [writePlain]
    split
    · exact written_append.mpr ⟨written_newLine _, ih _ _ hcs⟩
    · exact written_cons.mpr ⟨isWritten_of_visible hc, ih _ _ hcs⟩

/-- A plain scalar that stays on its line is written as it is. -/
theorem writePlain_unfolded (h : layout.folds = false) (column : Nat) (before? : Option Char) (text : List Char) :
    writePlain layout column before? text = text := by
  induction text generalizing column before? with
  | nil => rfl
  | cons c cs ih => simp [writePlain, Layout.foldsAt, h, ih]

theorem written_writeSingle (column : Nat) (before? : Option Char) (h : Written text) :
    Written (writeSingle layout column before? text) := by
  induction text generalizing column before? with
  | nil => exact written_nil
  | cons c cs ih =>
    obtain ⟨hc, hcs⟩ := written_cons.mp h
    rw [writeSingle]
    split
    · have hends : Written (if before? == some '\n' then ['\n'] else ['\n', '\n']) := by
        split <;> simp [isWritten]
      dsimp only
      split
      · exact written_append.mpr ⟨hends, ih _ _ hcs⟩
      · exact written_append.mpr ⟨written_append.mpr ⟨hends, (visible_spaces _).written⟩, ih _ _ hcs⟩
    · split
      · exact written_append.mpr ⟨written_newLine _, ih _ _ hcs⟩
      · split
        · exact written_cons.mpr ⟨by decide, written_cons.mpr ⟨by decide, ih _ _ hcs⟩⟩
        · exact written_cons.mpr ⟨hc, ih _ _ hcs⟩

/-- A scalar in single quotes that stays on its line has every quote twice. -/
theorem writeSingle_unfolded (h : layout.folds = false) (column : Nat) (before? : Option Char) (htext : Visible text) :
    writeSingle layout column before? text = text.flatMap fun c => if c = '\'' then ['\'', '\''] else [c] := by
  induction text generalizing column before? with
  | nil => rfl
  | cons c cs ih =>
    obtain ⟨hc, hcs⟩ := visible_cons.mp htext
    have hfeed : c ≠ '\n' := by
      rintro rfl
      cases hc
    rw [writeSingle]
    by_cases hquote : c = '\'' <;> simp [hfeed, hquote, Layout.foldsAt, h, ih _ _ hcs]

/-! ## Double-quoted scalars -/

theorem escapeLetter?_visible {letter : Char} (h : escapeLetter? c = some letter) : isVisible letter = true := by
  unfold escapeLetter? at h
  split at h <;> first | (cases h; rfl) | cases h

theorem visible_upperHex (width n : Nat) : Visible (upperHex width n) :=
  fun _ hd => isVisible_iff.mpr (upperHex_mem hd).2

theorem visible_escapeOf (c : Char) : Visible (escapeOf c) := by
  unfold escapeOf
  split
  · rename_i letter hletter
    exact visible_cons.mpr ⟨by decide, visible_cons.mpr ⟨escapeLetter?_visible hletter, visible_nil⟩⟩
  · split
    · simp [visible_upperHex, isVisible]
    · split <;> simp [visible_upperHex, isVisible]

theorem written_writeDouble (column : Nat) (first escaped : Bool) (text : List Char) :
    Written (writeDouble layout column first escaped text) := by
  have hfold : ∀ cs, Written (foldBefore layout.indent cs) := by
    intro cs
    rw [foldBefore]
    split <;> simp [isWritten, isVisible]
  induction text generalizing column first escaped with
  | nil => exact written_nil
  | cons c cs ih =>
    rw [writeDouble]
    split
    · dsimp only
      split <;> simp [(visible_escapeOf c).written, hfold, ih]
    · rename_i hescape
      have hc : isVisible c = true := by
        simp only [needsEscape, Bool.or_eq_true, not_or, Bool.not_eq_true', Bool.not_eq_false] at hescape
        exact hescape.2
      split <;> simp [hfold, ih, isWritten_of_visible hc]

/-- A scalar in double quotes that stays on its line. -/
theorem writeDouble_unfolded (h : layout.folds = false) (column : Nat) (first escaped : Bool) (text : List Char) :
    writeDouble layout column first escaped text = text.flatMap fun c => if needsEscape c then escapeOf c else [c] := by
  induction text generalizing column first escaped with
  | nil => rfl
  | cons c cs ih =>
    rw [writeDouble]
    by_cases hescape : needsEscape c <;> simp [hescape, Layout.foldsAt, h, ih]

/-! ## Lengths -/

theorem length_flatMap_le {bound : Nat} {f : Char → List Char} (h : ∀ c ∈ text, (f c).length ≤ bound) :
    (text.flatMap f).length ≤ text.length * bound := by
  have hsum := List.sum_le_card_nsmul (text.map fun c => (f c).length) bound (by simpa using h)
  rw [List.length_map] at hsum
  rw [List.length_flatMap]
  exact hsum

/-- The code of a character is none of half a pair of surrogates. -/
theorem toNat_valid (c : Char) : c.toNat < 0xD800 ∨ 0xDFFF < c.toNat ∧ c.toNat < 0x110000 := c.valid

/-- An escape takes at most ten characters, that of a visible character two. -/
theorem length_escapeOf (c : Char) :
    (escapeOf c).length ≤ 10 ∧ (needsEscape c = true → isVisible c = true → (escapeOf c).length = 2) := by
  have hvalid := toNat_valid c
  have hhex : ∀ {width : Nat}, 0 < width → c.toNat < 16 ^ width → (upperHex width c.toNat).length = width :=
    fun hwidth hc => length_upperHex hwidth hc
  constructor
  · unfold escapeOf
    split
    · simp
    · split
      · rw [List.length_cons, List.length_cons, hhex (by decide) (by omega)]
        decide
      · split
        · rw [List.length_cons, List.length_cons, hhex (by decide) (by omega)]
          decide
        · rw [List.length_cons, List.length_cons, hhex (by decide) (by omega)]
  · intro hescape hvisible
    simp only [needsEscape, hvisible, Bool.not_true, Bool.or_false, Bool.or_eq_true, beq_iff_eq] at hescape
    rcases hescape with rfl | rfl <;> rfl

end ResolverWiring.Yaml
