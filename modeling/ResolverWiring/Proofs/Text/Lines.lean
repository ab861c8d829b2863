import ResolverWiring.Graphql.Layout
import ResolverWiring.Text.Utf8

/-!
# `Proofs.Text.Lines` — splitting and joining lines

Lines without line ends are what a text of lines is made of: `splitLines` and `joinLines` are inverse on
them (`splitLines_joinLines`), and to indent such a text is to indent every line but the first
(`indentLines_joinLines`).
-/

namespace ResolverWiring.Text

/-- A line: no character of it ends one. -/
def IsLine (line : List Char) : Prop := ∀ c ∈ line, isLineEnd c = false

variable {c : Char} {cs line : List Char} {lines : List (List Char)}

theorem isLine_nil : IsLine [] := fun _ h => by cases h

theorem isLine_cons : IsLine (c :: line) ↔ isLineEnd c = false ∧ IsLine line := List.forall_mem_cons

theorem isLine_append {line' : List Char} :
    IsLine (line ++ line') ↔ IsLine line ∧ IsLine line' := List.forall_mem_append

/-- A text without carriage returns has its line ends as they are read. -/
theorem normalizeLineEnds_of_no_return (h : '\r' ∉ cs) : normalizeLineEnds cs = cs := by
  induction cs with
  | nil => rfl
  | cons c cs ih =>
    have hc : c ≠ '\r' := fun heq => h (heq ▸ List.mem_cons_self)
    have hcs : '\r' ∉ cs := fun hmem => h (List.mem_cons_of_mem c hmem)
    rw [normalizeLineEnds, ih hcs]
    · exact fun _ heq _ => hc heq
    · exact hc

/-! ## Reading -/

theorem decode_eq_ok {bytes : ByteArray} {text : String} : Utf8.decode bytes = .ok text ↔ text.toUTF8 = bytes := by
  rw [Utf8.decode]
  constructor
  · intro h
    cases htext : String.fromUTF8? bytes with
    | none =>
      rw [htext] at h
      cases h
    | some found =>
      rw [htext] at h
      cases h
      obtain ⟨hvalid, heq⟩ := Option.dite_none_right_eq_some.mp htext
      exact congrArg String.toUTF8 (Option.some.inj heq).symm
  · rintro rfl
    have htext : String.fromUTF8? text.toUTF8 = some text := dif_pos text.isValidUTF8
    rw [htext]

/-- What is read from the bytes of a text, with every line end as one line feed. -/
theorem decodeLines_eq_ok {bytes : ByteArray} {text : String} : Utf8.decodeLines bytes = .ok text ↔
    ∃ raw : String, raw.toUTF8 = bytes ∧ text = String.ofList (normalizeLineEnds raw.toList) := by
  rw [Utf8.decodeLines]
  constructor
  · intro h
    cases hdecode : Utf8.decode bytes with
    | error fault =>
      rw [hdecode] at h
      cases h
    | ok raw =>
      rw [hdecode] at h
      cases h
      exact ⟨raw, decode_eq_ok.mp hdecode, rfl⟩
  · rintro ⟨raw, hraw, rfl⟩
    rw [decode_eq_ok.mpr hraw]
    rfl

/-- The bytes of a text without carriage returns are read as this text. -/
theorem decodeLines_toUTF8 {text : String} (h : '\r' ∉ text.toList) :
    Utf8.decodeLines text.toUTF8 = .ok text :=
  decodeLines_eq_ok.mpr ⟨text, rfl, by rw [normalizeLineEnds_of_no_return h, String.ofList_toList]⟩

/-! ## Splitting -/

theorem splitLines_newline (cs : List Char) : splitLines ('\n' :: cs) = [] :: splitLines cs := rfl

theorem splitLines_cons (hc : isLineEnd c = false) (cs : List Char) :
    splitLines (c :: cs) = consToFirst c (splitLines cs) := by
  have hr : c ≠ '\r' := by
    rintro rfl
    exact absurd hc (by decide)
  rw [splitLines.eq_3 c cs fun _ h => absurd h hr, hc]
  rfl

theorem splitLines_append_newline (h : IsLine line) (cs : List Char) :
    splitLines (line ++ '\n' :: cs) = line :: splitLines cs := by
  induction line with
  | nil => exact splitLines_newline cs
  | cons c line ih =>
    obtain ⟨hc, hline⟩ := isLine_cons.mp h
    rw [List.cons_append, splitLines_cons hc, ih hline]
    rfl

theorem splitLines_of_isLine (h : IsLine line) : splitLines line = [line] := by
  induction line with
  | nil => rfl
  | cons c line ih =>
    obtain ⟨hc, hline⟩ := isLine_cons.mp h
    rw [splitLines_cons hc, ih hline]
    rfl

theorem isLine_of_mem_consToFirst (hc : isLineEnd c = false) (h : ∀ line ∈ lines, IsLine line) :
    ∀ line ∈ consToFirst c lines, IsLine line := by
  cases lines with
  | nil => exact List.forall_mem_singleton.mpr (isLine_cons.mpr ⟨hc, isLine_nil⟩)
  | cons first others =>
    obtain ⟨hfirst, hothers⟩ := List.forall_mem_cons.mp h
    exact List.forall_mem_cons.mpr ⟨isLine_cons.mpr ⟨hc, hfirst⟩, hothers⟩

theorem isLine_of_mem_splitLines (cs : List Char) : ∀ line ∈ splitLines cs, IsLine line := by
  fun_induction splitLines cs with
  | case1 => exact List.forall_mem_singleton.mpr isLine_nil
  | case2 cs ih => exact List.forall_mem_cons.mpr ⟨isLine_nil, ih⟩
  | case3 c cs _ _ ih => exact List.forall_mem_cons.mpr ⟨isLine_nil, ih⟩
  | case4 c cs _ hc ih => exact isLine_of_mem_consToFirst (Bool.eq_false_iff.mpr hc) ih

/-! ## Joining -/

theorem joinLines_singleton (line : List Char) : joinLines [line] = line := by
  simp [joinLines, List.intercalate]

theorem joinLines_cons_cons (first second : List Char) (others : List (List Char)) :
    joinLines (first :: second :: others) = first ++ '\n' :: joinLines (second :: others) := by
  simp [joinLines, List.intercalate]

/-- Lines are what their text is split into. -/
theorem splitLines_joinLines (h : ∀ line ∈ lines, IsLine line) (hne : lines ≠ []) :
    splitLines (joinLines lines) = lines := by
  induction lines with
  | nil => exact absurd rfl hne
  | cons first others ih =>
    obtain ⟨hfirst, hothers⟩ := List.forall_mem_cons.mp h
    cases others with
    | nil => rw [joinLines_singleton, splitLines_of_isLine hfirst]
    | cons second others =>
      rw [joinLines_cons_cons, splitLines_append_newline hfirst,
        ih hothers (List.cons_ne_nil second others)]

/-! ## Indenting -/

theorem indentLines_append (depth : Nat) (cs cs' : List Char) :
    Graphql.indentLines depth (cs ++ cs')
      = Graphql.indentLines depth cs ++ Graphql.indentLines depth cs' :=
  List.flatMap_append

theorem indentLines_newline (depth : Nat) (cs : List Char) :
    Graphql.indentLines depth ('\n' :: cs)
      = '\n' :: (Graphql.indentation depth ++ Graphql.indentLines depth cs) := rfl

theorem indentLines_cons (depth : Nat) (hc : c ≠ '\n') (cs : List Char) :
    Graphql.indentLines depth (c :: cs) = c :: Graphql.indentLines depth cs := by
  rw [Graphql.indentLines, List.flatMap_cons, if_neg (by simpa using hc)]
  rfl

theorem ne_newline_of_not_lineEnd (hc : isLineEnd c = false) : c ≠ '\n' := by
  rintro rfl
  exact absurd hc (by decide)

theorem indentLines_zero (cs : List Char) : Graphql.indentLines 0 cs = cs := by
  induction cs with
  | nil => rfl
  | cons c cs ih =>
    by_cases hc : c = '\n'
    · rw [hc, indentLines_newline, ih]
      rfl
    · rw [indentLines_cons 0 hc, ih]

theorem indentLines_of_isLine (depth : Nat) (h : IsLine line) :
    Graphql.indentLines depth line = line := by
  induction line with
  | nil => rfl
  | cons c line ih =>
    obtain ⟨hc, hline⟩ := isLine_cons.mp h
    rw [indentLines_cons depth (ne_newline_of_not_lineEnd hc), ih hline]

/-- To indent a text is to indent all its lines but the first. -/
theorem indentLines_joinLines (depth : Nat) {first : List Char}
    (h : ∀ line ∈ first :: lines, IsLine line) :
    Graphql.indentLines depth (joinLines (first :: lines))
      = joinLines (first :: lines.map (Graphql.indentation depth ++ ·)) := by
  induction lines generalizing first with
  | nil =>
    rw [joinLines_singleton, indentLines_of_isLine depth (h first List.mem_cons_self)]
    exact (joinLines_singleton first).symm
  | cons second others ih =>
    obtain ⟨hfirst, hothers⟩ := List.forall_mem_cons.mp h
    rw [joinLines_cons_cons, indentLines_append, indentLines_of_isLine depth hfirst,
      indentLines_newline, ih hothers]
    -- the indentation of the second line is part of that line
    cases others with
    | nil => simp [joinLines_singleton, joinLines_cons_cons]
    | cons third others => simp [joinLines_cons_cons]

end ResolverWiring.Text
