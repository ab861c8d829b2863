import ResolverWiring.Files.Path

/-!
# `Proofs.Files.PathText` — the text of a path

What a path is can be read off its text: it is absolute if the text starts with a slash, the slashes in front tell its
root, and its names are the components of the text, except those that are empty or `.`.

A name that is read holds no slash, so a path that has been read is read again from its own text
(`ofString_toString`).
-/

namespace ResolverWiring.Files.Path

variable {p q : Path} {text : String} {cs piece : List Char} {names : List String}

/-! ## Components -/

/-- What stands between the slashes of a text. -/
def components (text : String) : List String := (text.toList.splitOn '/').map String.ofList

theorem splitSlashes_eq_splitOn (cs : List Char) : splitSlashes cs = cs.splitOn '/' := by
  fun_induction splitSlashes cs with
  | case1 => rfl
  | case2 cs ih => rw [List.splitOn_cons_eq_if_modifyHead, if_pos BEq.rfl, ih]
  | case3 c cs hc piece others hsplit ih =>
    rw [List.splitOn_cons_eq_if_modifyHead, if_neg (by simpa using hc), ← ih, hsplit, List.modifyHead_cons]
  | case4 c cs hc hsplit ih => exact absurd (ih.symm.trans hsplit) (List.splitOn_ne_nil _ _)

theorem names_ofString (text : String) : (ofString text).names = (components text).filter isName := by
  rw [ofString, splitSlashes_eq_splitOn, components]

theorem mem_of_mem_splitSlashes {c : Char} (hpiece : piece ∈ splitSlashes cs) (hc : c ∈ piece) :
    c ∈ cs ∧ c ≠ '/' := by
  fun_induction splitSlashes cs generalizing piece with
  | case1 =>
    rw [List.mem_singleton.mp hpiece] at hc
    cases hc
  | case2 cs ih =>
    rcases List.mem_cons.mp hpiece with rfl | hpiece
    · cases hc
    · exact (ih hpiece hc).imp_left (List.mem_cons_of_mem _)
  | case3 first cs hfirst piece' others hsplit ih =>
    rw [hsplit] at ih
    rcases List.mem_cons.mp hpiece with rfl | hpiece
    · rcases List.mem_cons.mp hc with rfl | hc
      · exact ⟨List.mem_cons_self, hfirst⟩
      · exact (ih List.mem_cons_self hc).imp_left (List.mem_cons_of_mem _)
    · exact (ih (List.mem_cons_of_mem _ hpiece) hc).imp_left (List.mem_cons_of_mem _)
  | case4 first cs hfirst hsplit ih =>
    rw [List.mem_singleton.mp hpiece, List.mem_singleton] at hc
    rw [hc]
    exact ⟨List.mem_cons_self, hfirst⟩

theorem mem_of_hasNull (h : (ofString text).hasNull = true) : '\x00' ∈ text.toList := by
  obtain ⟨name, hname, hnull⟩ := List.any_eq_true.mp h
  obtain ⟨piece, hpiece, rfl⟩ := List.mem_map.mp (List.mem_filter.mp hname).1
  exact (mem_of_mem_splitSlashes hpiece (by simpa using hnull)).1

theorem hasNull_ofString (h : '\x00' ∉ text.toList) : (ofString text).hasNull = false :=
  eq_false_of_ne_true (mt mem_of_hasNull h)

/-! ## Roots -/

/-- The number of slashes in front of a text. -/
def leadingSlashes (text : String) : Nat := (text.toList.takeWhile (· == '/')).length

theorem isAbsolute_ofString : (ofString text).isAbsolute = true ↔ text.toList.head? = some '/' := by
  rw [List.head?_eq_some_iff, isAbsolute, ofString]
  dsimp only
  fun_cases rootOf text.toList <;> simp_all

theorem isAbsolute_ofString_eq_false (h : text.toList.head? ≠ some '/') : (ofString text).isAbsolute = false :=
  eq_false_of_ne_true (mt isAbsolute_ofString.mp h)

theorem takeWhile_slash_eq_nil (h : ∀ tail, cs ≠ '/' :: tail) : cs.takeWhile (· == '/') = [] := by
  cases cs with
  | nil => rfl
  | cons c cs => exact List.takeWhile_cons_of_neg fun hc => h cs (by rw [eq_of_beq hc])

/-- Two slashes in front are kept, and any other number of them counts as one. -/
theorem text_root_ofString (h : text.toList.head? = some '/') :
    (ofString text).root.text = if leadingSlashes text = 2 then "//" else "/" := by
  unfold leadingSlashes ofString
  dsimp only
  generalize text.toList = cs at h ⊢
  fun_cases rootOf cs with
  | case1 cs => simp [Root.text]
  | case2 cs hthird => simp [Root.text, takeWhile_slash_eq_nil hthird]
  | case3 cs _ hsecond => simp [Root.text, takeWhile_slash_eq_nil hsecond]
  | case4 _ _ _ hfirst =>
    obtain ⟨tail, htail⟩ := List.head?_eq_some_iff.mp h
    exact absurd htail (hfirst tail)

theorem rootOf_append (root : Root) (h : ∀ tail, cs ≠ '/' :: tail) : rootOf (root.text.toList ++ cs) = root := by
  cases cs with
  | nil => cases root <;> rfl
  | cons c cs =>
    have hc : c ≠ '/' := fun hc => h cs (by rw [hc])
    cases root <;> simp [Root.text, rootOf, hc]

/-! ## Normal paths -/

/-- A name as it is read: neither empty nor `.`, and without a slash. -/
structure IsComponent (name : String) : Prop where
  nonempty : name ≠ ""
  proper : name ≠ "."
  whole : '/' ∉ name.toList

/-- A path as it is read. -/
def IsNormal (p : Path) : Prop := ∀ name ∈ p.names, IsComponent name

theorem isName_iff {name : String} : isName name = true ↔ name ≠ "" ∧ name ≠ "." := by simp [isName]

theorem isNormal_ofString (text : String) : (ofString text).IsNormal := by
  intro name hname
  obtain ⟨hmem, hkept⟩ := List.mem_filter.mp hname
  obtain ⟨piece, hpiece, rfl⟩ := List.mem_map.mp hmem
  obtain ⟨hempty, hdot⟩ := isName_iff.mp hkept
  refine ⟨hempty, hdot, fun hslash => ?_⟩
  rw [String.toList_ofList] at hslash
  exact (mem_of_mem_splitSlashes hpiece hslash).2 rfl

theorem IsNormal.join (hp : p.IsNormal) (hq : q.IsNormal) : (p.join q).IsNormal := by
  unfold Path.join
  split
  · exact hq
  · intro name hname
    exact (List.mem_append.mp hname).elim (hp name) (hq name)

/-! ## Reading back -/

/-- The slashes of a root give no names. -/
theorem filter_splitSlashes_append (root : Root) (cs : List Char) :
    ((splitSlashes (root.text.toList ++ cs)).map String.ofList).filter isName =
      ((splitSlashes cs).map String.ofList).filter isName := by
  cases root <;> simp [Root.text, splitSlashes, isName]

/-- Names that are written between slashes are read again. -/
theorem filter_splitSlashes_intercalate (h : ∀ name ∈ names, IsComponent name) :
    ((splitSlashes (['/'].intercalate (names.map String.toList))).map String.ofList).filter isName = names := by
  by_cases hnames : names = []
  · subst hnames
    rfl
  · have hslash : ∀ piece ∈ names.map String.toList, '/' ∉ piece :=
      List.forall_mem_map.mpr fun name hname => (h name hname).whole
    have htexts : (names.map String.toList).map String.ofList = names := by
      rw [List.map_map]
      exact List.map_id'' (fun _ => String.ofList_toList) names
    rw [splitSlashes_eq_splitOn, List.splitOn_intercalate '/' hslash (mt List.map_eq_nil_iff.mp hnames), htexts]
    exact List.filter_eq_self.mpr fun name hname => isName_iff.mpr ⟨(h name hname).nonempty, (h name hname).proper⟩

theorem intercalate_ne_slash (h : ∀ name ∈ names, IsComponent name) (tail : List Char) :
    ['/'].intercalate (names.map String.toList) ≠ '/' :: tail := by
  cases names with
  | nil => exact (List.cons_ne_nil _ _).symm
  | cons name names =>
    obtain ⟨hempty, -, hslash⟩ := h name List.mem_cons_self
    cases hname : name.toList with
    | nil => exact absurd (String.toList_eq_nil_iff.mp hname) hempty
    | cons c cs =>
      have hc : c ≠ '/' := by
        rintro rfl
        exact hslash (by rw [hname]; exact List.mem_cons_self)
      cases names <;> simp [hname, hc, List.intercalate_cons_cons]

/-- A path is read back from its text. -/
theorem ofString_toString (h : p.IsNormal) : ofString p.toString = p := by
  obtain ⟨root, names⟩ := p
  by_cases hdot : root = .none ∧ names = []
  · obtain ⟨rfl, rfl⟩ := hdot
    cbv
  · have htext : (toString ⟨root, names⟩).toList =
        root.text.toList ++ ['/'].intercalate (names.map String.toList) := by
      rw [toString, if_neg (by simpa using hdot), String.toList_append, String.toList_intercalate]
      rfl
    rw [ofString, htext, rootOf_append root (intercalate_ne_slash h), filter_splitSlashes_append,
      filter_splitSlashes_intercalate h]

end ResolverWiring.Files.Path
