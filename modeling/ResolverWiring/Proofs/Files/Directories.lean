import ResolverWiring.Proofs.Files.Tree

/-!
# `Proofs.Files.Directories` — making directories adds directories and nothing else

Making the directories that lead to a path makes them one by one, and stops at the first that cannot be made. Each
one is put where nothing was, so whatever happens, the files have grown by empty directories on the way to the path
(`FileSystem.Grown`, `makeDirectories_grown`), and they are the same if no place has become a directory.
-/

namespace ResolverWiring.Files.FileSystem

variable {fs between after : FileSystem} {path : Path} {place : List String}

/-- Whether a place is where a path leads to, or a path in front of it. -/
def IsOnTheWay (fs : FileSystem) (path : Path) (place : List String) : Prop :=
  ∃ n, fs.locate ⟨path.root, path.names.take n⟩ = .ok place

/-- Whether files have grown by empty directories on the way to a path. -/
structure Grown (path : Path) (before after : FileSystem) : Prop where
  directory : after.directory = before.directory
  kept : ∀ place content, before.contentAt place = some content → after.contentAt place = some content
  added : ∀ place, before.contentAt place = none → after.contentAt place = none ∨
    after.contentAt place = some .directory ∧ after.IsOnTheWay path place
  same : (∀ place, after.contentAt place = some .directory → before.contentAt place = some .directory) →
    after = before

/-- A path leads to the same place when directories have come up. -/
theorem locate_of_directories (fs : FileSystem) (hdirectory : after.directory = fs.directory)
    (hkept : ∀ place, fs.contentAt place = some .directory → after.contentAt place = some .directory)
    (h : fs.locate path = .ok place) : after.locate path = .ok place := by
  obtain ⟨hnull, hlength, hwalk⟩ := locate_eq_ok.mp h
  rw [← hdirectory] at hwalk
  exact locate_eq_ok.mpr ⟨hnull, hlength, walk_of_directories hkept hwalk⟩

namespace Grown

theorem refl (path : Path) (fs : FileSystem) : Grown path fs fs :=
  ⟨rfl, fun _ _ h => h, fun _ h => .inl h, fun _ => rfl⟩

theorem onTheWay (h : Grown path fs after) (hplace : fs.IsOnTheWay path place) : after.IsOnTheWay path place := by
  obtain ⟨n, hlocate⟩ := hplace
  exact ⟨n, locate_of_directories fs h.directory (fun place => h.kept place .directory) hlocate⟩

theorem trans (h : Grown path fs between) (h' : Grown path between after) : Grown path fs after where
  directory := h'.directory.trans h.directory
  kept place content hcontent := h'.kept place content (h.kept place content hcontent)
  added place hnone := by
    rcases h.added place hnone with hnone | ⟨hdirectory, hway⟩
    · exact h'.added place hnone
    · exact .inr ⟨h'.kept place _ hdirectory, h'.onTheWay hway⟩
  same hsame := by
    have hfirst : between = fs := h.same fun place hdirectory => hsame place (h'.kept place _ hdirectory)
    subst hfirst
    exact h'.same hsame

/-- What is on the way to the parent of a path is on the way to the path. -/
theorem of_parent (h : Grown path.parent fs after) : Grown path fs after :=
  { h with
    added := fun place hnone => (h.added place hnone).imp_right fun ⟨hdirectory, n, hlocate⟩ => by
      refine ⟨hdirectory, min n (path.names.length - 1), ?_⟩
      rw [Path.parent, List.dropLast_eq_take, List.take_take] at hlocate
      exact hlocate }

end Grown

/-! ## Making directories -/

theorem makeDirectory_of_some {place : List String} {node : Node} (hlocate : fs.locate path = .ok place)
    (hnode : fs.root.get? place = some node) : fs.makeDirectory path = .error (.failed .exists path) := by
  simp only [makeDirectory, hlocate, bind, Except.bind, hnode]

theorem makeDirectory_of_none {place : List String} (hlocate : fs.locate path = .ok place)
    (hnode : fs.root.get? place = none) :
    fs.makeDirectory path = .ok { fs with root := fs.root.put place (.directory []) } := by
  simp only [makeDirectory, hlocate, bind, Except.bind, hnode]
  rfl

theorem makeDirectory_eq_ok (h : fs.makeDirectory path = .ok after) :
    ∃ place, fs.locate path = .ok place ∧ fs.root.get? place = none ∧
      after = { fs with root := fs.root.put place (.directory []) } := by
  cases hlocate : fs.locate path with
  | error e =>
    rw [makeDirectory, hlocate] at h
    cases h
  | ok place =>
    cases hnode : fs.root.get? place with
    | some node => cases (makeDirectory_of_some hlocate hnode).symm.trans h
    | none => exact ⟨place, rfl, hnode, (Except.ok.inj ((makeDirectory_of_none hlocate hnode).symm.trans h)).symm⟩

/-- One directory is made where nothing was. -/
theorem makeDirectory_grown (h : fs.makeDirectory path = .ok after) : Grown path fs after := by
  obtain ⟨place, hlocate, hnone, rfl⟩ := makeDirectory_eq_ok h
  rcases Node.put_eq_or_get? fs.root place (.directory []) with hsame | hput
  · rw [hsame]
    exact .refl path fs
  · have hbefore : fs.contentAt place = none := congrArg (Option.map Node.content) hnone
    have hafter : (fs.root.put place (.directory [])).contentAt place = some .directory :=
      congrArg (Option.map Node.content) hput
    have hkept : ∀ other content, fs.contentAt other = some content →
        (fs.root.put place (.directory [])).contentAt other = some content := by
      intro other content hcontent
      have hne : other ≠ place := by
        rintro rfl
        rw [hbefore] at hcontent
        cases hcontent
      rwa [Node.contentAt_put_empty hnone hne]
    refine ⟨rfl, hkept, fun other hother => ?_, fun hall => ?_⟩
    · -- the only place that comes up is that of the path itself
      by_cases hne : other = place
      · subst hne
        refine .inr ⟨hafter, path.names.length, ?_⟩
        rw [List.take_length]
        exact locate_of_directories fs rfl (fun place => hkept place .directory) hlocate
      · exact .inl ((Node.contentAt_put_empty hnone hne).trans hother)
    · have hthere := hall place hafter
      rw [hbefore] at hthere
      cases hthere

theorem ensureDirectory_grown (h : fs.ensureDirectory path = .ok after) : Grown path fs after := by
  unfold ensureDirectory at h
  cases hmake : fs.makeDirectory path with
  | ok changed =>
    rw [hmake] at h
    cases h
    exact makeDirectory_grown hmake
  | error e =>
    rw [hmake] at h
    dsimp only at h
    cases hmissing : e.isMissing with
    | true =>
      rw [hmissing] at h
      cases h
    | false =>
      rw [hmissing] at h
      -- nothing is made, and the directory has to be there
      change (fs.isDirectory path >>= fun there => if there then .ok fs else .error e) = _ at h
      cases hthere : fs.isDirectory path with
      | error fault =>
        rw [hthere] at h
        cases h
      | ok there =>
        rw [hthere] at h
        cases there <;> cases h
        exact .refl path fs

/-- The run: what one step preserves is carried through the directories on the way. -/
theorem ensureDirectories_grown (fs : FileSystem) (path : Path) (bound : Nat) :
    Grown path fs (fs.ensureDirectories path bound).1 := by
  induction bound generalizing path with
  | zero => exact .refl path fs
  | succ bound ih =>
    rw [ensureDirectories]
    cases hfirst : fs.ensureDirectory path with
    | ok changed => exact ensureDirectory_grown hfirst
    | error e =>
      dsimp only
      split
      · -- the parent comes first, and what it has grown stays even if the path itself fails
        have hparent := (ih path.parent).of_parent
        cases hrun : fs.ensureDirectories path.parent bound with
        | mk changed error? =>
          rw [hrun] at hparent
          cases error? with
          | some e => exact hparent
          | none =>
            dsimp only
            cases hlast : changed.ensureDirectory path with
            | ok changed' => exact hparent.trans (ensureDirectory_grown hlast)
            | error e => exact hparent
      · exact .refl path fs

/-- **Making directories adds directories and nothing else**, on the way to the path, whether or not all of them can
be made. -/
theorem makeDirectories_grown (fs : FileSystem) (path : Path) : Grown path fs (fs.makeDirectories path).1 :=
  ensureDirectories_grown fs path _

/-! ## Paths that files can have -/

theorem makeDirectory_ne_null (hpath : path.hasNull = false) : fs.makeDirectory path ≠ .error .nullInPath := by
  cases hlocate : fs.locate path with
  | error e =>
    rw [makeDirectory, hlocate]
    exact fun h => locate_ne_null hpath (by cases h; exact hlocate)
  | ok place =>
    cases hnode : fs.root.get? place with
    | some node => simp [makeDirectory_of_some hlocate hnode]
    | none => simp [makeDirectory_of_none hlocate hnode]

theorem ensureDirectory_ne_null (hpath : path.hasNull = false) :
    fs.ensureDirectory path ≠ .error .nullInPath := by
  unfold ensureDirectory
  cases hmake : fs.makeDirectory path with
  | ok changed => exact nofun
  | error e =>
    have hne : e ≠ .nullInPath := fun he => makeDirectory_ne_null hpath (he ▸ hmake)
    dsimp only
    split
    · exact fun h => hne (Except.error.inj h)
    · show (fs.isDirectory path >>= fun there => if there then .ok fs else .error e) ≠ _
      cases hthere : fs.isDirectory path with
      | error fault => exact fun h => isDirectory_ne_null (by cases h; exact hthere)
      | ok there =>
        cases there with
        | true => exact nofun
        | false => exact fun h => hne (Except.error.inj h)

theorem hasNull_parent (hpath : path.hasNull = false) : path.parent.hasNull = false :=
  List.any_eq_false.mpr fun name hname => List.any_eq_false.mp hpath name (List.mem_of_mem_dropLast hname)

/-- Directories on the way to a path that files can have are not refused for the form of the path. -/
theorem makeDirectories_ne_null (hpath : path.hasNull = false) :
    (fs.makeDirectories path).2 ≠ some .nullInPath := by
  -- each step goes to the parent, so the induction is on the bound for all paths
  suffices h : ∀ bound, ∀ path : Path, path.hasNull = false → (fs.ensureDirectories path bound).2 ≠ some .nullInPath from
    h _ path hpath
  intro bound
  induction bound with
  | zero => exact fun _ _ => nofun
  | succ bound ih =>
    intro path hpath
    rw [ensureDirectories]
    cases hfirst : fs.ensureDirectory path with
    | ok changed => exact nofun
    | error e =>
      dsimp only
      split
      · have hparent := ih path.parent (hasNull_parent hpath)
        cases hrun : fs.ensureDirectories path.parent bound with
        | mk changed error? =>
          rw [hrun] at hparent
          cases error? with
          | some e => exact hparent
          | none =>
            dsimp only
            cases hlast : changed.ensureDirectory path with
            | ok changed' => exact nofun
            | error e => exact fun h => ensureDirectory_ne_null hpath (by cases h; exact hlast)
      · exact fun h => ensureDirectory_ne_null hpath (by cases h; exact hfirst)

end ResolverWiring.Files.FileSystem
