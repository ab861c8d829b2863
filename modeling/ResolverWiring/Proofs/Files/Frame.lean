import ResolverWiring.Proofs.Files.Directories

/-!
# `Proofs.Files.Frame` — files that differ at a few paths only

A change of the files is told by two lists of paths: those at which a file that was there may have other bytes
(`replaced`), and those at which a file may have come up where nothing was (`made`). Everything else stays, and nothing
is ever gone (`FileSystem.ChangesOnly`). Changes of this form compose, since the working directory is never left and
a path therefore denotes the same place before and after (`ChangesOnly.trans`).

There is one lemma for each way to change files: writing a file and making directories.
-/

namespace ResolverWiring.Files

/-! ## Where paths lead -/

namespace FileSystem

variable {fs between after : FileSystem} {path : Path} {place : List String} {bytes : ByteArray}

/-- The place that a path denotes, whatever is there. -/
def placeOf (fs : FileSystem) (path : Path) : List String :=
  Path.walk (if path.isAbsolute then [] else fs.directory) path.names

/-- The place that a path denotes depends on the working directory alone. -/
theorem placeOf_congr (h : after.directory = fs.directory) (path : Path) : after.placeOf path = fs.placeOf path := by
  rw [placeOf, placeOf, h]

/-- A walk that arrives does so where the names say. -/
theorem walk_eq_ok {root : Node} {here names : List String} (h : walk root here names = .ok place) :
    place = Path.walk here names := by
  induction names generalizing here with
  | nil => exact (Except.ok.inj h).symm
  | cons name names ih =>
    rw [walk] at h
    split at h
    · cases h
    · cases h
    · split at h
      · cases h
      · exact ih h

/-- A path leads nowhere but to the place that it denotes. -/
theorem locate_eq_placeOf (h : fs.locate path = .ok place) : place = fs.placeOf path :=
  walk_eq_ok (locate_eq_ok.mp h).2.2

/-! ## Changes -/

/-- How files differ from what they were. Nothing is gone; a file has other bytes only where a path of `replaced` leads;
and a file has come up only where a path of `made` leads. Directories may have come up anywhere. -/
structure ChangesOnly (replaced made : List Path) (before after : FileSystem) : Prop where
  directory : after.directory = before.directory
  directories : ∀ place, before.contentAt place = some .directory → after.contentAt place = some .directory
  files : ∀ place bytes, before.contentAt place = some (.file bytes) →
    ∃ bytes', after.contentAt place = some (.file bytes') ∧ (bytes' = bytes ∨ place ∈ replaced.map before.placeOf)
  fresh : ∀ place bytes, before.contentAt place = none → after.contentAt place = some (.file bytes) →
    place ∈ made.map before.placeOf

namespace ChangesOnly

variable {replaced made replaced' made' : List Path}

theorem refl (replaced made : List Path) (fs : FileSystem) : ChangesOnly replaced made fs fs where
  directory := rfl
  directories := fun _ h => h
  files := fun _ bytes h => ⟨bytes, h, .inl rfl⟩
  fresh := fun place bytes hnone hfile => by
    rw [hnone] at hfile
    cases hfile

theorem mono (h : ChangesOnly replaced made fs after) (hreplaced : replaced ⊆ replaced') (hmade : made ⊆ made') :
    ChangesOnly replaced' made' fs after where
  directory := h.directory
  directories := h.directories
  files := fun place bytes hfile => by
    obtain ⟨bytes', hafter, hbytes⟩ := h.files place bytes hfile
    exact ⟨bytes', hafter, hbytes.imp_right fun hmem => List.map_subset _ hreplaced hmem⟩
  fresh := fun place bytes hnone hfile => List.map_subset _ hmade (h.fresh place bytes hnone hfile)

theorem trans (h : ChangesOnly replaced made fs between) (h' : ChangesOnly replaced made between after) :
    ChangesOnly replaced made fs after := by
  have hsame : between.placeOf = fs.placeOf := funext (placeOf_congr h.directory)
  refine ⟨h'.directory.trans h.directory, fun place hplace => h'.directories place (h.directories place hplace), ?_, ?_⟩
  · intro place bytes hbefore
    obtain ⟨bytes₁, hbetween, hfirst⟩ := h.files place bytes hbefore
    obtain ⟨bytes₂, hafter, hsecond⟩ := h'.files place bytes₁ hbetween
    rw [hsame] at hsecond
    refine ⟨bytes₂, hafter, ?_⟩
    rcases hsecond with rfl | hmem
    · exact hfirst
    · exact .inr hmem
  · intro place bytes hbefore hafter
    cases hbetween : between.contentAt place with
    | none =>
      rw [← hsame]
      exact h'.fresh place bytes hbetween hafter
    | some content =>
      cases content with
      | file bytes₁ => exact h.fresh place bytes₁ hbefore hbetween
      | directory =>
        -- a directory that came up first stays one
        have hdirectory := h'.directories place hbetween
        rw [hafter] at hdirectory
        cases hdirectory

end ChangesOnly

/-! ## Ways to change files -/

theorem write_changesOnly (h : fs.write path bytes = .ok after) : ChangesOnly [path] [path] fs after := by
  obtain ⟨place, hlocate, hplace, rfl⟩ := write_eq_ok.mp h
  obtain rfl := locate_eq_placeOf hlocate
  have hothers : ∀ other, other ≠ fs.placeOf path →
      (fs.root.put (fs.placeOf path) (.file bytes)).contentAt other = fs.contentAt other :=
    fun other hne => Node.contentAt_put_file fs.root bytes hplace hne
  refine ⟨rfl, fun other hother => ?_, fun other old hother => ?_, fun other new hnone hnew => ?_⟩
  · have hne : other ≠ fs.placeOf path := by
      rintro rfl
      exact hplace hother
    exact (hothers other hne).trans hother
  · by_cases hne : other = fs.placeOf path
    · subst hne
      rcases Node.put_eq_or_get? fs.root (fs.placeOf path) (.file bytes) with hsame | hput
      · exact ⟨old, (congrArg (Node.contentAt · _) hsame).trans hother, .inl rfl⟩
      · exact ⟨bytes, congrArg (Option.map Node.content) hput, .inr (List.mem_singleton.mpr rfl)⟩
    · exact ⟨old, (hothers other hne).trans hother, .inl rfl⟩
  · by_contra hne
    have hsame := hothers other fun heq => hne (List.mem_singleton.mpr heq)
    cases hnew.symm.trans (hsame.trans hnone)

/-- Where nothing was, writing a file replaces none. -/
theorem write_fresh_changesOnly (h : fs.write path bytes = .ok after) (hnone : fs.contentAt (fs.placeOf path) = none) :
    ChangesOnly [] [path] fs after := by
  have hwrite := write_changesOnly h
  refine { hwrite with files := fun place old hold => ?_ }
  obtain ⟨bytes', hafter, hbytes⟩ := hwrite.files place old hold
  refine ⟨bytes', hafter, .inl (hbytes.resolve_right fun hmem => ?_)⟩
  rw [List.mem_singleton.mp hmem, hnone] at hold
  cases hold

theorem Grown.changesOnly (h : Grown path fs after) (replaced made : List Path) : ChangesOnly replaced made fs after where
  directory := h.directory
  directories := fun place hplace => h.kept place .directory hplace
  files := fun place bytes hplace => ⟨bytes, h.kept place _ hplace, .inl rfl⟩
  fresh := fun place bytes hnone hfile => by
    rcases h.added place hnone with hstill | ⟨hdirectory, -⟩
    · cases hstill.symm.trans hfile
    · cases hdirectory.symm.trans hfile

end FileSystem

end ResolverWiring.Files
