import Mathlib.Data.List.Infix
import ResolverWiring.Files.Path

/-!
# `Proofs.Files.Path` — where resolved paths lead

A path that has been resolved is the path of a place: it starts at the root and never steps back. Where it
leads can therefore be read off its names.
-/

namespace ResolverWiring.Files.Path

/-- A walk collects the names of the directory where it starts and those along which it goes. -/
theorem mem_walk {directory names : List String} {name : String} (h : name ∈ walk directory names) :
    name ∈ directory ∨ name ∈ names := by
  induction names generalizing directory with
  | nil => exact .inl h
  | cons next names ih =>
    rcases ih h with hstep | h
    · unfold step at hstep
      split at hstep
      · exact .inl (List.mem_of_mem_dropLast hstep)
      · rcases List.mem_append.mp hstep with h | h
        · exact .inl h
        · exact .inr (List.mem_cons.mpr (.inl (List.mem_singleton.mp h)))
    · exact .inr (List.mem_cons_of_mem next h)

theorem parent_not_mem_walk {directory : List String} (names : List String) (h : ".." ∉ directory) :
    ".." ∉ walk directory names := by
  induction names generalizing directory with
  | nil => exact h
  | cons next names ih =>
    refine ih (fun hmem : ".." ∈ step directory next => ?_)
    unfold step at hmem
    split at hmem
    · exact h (List.mem_of_mem_dropLast hmem)
    · rename_i hnext
      rcases List.mem_append.mp hmem with hmem | hmem
      · exact h hmem
      · exact hnext (List.mem_singleton.mp hmem).symm

/-- A path of a place: absolute, without a step back, and such as a file can have. -/
structure IsResolved (p : Path) : Prop where
  root : p.root = .single
  forward : ".." ∉ p.names
  noNull : p.hasNull = false

theorem isResolved_resolve {directory p : Path} (hdirectory : directory.hasNull = false)
    (hp : p.hasNull = false) : (resolve directory p).IsResolved := by
  refine ⟨rfl, parent_not_mem_walk _ List.not_mem_nil, ?_⟩
  refine List.any_eq_false.mpr fun name hname => ?_
  rcases mem_walk hname with h | h
  · cases h
  · unfold join at h
    split at h
    · exact List.any_eq_false.mp hp name h
    · rcases List.mem_append.mp h with h | h
      · exact List.any_eq_false.mp hdirectory name h
      · exact List.any_eq_false.mp hp name h

theorem IsResolved.parent {p : Path} (h : p.IsResolved) : p.parent.IsResolved :=
  ⟨h.root, fun hmem => h.forward (List.mem_of_mem_dropLast hmem),
    List.any_eq_false.mpr fun name hname =>
      List.any_eq_false.mp h.noNull name (List.mem_of_mem_dropLast hname)⟩

end ResolverWiring.Files.Path
