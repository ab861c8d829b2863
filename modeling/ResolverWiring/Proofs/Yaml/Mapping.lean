import Mathlib.Data.List.Nodup
import ResolverWiring.Resources

/-!
# `Proofs.Yaml.Mapping` — the entries of mappings

A mapping has an entry for each of its keys, whichever values are one key (`DistinctKeys`). An entry that is
added is found by its key and changes no other one (`lookup?_insert`), and adding entries keeps those of other
keys (`mem_overlay`). Entries whose keys differ already are the mapping that is written with them
(`ofEntries_of_distinct`).
-/

namespace ResolverWiring.Yaml.Value

open Decimal

variable {entries others : Entries} {key value : Value} {name : String}

/-- A text is the same key only as itself. -/
theorem sameKey_string : key.sameKey (.string name) = true ↔ key = .string name := by
  cases key <;> simp [sameKey]

/-! ## Looking up -/

/-- No two entries have one key. -/
def DistinctKeys (entries : Entries) : Prop := entries.Pairwise fun a b => a.1.sameKey b.1 = false

theorem lookup?_cons (entry : Value × Value) (entries : Entries) (name : String) :
    lookup? (entry :: entries) name
      = if entry.1.sameKey (.string name) then some entry.2 else lookup? entries name := by
  obtain ⟨k, v⟩ := entry
  unfold lookup?
  rw [List.find?_cons]
  dsimp only
  cases k.sameKey (.string name) <;> rfl

/-- An entry that is added is found under its key, and no other one is changed. -/
theorem lookup?_insert (entries : Entries) (key : String) (value : Value) (name : String) :
    lookup? (insert entries (.string key) value) name
      = if key = name then some value else lookup? entries name := by
  have hkey : (Value.string key).sameKey (.string name) = decide (key = name) := by
    rw [sameKey]
    exact beq_eq_decide key name
  induction entries with
  | nil =>
    rw [insert, lookup?_cons, hkey]
    simp only [decide_eq_true_eq]
  | cons entry entries ih =>
    obtain ⟨k, v⟩ := entry
    unfold insert
    split
    · rename_i hsame
      rw [sameKey_string.mp hsame, lookup?_cons, lookup?_cons, hkey]
      simp only [decide_eq_true_eq]
      split <;> rfl
    · rename_i hother
      rw [lookup?_cons, lookup?_cons, ih]
      by_cases hk : k.sameKey (.string name) = true
      · have hne : key ≠ name := by
          rintro rfl
          exact hother hk
        rw [if_pos hk, if_neg hne, if_pos hk]
      · rw [if_neg hk, if_neg hk]

/-- The entry of a key is found, if no other one has this key. -/
theorem lookup?_of_mem (hdistinct : DistinctKeys entries) (h : (.string name, value) ∈ entries) :
    lookup? entries name = some value := by
  induction entries with
  | nil => cases h
  | cons entry entries ih =>
    obtain ⟨hentry, hentries⟩ := List.pairwise_cons.mp hdistinct
    rw [lookup?_cons]
    rcases List.mem_cons.mp h with rfl | hmem
    · rw [if_pos (sameKey_string.mpr rfl)]
    · rw [if_neg (Bool.eq_false_iff.mp (hentry _ hmem))]
      exact ih hentries hmem

/-! ## Adding entries -/

theorem keys_insert_mem {entry : Value × Value} (h : entry ∈ insert entries key value) :
    entry.1 = key ∨ ∃ old ∈ entries, old.1 = entry.1 := by
  induction entries with
  | nil => exact .inl (by rw [List.mem_singleton.mp h])
  | cons first entries ih =>
    obtain ⟨k, v⟩ := first
    unfold insert at h
    split at h
    · rcases List.mem_cons.mp h with rfl | hmem
      · exact .inr ⟨(k, v), List.mem_cons_self, rfl⟩
      · exact .inr ⟨entry, List.mem_cons_of_mem _ hmem, rfl⟩
    · rcases List.mem_cons.mp h with rfl | hmem
      · exact .inr ⟨(k, v), List.mem_cons_self, rfl⟩
      · rcases ih hmem with heq | ⟨old, hold, heq⟩
        · exact .inl heq
        · exact .inr ⟨old, List.mem_cons_of_mem _ hold, heq⟩

/-- Adding an entry leaves the keys distinct. -/
theorem DistinctKeys.insert (h : DistinctKeys entries) (key value : Value) :
    DistinctKeys (insert entries key value) := by
  induction entries with
  | nil => exact List.pairwise_singleton _ _
  | cons entry entries ih =>
    obtain ⟨k, v⟩ := entry
    obtain ⟨hentry, hentries⟩ := List.pairwise_cons.mp h
    unfold Value.insert
    split
    · exact List.pairwise_cons.mpr ⟨hentry, hentries⟩
    · rename_i hother
      refine List.pairwise_cons.mpr ⟨fun added hadded => ?_, ih hentries⟩
      rcases keys_insert_mem hadded with heq | ⟨old, hold, heq⟩
      · rw [heq]
        exact eq_false_of_ne_true hother
      · rw [← heq]
        exact hentry old hold

/-- An entry stays when one is added that has another key, or the same value. -/
theorem mem_insert {entry : Value × Value} (hmem : entry ∈ entries)
    (hvalue : entry.1.sameKey key = true → entry.2 = value) : entry ∈ insert entries key value := by
  induction entries with
  | nil => cases hmem
  | cons first entries ih =>
    obtain ⟨k, v⟩ := first
    unfold insert
    split
    · rename_i hsame
      rcases List.mem_cons.mp hmem with rfl | hmem
      · rw [← hvalue hsame]
        exact List.mem_cons_self
      · exact List.mem_cons_of_mem _ hmem
    · rcases List.mem_cons.mp hmem with rfl | hmem
      · exact List.mem_cons_self
      · exact List.mem_cons_of_mem _ (ih hmem)

theorem insert_of_fresh (h : ∀ entry ∈ entries, entry.1.sameKey key = false) :
    insert entries key value = entries ++ [(key, value)] := by
  induction entries with
  | nil => rfl
  | cons entry entries ih =>
    obtain ⟨k, v⟩ := entry
    obtain ⟨hentry, hentries⟩ := List.forall_mem_cons.mp h
    rw [insert, if_neg (Bool.eq_false_iff.mp hentry), ih hentries]
    rfl

/-! ## Many entries -/

theorem overlay_cons (entries : Entries) (entry : Value × Value) (others : Entries) :
    overlay entries (entry :: others) = overlay (insert entries entry.1 entry.2) others := rfl

theorem DistinctKeys.overlay (h : DistinctKeys entries) (others : Entries) :
    DistinctKeys (overlay entries others) := by
  induction others generalizing entries with
  | nil => exact h
  | cons entry others ih => exact ih (h.insert entry.1 entry.2)

/-- An entry stays when entries are added that have other keys, or the same value. -/
theorem mem_overlay {entry : Value × Value} (hmem : entry ∈ entries)
    (hvalue : ∀ other ∈ others, entry.1.sameKey other.1 = true → entry.2 = other.2) :
    entry ∈ overlay entries others := by
  induction others generalizing entries with
  | nil => exact hmem
  | cons other others ih =>
    obtain ⟨hother, hothers⟩ := List.forall_mem_cons.mp hvalue
    exact ih (mem_insert hmem hother) hothers

/-- Entries whose keys are distinct, also from those that are there, are added behind them. -/
theorem overlay_of_distinct (h : DistinctKeys (entries ++ others)) : overlay entries others = entries ++ others := by
  induction others generalizing entries with
  | nil => exact (List.append_nil entries).symm
  | cons entry others ih =>
    have hfresh : ∀ old ∈ entries, old.1.sameKey entry.1 = false := fun old hold =>
      (List.pairwise_append.mp h).2.2 old hold entry List.mem_cons_self
    rw [overlay_cons, insert_of_fresh hfresh, ih]
    · rw [List.append_assoc]
      rfl
    · rw [List.append_assoc]
      exact h

/-- A mapping that is written with distinct keys has the entries with which it is written. -/
theorem ofEntries_of_distinct (h : DistinctKeys entries) : ofEntries entries = entries := by
  have hnone : DistinctKeys ([] ++ entries) := h
  exact overlay_of_distinct hnone

theorem lookup?_overlay_of_not_mem (entries : Entries) {others : List (String × Value)}
    (h : name ∉ others.map (·.1)) :
    lookup? (overlay entries (others.map fun entry => (.string entry.1, entry.2))) name = lookup? entries name := by
  induction others generalizing entries with
  | nil => rfl
  | cons other others ih =>
    rw [List.map_cons, List.mem_cons, not_or] at h
    rw [List.map_cons, overlay_cons, ih _ h.2, lookup?_insert, if_neg (Ne.symm h.1)]

/-- What is added last under a key is found. -/
theorem lookup?_overlay_of_mem (entries : Entries) {others : List (String × Value)}
    (hdistinct : (others.map (·.1)).Nodup) (hmem : (name, value) ∈ others) :
    lookup? (overlay entries (others.map fun entry => (.string entry.1, entry.2))) name = some value := by
  induction others generalizing entries with
  | nil => cases hmem
  | cons other others ih =>
    obtain ⟨hother, hothers⟩ := List.nodup_cons.mp hdistinct
    rw [List.map_cons, overlay_cons]
    rcases List.mem_cons.mp hmem with rfl | hmem
    · rw [lookup?_overlay_of_not_mem _ hother, lookup?_insert, if_pos rfl]
    · exact ih _ hothers hmem

end ResolverWiring.Yaml.Value
