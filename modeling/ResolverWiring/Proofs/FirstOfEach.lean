import Mathlib.Data.List.Induction
import Mathlib.Data.List.Nodup
import ResolverWiring.Schema.Merge

/-!
# `Proofs.FirstOfEach` — items without those that repeat an earlier one

`leading` says which items of a list stay when repetitions go: those that no item in front of them is the same as.
Adding an item at the end adds it or nothing (`leading_concat`), which is all that a proof by induction needs.

`firstOfEach`, which looks at each item once, computes it (`firstOfEach_eq_leading`). It can be applied to parts of a
list first (`firstOfEach_append_left`, `firstOfEach_append_right`).
-/

namespace ResolverWiring.Graphql

variable {α : Type} {same : α → α → Bool} {key : α → String} {items others : List α} {item : α}

/-! ## Leading items -/

/-- The items that no item in front of them is the same as. -/
def leading (same : α → α → Bool) (items : List α) : List α :=
  (items.zipIdx.filter fun (item, place) => !(items.take place).any (same · item)).map (·.1)

theorem leading_concat (same : α → α → Bool) (items : List α) (item : α) :
    leading same (items ++ [item])
      = if items.any (same · item) then leading same items else leading same items ++ [item] := by
  -- in front of the items that were there is what was in front of them
  have hfront : (items.zipIdx.filter fun (other, place) => !((items ++ [item]).take place).any (same · other))
      = items.zipIdx.filter fun (other, place) => !(items.take place).any (same · other) := by
    refine List.filter_congr fun ⟨other, place⟩ hentry => ?_
    have hplace : place < items.length := by
      have := List.mem_zipIdx hentry
      omega
    dsimp only
    rw [List.take_append_of_le_length (Nat.le_of_lt hplace)]
  unfold leading
  rw [List.zipIdx_append, List.filter_append, hfront, List.map_append]
  by_cases hany : items.any (same · item)
  · simp [hany]
  · simp [hany]

theorem leading_sublist (same : α → α → Bool) (items : List α) : (leading same items).Sublist items := by
  have hsublist := (List.filter_sublist (p := fun (entry : α × Nat) => !(items.take entry.2).any (same · entry.1))
    (l := items.zipIdx)).map Prod.fst
  rwa [List.zipIdx_map_fst] at hsublist

/-! ## The first item of each key -/

theorem go_concat (key : α → String) (seen : List String) (items : List α) (item : α) :
    firstOfEach.go key seen (items ++ [item])
      = if key item ∈ seen ∨ key item ∈ items.map key then firstOfEach.go key seen items
        else firstOfEach.go key seen items ++ [item] := by
  induction items generalizing seen with
  | nil => by_cases hseen : key item ∈ seen <;> simp [firstOfEach.go, hseen]
  | cons first items ih =>
    rw [List.cons_append, firstOfEach.go, firstOfEach.go, List.map_cons]
    by_cases hfirst : key first ∈ seen
    · -- an item that is left out has a key that has been seen
      have hkey : (key item ∈ seen ∨ key item ∈ key first :: items.map key)
          ↔ (key item ∈ seen ∨ key item ∈ items.map key) := by
        rw [List.mem_cons]
        constructor
        · rintro (h | h | h)
          · exact .inl h
          · exact .inl (h ▸ hfirst)
          · exact .inr h
        · exact Or.imp_right .inr
      simp only [List.contains_iff_mem, hfirst, if_true, ih, hkey]
    · have hkey : (key item ∈ key first :: seen ∨ key item ∈ items.map key)
          ↔ (key item ∈ seen ∨ key item ∈ key first :: items.map key) := by
        simp only [List.mem_cons]
        tauto
      simp only [List.contains_iff_mem, hfirst, if_false, ih, hkey]
      split <;> rfl

theorem firstOfEach_concat (key : α → String) (items : List α) (item : α) :
    firstOfEach key (items ++ [item])
      = if key item ∈ items.map key then firstOfEach key items else firstOfEach key items ++ [item] := by
  rw [firstOfEach, go_concat, firstOfEach]
  simp only [List.not_mem_nil, false_or]

/-- The first items of each key are those that have no item with their key in front of them. -/
theorem firstOfEach_eq_leading (key : α → String) (items : List α) :
    firstOfEach key items = leading (fun a b => key a == key b) items := by
  induction items using List.reverseRecOn with
  | nil => rfl
  | append_singleton items item ih =>
    have hany : (items.any fun a => key a == key item) = true ↔ key item ∈ items.map key := by
      simp [List.mem_map]
    rw [firstOfEach_concat, leading_concat, ih]
    simp only [hany]

theorem mem_keys_firstOfEach {name : String} : name ∈ (firstOfEach key items).map key ↔ name ∈ items.map key := by
  induction items using List.reverseRecOn with
  | nil => rfl
  | append_singleton items item ih =>
    rw [firstOfEach_concat]
    by_cases hitem : key item ∈ items.map key
    · rw [if_pos hitem, ih, List.map_append, List.mem_append, List.map_singleton, List.mem_singleton]
      exact ⟨.inl, fun h => h.elim id fun heq => heq ▸ hitem⟩
    · rw [if_neg hitem, List.map_append, List.map_append, List.mem_append, List.mem_append, ih]

theorem nodup_keys_firstOfEach (key : α → String) (items : List α) : ((firstOfEach key items).map key).Nodup := by
  induction items using List.reverseRecOn with
  | nil => exact List.nodup_nil
  | append_singleton items item ih =>
    rw [firstOfEach_concat]
    by_cases hitem : key item ∈ items.map key
    · rwa [if_pos hitem]
    · rw [if_neg hitem, List.map_append, List.nodup_append]
      refine ⟨ih, List.nodup_singleton _, fun name hname other hother heq => hitem ?_⟩
      rw [List.mem_singleton.mp hother] at heq
      exact heq ▸ mem_keys_firstOfEach.mp hname

/-- Where all keys are different, every item stays. -/
theorem firstOfEach_of_nodup (h : (items.map key).Nodup) : firstOfEach key items = items := by
  induction items using List.reverseRecOn with
  | nil => rfl
  | append_singleton items item ih =>
    rw [List.map_append, List.nodup_append] at h
    have hitem : key item ∉ items.map key := fun hmem => h.2.2 _ hmem _ (List.mem_singleton.mpr rfl) rfl
    rw [firstOfEach_concat, if_neg hitem, ih h.1]

/-! ## Parts of a list -/

/-- Repetitions can be left out of the items in front first. -/
theorem firstOfEach_append_left (key : α → String) (items others : List α) :
    firstOfEach key (firstOfEach key items ++ others) = firstOfEach key (items ++ others) := by
  induction others using List.reverseRecOn with
  | nil => rw [List.append_nil, List.append_nil, firstOfEach_of_nodup (nodup_keys_firstOfEach key items)]
  | append_singleton others item ih =>
    have hkeys : key item ∈ (firstOfEach key items ++ others).map key ↔ key item ∈ (items ++ others).map key := by
      rw [List.map_append, List.map_append, List.mem_append, List.mem_append, mem_keys_firstOfEach]
    rw [← List.append_assoc, ← List.append_assoc, firstOfEach_concat, firstOfEach_concat, ih]
    simp only [hkeys]

/-- Repetitions can be left out of the items behind first. -/
theorem firstOfEach_append_right (key : α → String) (items others : List α) :
    firstOfEach key (items ++ firstOfEach key others) = firstOfEach key (items ++ others) := by
  induction others using List.reverseRecOn with
  | nil => rfl
  | append_singleton others item ih =>
    rw [firstOfEach_concat key others, ← List.append_assoc, firstOfEach_concat key (items ++ others)]
    by_cases hothers : key item ∈ others.map key
    · rw [if_pos hothers, if_pos (by rw [List.map_append]; exact List.mem_append_right _ hothers), ih]
    · rw [if_neg hothers, ← List.append_assoc, firstOfEach_concat, ih]
      have hkeys : key item ∈ (items ++ firstOfEach key others).map key ↔ key item ∈ (items ++ others).map key := by
        rw [List.map_append, List.map_append, List.mem_append, List.mem_append, mem_keys_firstOfEach]
      simp only [hkeys]

end ResolverWiring.Graphql
