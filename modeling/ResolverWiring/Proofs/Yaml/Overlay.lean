import Mathlib.Data.List.Basic
import ResolverWiring.Proofs.FirstOfEach
import ResolverWiring.Proofs.Yaml.Mapping

/-!
# `Proofs.Yaml.Overlay` — entries laid over others

Laying named entries over those of a mapping changes the values of names that are there and adds the other names
behind, each once (`IsOverlaid`). This determines the result: its keys in their order, and the value of each key.

One entry more keeps it that way (`IsOverlaid.insert`), so it holds however many are laid over a mapping, also when
they are made a mapping of their own first (`isOverlaid_ofEntries`).
-/

namespace ResolverWiring.Yaml.Value

open Graphql

variable {base result entries : Entries} {names : List String} {value? : String → Option Value} {key value : Value}
  {name : String}

/-! ## One entry -/

/-- A name is a key exactly if it is found. -/
theorem mem_keys_iff : .string name ∈ entries.map (·.1) ↔ (lookup? entries name).isSome = true := by
  induction entries with
  | nil => simp [lookup?]
  | cons entry entries ih =>
    rw [List.map_cons, List.mem_cons, lookup?_cons, ih]
    by_cases hkey : entry.1.sameKey (.string name) = true
    · rw [if_pos hkey, sameKey_string.mp hkey]
      simp
    · have hne : Value.string name ≠ entry.1 := fun heq => hkey (sameKey_string.mpr heq.symm)
      simp [hkey, hne]

theorem mem_of_lookup? (h : lookup? entries name = some value) : (.string name, value) ∈ entries := by
  induction entries with
  | nil => cases h
  | cons entry entries ih =>
    rw [lookup?_cons] at h
    split at h
    · rename_i hkey
      obtain ⟨k, v⟩ := entry
      obtain rfl : v = value := Option.some.inj h
      have hname : k = .string name := sameKey_string.mp hkey
      subst hname
      exact List.mem_cons_self
    · exact List.mem_cons_of_mem _ (ih h)

/-- An entry that is added has its place behind the others, unless its name is there already. -/
theorem keys_insert (entries : Entries) (name : String) (value : Value) :
    (insert entries (.string name) value).map (·.1)
      = if (lookup? entries name).isSome then entries.map (·.1) else entries.map (·.1) ++ [.string name] := by
  induction entries with
  | nil => rfl
  | cons entry entries ih =>
    rw [insert, lookup?_cons]
    by_cases hkey : entry.1.sameKey (.string name) = true
    · simp [hkey]
    · rw [if_neg hkey, if_neg hkey, List.map_cons, List.map_cons, ih]
      split <;> rfl

/-! ## Many entries -/

/-- Whether entries are those of a mapping with others laid over them, which have names as keys. The keys of the
mapping keep their places, and the names that it does not have follow in the order in which they first occur. Under
each name stands its value, and every other entry is as it was. -/
structure IsOverlaid (base : Entries) (names : List String) (value? : String → Option Value) (result : Entries) :
    Prop where
  distinct : DistinctKeys result
  keys : result.map (·.1) = base.map (·.1)
    ++ ((leading (· == ·) names).filter fun name => (lookup? base name).isNone).map .string
  laid : ∀ name ∈ names, ∃ value, value? name = some value ∧ (.string name, value) ∈ result
  kept : ∀ entry ∈ base, (∀ name ∈ names, entry.1 ≠ .string name) → entry ∈ result

theorem isOverlaid_nil (hbase : DistinctKeys base) (value? : String → Option Value) :
    IsOverlaid base [] value? base where
  distinct := hbase
  keys := (List.append_nil _).symm
  laid := nofun
  kept := fun _ hentry _ => hentry

theorem leading_names (names : List String) : leading (· == ·) names = firstOfEach id names :=
  (firstOfEach_eq_leading id names).symm

theorem mem_leading_names : name ∈ leading (· == ·) names ↔ name ∈ names := by
  have hkeys : name ∈ (firstOfEach id names).map id ↔ name ∈ names.map id := mem_keys_firstOfEach
  rwa [List.map_id, List.map_id, ← leading_names] at hkeys

/-- The names of the result are those of the mapping and those that are laid over it. -/
theorem IsOverlaid.isSome_lookup? (h : IsOverlaid base names value? result) (name : String) :
    (lookup? result name).isSome = true ↔ (lookup? base name).isSome = true ∨ name ∈ names := by
  rw [← mem_keys_iff, h.keys, List.mem_append, mem_keys_iff]
  apply or_congr_right'
  intro hnew
  rw [List.mem_map_of_injective (fun _ _ => string.inj), List.mem_filter, mem_leading_names]
  simp [Option.not_isSome_iff_eq_none.mp hnew]

/-- One more entry is laid over the others. -/
theorem IsOverlaid.insert (h : IsOverlaid base names value? result) (name : String) (value : Value) :
    IsOverlaid base (names ++ [name]) (fun other => if other = name then some value else value? other)
      (insert result (.string name) value) where
  distinct := h.distinct.insert _ _
  keys := by
    rw [keys_insert, h.keys, leading_concat]
    have hany : names.any (· == name) = true ↔ name ∈ names := by simp
    simp only [h.isSome_lookup? name, hany]
    by_cases hnames : name ∈ names
    · rw [if_pos (.inr hnames), if_pos hnames]
    · rw [if_neg hnames, List.filter_append, List.map_append, ← List.append_assoc]
      -- a name that is new comes last, unless the mapping has it
      by_cases hbase : (lookup? base name).isSome = true
      · obtain ⟨found, hfound⟩ := Option.isSome_iff_exists.mp hbase
        rw [if_pos (.inl hbase)]
        simp [hfound]
      · rw [if_neg (by simp [hbase, hnames])]
        simp [Option.not_isSome_iff_eq_none.mp hbase]
  laid := by
    intro other hother
    by_cases hsame : other = name
    · subst hsame
      refine ⟨value, if_pos rfl, mem_of_lookup? ?_⟩
      rw [lookup?_insert, if_pos rfl]
    · have hnames : other ∈ names := by simpa [hsame] using hother
      obtain ⟨given, hgiven, hmem⟩ := h.laid other hnames
      refine ⟨given, by rw [if_neg hsame, hgiven], mem_insert hmem ?_⟩
      intro hkey
      exact absurd (string.inj (sameKey_string.mp hkey)) hsame
  kept := by
    intro entry hentry hother
    refine mem_insert (h.kept entry hentry fun earlier hearlier => ?_) ?_
    · exact hother earlier (List.mem_append_left _ hearlier)
    · intro hkey
      exact absurd (sameKey_string.mp hkey) (hother name (List.mem_append_right _ List.mem_cons_self))

/-! ## Named entries -/

/-- Entries with names as keys. -/
def named (others : List (String × Value)) : Entries := others.map fun entry => (.string entry.1, entry.2)

variable {others : List (String × Value)}

theorem lookup_concat (others : List (String × Value)) (entry : String × Value) (name : String) :
    (others ++ [entry]).reverse.lookup name = if name = entry.1 then some entry.2 else others.reverse.lookup name := by
  rw [List.reverse_append, List.reverse_singleton, List.singleton_append, List.lookup_cons]
  by_cases hname : name = entry.1
  · rw [if_pos hname, hname, beq_self_eq_true]
  · rw [if_neg hname, beq_eq_false_iff_ne.mpr hname]

/-- Entries are laid over a mapping, the last one of each name. -/
theorem isOverlaid_overlay (hbase : DistinctKeys base) (others : List (String × Value)) :
    IsOverlaid base (others.map (·.1)) (others.reverse.lookup ·) (overlay base (named others)) := by
  induction others using List.reverseRecOn with
  | nil => exact isOverlaid_nil hbase _
  | append_singleton others entry ih =>
    have hstep := ih.insert entry.1 entry.2
    have hresult : overlay base (named (others ++ [entry]))
        = insert (overlay base (named others)) (.string entry.1) entry.2 := by
      simp [named, overlay]
    rw [hresult, List.map_append, List.map_singleton]
    simpa only [lookup_concat] using hstep

/-- Keys that are all names are those of named entries. -/
theorem exists_named (h : entries.map (·.1) = names.map .string) :
    ∃ others, entries = named others ∧ others.map (·.1) = names := by
  induction entries generalizing names with
  | nil =>
    obtain rfl := List.map_eq_nil_iff.mp h.symm
    exact ⟨[], rfl, rfl⟩
  | cons entry entries ih =>
    obtain ⟨name, behind, rfl, hname, hbehind⟩ := List.map_eq_cons_iff.mp h.symm
    obtain ⟨others, rfl, rfl⟩ := ih hbehind.symm
    refine ⟨(name, entry.2) :: others, ?_, rfl⟩
    show entry :: named others = (.string name, entry.2) :: named others
    rw [hname]

theorem leading_leading (names : List String) : leading (· == ·) (leading (· == ·) names) = leading (· == ·) names := by
  rw [leading_names, leading_names]
  apply firstOfEach_of_nodup
  exact nodup_keys_firstOfEach id names

/-- It makes no difference whether the entries that are laid over a mapping are made a mapping first. -/
theorem isOverlaid_ofEntries (hbase : DistinctKeys base) (others : List (String × Value)) :
    IsOverlaid base (others.map (·.1)) (others.reverse.lookup ·) (overlay base (ofEntries (named others))) := by
  have hmade : IsOverlaid [] (others.map (·.1)) (others.reverse.lookup ·) (ofEntries (named others)) :=
    isOverlaid_overlay List.Pairwise.nil others
  have hkeys : (ofEntries (named others)).map (·.1) = (leading (· == ·) (others.map (·.1))).map .string := by
    rw [hmade.keys]
    simp [lookup?]
  obtain ⟨firsts, hfirsts, hnames⟩ := exists_named hkeys
  rw [hfirsts] at hmade ⊢
  have hlaid := isOverlaid_overlay hbase firsts
  rw [hnames] at hlaid
  refine ⟨hlaid.distinct, ?_, ?_, ?_⟩
  · rw [hlaid.keys, leading_leading]
  · intro name hname
    -- the mapping that is laid over has one entry under the name, with the value of the last one
    obtain ⟨value, hvalue, hmem⟩ := hlaid.laid name (mem_leading_names.mpr hname)
    obtain ⟨last, hlast, hmade⟩ := hmade.laid name hname
    have hfirst : (name, value) ∈ firsts := by
      obtain ⟨before, behind, hfirsts, -⟩ := List.lookup_eq_some_iff.mp hvalue
      rw [← List.mem_reverse, hfirsts]
      exact List.mem_append_right _ List.mem_cons_self
    have hentry : (name, last) ∈ firsts := by
      obtain ⟨entry, hentry, heq⟩ := List.mem_map.mp hmade
      simp only [Prod.mk.injEq, string.injEq] at heq
      rwa [← heq.1, ← heq.2]
    have hnodup : (firsts.map (·.1)).Nodup := by
      rw [hnames, leading_names]
      exact List.map_id (firstOfEach id _) ▸ nodup_keys_firstOfEach id _
    have hsame := List.inj_on_of_nodup_map hnodup hfirst hentry rfl
    exact ⟨value, by rw [hlast, (Prod.mk.inj hsame).2], hmem⟩
  · intro entry hentry hother
    exact hlaid.kept entry hentry fun name hname => hother name (mem_leading_names.mp hname)

end ResolverWiring.Yaml.Value
