import Mathlib.Data.List.Dedup
import ResolverWiring.Proofs.Yaml.Mapping
import ResolverWiring.Yaml.Value.Plain

/-!
# `Proofs.Yaml.PlainEntries` — what of a mapping is left when it is made plain

A mapping that is made plain has the texts of its keys as keys. If no two of these are equal, the mapping is kept: it
has its entries in their places, each with the plain form of its own value (`isKept_plainEntries`). If two keys have
one text, they become one key, and an entry is lost (`length_plainEntries_lt`).

Texts are compared one entry after the other, so what is said of a mapping follows from what one more entry does
(`texts_insertText`).
-/

namespace ResolverWiring.Yaml.Value

variable {entries done kept : Entries} {text : String} {value : Value}

/-! ## One entry -/

/-- The texts of the keys of a mapping, in order. -/
def texts (entries : Entries) : List String := entries.map (·.1.keyText)

theorem texts_append (entries others : Entries) : texts (entries ++ others) = texts entries ++ texts others :=
  List.map_append

/-- An entry that is added brings its text, unless it is there. -/
theorem texts_insertText (entries : Entries) (text : String) (value : Value) :
    texts (insertText entries text value)
      = if text ∈ texts entries then texts entries else texts entries ++ [text] := by
  induction entries with
  | nil => rfl
  | cons entry entries ih =>
    obtain ⟨k, v⟩ := entry
    show texts (if k.keyText = text then (k, value) :: entries else (k, v) :: insertText entries text value)
      = if text ∈ k.keyText :: texts entries then k.keyText :: texts entries else k.keyText :: texts entries ++ [text]
    by_cases hkey : k.keyText = text
    · rw [if_pos hkey, if_pos (hkey ▸ List.mem_cons_self)]
      rfl
    · rw [if_neg hkey]
      show k.keyText :: texts (insertText entries text value) = _
      have hmem : text ∈ k.keyText :: texts entries ↔ text ∈ texts entries := by
        simp [Ne.symm hkey]
      rw [ih]
      simp only [hmem]
      split <;> rfl

theorem insertText_of_not_mem (h : text ∉ texts entries) :
    insertText entries text value = entries ++ [(string text, value)] := by
  induction entries with
  | nil => rfl
  | cons entry entries ih =>
    obtain ⟨k, v⟩ := entry
    have hother : ¬(text = k.keyText ∨ text ∈ texts entries) := fun hmem => h (List.mem_cons.mpr hmem)
    obtain ⟨hkey, hentries⟩ := not_or.mp hother
    rw [insertText, if_neg (Ne.symm hkey), ih hentries]
    rfl

/-! ## All entries -/

theorem mem_texts_plainEntries (done entries : Entries) (text : String) :
    text ∈ texts (plainEntries done entries) ↔ text ∈ texts done ∨ text ∈ texts entries := by
  induction entries generalizing done with
  | nil =>
    rw [plainEntries]
    simp [texts]
  | cons entry entries ih =>
    obtain ⟨k, v⟩ := entry
    have hinsert : text ∈ texts (insertText done k.keyText v.plain) ↔ text ∈ texts done ∨ text = k.keyText := by
      rw [texts_insertText]
      by_cases hthere : k.keyText ∈ texts done
      · rw [if_pos hthere]
        constructor
        · exact .inl
        · rintro (h | rfl)
          · exact h
          · exact hthere
      · rw [if_neg hthere, List.mem_append, List.mem_singleton]
    show text ∈ texts (plainEntries (insertText done k.keyText v.plain) entries)
      ↔ text ∈ texts done ∨ text ∈ k.keyText :: texts entries
    rw [ih, hinsert, List.mem_cons, or_assoc]

/-- No two keys of what is made plain have one text. -/
theorem nodup_texts_plainEntries (hdone : (texts done).Nodup) (entries : Entries) :
    (texts (plainEntries done entries)).Nodup := by
  induction entries generalizing done with
  | nil => exact hdone
  | cons entry entries ih =>
    obtain ⟨k, v⟩ := entry
    apply ih
    rw [texts_insertText]
    split
    · exact hdone
    · rename_i hnew
      exact List.nodup_append.mpr ⟨hdone, List.nodup_singleton _, fun a ha b hb heq =>
        hnew (List.mem_singleton.mp hb ▸ heq ▸ ha)⟩

/-- There is one entry for each text. -/
theorem length_plainEntries (entries : Entries) : (plainEntries [] entries).length = (texts entries).dedup.length := by
  -- Neither list has a text twice, so it is enough that both have the same texts.
  have hperm : (texts (plainEntries [] entries)).Perm (texts entries).dedup := by
    have hnone : (texts []).Nodup := List.nodup_nil
    apply (List.perm_ext_iff_of_nodup (nodup_texts_plainEntries hnone entries) (List.nodup_dedup _)).mpr
    intro text
    rw [mem_texts_plainEntries, List.mem_dedup]
    simp [texts]
  rw [← hperm.length_eq, texts, List.length_map]

/-- An entry is lost if two keys have one text. -/
theorem length_plainEntries_lt (h : ¬(texts entries).Nodup) : (plainEntries [] entries).length < entries.length := by
  have hcount : (texts entries).length = entries.length := List.length_map _
  rw [length_plainEntries, ← hcount]
  apply Nat.lt_of_le_of_ne (List.dedup_sublist _).length_le
  intro heq
  have hsame : (texts entries).dedup = texts entries := (List.dedup_sublist _).eq_of_length heq
  exact h (hsame ▸ List.nodup_dedup _)

/-- Entries whose texts differ are made plain one by one. -/
theorem plainEntries_of_nodup (h : (texts (done ++ entries)).Nodup) :
    plainEntries done entries = done ++ entries.map fun entry => (string entry.1.keyText, entry.2.plain) := by
  induction entries generalizing done with
  | nil =>
    rw [plainEntries]
    exact (List.append_nil done).symm
  | cons entry entries ih =>
    obtain ⟨k, v⟩ := entry
    -- The text is no earlier one, so the entry goes behind those that are done.
    have hnew : k.keyText ∉ texts done := by
      intro hmem
      rw [texts_append] at h
      exact (List.nodup_append.mp h).2.2 _ hmem _ List.mem_cons_self rfl
    have hrest : (texts ((done ++ [(string k.keyText, v.plain)]) ++ entries)).Nodup := by
      rw [texts_append] at h
      rw [List.append_assoc, texts_append]
      exact h
    rw [plainEntries, insertText_of_not_mem hnew, ih hrest, List.append_assoc]
    rfl

/-! ## Keeping entries -/

/-- Whether a mapping is kept by another one, which has texts as keys: there are as many entries, the texts of the keys
differ, and under each of them stands the plain form of the value of its own key. -/
structure IsKept (entries kept : Entries) : Prop where
  count : kept.length = entries.length
  apart : entries.Pairwise fun a b => a.1.keyText ≠ b.1.keyText
  own : ∀ entry ∈ entries, lookup? kept entry.1.keyText = some entry.2.plain

/-- Entries under different texts have distinct keys. -/
theorem distinctKeys_map {α : Type} {items : List α} {name : α → String} {value : α → Value}
    (h : (items.map name).Nodup) : DistinctKeys (items.map fun item => (string (name item), value item)) := by
  apply List.pairwise_map.mpr
  refine (List.pairwise_map.mp h).imp fun hne => ?_
  exact eq_false_of_ne_true fun hsame => hne (string.inj (sameKey_string.mp hsame))

/-- A mapping is kept exactly if no two of its keys have one text. -/
theorem isKept_plainEntries : IsKept entries (plainEntries [] entries) ↔ (texts entries).Nodup := by
  constructor
  · intro h
    exact List.pairwise_map.mpr h.apart
  · intro h
    have hplain : plainEntries [] entries = entries.map fun entry => (string entry.1.keyText, entry.2.plain) :=
      plainEntries_of_nodup h
    rw [hplain]
    refine ⟨List.length_map _, List.pairwise_map.mp h, ?_⟩
    intro entry hentry
    apply lookup?_of_mem (distinctKeys_map h)
    exact List.mem_map.mpr ⟨entry, hentry, rfl⟩

/-- Keys that are texts themselves stay as they are. -/
theorem nodup_texts_of_strings (hdistinct : DistinctKeys entries)
    (h : ∀ entry ∈ entries, ∃ text, entry.1 = string text) : (texts entries).Nodup := by
  apply List.pairwise_map.mpr
  apply hdistinct.imp_of_mem
  intro a b ha hb hother heq
  obtain ⟨text, htext⟩ := h a ha
  obtain ⟨other, hother'⟩ := h b hb
  rw [htext, hother'] at hother heq
  have hsame : text = other := heq
  rw [hsame, sameKey_string.mpr rfl] at hother
  cases hother

end ResolverWiring.Yaml.Value
