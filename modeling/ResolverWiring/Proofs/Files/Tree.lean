import Mathlib.Data.List.Infix
import ResolverWiring.Files.Tree

/-!
# `Proofs.Files.Tree` — writing a file changes that file and nothing else

What is at a place of a tree is a file with its bytes or a directory (`Content`); the entries of a directory
are at places of their own. Writing puts a file into a directory. It stands there afterwards (`get?_put`), at
every other place there is what there was before (`contentAt_put_file`), and a directory that the file is not
in keeps its whole tree (`get?_put_of_apart`).

A path that could be walked before leads to the same place afterwards, since directories stay directories
(`walk_of_directories`).
-/

namespace ResolverWiring.Files

/-! ## What is at a place -/

/-- What a node is, apart from what a directory holds. -/
inductive Content where
  | file (bytes : ByteArray)
  | directory

namespace Node

/-- What this node is. -/
def content : Node → Content
  | file bytes => .file bytes
  | directory _ => .directory

/-- What is at a place below this node. -/
def contentAt (tree : Node) (place : List String) : Option Content := (tree.get? place).map content

theorem get?_append (tree : Node) (place others : List String) :
    tree.get? (place ++ others) = (tree.get? place).bind (·.get? others) := by
  induction place generalizing tree with
  | nil => rfl
  | cons name place ih =>
    show (tree.entry? name).bind _ = ((tree.entry? name).bind _).bind _
    rw [Option.bind_assoc]
    exact congrArg _ (funext ih)

theorem contentAt_eq_directory {tree : Node} {place : List String} :
    tree.contentAt place = some .directory ↔ ∃ entries, tree.get? place = some (directory entries) := by
  unfold contentAt
  cases tree.get? place with
  | none => simp
  | some node => cases node <;> simp [content]

theorem contentAt_eq_file {tree : Node} {place : List String} {bytes : ByteArray} :
    tree.contentAt place = some (.file bytes) ↔ tree.get? place = some (file bytes) := by
  unfold contentAt
  cases tree.get? place with
  | none => simp
  | some node => cases node <;> simp [content]

/-- Nothing is below a file. -/
theorem get?_below_file {tree : Node} {place below : List String} {bytes : ByteArray}
    (h : tree.get? place = some (file bytes)) (hbelow : below ≠ []) :
    tree.get? (place ++ below) = none := by
  cases below with
  | nil => exact absurd rfl hbelow
  | cons name others =>
    rw [get?_append, h]
    rfl

/-! ## Putting a node -/

theorem lookup_putEntry (entries : List (String × Node)) (name : String) (node : Node) :
    (putEntry entries name node).lookup name = some node := by
  induction entries with
  | nil => simp [putEntry]
  | cons entry others ih =>
    obtain ⟨other, old⟩ := entry
    simp only [putEntry]
    split
    · rw [List.lookup_cons_self]
    · rename_i hne
      rw [List.lookup_cons, beq_false_of_ne (Ne.symm hne)]
      exact ih

theorem lookup_putEntry_of_ne {entries : List (String × Node)} {name other : String} {node : Node}
    (h : other ≠ name) : (putEntry entries name node).lookup other = entries.lookup other := by
  induction entries with
  | nil => simp [putEntry, List.lookup_cons, beq_false_of_ne h]
  | cons entry others ih =>
    obtain ⟨key, old⟩ := entry
    simp only [putEntry]
    split
    · rename_i heq
      subst heq
      rw [List.lookup_cons, List.lookup_cons, beq_false_of_ne h]
    · rw [List.lookup_cons, List.lookup_cons, ih]

/-- Putting a node at a place below an entry puts it into the node there. -/
theorem put_cons_cons (entries : List (String × Node)) (name next : String) (others : List String)
    (node : Node) :
    (directory entries).put (name :: next :: others) node
      = ((entries.lookup name).map fun inner =>
          directory (putEntry entries name (inner.put (next :: others) node))).getD
        (directory entries) := by
  simp only [put]
  cases entries.lookup name <;> rfl

theorem put_below {entries : List (String × Node)} {name : String} {inner : Node} (h : entries.lookup name = some inner)
    (next : String) (others : List String) (node : Node) : (directory entries).put (name :: next :: others) node
      = directory (putEntry entries name (inner.put (next :: others) node)) := by
  rw [put_cons_cons, h]
  rfl

/-- Nothing is put below an entry that is missing. -/
theorem put_below_of_none {entries : List (String × Node)} {name : String} (h : entries.lookup name = none)
    (next : String) (others : List String) (node : Node) :
    (directory entries).put (name :: next :: others) node = directory entries := by
  rw [put_cons_cons, h]
  rfl

theorem get?_putEntry (entries : List (String × Node)) (name : String) (node : Node) (names : List String) :
    (directory (putEntry entries name node)).get? (name :: names) = node.get? names := by
  show ((putEntry entries name node).lookup name).bind _ = _
  rw [lookup_putEntry]
  rfl

theorem get?_putEntry_of_ne {name other : String} (h : other ≠ name) (entries : List (String × Node)) (node : Node)
    (names : List String) :
    (directory (putEntry entries name node)).get? (other :: names) = (directory entries).get? (other :: names) := by
  show ((putEntry entries name node).lookup other).bind _ = (entries.lookup other).bind _
  rw [lookup_putEntry_of_ne h]

theorem get?_of_lookup {entries : List (String × Node)} {name : String} {inner : Node}
    (h : entries.lookup name = some inner) (names : List String) :
    (directory entries).get? (name :: names) = inner.get? names := by
  show (entries.lookup name).bind _ = _
  rw [h]
  rfl

/-- A node that is put into a directory is there afterwards. -/
theorem get?_put (tree : Node) (here : List String) (name : String) (node : Node)
    (h : tree.contentAt here = some .directory) :
    (tree.put (here ++ [name]) node).get? (here ++ [name]) = some node := by
  induction here generalizing tree with
  | nil =>
    obtain ⟨entries, htree⟩ := contentAt_eq_directory.mp h
    cases htree
    exact get?_putEntry entries name node []
  | cons first here ih =>
    cases tree with
    | file bytes => cases h
    | directory entries =>
      change Option.map content ((entries.lookup first).bind (·.get? here)) = _ at h
      cases hinner : entries.lookup first with
      | none =>
        rw [hinner] at h
        cases h
      | some inner =>
        rw [hinner] at h
        have hput := ih inner h
        -- the place goes on below the entry, so the node is put inside it
        obtain ⟨next, others, hcons⟩ : ∃ next others, here ++ [name] = next :: others :=
          List.exists_cons_of_ne_nil (List.append_ne_nil_of_right_ne_nil here (List.cons_ne_nil _ _))
        rw [hcons] at hput
        rw [List.cons_append, hcons, put_below hinner, get?_putEntry]
        exact hput

theorem putEntry_putEntry (entries : List (String × Node)) (name : String) (node node' : Node) :
    putEntry (putEntry entries name node) name node' = putEntry entries name node' := by
  induction entries with
  | nil => simp [putEntry]
  | cons entry others ih =>
    obtain ⟨other, old⟩ := entry
    simp only [putEntry]
    split
    · simp [putEntry]
    · rename_i hne
      rw [putEntry, if_neg hne, ih]

/-- A node that is put in the place of another one leaves nothing of it. -/
theorem put_put (tree : Node) (place : List String) (node node' : Node) (hplace : place ≠ []) :
    (tree.put place node).put place node' = tree.put place node' := by
  induction place generalizing tree with
  | nil => exact absurd rfl hplace
  | cons name others ih =>
    cases tree with
    | file bytes => cases others <;> rfl
    | directory entries =>
      cases others with
      | nil => exact congrArg directory (putEntry_putEntry entries name node node')
      | cons next others =>
        cases hinner : entries.lookup name with
        | none => rw [put_below_of_none hinner]
        | some inner =>
          rw [put_below hinner, put_below hinner, put_below (lookup_putEntry entries name _), putEntry_putEntry,
            ih inner (List.cons_ne_nil _ _)]

theorem putEntry_of_lookup {entries : List (String × Node)} {name : String} {node : Node}
    (h : entries.lookup name = some node) : putEntry entries name node = entries := by
  induction entries with
  | nil => cases h
  | cons entry others ih =>
    obtain ⟨other, old⟩ := entry
    by_cases hname : other = name
    · subst hname
      rw [List.lookup_cons_self, Option.some.injEq] at h
      rw [putEntry, if_pos rfl, h]
    · rw [List.lookup_cons, beq_false_of_ne (Ne.symm hname)] at h
      rw [putEntry, if_neg hname, ih h]

/-- A node that is there already can be put there. -/
theorem put_of_get? {tree : Node} {place : List String} {node : Node} (h : tree.get? place = some node) :
    tree.put place node = tree := by
  induction place generalizing tree with
  | nil => exact (Option.some.inj h).symm
  | cons name others ih =>
    cases tree with
    | file bytes => cases others <;> rfl
    | directory entries =>
      change (entries.lookup name).bind (·.get? others) = some node at h
      obtain ⟨inner, hinner, hnode⟩ := Option.bind_eq_some_iff.mp h
      cases others with
      | nil =>
        cases hnode
        exact congrArg directory (putEntry_of_lookup hinner)
      | cons next others => rw [put_below hinner, ih hnode, putEntry_of_lookup hinner]

/-- A node that is not there afterwards has not been put, since a directory on the way is missing. -/
theorem put_eq_or_get? (tree : Node) (place : List String) (node : Node) :
    tree.put place node = tree ∨ (tree.put place node).get? place = some node := by
  induction place generalizing tree with
  | nil => exact .inr rfl
  | cons name others ih =>
    cases tree with
    -- nothing is put below a file
    | file bytes => cases others <;> exact .inl rfl
    | directory entries =>
      cases others with
      | nil => exact .inr (get?_putEntry entries name node [])
      | cons next others =>
        cases hinner : entries.lookup name with
        | none => exact .inl (put_below_of_none hinner next others node)
        | some inner =>
          rw [put_below hinner]
          rcases ih inner with hsame | hput
          · exact .inl (by rw [hsame, putEntry_of_lookup hinner])
          · exact .inr (by rw [get?_putEntry, hput])

/-- Putting a node changes no place that neither leads to it nor is below it. -/
theorem get?_put_of_apart (tree : Node) {place other : List String} (node : Node)
    (habove : ¬ other <+: place) (hbelow : ¬ place <+: other) :
    (tree.put place node).get? other = tree.get? other := by
  induction place generalizing tree other with
  | nil => exact absurd other.nil_prefix hbelow
  | cons name others ih =>
    cases other with
    | nil => exact absurd (List.nil_prefix) habove
    | cons name' others' =>
      cases tree with
      | file bytes => cases others <;> rfl
      | directory entries =>
        by_cases hname : name' = name
        · subst hname
          rw [List.cons_prefix_cons] at habove hbelow
          -- below the same entry the places part further down
          have hapart := fun inner : Node => ih inner (fun h => habove ⟨rfl, h⟩) (fun h => hbelow ⟨rfl, h⟩)
          cases others with
          | nil => exact absurd ⟨rfl, others'.nil_prefix⟩ hbelow
          | cons next others =>
            cases hinner : entries.lookup name' with
            | none => rw [put_below_of_none hinner]
            | some inner =>
              rw [put_below hinner, get?_putEntry, get?_of_lookup hinner]
              exact hapart inner
        · cases others with
          | nil => exact get?_putEntry_of_ne hname entries node others'
          | cons next others =>
            cases hinner : entries.lookup name with
            | none => rw [put_below_of_none hinner]
            | some inner => rw [put_below hinner, get?_putEntry_of_ne hname]

/-- A directory that a node is put below stays a directory. -/
theorem contentAt_put_of_above (tree : Node) {place other : List String} (node : Node)
    (habove : other <+: place) (hne : other ≠ place) :
    (tree.put place node).contentAt other = tree.contentAt other := by
  induction place generalizing tree other with
  | nil => exact absurd (List.prefix_nil.mp habove) hne
  | cons name others ih =>
    cases tree with
    | file bytes => cases others <;> rfl
    | directory entries =>
      cases other with
      | nil =>
        cases others with
        | nil => rfl
        | cons next others =>
          rw [put_cons_cons]
          cases entries.lookup name <;> rfl
      | cons name' others' =>
        -- the place that is asked for goes through the same entry
        obtain ⟨rfl, hinside⟩ := List.cons_prefix_cons.mp habove
        have hothers : others' ≠ others := fun h => hne (congrArg _ h)
        cases others with
        | nil => exact absurd (List.prefix_nil.mp hinside) hothers
        | cons next others =>
          cases hinner : entries.lookup name' with
          | none => rw [put_below_of_none hinner]
          | some inner =>
            rw [put_below hinner, contentAt, contentAt, get?_putEntry, get?_of_lookup hinner]
            exact ih inner hinside hothers

/-- Putting a file where no directory is changes what is at that place only. -/
theorem contentAt_put_file (tree : Node) {place other : List String} (bytes : ByteArray)
    (hplace : tree.contentAt place ≠ some .directory) (hne : other ≠ place) :
    (tree.put place (file bytes)).contentAt other = tree.contentAt other := by
  rcases put_eq_or_get? tree place (file bytes) with hsame | hput
  · rw [hsame]
  by_cases habove : other <+: place
  · exact contentAt_put_of_above tree _ habove hne
  by_cases hbelow : place <+: other
  · -- below a file there is nothing, neither before nor afterwards
    obtain ⟨below, rfl⟩ := hbelow
    have hbelow : below ≠ [] := fun h => hne (by rw [h, List.append_nil])
    have hafter := get?_below_file hput hbelow
    have hbefore : tree.get? (place ++ below) = none := by
      cases hnode : tree.get? place with
      | none => rw [get?_append, hnode, Option.bind_none]
      | some node =>
        cases node with
        | file old => exact get?_below_file hnode hbelow
        | directory entries => exact absurd (contentAt_eq_directory.mpr ⟨entries, hnode⟩) hplace
    rw [contentAt, contentAt, hafter, hbefore]
  · rw [contentAt, contentAt, get?_put_of_apart tree _ habove hbelow]

/-- Nothing is below a place where nothing is, and nothing is in an empty directory: putting one there changes
what is at that place only. -/
theorem contentAt_put_empty {tree : Node} {place : List String} (hnone : tree.get? place = none)
    {other : List String} (hne : other ≠ place) :
    (tree.put place (directory [])).contentAt other = tree.contentAt other := by
  rcases put_eq_or_get? tree place (directory []) with hsame | hput
  · rw [hsame]
  · by_cases habove : other <+: place
    · exact contentAt_put_of_above tree _ habove hne
    · by_cases hbelow : place <+: other
      · obtain ⟨below, rfl⟩ := hbelow
        cases below with
        | nil => exact absurd (List.append_nil place) hne
        | cons name others =>
          rw [contentAt, contentAt, get?_append, get?_append, hput, hnone]
          rfl
      · rw [contentAt, contentAt, get?_put_of_apart tree _ habove hbelow]

end Node

namespace FileSystem

variable {fs after : FileSystem} {path : Path} {bytes : ByteArray} {here place : List String}

/-- What is at a place. -/
def contentAt (fs : FileSystem) (place : List String) : Option Content := fs.root.contentAt place

/-! ## Walking -/

/-- A walk along names and one more looks the last one up in a directory. -/
theorem walk_concat {root : Node} {names : List String} {name : String}
    (h : walk root here (names ++ [name]) = .ok place) :
    ∃ last, walk root here names = .ok last ∧ root.contentAt last = some .directory ∧
      place = Path.step last name := by
  induction names generalizing here with
  | nil =>
    simp only [List.nil_append, walk] at h
    split at h
    · cases h
    · cases h
    · rename_i entries hentries
      split at h
      · cases h
      · cases h
        exact ⟨here, rfl, Node.contentAt_eq_directory.mpr ⟨entries, hentries⟩, rfl⟩
  | cons first names ih =>
    simp only [List.cons_append, walk] at h ⊢
    split at h
    · cases h
    · cases h
    · split at h
      · cases h
      · rename_i hlength
        rw [if_neg hlength]
        exact ih h

/-- A walk that does not step back leads to the names along which it goes. -/
theorem walk_eq_append {root : Node} {names : List String} (hback : ".." ∉ names)
    (h : walk root here names = .ok place) : place = here ++ names := by
  induction names generalizing here with
  | nil =>
    cases h
    rw [List.append_nil]
  | cons name names ih =>
    obtain ⟨hname, hnames⟩ := not_or.mp (mt List.mem_cons.mpr hback)
    simp only [walk] at h
    split at h
    · cases h
    · cases h
    · split at h
      · cases h
      · rw [ih hnames h, Path.step, if_neg (Ne.symm hname), List.append_assoc, List.singleton_append]

/-- A walk leads to the same place in every tree in which the same places are directories. -/
theorem walk_of_directories {root root' : Node} {names : List String}
    (hkept : ∀ place, root.contentAt place = some .directory → root'.contentAt place = some .directory)
    (h : walk root here names = .ok place) : walk root' here names = .ok place := by
  induction names generalizing here with
  | nil => exact h
  | cons name names ih =>
    simp only [walk] at h ⊢
    split at h
    · cases h
    · cases h
    · rename_i entries hentries
      obtain ⟨entries', hentries'⟩ :=
        Node.contentAt_eq_directory.mp (hkept here (Node.contentAt_eq_directory.mpr ⟨entries, hentries⟩))
      rw [hentries']
      split at h
      · cases h
      · rename_i hlength
        rw [if_neg hlength]
        exact ih h

theorem locate_eq_ok {fs : FileSystem} : fs.locate path = .ok place ↔
    path.hasNull = false ∧ path.toString.utf8ByteSize ≤ maxPathBytes ∧
      walk fs.root (if path.isAbsolute then [] else fs.directory) path.names = .ok place := by
  unfold locate
  cases path.hasNull with
  | true => simp
  | false =>
    by_cases hlength : maxPathBytes < path.toString.utf8ByteSize
    · simp [hlength, Nat.not_le_of_lt hlength]
    · cases walk fs.root (if path.isAbsolute then [] else fs.directory) path.names <;>
        simp [hlength, Except.mapError, Nat.le_of_not_lt]

/-- A path leads to a node if it can be walked to the place of the node. -/
theorem status_eq_ok {fs : FileSystem} {node : Node} : fs.status path = .ok node ↔
    ∃ place, fs.locate path = .ok place ∧ fs.root.get? place = some node := by
  unfold status
  cases fs.locate path with
  | error e => simp [bind, Except.bind]
  | ok place =>
    simp only [bind, Except.bind]
    cases hnode : fs.root.get? place <;> simp [pure, Except.pure, hnode]

/-! ## Paths that files can have -/

/-- A path that files can have is not refused for its form. -/
theorem locate_ne_null (hpath : path.hasNull = false) : fs.locate path ≠ .error .nullInPath := by
  unfold locate
  rw [hpath, if_neg Bool.false_ne_true]
  split
  · exact nofun
  · cases walk fs.root (if path.isAbsolute then [] else fs.directory) path.names <;> exact nofun

theorem pathExists_ne_null : fs.pathExists path ≠ .error .nullInPath := by
  unfold pathExists find
  split <;> exact nofun

theorem isDirectory_ne_null : fs.isDirectory path ≠ .error .nullInPath := by
  unfold isDirectory find
  split <;> exact nofun

theorem isFile_ne_null : fs.isFile path ≠ .error .nullInPath := by
  unfold isFile find
  split <;> exact nofun

theorem checkSearch_ne_null {wanted : String → Bool} : fs.checkSearch wanted path ≠ .error .nullInPath := by
  unfold checkSearch
  split <;> exact nofun

/-! ## Writing -/

theorem write_eq_ok : fs.write path bytes = .ok after ↔
    ∃ place, fs.locate path = .ok place ∧ fs.contentAt place ≠ some .directory ∧
      after = { fs with root := fs.root.put place (.file bytes) } := by
  unfold write contentAt Node.contentAt
  cases fs.locate path with
  | error e => simp [bind, Except.bind]
  | ok place =>
    simp only [bind, Except.bind, Except.ok.injEq, exists_eq_left']
    cases hnode : fs.root.get? place with
    | none => simp [pure, Except.pure, eq_comm]
    | some node => cases node <;> simp [pure, Except.pure, Node.content, eq_comm]

end FileSystem

end ResolverWiring.Files
