import Mathlib.Data.List.Nodup
import ResolverWiring.Proofs.Files.Tree

/-!
# `Proofs.Files.Below` — what is below a directory

`descendants` lists the nodes below a directory as the directories list their entries. In a tree in which entries of
one directory have different names (`Node.isProper`), it has every node once, under the names that lead to it
(`Node.mem_descendants`, `Node.nodup_descendants`). So what is listed can be said by what names lead to, without the
order of the entries: `mem_filesBelow` does this for the files below a directory, and `checkSearch_eq_ok` for the paths
that a search looks at.

All proofs go along the names: the first one selects an entry, and the others lead on from there.
-/

namespace ResolverWiring.Files

namespace Node

/-! ## Proper trees -/

mutual

/-- Whether each directory has its entries under different names, and no name holds a slash. -/
def isProper : Node → Bool
  | file _ => true
  | directory entries => entriesProper entries

/-- Whether entries have different names without slashes, and are proper. -/
def entriesProper : List (String × Node) → Bool
  | [] => true
  | (name, node) :: others =>
    !name.contains '/' && !(others.map (·.1)).contains name && node.isProper && entriesProper others

end

variable {node inner child : Node} {entries others : List (String × Node)} {name : String} {names : List String}
  {wanted : String → Bool}

theorem entriesProper_cons : entriesProper ((name, node) :: others) = true ↔
    '/' ∉ name.toList ∧ name ∉ others.map (·.1) ∧ node.isProper = true ∧ entriesProper others = true := by
  rw [entriesProper]
  simp only [Bool.and_eq_true, Bool.not_eq_true', and_assoc, String.contains_char_eq, List.contains_eq_mem,
    decide_eq_false_iff_not]

/-- The entry of a name is the one that is found under it. -/
theorem lookup_eq_some_iff (h : entriesProper entries = true) :
    entries.lookup name = some child ↔ (name, child) ∈ entries := by
  induction entries with
  | nil => simp
  | cons entry others ih =>
    obtain ⟨first, node⟩ := entry
    obtain ⟨-, hfirst, -, hothers⟩ := entriesProper_cons.mp h
    rw [List.mem_cons, Prod.mk.injEq, ← ih hothers]
    by_cases hname : name = first
    · subst hname
      have hnone : others.lookup name ≠ some child := fun hsome =>
        hfirst (List.mem_map_of_mem ((ih hothers).mp hsome))
      rw [List.lookup_cons_self, Option.some.injEq, eq_comm]
      simp only [true_and, hnone, or_false]
    · rw [List.lookup_cons, beq_false_of_ne hname]
      simp only [hname, false_and, false_or]

/-- In which order entries are listed does not matter for what is at a place. -/
theorem contentAt_perm {entries' : List (String × Node)} (h : entriesProper entries = true)
    (h' : entriesProper entries' = true) (hperm : entries.Perm entries') (place : List String) :
    (directory entries).contentAt place = (directory entries').contentAt place := by
  cases place with
  | nil => rfl
  | cons name place =>
    have hlookup : entries.lookup name = entries'.lookup name :=
      Option.ext fun child => by rw [lookup_eq_some_iff h, lookup_eq_some_iff h', hperm.mem_iff]
    show ((entries.lookup name).bind _).map _ = ((entries'.lookup name).bind _).map _
    rw [hlookup]

theorem isProper_of_mem (h : entriesProper entries = true) (hmem : (name, child) ∈ entries) :
    '/' ∉ name.toList ∧ child.isProper = true := by
  induction entries with
  | nil => cases hmem
  | cons entry others ih =>
    obtain ⟨first, node⟩ := entry
    obtain ⟨hslash, -, hnode, hothers⟩ := entriesProper_cons.mp h
    rcases List.mem_cons.mp hmem with heq | hmem
    · cases heq
      exact ⟨hslash, hnode⟩
    · exact ih hothers hmem

/-- What names lead to in a directory: the first one to an entry, and the others on from there. -/
theorem get?_cons_eq_some (h : (directory entries).isProper = true) :
    (directory entries).get? (name :: names) = some inner ↔
      ∃ child, (name, child) ∈ entries ∧ child.isProper = true ∧ child.get? names = some inner := by
  show (entries.lookup name).bind (·.get? names) = some inner ↔ _
  rw [Option.bind_eq_some_iff]
  constructor
  · rintro ⟨child, hchild, hinner⟩
    have hmem := (lookup_eq_some_iff h).mp hchild
    exact ⟨child, hmem, (isProper_of_mem h hmem).2, hinner⟩
  · rintro ⟨child, hmem, -, hinner⟩
    exact ⟨child, (lookup_eq_some_iff h).mpr hmem, hinner⟩

theorem isProper_of_get? (h : node.isProper = true) (hget : node.get? names = some inner) :
    inner.isProper = true ∧ ∀ name ∈ names, '/' ∉ name.toList := by
  induction names generalizing node with
  | nil =>
    cases hget
    exact ⟨h, fun _ hmem => absurd hmem List.not_mem_nil⟩
  | cons name names ih =>
    cases node with
    | file bytes => cases hget
    | directory entries =>
      obtain ⟨child, hmem, hchild, hinner⟩ := (get?_cons_eq_some h).mp hget
      obtain ⟨hproper, hnames⟩ := ih hchild hinner
      exact ⟨hproper, List.forall_mem_cons.mpr ⟨(isProper_of_mem h hmem).1, hnames⟩⟩

/-! ## Descendants -/

theorem mem_entryDescendants : (names, inner) ∈ entryDescendants entries ↔
    ∃ name child, (name, child) ∈ entries ∧
      (names = [name] ∧ inner = child ∨ ∃ rest, names = name :: rest ∧ (rest, inner) ∈ child.descendants) := by
  induction entries with
  | nil => simp [entryDescendants]
  | cons entry others ih =>
    obtain ⟨first, node⟩ := entry
    rw [entryDescendants, List.cons_append, List.mem_cons, List.mem_append, ih]
    constructor
    · rintro (heq | hmem | ⟨name, child, hmem, hnames⟩)
      · cases heq
        exact ⟨first, inner, List.mem_cons_self, .inl ⟨rfl, rfl⟩⟩
      · obtain ⟨⟨rest, found⟩, hrest, heq⟩ := List.mem_map.mp hmem
        cases heq
        exact ⟨first, node, List.mem_cons_self, .inr ⟨rest, rfl, hrest⟩⟩
      · exact ⟨name, child, List.mem_cons_of_mem _ hmem, hnames⟩
    · rintro ⟨name, child, hmem, hnames⟩
      rcases List.mem_cons.mp hmem with heq | hmem
      · cases heq
        rcases hnames with ⟨rfl, rfl⟩ | ⟨rest, rfl, hrest⟩
        · exact .inl rfl
        · exact .inr (.inl (List.mem_map.mpr ⟨(rest, inner), hrest, rfl⟩))
      · exact .inr (.inr ⟨name, child, hmem, hnames⟩)

/-- The descendants of a node are what names lead to from it. -/
theorem mem_descendants (h : node.isProper = true) :
    (names, inner) ∈ node.descendants ↔ names ≠ [] ∧ node.get? names = some inner := by
  induction names generalizing node with
  | nil =>
    refine iff_of_false (fun hmem => ?_) fun hne => hne.1 rfl
    cases node with
    | file bytes => cases hmem
    | directory entries =>
      obtain ⟨name, child, -, ⟨heq, -⟩ | ⟨rest, heq, -⟩⟩ := mem_entryDescendants.mp hmem
      · cases heq
      · cases heq
  | cons name names ih =>
    cases node with
    | file bytes => exact iff_of_false (fun hmem => by cases hmem) fun hget => by cases hget.2
    | directory entries =>
      rw [get?_cons_eq_some h]
      refine mem_entryDescendants.trans ⟨?_, ?_⟩
      · rintro ⟨name', child, hmem, hnames⟩
        have hchild := (isProper_of_mem h hmem).2
        refine ⟨List.cons_ne_nil name names, child, ?_, hchild, ?_⟩
        · rcases hnames with ⟨heq, -⟩ | ⟨rest, heq, -⟩ <;> cases heq <;> exact hmem
        · rcases hnames with ⟨heq, rfl⟩ | ⟨rest, heq, hrest⟩
          · cases heq
            rfl
          · cases heq
            exact ((ih hchild).mp hrest).2
      · -- names that end here lead to the entry itself, longer ones to what is below it
        rintro ⟨-, child, hmem, hchild, hinner⟩
        refine ⟨name, child, hmem, ?_⟩
        cases names with
        | nil =>
          cases hinner
          exact .inl ⟨rfl, rfl⟩
        | cons next rest => exact .inr ⟨next :: rest, rfl, (ih hchild).mpr ⟨List.cons_ne_nil next rest, hinner⟩⟩

mutual

/-- Different descendants are under different names. -/
theorem nodup_descendants : (node : Node) → node.isProper = true → (node.descendants.map (·.1)).Nodup
  | file _, _ => List.nodup_nil
  | directory entries, h => nodup_entryDescendants entries h

theorem nodup_entryDescendants :
    (entries : List (String × Node)) → entriesProper entries = true → ((entryDescendants entries).map (·.1)).Nodup
  | [], _ => List.nodup_nil
  | (name, node) :: others, h => by
    obtain ⟨-, hname, hnode, hothers⟩ := entriesProper_cons.mp h
    have hinside : ((node.descendants.map fun (names, inner) => (name :: names, inner)).map (·.1))
        = (node.descendants.map (·.1)).map (name :: ·) := by
      rw [List.map_map, List.map_map]
      rfl
    rw [entryDescendants, List.cons_append, List.map_cons, List.map_append, hinside, List.nodup_cons, List.nodup_append]
    -- what is below the other entries is under their names
    have hbehind : ∀ rest, name :: rest ∉ (entryDescendants others).map (·.1) := by
      intro rest hmem
      obtain ⟨⟨found, inner⟩, hfound, heq⟩ := List.mem_map.mp hmem
      obtain ⟨other, child, hchild, ⟨rfl, -⟩ | ⟨behind, rfl, -⟩⟩ := mem_entryDescendants.mp hfound
      all_goals
        cases heq
        exact hname (List.mem_map_of_mem hchild)
    refine ⟨fun hmem => ?_, (nodup_descendants node hnode).map List.cons_injective,
      nodup_entryDescendants others hothers, fun names hnames names' hnames' heq => ?_⟩
    · rcases List.mem_append.mp hmem with hmem | hmem
      · obtain ⟨rest, hrest, heq⟩ := List.mem_map.mp hmem
        obtain ⟨⟨found, inner⟩, hfound, rfl⟩ := List.mem_map.mp hrest
        cases heq
        exact ((mem_descendants hnode).mp hfound).1 rfl
      · exact hbehind [] hmem
    · obtain ⟨rest, -, rfl⟩ := List.mem_map.mp hnames
      exact hbehind rest (heq ▸ hnames')

end

/-! ## Searches -/

theorem contentAt_cons_eq_some {content : Content} (h : (directory entries).isProper = true) :
    (directory entries).contentAt (name :: names) = some content ↔
      ∃ child, (name, child) ∈ entries ∧ child.isProper = true ∧ child.contentAt names = some content := by
  simp only [contentAt, Option.map_eq_some_iff, get?_cons_eq_some h]
  constructor
  · rintro ⟨inner, ⟨child, hmem, hchild, hinner⟩, rfl⟩
    exact ⟨child, hmem, hchild, inner, hinner, rfl⟩
  · rintro ⟨child, hmem, hchild, inner, hinner, rfl⟩
    exact ⟨inner, ⟨child, hmem, hchild, hinner⟩, rfl⟩

theorem mem_entriesSearched : name :: names ∈ entriesSearched wanted entries ↔
    ∃ child, (name, child) ∈ entries ∧ names ∈ child.searched wanted := by
  induction entries with
  | nil => simp [entriesSearched]
  | cons entry others ih =>
    obtain ⟨first, node⟩ := entry
    rw [entriesSearched, List.mem_append, ih]
    constructor
    · rintro (hmem | ⟨child, hmem, hsearched⟩)
      · obtain ⟨rest, hrest, heq⟩ := List.mem_map.mp hmem
        cases heq
        exact ⟨node, List.mem_cons_self, hrest⟩
      · exact ⟨child, List.mem_cons_of_mem _ hmem, hsearched⟩
    · rintro ⟨child, hmem, hsearched⟩
      rcases List.mem_cons.mp hmem with heq | hmem
      · cases heq
        exact .inl (List.mem_map_of_mem hsearched)
      · exact .inr ⟨child, hmem, hsearched⟩

/-- A search looks at the entries with wanted names, and goes on in all of them. -/
theorem cons_mem_searched : name :: names ∈ (directory entries).searched wanted ↔
    (names = [] ∧ wanted name = true ∧ ∃ child, (name, child) ∈ entries) ∨
      ∃ child, (name, child) ∈ entries ∧ names ∈ child.searched wanted := by
  rw [searched, List.cons_append, List.mem_cons, List.mem_append, mem_entriesSearched]
  constructor
  · rintro (heq | hmem | hbelow)
    · cases heq
    · obtain ⟨⟨first, child⟩, hchild, heq⟩ := List.mem_map.mp hmem
      cases heq
      exact .inl ⟨rfl, (List.mem_filter.mp hchild).2, child, (List.mem_filter.mp hchild).1⟩
    · exact .inr hbelow
  · rintro (⟨rfl, hwanted, child, hchild⟩ | hbelow)
    · exact .inr (.inl (List.mem_map.mpr ⟨(name, child), List.mem_filter.mpr ⟨hchild, hwanted⟩, rfl⟩))
    · exact .inr (.inr hbelow)

/-- A search looks at all directories, and at everything whose name is wanted. -/
theorem mem_searched (h : node.isProper = true) : names ∈ node.searched wanted ↔
    node.contentAt names = some .directory ∨
      (∃ content, node.contentAt names = some content) ∧ names.getLast?.any wanted = true := by
  induction names generalizing node with
  | nil =>
    cases node with
    | file bytes =>
      refine iff_of_false List.not_mem_nil ?_
      rintro (hdirectory | ⟨-, hwanted⟩)
      · cases hdirectory
      · cases hwanted
    | directory entries => exact iff_of_true List.mem_cons_self (.inl rfl)
  | cons name names ih =>
    cases node with
    | file bytes =>
      refine iff_of_false List.not_mem_nil ?_
      rintro (hdirectory | ⟨⟨content, hcontent⟩, -⟩)
      · cases hdirectory
      · cases hcontent
    | directory entries =>
      simp only [contentAt_cons_eq_some h]
      rw [cons_mem_searched]
      constructor
      · rintro (⟨rfl, hwanted, child, hmem⟩ | ⟨child, hmem, hsearched⟩)
        · exact .inr ⟨⟨_, child, hmem, (isProper_of_mem h hmem).2, rfl⟩, hwanted⟩
        · have hchild := (isProper_of_mem h hmem).2
          rcases (ih hchild).mp hsearched with hdirectory | ⟨⟨content, hcontent⟩, hwanted⟩
          · exact .inl ⟨child, hmem, hchild, hdirectory⟩
          · cases names with
            | nil => cases hwanted
            | cons next rest => exact .inr ⟨⟨content, child, hmem, hchild, hcontent⟩, hwanted⟩
      · rintro (⟨child, hmem, hchild, hdirectory⟩ | ⟨⟨content, child, hmem, hchild, hcontent⟩, hwanted⟩)
        · exact .inr ⟨child, hmem, (ih hchild).mpr (.inl hdirectory)⟩
        · cases names with
          | nil => exact .inl ⟨rfl, hwanted, child, hmem⟩
          | cons next rest => exact .inr ⟨child, hmem, (ih hchild).mpr (.inr ⟨⟨content, hcontent⟩, hwanted⟩)⟩

end Node

namespace FileSystem

variable {files files' : FileSystem} {path : Path} {names : List String} {bytes : ByteArray} {content : Content}

/-! ## Below a directory -/

/-- What names lead to from what a path leads to, if anything. -/
def contentBelow (files : FileSystem) (path : Path) (names : List String) : Option Content :=
  (files.status path).toOption.bind (·.contentAt names)

theorem contentBelow_of_status {node : Node} (h : files.status path = .ok node) (names : List String) :
    files.contentBelow path names = node.contentAt names := by
  rw [contentBelow, h]
  rfl

theorem contentBelow_of_error {e : FileError} (h : files.status path = .error e) (names : List String) :
    files.contentBelow path names = none := by
  rw [contentBelow, h]
  rfl

theorem isProper_of_status {node : Node} (h : files.root.isProper = true) (hstatus : files.status path = .ok node) :
    node.isProper = true := by
  obtain ⟨place, -, hnode⟩ := status_eq_ok.mp hstatus
  exact (Node.isProper_of_get? h hnode).1

/-- No name that leads to something holds a slash. -/
theorem slashFree_of_contentBelow (h : files.root.isProper = true) (hnames : files.contentBelow path names = some content) :
    ∀ name ∈ names, '/' ∉ name.toList := by
  cases hstatus : files.status path with
  | error e =>
    rw [contentBelow_of_error hstatus] at hnames
    cases hnames
  | ok node =>
    rw [contentBelow_of_status hstatus] at hnames
    obtain ⟨inner, hinner, -⟩ := Option.map_eq_some_iff.mp hnames
    exact (Node.isProper_of_get? (isProper_of_status h hstatus) hinner).2

/-- The files below a directory are those that names lead to from it. -/
theorem mem_filesBelow (h : files.root.isProper = true) :
    (names, bytes) ∈ files.filesBelow path ↔ names ≠ [] ∧ files.contentBelow path names = some (.file bytes) := by
  unfold filesBelow
  cases hstatus : files.status path with
  | error e =>
    rw [contentBelow_of_error hstatus]
    exact iff_of_false List.not_mem_nil fun hfile => by cases hfile.2
  | ok node =>
    rw [contentBelow_of_status hstatus, Node.contentAt_eq_file, ← Node.mem_descendants (isProper_of_status h hstatus),
      List.mem_filterMap]
    constructor
    · rintro ⟨⟨found, inner⟩, hmem, heq⟩
      cases inner with
      | file found => cases heq; exact hmem
      | directory entries => cases heq
    · intro hmem
      exact ⟨(names, .file bytes), hmem, rfl⟩

theorem nodup_filesBelow (h : files.root.isProper = true) (path : Path) :
    ((files.filesBelow path).map (·.1)).Nodup := by
  unfold filesBelow
  cases hstatus : files.status path with
  | error e => exact List.nodup_nil
  | ok node =>
    have hnodup := List.pairwise_map.mp (Node.nodup_descendants node (isProper_of_status h hstatus))
    refine List.pairwise_map.mpr (hnodup.filterMap _ ?_)
    rintro ⟨names, inner⟩ ⟨names', inner'⟩ hne found hfound found' hfound'
    cases inner with
    | directory entries => cases hfound
    | file bytes =>
      cases inner' with
      | directory entries => cases hfound'
      | file bytes' =>
        cases hfound
        cases hfound'
        exact hne

/-- A search can look at everything exactly if no path of a directory or of something that is wanted is too long. -/
theorem checkSearch_eq_ok {wanted : String → Bool} (h : files.root.isProper = true) :
    files.checkSearch wanted path = .ok () ↔ ∀ names,
      files.contentBelow path names = some .directory ∨
        (∃ content, files.contentBelow path names = some content) ∧ names.getLast?.any wanted = true →
      (path.join ⟨.none, names⟩).toString.utf8ByteSize ≤ maxPathBytes := by
  -- the search looks for one path that is too long, and fails at the first
  have hfind : files.checkSearch wanted path = .ok () ↔
      ∀ found ∈ files.searchedPaths wanted path, found.toString.utf8ByteSize ≤ maxPathBytes := by
    unfold checkSearch
    cases hlong : (files.searchedPaths wanted path).find? fun found => maxPathBytes < found.toString.utf8ByteSize with
    | none =>
      refine iff_of_true rfl fun found hfound => ?_
      have := List.find?_eq_none.mp hlong found hfound
      simpa using this
    | some long =>
      refine iff_of_false (fun heq => by cases heq) fun hall => ?_
      have hlonger := List.find?_some hlong
      exact Nat.not_le_of_lt (of_decide_eq_true hlonger) (hall long (List.mem_of_find?_eq_some hlong))
  rw [hfind, searchedPaths]
  cases hstatus : files.status path with
  | error e =>
    refine iff_of_true (fun found hfound => absurd hfound List.not_mem_nil) fun names hnames => ?_
    rw [contentBelow_of_error hstatus] at hnames
    rcases hnames with heq | ⟨⟨content, heq⟩, -⟩ <;> cases heq
  | ok node =>
    simp only [contentBelow_of_status hstatus, ← Node.mem_searched (isProper_of_status h hstatus), List.forall_mem_map]

/-! ## File systems with the same contents -/

theorem status_of_error {e : FileError} (h : files.locate path = .error e) : files.status path = .error e := by
  rw [status, h]
  rfl

theorem status_of_missing {place : List String} (h : files.locate path = .ok place)
    (hplace : files.root.get? place = none) : files.status path = .error (.failed .missing path) := by
  unfold status
  rw [h]
  simp only [bind, Except.bind, hplace]

/-- What a walk leads to depends on what is at each place. -/
theorem walk_congr {root root' : Node} (h : ∀ place, root.contentAt place = root'.contentAt place)
    (here names : List String) : walk root here names = walk root' here names := by
  induction names generalizing here with
  | nil => rfl
  | cons name names ih =>
    have hhere := h here
    unfold Node.contentAt at hhere
    rw [walk, walk]
    cases hnode : root.get? here with
    | none =>
      rw [hnode, eq_comm, Option.map_none, Option.map_eq_none_iff] at hhere
      rw [hhere]
    | some node =>
      rw [hnode, eq_comm, Option.map_some, Option.map_eq_some_iff] at hhere
      obtain ⟨node', hnode', hcontent⟩ := hhere
      rw [hnode']
      cases node <;> cases node' <;> cases hcontent
      · rfl
      · dsimp only
        rw [ih]

theorem contentBelow_of_locate {place : List String} (h : files.locate path = .ok place) (names : List String) :
    files.contentBelow path names = files.contentAt (place ++ names) := by
  unfold contentAt Node.contentAt
  rw [Node.get?_append]
  cases hnode : files.root.get? place with
  | none =>
    rw [contentBelow_of_error (status_of_missing h hnode)]
    rfl
  | some node =>
    rw [contentBelow_of_status (status_eq_ok.mpr ⟨place, h, hnode⟩)]
    rfl

section Congr

variable (hcontent : ∀ place, files.contentAt place = files'.contentAt place)
  (hdirectory : files.directory = files'.directory)

include hcontent hdirectory

theorem locate_congr (path : Path) : files.locate path = files'.locate path := by
  unfold locate
  rw [walk_congr hcontent, hdirectory]

theorem contentBelow_congr (path : Path) (names : List String) :
    files.contentBelow path names = files'.contentBelow path names := by
  cases hplace : files.locate path with
  | ok place =>
    have hplace' := (locate_congr hcontent hdirectory path).symm.trans hplace
    rw [contentBelow_of_locate hplace, contentBelow_of_locate hplace', hcontent]
  | error e =>
    have hplace' := (locate_congr hcontent hdirectory path).symm.trans hplace
    rw [contentBelow_of_error (status_of_error hplace), contentBelow_of_error (status_of_error hplace')]

theorem isDirectory_congr (path : Path) :
    files.isDirectory path = files'.isDirectory path := by
  have hlocate := locate_congr hcontent hdirectory path
  unfold isDirectory find
  cases hplace : files.locate path with
  | error e => rw [status_of_error hplace, status_of_error (hlocate.symm.trans hplace)]
  | ok place =>
    have hplace' := hlocate.symm.trans hplace
    have hsame := hcontent place
    unfold contentAt Node.contentAt at hsame
    cases hnode : files.root.get? place with
    | none =>
      rw [hnode, eq_comm, Option.map_none, Option.map_eq_none_iff] at hsame
      rw [status_of_missing hplace hnode, status_of_missing hplace' hsame]
    | some node =>
      rw [hnode, eq_comm, Option.map_some, Option.map_eq_some_iff] at hsame
      obtain ⟨node', hnode', heq⟩ := hsame
      rw [status_eq_ok.mpr ⟨place, hplace, hnode⟩, status_eq_ok.mpr ⟨place, hplace', hnode'⟩]
      cases node <;> cases node' <;> cases heq <;> rfl

end Congr

end FileSystem

end ResolverWiring.Files
