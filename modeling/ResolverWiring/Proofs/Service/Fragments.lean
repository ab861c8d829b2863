import Mathlib
import ResolverWiring.Proofs.Files.Below
import ResolverWiring.Proofs.Service.Source

/-!
# `Proofs.Service.Fragments` — which fragments are collected, and in which order

Directories list their entries in any order. The fragments below a directory are sorted by the texts of the paths that
lead to them, and different names give different texts (`orderKey_injective`). So there is one list of fragments for
each content of a directory: it is strictly sorted (`pairwise_fragmentFiles`), and it has exactly the files whose names
are those of fragments (`mem_fragmentFiles`).
-/

namespace ResolverWiring

open Files Text

variable {files files' : FileSystem} {directory : Path} {names names' : List String} {bytes : ByteArray}

/-! ## The order of fragments -/

/-- Names without slashes can be told from the text by which they are ordered. -/
theorem orderKey_injective (hnames : names ≠ []) (hnames' : names' ≠ []) (hslash : ∀ name ∈ names, '/' ∉ name.toList)
    (hslash' : ∀ name ∈ names', '/' ∉ name.toList) (h : orderKey names = orderKey names') : names = names' := by
  have hsplit : ∀ {parts : List String}, parts ≠ [] → (∀ name ∈ parts, '/' ∉ name.toList) →
      List.splitOn '/' (orderKey parts).toList = parts.map String.toList := by
    intro parts hparts hslash
    rw [orderKey, String.toList_intercalate]
    exact List.splitOn_intercalate '/' (List.forall_mem_map.mpr hslash) (mt List.map_eq_nil_iff.mp hparts)
  have hlists : names.map String.toList = names'.map String.toList := by
    rw [← hsplit hnames hslash, ← hsplit hnames' hslash', h]
  exact List.map_injective_iff.mpr (fun a b hab => String.toList_inj.mp hab) hlists

/-- Whether names lead from a directory to a fragment with these bytes. -/
def FragmentAt (files : FileSystem) (directory : Path) (names : List String) (bytes : ByteArray) : Prop :=
  files.contentBelow directory names = some (.file bytes) ∧ isFragment names = true

theorem FragmentAt.ne_nil (h : FragmentAt files directory names bytes) : names ≠ [] := by
  rintro rfl
  cases h.2

theorem mem_fragmentFiles (hproper : files.root.isProper = true) :
    (names, bytes) ∈ fragmentFiles files directory ↔ FragmentAt files directory names bytes := by
  rw [fragmentFiles, List.mem_mergeSort, List.mem_filter, FileSystem.mem_filesBelow hproper]
  constructor
  · rintro ⟨⟨-, hfile⟩, hname⟩
    exact ⟨hfile, hname⟩
  · intro h
    exact ⟨⟨h.ne_nil, h.1⟩, h.2⟩

/-- The fragments of a directory are strictly sorted. -/
theorem pairwise_fragmentFiles (hproper : files.root.isProper = true) (directory : Path) :
    (fragmentFiles files directory).Pairwise fun a b => orderKey a.1 < orderKey b.1 := by
  have hsorted : (fragmentFiles files directory).Pairwise fun a b => orderKey a.1 ≤ orderKey b.1 := by
    have h := @List.pairwise_mergeSort _ (fun a b : List String × ByteArray => decide (orderKey a.1 ≤ orderKey b.1))
      (fun a b c hab hbc => decide_eq_true (String.le_trans (of_decide_eq_true hab) (of_decide_eq_true hbc)))
      (fun a b => by simpa using String.le_total (orderKey a.1) (orderKey b.1))
      ((files.filesBelow directory).filter (isFragment ·.1))
    exact h.imp of_decide_eq_true
  have hdistinct : (fragmentFiles files directory).Pairwise fun a b => a.1 ≠ b.1 := by
    have hnodup := List.pairwise_map.mp (FileSystem.nodup_filesBelow hproper directory)
    exact (hnodup.filter _).perm (List.mergeSort_perm _ _).symm fun hne => hne.symm
  refine List.Pairwise.imp_of_mem (fun {a b} ha hb hab => lt_of_le_of_ne hab.1 fun hkey => hab.2 ?_)
    (hsorted.and hdistinct)
  have ha := (mem_fragmentFiles hproper).mp ha
  have hb := (mem_fragmentFiles hproper).mp hb
  exact orderKey_injective ha.ne_nil hb.ne_nil (FileSystem.slashFree_of_contentBelow hproper ha.1)
    (FileSystem.slashFree_of_contentBelow hproper hb.1) hkey

/-- A sorted list is given by what is in it. -/
theorem eq_of_sorted {found found' : List (List String × ByteArray)}
    (hfound : found.Pairwise fun a b => orderKey a.1 < orderKey b.1)
    (hfound' : found'.Pairwise fun a b => orderKey a.1 < orderKey b.1)
    (hmem : ∀ file, file ∈ found ↔ file ∈ found') : found = found' := by
  have hnodup : ∀ {files : List (List String × ByteArray)},
      (files.Pairwise fun a b => orderKey a.1 < orderKey b.1) → files.Nodup :=
    fun h => h.imp fun hlt heq => by subst heq; exact lt_irrefl _ hlt
  refine List.Perm.eq_of_pairwise (fun a b _ _ hab hba => absurd hba (lt_asymm hab)) hfound hfound' ?_
  exact (List.perm_ext_iff_of_nodup (hnodup hfound) (hnodup hfound')).mpr hmem

/-- What comes earlier in the order is in front. -/
theorem mem_front {file other : List String × ByteArray} {front back : List (List String × ByteArray)}
    (h : (front ++ file :: back).Pairwise fun a b => orderKey a.1 < orderKey b.1) :
    other ∈ front ↔ other ∈ front ++ file :: back ∧ orderKey other.1 < orderKey file.1 := by
  obtain ⟨-, hbehind, hfront⟩ := List.pairwise_append.mp h
  constructor
  · intro hmem
    exact ⟨List.mem_append_left _ hmem, hfront other hmem file List.mem_cons_self⟩
  · rintro ⟨hmem, hlt⟩
    rcases List.mem_append.mp hmem with hmem | hmem
    · exact hmem
    · rcases List.mem_cons.mp hmem with rfl | hmem
      · exact absurd hlt (lt_irrefl _)
      · exact absurd hlt (lt_asymm ((List.pairwise_cons.mp hbehind).1 other hmem))

/-- Whether a list has exactly the fragments below a directory, each once, sorted by the texts of their paths. -/
structure ListsFragments (files : FileSystem) (directory : Path) (found : List (List String × ByteArray)) : Prop where
  mem : ∀ names bytes, (names, bytes) ∈ found ↔ FragmentAt files directory names bytes
  sorted : found.Pairwise fun a b => orderKey a.1 < orderKey b.1

theorem listsFragments_iff (hproper : files.root.isProper = true) {found : List (List String × ByteArray)} :
    ListsFragments files directory found ↔ found = fragmentFiles files directory := by
  constructor
  · intro h
    refine eq_of_sorted h.sorted (pairwise_fragmentFiles hproper directory) fun file => ?_
    rw [h.mem, mem_fragmentFiles hproper]
  · rintro rfl
    exact ⟨fun names bytes => mem_fragmentFiles hproper, pairwise_fragmentFiles hproper directory⟩

theorem fragmentFiles_eq_nil (hproper : files.root.isProper = true) :
    fragmentFiles files directory = [] ↔ ∀ names bytes, ¬ FragmentAt files directory names bytes := by
  rw [List.eq_nil_iff_forall_not_mem, Prod.forall]
  simp only [mem_fragmentFiles hproper]

/-! ## Reading fragments -/

theorem decodeSchema_eq_ok (path : Path) {text : String} : decodeSchema path bytes = .ok text ↔
    ∃ raw : String, raw.toUTF8 = bytes ∧ text = String.ofList (normalizeLineEnds raw.toList) := by
  rw [decodeSchema, mapError_eq_ok, decodeLines_eq_ok]

theorem decodeSchema_eq_error {path : Path} {e : SourceError} (h : decodeSchema path bytes = .error e) :
    (∃ reason, e = .notUtf8 path reason) ∧ ∀ raw : String, raw.toUTF8 ≠ bytes := by
  refine ⟨?_, fun raw hraw => ?_⟩
  · obtain ⟨fault, -, rfl⟩ := mapError_eq_error.mp h
    exact ⟨fault.reason, rfl⟩
  · rw [(decodeSchema_eq_ok path).mpr ⟨raw, hraw, rfl⟩] at h
    cases h

/-- Whether a fragment is what a file of a directory is read as: it has its path, and the text that its bytes encode,
with every line end as one line feed. -/
def IsReadAs (directory : Path) (file : List String × ByteArray) (fragment : SchemaFragment) : Prop :=
  fragment.path = directory.join ⟨.none, file.1⟩ ∧
    ∃ raw : String, raw.toUTF8 = file.2 ∧ fragment.text = String.ofList (normalizeLineEnds raw.toList)

theorem readFragment_eq_ok {file : List String × ByteArray} {fragment : SchemaFragment} :
    readFragment directory file = .ok fragment ↔ IsReadAs directory file fragment := by
  rw [IsReadAs, ← decodeSchema_eq_ok (directory.join ⟨.none, file.1⟩), readFragment_eq]
  cases decodeSchema (directory.join ⟨.none, file.1⟩) file.2 with
  | error e => exact iff_of_false (fun h => by cases h) fun h => by cases h.2
  | ok text =>
    constructor
    · intro h
      cases h
      exact ⟨rfl, rfl⟩
    · rintro ⟨hpath, htext⟩
      cases htext
      cases fragment
      cases hpath
      rfl

theorem readFragment_eq_error {file : List String × ByteArray} {e : SourceError}
    (h : readFragment directory file = .error e) :
    (∃ reason, e = .notUtf8 (directory.join ⟨.none, file.1⟩) reason) ∧ ∀ raw : String, raw.toUTF8 ≠ file.2 := by
  rw [readFragment_eq] at h
  cases hdecode : decodeSchema (directory.join ⟨.none, file.1⟩) file.2 with
  | error e' =>
    rw [hdecode] at h
    cases h
    exact decodeSchema_eq_error hdecode
  | ok text =>
    rw [hdecode] at h
    cases h

/-! ## Collecting fragments -/

/-- Whether a search for fragments can look at everything: no path of a directory or of something named like a
fragment is too long. -/
def Searchable (files : FileSystem) (directory : Path) : Prop :=
  ∀ names, files.contentBelow directory names = some .directory ∨
      (∃ content, files.contentBelow directory names = some content) ∧ isFragment names = true →
    (directory.join ⟨.none, names⟩).toString.utf8ByteSize ≤ FileSystem.maxPathBytes

theorem checkSearch_eq_ok_iff (hproper : files.root.isProper = true) :
    files.checkSearch isFragmentName directory = .ok () ↔ Searchable files directory :=
  FileSystem.checkSearch_eq_ok hproper

variable {world : World}

/-- What becomes of collecting fragments, with the search for them said by the paths that it looks at. -/
theorem collectFragments_searched (hproper : world.files.root.isProper = true) (directory : Path) :
    (∃ e, world.files.isDirectory directory = .error e ∧ (collectFragments directory world).1 = .error (.unreadable e)) ∨
    (world.files.isDirectory directory = .ok false ∧
      (collectFragments directory world).1 = .error (.directoryNotFound directory)) ∨
    world.files.isDirectory directory = .ok true ∧
      (¬ Searchable world.files directory ∧ (∃ e, (collectFragments directory world).1 = .error (.unreadable e)) ∨
        Searchable world.files directory ∧
          (fragmentFiles world.files directory = [] ∧
              (collectFragments directory world).1 = .error (.noFragments directory) ∨
            fragmentFiles world.files directory ≠ [] ∧ (collectFragments directory world).1
              = (fragmentFiles world.files directory).mapM (readFragment directory))) := by
  rw [← checkSearch_eq_ok_iff hproper]
  rcases collectFragments_cases directory world with h | h | ⟨hdirectory, ⟨e, hsearch, hrun⟩ | h⟩
  · exact .inl h
  · exact .inr (.inl h)
  · refine .inr (.inr ⟨hdirectory, .inl ⟨?_, e, hrun⟩⟩)
    rw [hsearch]
    exact nofun
  · exact .inr (.inr ⟨hdirectory, .inr h⟩)

theorem mapM_readFragment_eq_ok {found : List (List String × ByteArray)} {fragments : List SchemaFragment} :
    found.mapM (readFragment directory) = .ok fragments ↔ List.Forall₂ (IsReadAs directory) found fragments := by
  rw [mapM_eq_ok]
  simp only [readFragment_eq_ok]

/-- Reading files fails with the first one that is not UTF-8. -/
theorem mapM_readFragment_eq_error {found : List (List String × ByteArray)} {e : SourceError}
    (h : found.mapM (readFragment directory) = .error e) :
    ∃ front file back reason, found = front ++ file :: back ∧ e = .notUtf8 (directory.join ⟨.none, file.1⟩) reason ∧
      (∀ raw : String, raw.toUTF8 ≠ file.2) ∧ ∀ earlier ∈ front, ∃ raw : String, raw.toUTF8 = earlier.2 := by
  obtain ⟨front, file, back, rfl, hfront, hfile⟩ := mapM_eq_error.mp h
  obtain ⟨⟨reason, rfl⟩, hbytes⟩ := readFragment_eq_error hfile
  refine ⟨front, file, back, reason, rfl, rfl, hbytes, fun earlier hmem => ?_⟩
  obtain ⟨fragment, hfragment⟩ := hfront earlier hmem
  obtain ⟨-, raw, hraw, -⟩ := readFragment_eq_ok.mp hfragment
  exact ⟨raw, hraw⟩

theorem mapM_readFragment_notUtf8 {found : List (List String × ByteArray)} {path : Path} :
    (∃ reason, found.mapM (readFragment directory) = .error (.notUtf8 path reason)) ↔
      ∃ front file back, found = front ++ file :: back ∧ path = directory.join ⟨.none, file.1⟩ ∧
        (∀ raw : String, raw.toUTF8 ≠ file.2) ∧ ∀ earlier ∈ front, ∃ raw : String, raw.toUTF8 = earlier.2 := by
  constructor
  · rintro ⟨reason, h⟩
    obtain ⟨front, file, back, reason', hfound, heq, hbytes, hfront⟩ := mapM_readFragment_eq_error h
    cases heq
    exact ⟨front, file, back, hfound, rfl, hbytes, hfront⟩
  · rintro ⟨front, file, back, hfound, rfl, hbytes, hfront⟩
    have hread : ∀ earlier ∈ front, ∃ fragment, readFragment directory earlier = .ok fragment := by
      intro earlier hmem
      obtain ⟨raw, hraw⟩ := hfront earlier hmem
      exact ⟨⟨_, _⟩, readFragment_eq_ok.mpr ⟨rfl, raw, hraw, rfl⟩⟩
    cases hfile : readFragment directory file with
    | ok fragment =>
      obtain ⟨-, raw, hraw, -⟩ := readFragment_eq_ok.mp hfile
      exact absurd hraw (hbytes raw)
    | error e =>
      obtain ⟨⟨reason, rfl⟩, -⟩ := readFragment_eq_error hfile
      exact ⟨reason, mapM_eq_error.mpr ⟨front, file, back, hfound, hread, hfile⟩⟩

section Results

variable (hproper : world.files.root.isProper = true)
include hproper

theorem collectFragments_eq_ok {fragments : List SchemaFragment} :
    (collectFragments directory world).1 = .ok fragments ↔
      world.files.isDirectory directory = .ok true ∧ Searchable world.files directory ∧
        ∃ found, found ≠ [] ∧ ListsFragments world.files directory found ∧
          List.Forall₂ (IsReadAs directory) found fragments := by
  simp only [listsFragments_iff hproper, ← mapM_readFragment_eq_ok]
  rcases collectFragments_searched hproper directory with ⟨e, hdirectory, hrun⟩ | ⟨hdirectory, hrun⟩ |
    ⟨hdirectory, ⟨hsearch, e, hrun⟩ | ⟨hsearch, ⟨hnone, hrun⟩ | ⟨hsome, hrun⟩⟩⟩
  · simp [hrun, hdirectory]
  · simp [hrun, hdirectory]
  · simp [hrun, hsearch]
  · simp [hrun, hnone]
  · rw [hrun]
    constructor
    · intro h
      exact ⟨hdirectory, hsearch, _, hsome, rfl, h⟩
    · rintro ⟨-, -, found, -, rfl, h⟩
      exact h

/-- When no fragment is read: there is no directory, there are no fragments, or a path is too long for the search. -/
theorem collectFragments_fails_iff :
    ((collectFragments directory world).1 = .error (.directoryNotFound directory) ↔
      world.files.isDirectory directory = .ok false) ∧
    ((collectFragments directory world).1 = .error (.noFragments directory) ↔
      world.files.isDirectory directory = .ok true ∧ Searchable world.files directory ∧
        ∀ names bytes, ¬ FragmentAt world.files directory names bytes) ∧
    ((∃ e, (collectFragments directory world).1 = .error (.unreadable e)) ↔
      (∃ e, world.files.isDirectory directory = .error e) ∨
        world.files.isDirectory directory = .ok true ∧ ¬ Searchable world.files directory) := by
  rw [← fragmentFiles_eq_nil hproper]
  rcases collectFragments_searched hproper directory with ⟨e, hdirectory, hrun⟩ | ⟨hdirectory, hrun⟩ |
    ⟨hdirectory, ⟨hsearch, e, hrun⟩ | ⟨hsearch, ⟨hnone, hrun⟩ | ⟨hsome, hrun⟩⟩⟩
  · simp [hrun, hdirectory]
  · simp [hrun, hdirectory]
  · simp [hrun, hdirectory, hsearch]
  · simp [hrun, hdirectory, hsearch, hnone]
  · -- what fails here is the reading of a file
    have hreading : ∀ e, (collectFragments directory world).1 = .error e → ∃ path reason, e = .notUtf8 path reason := by
      intro e he
      obtain ⟨front, file, back, reason, -, heq, -⟩ := mapM_readFragment_eq_error (hrun.symm.trans he)
      exact ⟨_, reason, heq⟩
    refine ⟨iff_of_false ?_ ?_, iff_of_false ?_ fun h => hsome h.2.2, iff_of_false ?_ ?_⟩
    · intro h
      obtain ⟨path, reason, heq⟩ := hreading _ h
      cases heq
    · simp [hdirectory]
    · intro h
      obtain ⟨path, reason, heq⟩ := hreading _ h
      cases heq
    · rintro ⟨e, he⟩
      obtain ⟨path, reason, heq⟩ := hreading _ he
      cases heq
    · simp [hdirectory, hsearch]

/-- The file that is named as not being UTF-8 is the first one of this kind, in the order of the fragments. -/
theorem collectFragments_notUtf8_iff {path : Path} :
    (∃ reason, (collectFragments directory world).1 = .error (.notUtf8 path reason)) ↔
      world.files.isDirectory directory = .ok true ∧ Searchable world.files directory ∧
        ∃ names bytes, FragmentAt world.files directory names bytes ∧ path = directory.join ⟨.none, names⟩ ∧
          (∀ raw : String, raw.toUTF8 ≠ bytes) ∧
          ∀ names' bytes', FragmentAt world.files directory names' bytes' → orderKey names' < orderKey names →
            ∃ raw : String, raw.toUTF8 = bytes' := by
  have hsorted := pairwise_fragmentFiles hproper directory
  simp only [← mem_fragmentFiles hproper]
  rcases collectFragments_searched hproper directory with ⟨e, hdirectory, hrun⟩ | ⟨hdirectory, hrun⟩ |
    ⟨hdirectory, ⟨hsearch, e, hrun⟩ | ⟨hsearch, ⟨hnone, hrun⟩ | ⟨hsome, hrun⟩⟩⟩
  · simp [hrun, hdirectory]
  · simp [hrun, hdirectory]
  · simp [hrun, hsearch]
  · simp [hrun, hnone]
  · rw [hrun, mapM_readFragment_notUtf8]
    constructor
    · rintro ⟨front, ⟨names, bytes⟩, back, hfound, rfl, hbytes, hfront⟩
      rw [hfound] at hsorted ⊢
      exact ⟨hdirectory, hsearch, names, bytes, List.mem_append_right front List.mem_cons_self, rfl, hbytes,
        fun names' bytes' hmem hlt => hfront _ ((mem_front hsorted).mpr ⟨hmem, hlt⟩)⟩
    · rintro ⟨-, -, names, bytes, hmem, rfl, hbytes, hearlier⟩
      obtain ⟨front, back, hfound⟩ := List.append_of_mem hmem
      rw [hfound] at hsorted hearlier
      refine ⟨front, _, back, hfound, rfl, hbytes, fun earlier hfront => ?_⟩
      obtain ⟨hmem, hlt⟩ := (mem_front hsorted).mp hfront
      exact hearlier earlier.1 earlier.2 hmem hlt

end Results

/-- What is collected does not depend on the order in which directories list their entries. -/
theorem collectFragments_congr {world' : World} (hproper : world.files.root.isProper = true)
    (hproper' : world'.files.root.isProper = true) (hhere : world.files.directory = world'.files.directory)
    (hcontent : ∀ place, world.files.contentAt place = world'.files.contentAt place)
    (hshort : ∀ e, (collectFragments directory world).1 ≠ .error (.unreadable e)) :
    (collectFragments directory world').1 = (collectFragments directory world).1 := by
  have hdirectory := FileSystem.isDirectory_congr hcontent hhere directory
  have hbelow := FileSystem.contentBelow_congr hcontent hhere directory
  have hfound : fragmentFiles world.files directory = fragmentFiles world'.files directory := by
    refine (listsFragments_iff hproper').mp ⟨fun names bytes => ?_, pairwise_fragmentFiles hproper directory⟩
    rw [mem_fragmentFiles hproper, FragmentAt, FragmentAt, hbelow]
  have hsearchable : Searchable world.files directory ↔ Searchable world'.files directory := by
    unfold Searchable
    simp only [hbelow]
  rw [← checkSearch_eq_ok_iff hproper, ← checkSearch_eq_ok_iff hproper'] at hsearchable
  rw [collectFragments_fst] at hshort ⊢
  rw [collectFragments_fst, ← hdirectory, ← hfound]
  cases hisDirectory : world.files.isDirectory directory with
  | error e => rfl
  | ok isDirectory =>
    cases isDirectory with
    | false => rfl
    | true =>
      rw [hisDirectory] at hshort
      cases hsearch : world.files.checkSearch isFragmentName directory with
      | ok u => rw [hsearchable.mp hsearch]
      | error e =>
        rw [hsearch] at hshort
        exact absurd rfl (hshort e)

/-- What collecting the fragments below a directory gives, said by what names lead to from there. -/
structure CollectsFragments (files : FileSystem) (directory : Path)
    (result : Except SourceError (List SchemaFragment)) : Prop where
  /-- Where all files are UTF-8, every fragment is collected once, in order, and nothing else. -/
  ok : ∀ fragments, result = .ok fragments ↔
    files.isDirectory directory = .ok true ∧ Searchable files directory ∧
      ∃ found, found ≠ [] ∧ ListsFragments files directory found ∧ List.Forall₂ (IsReadAs directory) found fragments
  directoryNotFound : result = .error (.directoryNotFound directory) ↔ files.isDirectory directory = .ok false
  noFragments : result = .error (.noFragments directory) ↔
    files.isDirectory directory = .ok true ∧ Searchable files directory ∧
      ∀ names bytes, ¬ FragmentAt files directory names bytes
  /-- Otherwise the error names the first file that is not UTF-8. -/
  notUtf8 : ∀ path, (∃ reason, result = .error (.notUtf8 path reason)) ↔
    files.isDirectory directory = .ok true ∧ Searchable files directory ∧
      ∃ names bytes, FragmentAt files directory names bytes ∧ path = directory.join ⟨.none, names⟩ ∧
        (∀ raw : String, raw.toUTF8 ≠ bytes) ∧
        ∀ names' bytes', FragmentAt files directory names' bytes' → orderKey names' < orderKey names →
          ∃ raw : String, raw.toUTF8 = bytes'
  unreadable : (∃ e, result = .error (.unreadable e)) ↔
    (∃ e, files.isDirectory directory = .error e) ∨
      files.isDirectory directory = .ok true ∧ ¬ Searchable files directory

/-- **Collecting fragments is complete, and independent of the order of entries.** In a file system whose directories
have their entries under different names, what is collected below a directory is as `CollectsFragments` says, and it is
the same in every file system with the same contents, unless a path is too long to be looked at. -/
theorem collectFragments_exact {world : World} (hproper : world.files.root.isProper = true) (directory : Path) :
    CollectsFragments world.files directory (collectFragments directory world).1 ∧
      ∀ world' : World, world'.files.root.isProper = true → world.files.directory = world'.files.directory →
        (∀ place, world.files.contentAt place = world'.files.contentAt place) →
        (∀ e, (collectFragments directory world).1 ≠ .error (.unreadable e)) →
        (collectFragments directory world').1 = (collectFragments directory world).1 := by
  constructor
  · exact {
      ok := fun fragments => collectFragments_eq_ok hproper
      directoryNotFound := (collectFragments_fails_iff hproper).1
      noFragments := (collectFragments_fails_iff hproper).2.1
      notUtf8 := fun path => collectFragments_notUtf8_iff hproper
      unreadable := (collectFragments_fails_iff hproper).2.2 }
  · intro world' hproper' hhere hcontent hshort
    exact collectFragments_congr hproper hproper' hhere hcontent hshort

/-- Two fragments, listed in either order. -/
theorem collectFragments_exact_two_orders : ∃ (world world' : World) (directory : Path),
    world.files.root.isProper = true ∧ world'.files.root.isProper = true ∧
    world.files.directory = world'.files.directory ∧
    (∀ place, world.files.contentAt place = world'.files.contentAt place) ∧
    (∀ e, (collectFragments directory world).1 ≠ .error (.unreadable e)) ∧
    CollectsFragments world.files directory (collectFragments directory world).1 ∧
    (collectFragments directory world').1 = (collectFragments directory world).1 := by
  let entries := [("b.graphql", Node.file "type B".toUTF8), ("a.graphql", Node.file "type A".toUTF8)]
  let world : World := ⟨⟨.directory entries, []⟩, []⟩
  let world' : World := ⟨⟨.directory entries.reverse, []⟩, []⟩
  have hproper : world.files.root.isProper = true := by cbv
  have hproper' : world'.files.root.isProper = true := by cbv
  have hcontent : ∀ place, world.files.contentAt place = world'.files.contentAt place :=
    Node.contentAt_perm hproper hproper' entries.reverse_perm.symm
  obtain ⟨hcollects, hsame⟩ := collectFragments_exact hproper ⟨.single, []⟩
  have hshort : ∀ e, (collectFragments ⟨.single, []⟩ world).1 ≠ .error (.unreadable e) := by
    intro e he
    have hdirectory : world.files.isDirectory ⟨.single, []⟩ = .ok true := by cbv
    have hsearch : world.files.checkSearch isFragmentName ⟨.single, []⟩ = .ok () := by cbv
    rcases hcollects.unreadable.mp ⟨e, he⟩ with ⟨e', he'⟩ | ⟨-, hnot⟩
    · cases hdirectory.symm.trans he'
    · exact hnot ((checkSearch_eq_ok_iff hproper).mp hsearch)
  exact ⟨world, world', _, hproper, hproper', rfl, hcontent, hshort, hcollects,
    hsame world' hproper' rfl hcontent hshort⟩

theorem status_nameTooLong {name : String} (entries : List (String × Node)) (hnull : '\x00' ∉ name.toList)
    (hname : FileSystem.maxNameBytes < name.utf8ByteSize) :
    (FileSystem.mk (.directory entries) []).status ⟨.none, [name]⟩ = .error (.failed .nameTooLong ⟨.none, [name]⟩) := by
  refine FileSystem.status_of_error ?_
  have hpath : (⟨.none, [name]⟩ : Path).hasNull = false := by simp [Path.hasNull, hnull]
  have hwalk : FileSystem.walk (.directory entries) [] [name] = .error .nameTooLong := if_pos hname
  rw [FileSystem.locate, hpath, if_neg Bool.false_ne_true]
  split
  · rfl
  · exact congrArg (Except.mapError _) hwalk

/-- Where nothing can be because the name is too long, that is the error. -/
theorem collectFragments_nameTooLong : ∃ (world : World) (directory : Path),
    world.files.root.isProper = true ∧ world.files.contentBelow directory [] = none ∧
    (collectFragments directory world).1 ≠ .error (.directoryNotFound directory) ∧
    (collectFragments directory world).1 = .error (.unreadable (.failed .nameTooLong directory)) := by
  obtain ⟨name, hname⟩ : ∃ name, name = String.ofList (List.replicate 256 'a') := ⟨_, rfl⟩
  have hnull : '\x00' ∉ name.toList := by
    rw [hname, String.toList_ofList]
    exact fun h => absurd (List.eq_of_mem_replicate h) (by decide)
  have hlong : FileSystem.maxNameBytes < name.utf8ByteSize := by
    rw [hname]
    decide +kernel
  have hstatus := status_nameTooLong [] hnull hlong
  have hrun : (collectFragments ⟨.none, [name]⟩ ⟨⟨.directory [], []⟩, []⟩).1
      = .error (.unreadable (.failed .nameTooLong ⟨.none, [name]⟩)) := by
    rw [collectFragments_fst]
    unfold FileSystem.isDirectory FileSystem.find
    rw [hstatus]
    rfl
  refine ⟨⟨⟨.directory [], []⟩, []⟩, ⟨.none, [name]⟩, rfl, FileSystem.contentBelow_of_error hstatus [], ?_, hrun⟩
  rw [hrun]
  exact fun h => by cases h

end ResolverWiring
