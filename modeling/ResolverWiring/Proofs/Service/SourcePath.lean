import ResolverWiring.Proofs.Files.PathText
import ResolverWiring.Proofs.Service.Gate

/-!
# `Proofs.Service.SourcePath` — where the source of a schema is

The text of a setting says where the source of the schema is. If it starts with a slash, the source has the path that
stands there, `..` included, wherever the service is. If not, the text is the way from the directory of the service to
the source: the walk along its components ends at a place (`IsPlace`), and the path of a place means the same from
everywhere. So it does not matter whether a way is gone at once or in two parts (`sourcePath_exact`).
-/

namespace ResolverWiring

open Files

namespace Files.Path

variable {directory p q : Path} {here components names place : List String}

/-! ## Walks -/

/-- Where a walk along the components of a text leads to. A step back from the root has no effect. -/
inductive Leads : List String → List String → List String → Prop where
  | arrived (here : List String) : Leads here [] here
  | stay {here components place : List String} {component : String} (hcomponent : component = "" ∨ component = ".")
      (h : Leads here components place) : Leads here (component :: components) place
  | back {here components place : List String} {name : String} (h : Leads here components place) :
      Leads (here ++ [name]) (".." :: components) place
  | atRoot {components place : List String} (h : Leads [] components place) : Leads [] (".." :: components) place
  | enter {here components place : List String} {name : String} (hname : name ∉ ["", ".", ".."])
      (h : Leads (here ++ [name]) components place) : Leads here (name :: components) place

theorem walk_cons (here : List String) (name : String) (names : List String) :
    walk here (name :: names) = walk (step here name) names := rfl

theorem walk_append (here names names' : List String) : walk here (names ++ names') = walk (walk here names) names' :=
  List.foldl_append

theorem Leads.walk_eq (h : Leads here components place) : walk here (components.filter isName) = place := by
  induction h with
  | arrived here => rfl
  | stay hcomponent _ ih =>
    rw [List.filter_cons_of_neg (by rcases hcomponent with rfl | rfl <;> decide)]
    exact ih
  | @back here _ _ name _ ih =>
    rw [List.filter_cons_of_pos (by decide), walk_cons, step, if_pos rfl, List.dropLast_concat]
    exact ih
  | atRoot _ ih =>
    rw [List.filter_cons_of_pos (by decide), walk_cons]
    exact ih
  | @enter here _ _ name hname _ ih =>
    simp only [List.mem_cons, List.not_mem_nil, or_false, not_or] at hname
    rw [List.filter_cons_of_pos (isName_iff.mpr ⟨hname.1, hname.2.1⟩), walk_cons, step, if_neg hname.2.2]
    exact ih

/-- A walk along components leads to one place. -/
theorem leads_iff : Leads here components place ↔ place = walk here (components.filter isName) := by
  refine ⟨fun h => h.walk_eq.symm, ?_⟩
  rintro rfl
  induction components generalizing here with
  | nil => exact .arrived here
  | cons component components ih =>
    by_cases hname : isName component = true
    · rw [List.filter_cons_of_pos hname, walk_cons]
      by_cases hback : component = ".."
      · subst hback
        rw [step, if_pos rfl]
        -- a step back drops the last name, if there is one
        rcases here.eq_nil_or_concat' with rfl | ⟨front, last, rfl⟩
        · exact .atRoot ih
        · rw [List.dropLast_concat]
          exact .back ih
      · obtain ⟨hempty, hdot⟩ := isName_iff.mp hname
        rw [step, if_neg hback]
        exact .enter (by simp [hempty, hdot, hback]) ih
    · have hskip : component = "" ∨ component = "." := by
        by_contra hnot
        exact hname (isName_iff.mpr (not_or.mp hnot))
      rw [List.filter_cons_of_neg hname]
      exact .stay hskip ih

/-- A walk that never steps back collects the names along which it goes. -/
theorem walk_eq_append (h : ".." ∉ names) : walk here names = here ++ names := by
  induction names generalizing here with
  | nil => exact (List.append_nil here).symm
  | cons name names ih =>
    obtain ⟨hname, hnames⟩ := not_or.mp (mt List.mem_cons.mpr h)
    rw [walk_cons, ih hnames, step, if_neg (Ne.symm hname), List.append_assoc, List.singleton_append]

/-! ## Places -/

theorem join_of_relative (h : q.isAbsolute = false) : p.join q = ⟨p.root, p.names ++ q.names⟩ := by
  rw [join, h, if_neg Bool.false_ne_true]

theorem hasNull_join (h : q.isAbsolute = false) : (p.join q).hasNull = (p.hasNull || q.hasNull) := by
  rw [join_of_relative h]
  exact List.any_append

/-- A path without a root is walked from the directory from which it is seen. -/
theorem names_resolve (hdirectory : ".." ∉ directory.names) (hp : p.isAbsolute = false) :
    (resolve directory p).names = walk directory.names p.names := by
  have hhere : walk [] directory.names = directory.names := walk_eq_append hdirectory
  rw [resolve, join_of_relative hp, walk_append, hhere]

/-- Two walks one after the other are one walk. -/
theorem resolve_resolve (directory : Path) (hp : p.isAbsolute = false) (hq : q.isAbsolute = false) :
    resolve (resolve directory p) q = resolve directory (p.join q) := by
  have hpq : (p.join q).isAbsolute = false := by
    rw [join_of_relative hq]
    exact hp
  -- the first walk has come to an end without a step back, so the second goes on from there
  have hforward : ".." ∉ (resolve directory p).names := parent_not_mem_walk _ List.not_mem_nil
  have hnames : (resolve (resolve directory p) q).names = (resolve directory (p.join q)).names := calc
    (resolve (resolve directory p) q).names
    _ = walk (walk [] (directory.names ++ p.names)) q.names := by
      rw [names_resolve hforward hq, resolve, join_of_relative hp]
    _ = walk [] (directory.names ++ (p.names ++ q.names)) := by rw [← walk_append, List.append_assoc]
    _ = (resolve directory (p.join q)).names := by rw [resolve, join_of_relative hpq, join_of_relative hq]
  exact congrArg (Path.mk .single) hnames

/-- The path of a place: absolute, and none of its names is empty, `.` or `..`, or one that no file can have. -/
structure IsPlace (p : Path) : Prop extends IsResolved p where
  normal : p.IsNormal

theorem IsPlace.resolve (hdirectory : directory.IsPlace) (hp : p.IsNormal) (hnull : p.hasNull = false) :
    (directory.resolve p).IsPlace := by
  refine ⟨isResolved_resolve hdirectory.noNull hnull, fun name hname => ?_⟩
  rcases mem_walk hname with h | h
  · cases h
  · exact hdirectory.normal.join hp name h

theorem IsPlace.parent (h : p.IsPlace) : p.parent.IsPlace :=
  ⟨h.toIsResolved.parent, fun name hname => h.normal name (List.mem_of_mem_dropLast hname)⟩

theorem IsResolved.isAbsolute (h : p.IsResolved) : p.isAbsolute = true := by
  rw [Path.isAbsolute, h.root]
  rfl

/-- A resolved path means the same from everywhere. -/
theorem IsResolved.resolve_eq (h : p.IsResolved) (directory : Path) : directory.resolve p = p := by
  rw [resolve, join, h.isAbsolute, if_pos rfl, walk_eq_append h.forward, List.nil_append, ← h.root]

theorem toString_of_absolute (h : p.isAbsolute = true) : p.toString = p.root.text ++ "/".intercalate p.names := by
  have hroot : p.root ≠ .none := bne_iff_ne.mp h
  rw [toString, if_neg (by simp [hroot])]

end Files.Path

/-! ## Sources -/

open Files.Path

namespace Settings

variable {directory : Path} {text : String}

theorem sourcePath_of_absolute (h : (Path.ofString text).isAbsolute = true) :
    sourcePath directory text = .ok (.ofString text) := if_pos h

theorem sourcePath_of_relative (hnull : (Path.ofString text).hasNull = false)
    (h : (Path.ofString text).isAbsolute = false) :
    sourcePath directory text = .ok (directory.resolve (.ofString text)) := by
  rw [sourcePath_eq hnull, placeOf, h, if_neg Bool.false_ne_true]

/-- The text of a path that has been read means what the path means. -/
theorem sourcePath_toString {p : Path} (h : p.IsNormal) (hnull : p.hasNull = false) :
    sourcePath directory p.toString = .ok (if p.isAbsolute then p else directory.resolve p) := by
  have hread := ofString_toString h
  rw [sourcePath_eq (by rw [hread]; exact hnull), placeOf, hread]

/-- Of two ways one after the other, the second goes on where the first has led to. -/
theorem sourcePath_join {first second : Path} (hfirst : first.IsNormal) (hsecond : second.IsNormal)
    (hnull : first.hasNull = false) (hnull' : second.hasNull = false) (h : first.isAbsolute = false)
    (h' : second.isAbsolute = false) :
    sourcePath directory (first.join second).toString = .ok ((directory.resolve first).resolve second) := by
  have hjoined : (first.join second).hasNull = false := by
    rw [hasNull_join h', hnull, hnull']
    rfl
  have hrelative : (first.join second).isAbsolute = false := by
    rw [join_of_relative h']
    exact h
  rw [sourcePath_toString (hfirst.join hsecond) hjoined, hrelative, if_neg Bool.false_ne_true,
    resolve_resolve directory h h']

/-- The text of a source without a slash in front is walked from the directory of the service to a place, and one with
a slash in front means the same from everywhere. -/
theorem sourcePath_exact {first : String} (hfirst : '\x00' ∉ first.toList) :
    (first.toList.head? ≠ some '/' → ∀ directory : Path, directory.IsPlace → ∃ place : Path,
      sourcePath directory first = .ok place ∧ place.IsPlace ∧
      (∀ names, Leads directory.names (components first) names ↔ names = place.names) ∧
      (∀ second : String, '\x00' ∉ second.toList → second.toList.head? ≠ some '/' → ∃ inner,
        sourcePath place second = .ok inner ∧
        sourcePath directory ((Path.ofString first).join (.ofString second)).toString = .ok inner) ∧
      ∀ other : Path, other.resolve place = place ∧ sourcePath other place.toString = .ok place) ∧
    (first.toList.head? = some '/' → ∃ path : Path,
      (∀ directory, sourcePath directory first = .ok path) ∧
      path.names = (components first).filter (fun component => component ≠ "" ∧ component ≠ ".") ∧
      path.toString = (if leadingSlashes first = 2 then "//" else "/") ++ "/".intercalate path.names) := by
  have hnull := hasNull_ofString hfirst
  have hnormal := isNormal_ofString first
  constructor
  · intro hslash directory hdirectory
    have hrelative := isAbsolute_ofString_eq_false hslash
    have hplace := hdirectory.resolve hnormal hnull
    refine ⟨_, sourcePath_of_relative hnull hrelative, hplace, fun names => ?_, fun second hsecond hslash' => ?_,
      fun other => ⟨hplace.resolve_eq other, ?_⟩⟩
    · rw [leads_iff, names_resolve hdirectory.forward hrelative, names_ofString]
    · have hnull' := hasNull_ofString hsecond
      have hrelative' := isAbsolute_ofString_eq_false hslash'
      exact ⟨_, sourcePath_of_relative hnull' hrelative',
        sourcePath_join hnormal (isNormal_ofString second) hnull hnull' hrelative hrelative'⟩
    · rw [sourcePath_toString hplace.normal hplace.noNull, if_pos hplace.isAbsolute]
  · intro hslash
    have habsolute := isAbsolute_ofString.mpr hslash
    refine ⟨.ofString first, fun directory => sourcePath_of_absolute habsolute, ?_, ?_⟩
    · rw [names_ofString]
      exact List.filter_congr fun component _ => by rw [Bool.eq_iff_iff, isName_iff, decide_eq_true_iff]
    · rw [toString_of_absolute habsolute, text_root_ofString hslash]

/-- From `/srv/app`, a way back past components that do not count leads to `/srv/y`, and one further back than to the
root leads on from there to `/z`. Behind two slashes a step back stays in the path. -/
theorem sourcePath_exact_back :
    '\x00' ∉ "../x/.//../y/".toList ∧ (⟨.single, ["srv", "app"]⟩ : Path).IsPlace ∧
    sourcePath ⟨.single, ["srv", "app"]⟩ "../x/.//../y/" = .ok ⟨.single, ["srv", "y"]⟩ ∧
    sourcePath ⟨.single, ["srv", "y"]⟩ "../../../z" = .ok ⟨.single, ["z"]⟩ ∧
    sourcePath ⟨.single, ["srv", "app"]⟩ "../x/../y/../../../z" = .ok ⟨.single, ["z"]⟩ ∧
    ∃ path, (∀ directory, sourcePath directory "//a/./..///b" = .ok path) ∧ path.toString = "//a/../b" := by
  have hfirst : '\x00' ∉ "../x/.//../y/".toList := by decide
  have hservice : (⟨.single, ["srv", "app"]⟩ : Path).IsPlace := by
    refine ⟨⟨rfl, by decide, by simp [Path.hasNull]⟩, fun name hname => ?_⟩
    simp only [List.mem_cons, List.not_mem_nil, or_false] at hname
    rcases hname with rfl | rfl <;> exact ⟨by decide, by decide, by decide⟩
  have hsecond : '\x00' ∉ "../../../z".toList := by decide
  have hfirstWalk : Leads ["srv", "app"] (components "../x/.//../y/") ["srv", "y"] := by
    rw [show components "../x/.//../y/" = ["..", "x", ".", "", "..", "y", ""] by decide]
    apply @Leads.back ["srv"] _ _ "app"
    apply Leads.enter (by decide)
    refine .stay (.inr rfl) (.stay (.inl rfl) ?_)
    apply @Leads.back ["srv"] _ _ "x"
    exact .enter (by decide) (.stay (.inl rfl) (.arrived _))
  have hsecondWalk : Leads ["srv", "y"] (components "../../../z") ["z"] := by
    rw [show components "../../../z" = ["..", "..", "..", "z"] by decide]
    apply @Leads.back ["srv"] _ _ "y"
    apply @Leads.back [] _ _ "srv"
    exact .atRoot (.enter (by decide) (.arrived _))
  have hjoined : ((Path.ofString "../x/.//../y/").join (.ofString "../../../z")).toString = "../x/../y/../../../z" := by
    cbv
  obtain ⟨⟨_, _⟩, hplace, hisPlace, hleads, hparts, -⟩ := (sourcePath_exact hfirst).1 (by decide) _ hservice
  cases hisPlace.root
  cases (hleads _).mp hfirstWalk
  obtain ⟨⟨_, _⟩, hfound, hisPlace', hleads', -⟩ := (sourcePath_exact hsecond).1 (by decide) _ hisPlace
  cases hisPlace'.root
  cases (hleads' _).mp hsecondWalk
  obtain ⟨inner, hinner, hatOnce⟩ := hparts _ hsecond (by decide)
  cases hfound.symm.trans hinner
  rw [hjoined] at hatOnce
  have habsolute : '\x00' ∉ "//a/./..///b".toList := by decide
  obtain ⟨path, hpath, hnames, htext⟩ := (sourcePath_exact habsolute).2 (by decide)
  exact ⟨hfirst, hservice, hplace, hfound, hatOnce, path, hpath, by rw [htext, hnames]; decide⟩

end Settings

end ResolverWiring
