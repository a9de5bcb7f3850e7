import TemplateLint.Proofs.ExtensionMatching
import TemplateLint.Proofs.PathOrder

/-!
# The files that are found

What a walk through a directory comes to, said step by step: from a directory on through each entry
that is neither hidden nor ignored. With that, the files found for given paths are the files among
the paths and the allowed ones to which walks come, once each and in order. Which of two spellings
of a path is shown may depend on the order of the given paths, and nothing else does.
-/

namespace TemplateLint

namespace Walk

variable {w : Walk} {levels : List IgnoreLevel} {path name f : Text}

/-- Whether an entry is kept on a walk: an ignore file brings it back, or none of them says anything
about it and it is not hidden. The levels are those of the walk, the nearest first. -/
def Keeps (w : Walk) (levels : List IgnoreLevel) (path name : Text) (isDirectory : Bool) : Prop :=
  let verdict := IgnoreLevel.verdict? (levels.map (fun l => (l, Path.dropDot path)) ++
    w.above.map fun l => (l, w.absolute path)) isDirectory
  verdict = some .wanted ∨ verdict = none ∧ name.head? ≠ some '.'

theorem leavesOut_eq_false_iff {isDirectory : Bool} :
    w.leavesOut levels path name isDirectory = false ↔ w.Keeps levels path name isDirectory := by
  rw [leavesOut, Keeps]
  split
  next hverdict => simp [hverdict]
  next hverdict => simp [hverdict]
  next hverdict => simp [hverdict]

/-- The files to which a walk comes from a node at a path: a file itself, and from a directory what
it comes to from an entry that is kept. -/
inductive Reaches (w : Walk) : List IgnoreLevel → Text → Node → Text → Prop where
  | file (levels : List IgnoreLevel) (path : Text) (bytes : Bytes) :
      Reaches w levels path (.file bytes) path
  | entry {levels : List IgnoreLevel} {path name f : Text} {entries : List (Text × Node)}
      {node : Node} (hmem : (name, node) ∈ entries)
      (hkept : w.Keeps (.ofDirectory w.tree path (.directory entries) :: levels)
        (Path.join path name) name (!node.isFile))
      (hreaches : Reaches w (.ofDirectory w.tree path (.directory entries) :: levels)
        (Path.join path name) node f) :
      Reaches w levels path (.directory entries) f

theorem reaches_file_iff {bytes : Bytes} : w.Reaches levels path (.file bytes) f ↔ f = path := by
  constructor
  · rintro ⟨⟩
    rfl
  · rintro rfl
    exact .file levels f bytes

theorem reaches_directory_iff {entries : List (Text × Node)} :
    w.Reaches levels path (.directory entries) f ↔ ∃ name node, (name, node) ∈ entries ∧
      w.Keeps (.ofDirectory w.tree path (.directory entries) :: levels)
        (Path.join path name) name (!node.isFile) ∧
      w.Reaches (.ofDirectory w.tree path (.directory entries) :: levels)
        (Path.join path name) node f := by
  constructor
  · rintro (_ | ⟨hmem, hkept, hreaches⟩)
    exact ⟨_, _, hmem, hkept, hreaches⟩
  · rintro ⟨name, node, hmem, hkept, hreaches⟩
    exact .entry hmem hkept hreaches

mutual

/-- The list of a walk holds the files to which it comes. -/
theorem mem_files_iff (levels : List IgnoreLevel) (path : Text) (node : Node) :
    f ∈ w.files levels path node ↔ w.Reaches levels path node f := by
  cases node with
  | file bytes => rw [files, List.mem_singleton, reaches_file_iff]
  | directory entries => rw [files, mem_filesOfEntries_iff, reaches_directory_iff]

theorem mem_filesOfEntries_iff (levels : List IgnoreLevel) (path : Text)
    (entries : List (Text × Node)) :
    f ∈ w.filesOfEntries levels path entries ↔ ∃ name node, (name, node) ∈ entries ∧
      w.Keeps levels (Path.join path name) name (!node.isFile) ∧
      w.Reaches levels (Path.join path name) node f := by
  cases entries with
  | nil => simp [filesOfEntries]
  | cons entry rest =>
    obtain ⟨name, node⟩ := entry
    have hentry : f ∈ (if w.leavesOut levels (Path.join path name) name !node.isFile then []
          else w.files levels (Path.join path name) node) ↔
        w.Keeps levels (Path.join path name) name (!node.isFile) ∧
          w.Reaches levels (Path.join path name) node f := by
      rw [← leavesOut_eq_false_iff, ← mem_files_iff]
      split <;> simp_all
    rw [filesOfEntries, List.mem_append, hentry, mem_filesOfEntries_iff levels path rest]
    constructor
    · rintro (⟨hkept, hreaches⟩ | ⟨name', node', hmem, hkept, hreaches⟩)
      · exact ⟨name, node, List.mem_cons_self, hkept, hreaches⟩
      · exact ⟨name', node', List.mem_cons_of_mem _ hmem, hkept, hreaches⟩
    · rintro ⟨name', node', hmem, hkept, hreaches⟩
      rcases List.mem_cons.1 hmem with heq | hmem
      · obtain ⟨rfl, rfl⟩ := Prod.mk.inj heq
        exact Or.inl ⟨hkept, hreaches⟩
      · exact Or.inr ⟨name', node', hmem, hkept, hreaches⟩

end

end Walk

namespace FileTree

variable {t : FileTree} {path f : Text} {paths : List Text}

section OnePath

/-- Whether a path leads to a directory. -/
def isDirectory (t : FileTree) (path : Text) : Bool :=
  match t.place path with
  | .ok p => !p.node.isFile
  | .error _ => false

/-- Whether a path leads to a file or to a directory. -/
def leadsSomewhere (t : FileTree) (path : Text) : Bool := t.isFile path || t.isDirectory path

theorem isFile_iff : t.isFile path ↔ ∃ p, t.place path = .ok p ∧ p.node.isFile := by
  cases hplace : t.place path <;> simp [isFile, hplace]

theorem isDirectory_iff :
    t.isDirectory path ↔ ∃ p, t.place path = .ok p ∧ p.node.isFile = false := by
  cases hplace : t.place path <;> simp [isDirectory, hplace]

theorem not_isDirectory_of_isFile (h : t.isFile path) : ¬ t.isDirectory path := by
  obtain ⟨p, hplace, hfile⟩ := isFile_iff.1 h
  simp [isDirectory, hplace, hfile]

/-- A walk from a path comes to a file. -/
def WalksTo (t : FileTree) (path f : Text) : Prop :=
  ∃ p, t.place path = .ok p ∧ (Walk.ofPlace t path p).Reaches [] path p.node f

/-- The files that a walk from a path lists. A dash stands for the standard input, and a walk from
there lists none. -/
def walked (t : FileTree) (path : Text) : List Text :=
  match t.place path with
  | .ok p => if Path.same path ['-'] then [] else (Walk.ofPlace t path p).files [] path p.node
  | .error _ => []

theorem mem_walked_iff (hdash : ¬ Path.same path ['-']) :
    f ∈ t.walked path ↔ t.WalksTo path f := by
  cases hplace : t.place path with
  | error e => simp [walked, WalksTo, hplace]
  | ok p => simp [walked, WalksTo, hplace, hdash, Walk.mem_files_iff]

/-- The files to check for given paths: the files among the paths, whatever their names are, and the
files with an allowed name that walks through the directories among them list. -/
def IsSought (t : FileTree) (extensions : ExtensionSet) (paths : List Text) (f : Text) : Prop :=
  (f ∈ paths ∧ t.isFile f) ∨
    ∃ d ∈ paths, t.isDirectory d ∧ f ∈ t.walked d ∧ extensions.allows f

theorem filesAt_of_nowhere (extensions : ExtensionSet) (h : ¬ t.leadsSomewhere path) :
    t.filesAt extensions path = .error (.io ("path not found: ".toList ++ path)) := by
  rw [leadsSomewhere, Bool.or_eq_true, isFile_iff, isDirectory_iff] at h
  rw [filesAt]
  cases hplace : t.place path with
  | error e => rfl
  | ok p => cases hfile : p.node.isFile <;> simp [hplace, hfile] at h

theorem filesAt_of_isFile (extensions : ExtensionSet) (h : t.isFile path) :
    t.filesAt extensions path = .ok [path] := by
  obtain ⟨p, hplace, hfile⟩ := isFile_iff.1 h
  simp [filesAt, hplace, hfile]

theorem filesAt_of_isDirectory (extensions : ExtensionSet) (h : t.isDirectory path) :
    t.filesAt extensions path = .ok ((t.walked path).filter extensions.allows) := by
  obtain ⟨p, hplace, hfile⟩ := isDirectory_iff.1 h
  by_cases hdash : Path.same path ['-'] <;> simp [filesAt, walked, hplace, hfile, hdash]

theorem exists_filesAt (extensions : ExtensionSet) (h : t.leadsSomewhere path) :
    ∃ files, t.filesAt extensions path = .ok files ∧
      ∀ f, f ∈ files ↔ t.IsSought extensions [path] f := by
  simp only [IsSought, List.mem_singleton, exists_eq_left]
  rcases Bool.or_eq_true_iff.1 h with hfile | hdirectory
  · have hnot := not_isDirectory_of_isFile hfile
    refine ⟨[path], filesAt_of_isFile extensions hfile, fun f => ?_⟩
    rw [List.mem_singleton]
    constructor
    · rintro rfl
      exact Or.inl ⟨rfl, hfile⟩
    · rintro (⟨hf, -⟩ | ⟨hdirectory, -⟩)
      · exact hf
      · exact absurd hdirectory hnot
  · refine ⟨_, filesAt_of_isDirectory extensions hdirectory, fun f => ?_⟩
    rw [List.mem_filter]
    constructor
    · exact fun hwalked => Or.inr ⟨hdirectory, hwalked⟩
    · rintro (⟨rfl, hfile⟩ | ⟨-, hwalked⟩)
      · exact absurd hdirectory (not_isDirectory_of_isFile hfile)
      · exact hwalked

end OnePath

section Paths

theorem isSought_cons_iff {extensions : ExtensionSet} :
    t.IsSought extensions (path :: paths) f ↔
      t.IsSought extensions [path] f ∨ t.IsSought extensions paths f := by
  simp only [IsSought, List.mem_cons, List.not_mem_nil, or_false, exists_eq_left, or_and_right,
    exists_or]
  exact or_or_or_comm

theorem exists_mapM_filesAt (extensions : ExtensionSet) (h : ∀ p ∈ paths, t.leadsSomewhere p) :
    ∃ lists, paths.mapM (t.filesAt extensions) = .ok lists ∧
      ∀ f, f ∈ lists.flatten ↔ t.IsSought extensions paths f := by
  induction paths with
  | nil => exact ⟨[], rfl, by simp [IsSought]⟩
  | cons path paths ih =>
    rw [List.forall_mem_cons] at h
    obtain ⟨files, hfiles, hmem⟩ := exists_filesAt extensions h.1
    obtain ⟨lists, hlists, hflatten⟩ := ih h.2
    refine ⟨files :: lists, ?_, fun f => ?_⟩
    · rw [List.mapM_cons, hfiles, hlists]
      rfl
    · rw [List.flatten_cons, List.mem_append, hmem, hflatten, ← isSought_cons_iff]

theorem exists_discover_eq_inPathOrder (extensions : ExtensionSet)
    (h : ∀ p ∈ paths, t.leadsSomewhere p) :
    ∃ l, t.discover extensions paths = .ok (inPathOrder l) ∧
      ∀ f, f ∈ l ↔ t.IsSought extensions paths f := by
  obtain ⟨lists, hlists, hmem⟩ := exists_mapM_filesAt extensions h
  refine ⟨lists.flatten, ?_, hmem⟩
  rw [discover, hlists]
  rfl

theorem discover_of_nowhere (extensions : ExtensionSet) {front : List Text}
    (hfront : ∀ p ∈ front, t.leadsSomewhere p) (hpath : ¬ t.leadsSomewhere path)
    (back : List Text) : t.discover extensions (front ++ path :: back) =
      .error (.io ("path not found: ".toList ++ path)) := by
  obtain ⟨lists, hlists, -⟩ := exists_mapM_filesAt extensions hfront
  rw [discover, List.mapM_append, hlists, List.mapM_cons, filesAt_of_nowhere extensions hpath]
  rfl

theorem exists_first_nowhere (h : ¬ ∀ p ∈ paths, t.leadsSomewhere p) :
    ∃ front path back, paths = front ++ path :: back ∧ (∀ p ∈ front, t.leadsSomewhere p) ∧
      ¬ t.leadsSomewhere path := by
  have hsome : (paths.find? fun p => !t.leadsSomewhere p).isSome := by
    simpa [List.find?_isSome] using h
  obtain ⟨path, hpath⟩ := Option.isSome_iff_exists.1 hsome
  obtain ⟨hnot, front, back, hpaths, hfront⟩ := List.find?_eq_some_iff_append.1 hpath
  exact ⟨front, path, back, hpaths, by simpa using hfront, by simpa using hnot⟩

theorem discover_eq_error_iff {extensions : ExtensionSet} {e : LintError} :
    t.discover extensions paths = .error e ↔
      ∃ front path back, paths = front ++ path :: back ∧ (∀ p ∈ front, t.leadsSomewhere p) ∧
        ¬ t.leadsSomewhere path ∧ e = .io ("path not found: ".toList ++ path) := by
  constructor
  · intro herror
    by_cases hall : ∀ p ∈ paths, t.leadsSomewhere p
    · obtain ⟨l, hl, -⟩ := exists_discover_eq_inPathOrder extensions hall
      rw [hl] at herror
      exact absurd herror (by simp)
    · obtain ⟨front, path, back, rfl, hfront, hpath⟩ := exists_first_nowhere hall
      rw [discover_of_nowhere extensions hfront hpath back, Except.error.injEq] at herror
      exact ⟨front, path, back, rfl, hfront, hpath, herror.symm⟩
  · rintro ⟨front, path, back, rfl, hfront, hpath, rfl⟩
    exact discover_of_nowhere extensions hfront hpath back

end Paths

end FileTree

/-- Files are found unless a path leads neither to a file nor to a directory; the first such path is
named. The files are in ascending order by the parts of their paths, no two of them with the same
parts, and up to parts they are the files that are sought. So neither the order nor the repetition
of the given paths makes a difference to the parts of what is found. A walk from any path but a dash
lists the files to which it comes through entries that are neither hidden nor ignored. -/
theorem discover_finds_sought (t : FileTree) (extensions : ExtensionSet) (paths : List Text) :
    (∀ e, t.discover extensions paths = .error e ↔
      ∃ front path back, paths = front ++ path :: back ∧ (∀ p ∈ front, t.leadsSomewhere p) ∧
        ¬ t.leadsSomewhere path ∧ e = .io ("path not found: ".toList ++ path)) ∧
    ((∀ p ∈ paths, t.leadsSomewhere p) →
      ∃ files, t.discover extensions paths = .ok files ∧
        files.Pairwise (fun a b => Path.parts a < Path.parts b) ∧
        (∀ f ∈ files, t.IsSought extensions paths f) ∧
        (∀ f, t.IsSought extensions paths f → ∃ g ∈ files, Path.same g f) ∧
        ∀ others, (∀ p, p ∈ others ↔ p ∈ paths) →
          ∃ files', t.discover extensions others = .ok files' ∧
            files'.map Path.parts = files.map Path.parts) ∧
    ∀ d f, ¬ Path.same d ['-'] → (f ∈ t.walked d ↔ t.WalksTo d f) := by
  refine ⟨fun e => FileTree.discover_eq_error_iff, fun hall => ?_,
    fun d f => FileTree.mem_walked_iff⟩
  obtain ⟨l, hl, hmem⟩ := FileTree.exists_discover_eq_inPathOrder extensions hall
  refine ⟨_, hl, FileTree.pairwise_inPathOrder l, fun f hf => ?_, fun f hf => ?_, ?_⟩
  · exact (hmem f).1 (FileTree.mem_of_mem_inPathOrder hf)
  · exact FileTree.exists_same_mem_inPathOrder ((hmem f).2 hf)
  · intro others hothers
    have hall' : ∀ p ∈ others, t.leadsSomewhere p := fun p hp => hall p ((hothers p).1 hp)
    obtain ⟨l', hl', hmem'⟩ := FileTree.exists_discover_eq_inPathOrder extensions hall'
    refine ⟨_, hl', FileTree.map_parts_inPathOrder_eq fun f => ?_⟩
    -- What is sought asks only which paths there are.
    rw [hmem', hmem, FileTree.IsSought, FileTree.IsSought]
    simp only [hothers]

theorem discover_finds_sought_overlapping :
    let tree : FileTree := ⟨.directory [(".gitignore".toList, .file (Utf8.encode "c/".toList)),
      ("b.tpl".toList, .file []),
      ("a".toList, .directory [("y.md".toList, .file []), ("x.tpl".toList, .file [])]),
      ("c".toList, .directory [("z.tpl".toList, .file [])])], []⟩
    let set : ExtensionSet := [ExtensionSet.suffixGlob "tpl".toList]
    let paths : List Text := ["./a".toList, ".".toList, "a/y.md".toList, "./a/./x.tpl".toList]
    (∀ p ∈ paths, tree.leadsSomewhere p) ∧
      ∃ files, tree.discover set paths = .ok files ∧
        files.Pairwise (fun a b => Path.parts a < Path.parts b) ∧
        (∃ g ∈ files, Path.same g "a/y.md".toList) ∧ (∃ g ∈ files, Path.same g "./b.tpl".toList) ∧
        (∃ files', tree.discover set (paths.reverse ++ paths) = .ok files' ∧
          files'.map Path.parts = files.map Path.parts) ∧
        tree.WalksTo ".".toList "./b.tpl".toList ∧
        ¬ tree.WalksTo ".".toList "./c/z.tpl".toList := by
  intro tree set paths
  have hall : ∀ p ∈ paths, tree.leadsSomewhere p := by
    rw [← List.all_eq_true]
    decide
  have hgiven : tree.IsSought set paths "a/y.md".toList := Or.inl (by decide)
  have hlisted : "./b.tpl".toList ∈ tree.walked ".".toList := by decide +kernel
  have hignored : "./c/z.tpl".toList ∉ tree.walked ".".toList := by decide +kernel
  have hwalked : tree.IsSought set paths "./b.tpl".toList :=
    Or.inr ⟨".".toList, by decide, by decide, hlisted, by decide +kernel⟩
  obtain ⟨-, hruns, hwalks⟩ := discover_finds_sought tree set paths
  obtain ⟨files, hfiles, hsorted, -, hfound, hothers⟩ := hruns hall
  have hdot (f : Text) := hwalks ".".toList f (by decide)
  exact ⟨hall, files, hfiles, hsorted, hfound _ hgiven, hfound _ hwalked,
    hothers _ fun p => by simp, (hdot _).1 hlisted, mt (hdot _).2 hignored⟩

end TemplateLint
