import Mathlib

/-!
# Files and directories

A file system maps paths, which are lists of names, to what is there.  Each operation gives the
new map or an error, and a lemma says which paths it has changed.

A `Tree` is what a walk through a directory meets: the entries of each directory in the order
in which they are listed.
-/

namespace NexusAuth.Lib.Files

variable {ν δ : Type}

inductive Node (δ : Type)
  | file (data : δ)
  | dir
deriving DecidableEq

abbrev Fs (ν δ : Type) := List ν → Option (Node δ)

inductive IoError
  | notFound
  | notADirectory
  | isADirectory
deriving DecidableEq

/-! ## Operations -/

section Operations

variable [DecidableEq ν]

def Fs.set (fs : Fs ν δ) (path : List ν) (node : Option (Node δ)) : Fs ν δ :=
  fun p => if p = path then node else fs p

/-- A directory that may be there already. -/
def makeDir (path : List ν) (fs : Fs ν δ) : Except IoError (Fs ν δ) :=
  match fs path with
  | some .dir => .ok fs
  | some (.file _) => .error .notADirectory
  | none => .ok (fs.set path (some .dir))

def makeDirs (top : List ν) : List ν → Fs ν δ → Except IoError (Fs ν δ)
  | [], fs => .ok fs
  | name :: rest, fs => do
      let fs ← makeDir (top ++ [name]) fs
      makeDirs (top ++ [name]) rest fs

def createDirAll (path : List ν) (fs : Fs ν δ) : Except IoError (Fs ν δ) := makeDirs [] path fs

def write (path : List ν) (data : δ) (fs : Fs ν δ) : Except IoError (Fs ν δ) :=
  match fs path.dropLast, fs path with
  | none, _ => .error .notFound
  | some (.file _), _ => .error .notADirectory
  | some .dir, some .dir => .error .isADirectory
  | some .dir, _ => .ok (fs.set path (some (.file data)))

/-- A file is moved over what is at its new path. -/
def rename (source target : List ν) (fs : Fs ν δ) : Except IoError (Fs ν δ) :=
  match fs source, fs target with
  | none, _ => .error .notFound
  | some _, some .dir => .error .isADirectory
  | some node, _ => .ok ((fs.set source none).set target (some node))

variable {fs fs' : Fs ν δ} {path top dest : List ν} {name : ν} {data : δ}

@[simp] theorem set_self (node : Option (Node δ)) : fs.set path node path = node := if_pos rfl

theorem set_of_ne {p : List ν} (node : Option (Node δ)) (h : p ≠ path) :
    fs.set path node p = fs p := if_neg h

theorem set_set (node node' : Option (Node δ)) :
    (fs.set path node).set path node' = fs.set path node' := by
  funext p
  by_cases h : p = path
  · rw [h, set_self, set_self]
  · rw [set_of_ne _ h, set_of_ne _ h, set_of_ne _ h]

theorem makeDir_eq_ok (h : makeDir path fs = .ok fs') :
    fs' path = some .dir ∧ ∀ p, p ≠ path → fs' p = fs p := by
  unfold makeDir at h
  split at h
  · rename_i hdir
    cases h
    exact ⟨hdir, fun _ _ => rfl⟩
  · cases h
  · cases h
    exact ⟨set_self _, fun p hp => set_of_ne _ hp⟩

def DirsTo (fs : Fs ν δ) (path : List ν) : Prop := ∀ p, p <+: path → fs p = some .dir

theorem makeDirs_eq_ok {rest : List ν} (htop : DirsTo fs top) (h : makeDirs top rest fs = .ok fs') :
    DirsTo fs' (top ++ rest) ∧ ∀ p, ¬p <+: top ++ rest → fs' p = fs p := by
  induction rest generalizing top fs with
  | nil =>
      cases h
      rw [List.append_nil]
      exact ⟨htop, fun _ _ => rfl⟩
  | cons name rest ih =>
      rw [makeDirs] at h
      cases hmake : makeDir (top ++ [name]) fs with
      | error e =>
          rw [hmake] at h
          cases h
      | ok middle =>
          rw [hmake] at h
          obtain ⟨hnew, hothers⟩ := makeDir_eq_ok hmake
          have hmiddle : DirsTo middle (top ++ [name]) := by
            intro p hp
            obtain hp | rfl := List.prefix_concat_iff.mp hp |>.symm
            · by_cases hself : p = top ++ [name]
              · rw [hself, hnew]
              · rw [hothers p hself, htop p hp]
            · exact hnew
          obtain ⟨hdirs, hkept⟩ := ih hmiddle h
          rw [List.append_assoc, List.singleton_append] at hdirs hkept
          refine ⟨hdirs, fun p hp => ?_⟩
          rw [hkept p hp, hothers p]
          rintro rfl
          exact hp ⟨rest, by simp⟩

theorem createDirAll_eq_ok (hroot : fs [] = some .dir) (h : createDirAll path fs = .ok fs') :
    DirsTo fs' path ∧ ∀ p, ¬p <+: path → fs' p = fs p := by
  have htop : DirsTo fs [] := by
    intro p hp
    rw [List.prefix_nil.mp hp, hroot]
  exact makeDirs_eq_ok htop h

theorem makeDirs_of_dirsTo {rest : List ν} (h : DirsTo fs (top ++ rest)) :
    makeDirs top rest fs = .ok fs := by
  induction rest generalizing top with
  | nil => rfl
  | cons name rest ih =>
      have hdir : fs (top ++ [name]) = some .dir := h _ ⟨rest, by simp⟩
      have hmake : makeDir (top ++ [name]) fs = .ok fs := by simp only [makeDir, hdir]
      rw [makeDirs, hmake]
      exact ih (by simpa using h)

theorem createDirAll_of_dirsTo (h : DirsTo fs path) : createDirAll path fs = .ok fs :=
  makeDirs_of_dirsTo h

theorem makeDirs_of_no_file {rest : List ν}
    (h : ∀ p, p <+: top ++ rest → ∀ content, fs p ≠ some (.file content)) :
    ∃ fs', makeDirs top rest fs = .ok fs' := by
  induction rest generalizing top fs with
  | nil => exact ⟨fs, rfl⟩
  | cons name rest ih =>
      have hfree := h (top ++ [name]) ⟨rest, by simp⟩
      obtain ⟨middle, hmake⟩ : ∃ middle, makeDir (top ++ [name]) fs = .ok middle := by
        rw [makeDir]
        split
        · exact ⟨_, rfl⟩
        · rename_i content hfile
          exact absurd hfile (hfree content)
        · exact ⟨_, rfl⟩
      obtain ⟨hnew, hothers⟩ := makeDir_eq_ok hmake
      have hmiddle : ∀ p, p <+: top ++ [name] ++ rest →
          ∀ content, middle p ≠ some (.file content) := by
        intro p hp content hfile
        by_cases hself : p = top ++ [name]
        · rw [hself, hnew] at hfile
          cases hfile
        · rw [hothers p hself] at hfile
          exact h p (by simpa using hp) content hfile
      obtain ⟨fs', hrest⟩ := ih hmiddle
      exact ⟨fs', by rw [makeDirs, hmake]; exact hrest⟩

theorem createDirAll_of_no_file (h : ∀ p, p <+: path → ∀ content, fs p ≠ some (.file content)) :
    ∃ fs', createDirAll path fs = .ok fs' :=
  makeDirs_of_no_file h

theorem write_of_dir (h : DirsTo fs path) : write path data fs = .error .isADirectory := by
  simp only [write, h _ (List.dropLast_prefix path), h path List.prefix_rfl]

theorem write_of_not_dir (hparent : fs path.dropLast = some .dir) (h : fs path ≠ some .dir) :
    write path data fs = .ok (fs.set path (some (.file data))) := by
  unfold write
  rw [hparent]
  split
  · simp_all
  · simp_all
  · simp_all
  · rfl

theorem rename_of_not_dir {source target : List ν} {node : Node δ} (hsource : fs source = some node)
    (htarget : fs target ≠ some .dir) :
    rename source target fs = .ok ((fs.set source none).set target (some node)) := by
  unfold rename
  rw [hsource]
  split
  · simp_all
  · simp_all
  · rename_i hnode _
    rw [Option.some.inj hnode]

theorem write_eq_ok (h : write path data fs = .ok fs') :
    fs path ≠ some .dir ∧ fs' = fs.set path (some (.file data)) := by
  unfold write at h
  split at h
  · cases h
  · cases h
  · cases h
  · rename_i hnot
    cases h
    exact ⟨hnot, rfl⟩

theorem rename_eq_ok {source target : List ν} (h : rename source target fs = .ok fs') :
    ∃ node, fs source = some node ∧ fs' = (fs.set source none).set target (some node) := by
  unfold rename at h
  split at h
  · cases h
  · cases h
  · rename_i node hsource _
    cases h
    exact ⟨node, hsource, rfl⟩

end Operations

/-! ## Trees -/

/-- What is at a path: a file, a directory with its entries in the order in which they are listed,
or something else. -/
inductive Tree (ν δ : Type)
  | file (data : δ)
  | dir (entries : List (ν × Tree ν δ))
  | other

abbrev Entries (ν δ : Type) := List (ν × Tree ν δ)

namespace Tree

mutual

/-- The files of a tree with their paths, in the order in which they are met. -/
def files : Tree ν δ → List (List ν × δ)
  | .file data => [([], data)]
  | .dir entries => filesIn entries
  | .other => []

def filesIn : Entries ν δ → List (List ν × δ)
  | [] => []
  | (name, tree) :: rest => (files tree).map (fun f => (name :: f.1, f.2)) ++ filesIn rest

end

mutual

def AllDirs (P : Entries ν δ → Prop) : Tree ν δ → Prop
  | .file _ | .other => True
  | .dir entries => P entries ∧ AllDirsIn P entries

def AllDirsIn (P : Entries ν δ → Prop) : Entries ν δ → Prop
  | [] => True
  | (_, tree) :: rest => AllDirs P tree ∧ AllDirsIn P rest

end

def names (entries : Entries ν δ) : List ν := entries.map Prod.fst

abbrev Distinct (tree : Tree ν δ) : Prop := tree.AllDirs fun entries => (names entries).Nodup

theorem head_of_mem_filesIn {entries : Entries ν δ} {path : List ν} {data : δ}
    (h : (path, data) ∈ filesIn entries) :
    ∃ name rest, path = name :: rest ∧ name ∈ names entries := by
  induction entries with
  | nil => simp [filesIn] at h
  | cons entry rest ih =>
      obtain ⟨name, tree⟩ := entry
      rw [filesIn, List.mem_append, List.mem_map] at h
      obtain ⟨f, -, hf⟩ | h := h
      · exact ⟨name, f.1, (congrArg Prod.fst hf).symm, List.mem_cons_self⟩
      · obtain ⟨other, path', hpath, hother⟩ := ih h
        exact ⟨other, path', hpath, List.mem_cons_of_mem _ hother⟩

mutual

theorem nodup_files : ∀ {tree : Tree ν δ}, tree.Distinct → tree.files.Nodup
  | .file _, _ => List.nodup_singleton _
  | .other, _ => List.nodup_nil
  | .dir _, h => nodup_filesIn h.1 h.2

theorem nodup_filesIn : ∀ {entries : Entries ν δ}, (names entries).Nodup →
    AllDirsIn (fun entries => (names entries).Nodup) entries → (filesIn entries).Nodup
  | [], _, _ => List.nodup_nil
  | (name, tree) :: rest, hnodup, hall => by
      obtain ⟨hname, hrest⟩ := List.nodup_cons.mp hnodup
      rw [filesIn]
      apply List.Nodup.append
      · apply List.Nodup.map _ (nodup_files hall.1)
        rintro ⟨p, d⟩ ⟨p', d'⟩ h
        simpa using h
      · exact nodup_filesIn hrest hall.2
      · intro f hf hf'
        obtain ⟨g, -, rfl⟩ := List.mem_map.mp hf
        obtain ⟨other, path, hpath, hother⟩ := head_of_mem_filesIn hf'
        obtain rfl : name = other := (List.cons.inj hpath).1
        exact hname hother

end

section Find

variable [DecidableEq ν]

mutual

def find : Tree ν δ → List ν → Option (Node δ)
  | .file data, [] => some (.file data)
  | .file _, _ :: _ => none
  | .dir _, [] => some .dir
  | .dir entries, name :: path => findIn entries name path
  | .other, _ => none

def findIn : Entries ν δ → ν → List ν → Option (Node δ)
  | [], _, _ => none
  | (name, tree) :: rest, wanted, path =>
      if name = wanted then find tree path else findIn rest wanted path

end

theorem findIn_eq_none {entries : Entries ν δ} {wanted : ν} (h : wanted ∉ names entries)
    (path : List ν) : findIn entries wanted path = none := by
  induction entries with
  | nil => rfl
  | cons entry rest ih =>
      obtain ⟨name, tree⟩ := entry
      have hne : name ≠ wanted := fun hname => h (hname ▸ List.mem_cons_self)
      rw [findIn, if_neg hne]
      exact ih fun hrest => h (List.mem_cons_of_mem _ hrest)

mutual

theorem mem_files : ∀ {tree : Tree ν δ}, tree.Distinct → ∀ {path : List ν} {data : δ},
    (path, data) ∈ tree.files ↔ tree.find path = some (.file data)
  | .file content, _, path, data => by
      cases path with
      | nil => simp [files, find, eq_comm]
      | cons name path => simp [files, find]
  | .other, _, path, data => by simp [files, find]
  | .dir entries, h, path, data => by
      cases path with
      | nil =>
          simp only [files, find, Option.some.injEq, reduceCtorEq, iff_false]
          intro hmem
          obtain ⟨_, _, hpath, -⟩ := head_of_mem_filesIn hmem
          cases hpath
      | cons name path => exact mem_filesIn h.1 h.2

theorem mem_filesIn : ∀ {entries : Entries ν δ}, (names entries).Nodup →
    AllDirsIn (fun entries => (names entries).Nodup) entries →
    ∀ {name : ν} {path : List ν} {data : δ},
      (name :: path, data) ∈ filesIn entries ↔ findIn entries name path = some (.file data)
  | [], _, _, name, path, data => by simp [filesIn, findIn]
  | (first, tree) :: rest, hnodup, hall, name, path, data => by
      obtain ⟨hfirst, hrest⟩ := List.nodup_cons.mp hnodup
      rw [filesIn, List.mem_append, List.mem_map, findIn, mem_filesIn hrest hall.2]
      by_cases hname : first = name
      · subst hname
        rw [if_pos rfl, findIn_eq_none hfirst, ← mem_files hall.1]
        simp
      · rw [if_neg hname]
        simp [hname]

end

theorem files_perm {tree tree' : Tree ν δ} (h : tree.Distinct) (h' : tree'.Distinct)
    (hfind : ∀ path, tree.find path = tree'.find path) : tree.files.Perm tree'.files := by
  apply (List.perm_ext_iff_of_nodup (nodup_files h) (nodup_files h')).mpr
  rintro ⟨path, data⟩
  rw [mem_files h, mem_files h', hfind]

end Find

end Tree

end NexusAuth.Lib.Files
