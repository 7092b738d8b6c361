import NexusAuth.Lib.Files
import NexusAuth.Crypto

/-!
# Backups

`copy_dir_all` and `hash_tree` of `backup.rs`, with `atomic_write` of `fsutil.rs`, which writes
every file of the copy.  Names are the bytes of the file system.  The source is a listing: the
entries of each directory in the order in which `read_dir` gives them.  Permission bits are left
out.
-/

namespace NexusAuth.Backup

open NexusAuth.Authority NexusAuth.Crypto NexusAuth.Lib.Files

abbrev Path := List Bytes

abbrev Source := Tree Bytes Bytes

def dot : UInt8 := 46

def parentName : Bytes := [dot, dot]

/-- `Path::file_stem` and `Path::extension` of a name: what stands before and after the last dot,
if something stands before it. -/
def splitAtDot (name : Bytes) : Bytes × Option Bytes :=
  let after := (name.reverse.takeWhile (· ≠ dot)).reverse
  let before := name.take (name.length - after.length - 1)
  if name = parentName ∨ before = [] then (name, none) else (before, some after)

def setExtensionTmp (name : Bytes) : Bytes :=
  if name = parentName then name else (splitAtDot name).1 ++ utf8Bytes ".tmp"

/-- What `with_extension("tmp")` makes of a name: the extension is cut off behind its dot, and the
rest is given the new one.  Of a name such as `..a` the rest is `..`, which takes none. -/
def tempName (name : Bytes) : Bytes :=
  match (splitAtDot name).2 with
  | none => setExtensionTmp name
  | some extension => setExtensionTmp (name.take (name.length - extension.length))

/-- `path.with_extension("tmp")`; a last `..` leads to the directory above. -/
def withExtensionTmp (path : Path) : Path :=
  match path.getLast? with
  | none => path
  | some name =>
      if tempName name = parentName then path.dropLast.dropLast
      else path.dropLast ++ [tempName name]

/-- `atomic_write`: the data goes to a temporary file, which is then moved to `path`. -/
def atomicWrite (path : Path) (data : Bytes) (fs : Fs Bytes Bytes) :
    Except IoError (Fs Bytes Bytes) := do
  let fs ← createDirAll path.dropLast fs
  let temp := withExtensionTmp path
  let fs ← write temp data fs
  rename temp path fs

mutual

/-- One turn of the loop of `copy_dir_all`. -/
def copyEntry (dest : Path) (name : Bytes) : Source → Fs Bytes Bytes →
    Except IoError (Fs Bytes Bytes)
  | .dir entries, fs => do
      let fs ← createDirAll (dest ++ [name]) fs
      copyEntries (dest ++ [name]) entries fs
  | .file data, fs => atomicWrite (dest ++ [name]) data fs
  | .other, fs => .ok fs

def copyEntries (dest : Path) : Entries Bytes Bytes → Fs Bytes Bytes →
    Except IoError (Fs Bytes Bytes)
  | [], fs => .ok fs
  | (name, tree) :: rest, fs => do
      let fs ← copyEntry dest name tree fs
      copyEntries dest rest fs

end

def copyDirAll (entries : Entries Bytes Bytes) (dest : Path) (fs : Fs Bytes Bytes) :
    Except IoError (Fs Bytes Bytes) := do
  let fs ← createDirAll dest fs
  copyEntries dest entries fs

/-- What `collect_files` pushes, together with what is read from the file later. -/
structure Collected where
  relative : Bytes
  path : Path
  data : Bytes

def Collected.compare : Collected → Collected → Ordering :=
  compareLex (compareOn Collected.relative) (compareOn Collected.path)

/-- `collect_files`: paths are joined by slashes and go through `to_string_lossy`. -/
def collectFiles (toStringLossy : Bytes → Bytes) (entries : Entries Bytes Bytes) :
    List Collected :=
  (Tree.filesIn entries).map fun f => ⟨toStringLossy ((utf8Bytes "/").intercalate f.1), f.1, f.2⟩

def hex (bytes : Bytes) : String :=
  String.ofList (bytes.flatMap fun b => [(b.toNat / 16).digitChar, (b.toNat % 16).digitChar])

/-- `hash_tree`: the size of all files and the digest of the sorted listing. -/
def hashTree (prim : Primitives) (toStringLossy : Bytes → Bytes) (entries : Entries Bytes Bytes) :
    Nat × String :=
  let files := (collectFiles toStringLossy entries).mergeSort fun f g => (f.compare g).isLE
  let total := (files.map fun f => f.data.length).sum
  let hasher := files.flatMap fun f => f.relative ++ [0] ++ prim.sha256 f.data
  (total, hex (prim.sha256 hasher))

end NexusAuth.Backup
