import NexusAuth.Backup.Model
import NexusAuth.Lib.Results

/-!
# What a backup copies

A file is copied through a temporary file whose name is that of the file with another
extension.  The copy of an earlier file is lost if it has that name: it is overwritten, and then
moved away.  If an earlier directory has the name, or if it is `..`, nothing can be written there
and the copy fails.  In all other cases the copy has at every path what the source has.
-/

namespace NexusAuth.Backup

open NexusAuth.Authority NexusAuth.Crypto NexusAuth.Lib.Files NexusAuth.Lib.Results
open NexusAuth.Lib.Files.Tree

variable {fs fs' : Fs Bytes Bytes} {dest path : Path} {name : Bytes} {data : Bytes}
  {entries : Entries Bytes Bytes}

/-! ## One file -/

theorem withExtensionTmp_concat (h : tempName name ≠ parentName) :
    withExtensionTmp (dest ++ [name]) = dest ++ [tempName name] := by
  simp [withExtensionTmp, h]

theorem withExtensionTmp_parent (h : tempName name = parentName) :
    withExtensionTmp (dest ++ [name]) = dest.dropLast := by
  simp [withExtensionTmp, h]

theorem atomicWrite_ok (data : Bytes) (hdirs : DirsTo fs dest) (hname : tempName name ≠ parentName)
    (htemp : fs (dest ++ [tempName name]) ≠ some .dir) (htarget : fs (dest ++ [name]) ≠ some .dir) :
    ∃ fs', atomicWrite (dest ++ [name]) data fs = .ok fs' := by
  have hwrite : write (dest ++ [tempName name]) data fs =
      .ok (fs.set (dest ++ [tempName name]) (some (.file data))) := by
    apply write_of_not_dir _ htemp
    rw [List.dropLast_concat, hdirs dest List.prefix_rfl]
  have hfree : fs.set (dest ++ [tempName name]) (some (.file data))
      (dest ++ [name]) ≠ some .dir := by
    by_cases hsame : dest ++ [name] = dest ++ [tempName name]
    · rw [hsame, set_self]
      simp
    · rwa [set_of_ne _ hsame]
  have hrename := rename_of_not_dir (set_self (some (.file data))) hfree
  rw [atomicWrite, List.dropLast_concat, createDirAll_of_dirsTo hdirs,
    withExtensionTmp_concat hname]
  exact ⟨_, bind_eq_ok.mpr ⟨fs, rfl, bind_eq_ok.mpr ⟨_, hwrite, hrename⟩⟩⟩

theorem atomicWrite_eq_ok (hdirs : DirsTo fs dest)
    (h : atomicWrite (dest ++ [name]) data fs = .ok fs') :
    tempName name ≠ parentName ∧ fs (dest ++ [tempName name]) ≠ some .dir ∧
      fs' (dest ++ [name]) = some (.file data) ∧
      (tempName name ≠ name → fs' (dest ++ [tempName name]) = none) ∧
      ∀ q, q ≠ dest ++ [name] → q ≠ dest ++ [tempName name] → fs' q = fs q := by
  rw [atomicWrite, List.dropLast_concat, createDirAll_of_dirsTo hdirs] at h
  obtain ⟨_, ⟨⟩, h⟩ := bind_eq_ok.mp h
  obtain ⟨written, hwrite, hrename⟩ := bind_eq_ok.mp h
  have hname : tempName name ≠ parentName := by
    intro hparent
    have habove : DirsTo fs dest.dropLast :=
      fun p hp => hdirs p (hp.trans (List.dropLast_prefix dest))
    rw [withExtensionTmp_parent hparent, write_of_dir habove] at hwrite
    cases hwrite
  rw [withExtensionTmp_concat hname] at hwrite hrename
  obtain ⟨hnotDir, rfl⟩ := write_eq_ok hwrite
  obtain ⟨node, hnode, rfl⟩ := rename_eq_ok hrename
  rw [set_self] at hnode
  cases hnode
  refine ⟨hname, hnotDir, set_self _, fun hne => ?_, fun q hq htemp => ?_⟩
  · rw [set_of_ne _ (by simpa using hne), set_self]
  · rw [set_of_ne _ hq, set_of_ne _ htemp, set_of_ne _ htemp]

/-! ## What a copy touches -/

/-- What is at `q` stays; but a file may go if it is one of the `taken`. -/
def Spared (taken : Prop) (fs fs' : Fs Bytes Bytes) (q : Path) : Prop :=
  fs' q = fs q ∨ taken ∧ (∃ content, fs q = some (.file content)) ∧ fs' q = none

namespace Spared

variable {taken taken' : Prop} {middle : Fs Bytes Bytes} {q : Path}

theorem mono (h : Spared taken fs fs' q) (himp : taken → taken') : Spared taken' fs fs' q :=
  h.imp_right fun ⟨htaken, hrest⟩ => ⟨himp htaken, hrest⟩

theorem trans (h : Spared taken fs middle q) (h' : Spared taken middle fs' q) :
    Spared taken fs fs' q := by
  obtain heq | ⟨htaken, hfile, hnone⟩ := h
  · rwa [Spared, heq] at h'
  · obtain heq' | ⟨-, ⟨content, hfile'⟩, -⟩ := h'
    · exact .inr ⟨htaken, hfile, heq'.trans hnone⟩
    · rw [hnone] at hfile'
      cases hfile'

theorem eq_of_not_taken (h : Spared taken fs fs' q) (htaken : ¬taken) : fs' q = fs q :=
  h.resolve_right fun hgone => htaken hgone.1

theorem eq_dir (h : Spared taken fs fs' q) (hdir : fs q = some .dir) : fs' q = some .dir := by
  obtain heq | ⟨-, ⟨content, hfile⟩, -⟩ := h
  · rw [heq, hdir]
  · rw [hdir] at hfile
    cases hfile

theorem eq_none (h : Spared taken fs fs' q) (hnone : fs q = none) : fs' q = none := by
  obtain heq | ⟨-, -, hgone⟩ := h
  · rw [heq, hnone]
  · exact hgone

theorem ne_dir (h : Spared taken fs fs' q) (hdir : fs q ≠ some .dir) : fs' q ≠ some .dir := by
  obtain heq | ⟨-, -, hgone⟩ := h
  · rwa [heq]
  · simp [hgone]

end Spared

theorem not_prefix_cons_of_ne {name other : Bytes} (h : name ≠ other) (p : Path) :
    ¬dest ++ [name] <+: dest ++ other :: p := by
  rw [List.prefix_append_right_inj, List.cons_prefix_cons]
  exact fun hp => h hp.1

theorem not_below_of_ancestor {q : Path} (hq : q <+: dest) : ¬dest ++ [name] <+: q := by
  intro h
  have hlength := (h.trans hq).length_le
  rw [List.length_append, List.length_singleton] at hlength
  omega

theorem not_ancestor_of_below (p : Path) : ¬dest ++ name :: p <+: dest := by
  intro h
  have hlength := h.length_le
  rw [List.length_append, List.length_cons] at hlength
  omega

def TakenBy (dest : Path) (entries : Entries Bytes Bytes) (q : Path) : Prop :=
  ∃ name data, (name, .file data) ∈ entries ∧ q = dest ++ [tempName name]

theorem TakenBy.mono {entries' : Entries Bytes Bytes} {q : Path} (hsub : entries ⊆ entries')
    (h : TakenBy dest entries q) : TakenBy dest entries' q := by
  obtain ⟨name, data, hmem, htemp⟩ := h
  exact ⟨name, data, hsub hmem, htemp⟩

def Confined (dest : Path) (entries : Entries Bytes Bytes) (fs fs' : Fs Bytes Bytes) : Prop :=
  ∀ q, (∀ name ∈ names entries, ¬dest ++ [name] <+: q) →
    Spared (TakenBy dest entries q) fs fs' q

theorem dirsTo_of_confined (hdirs : DirsTo fs dest) (h : Confined dest entries fs fs') :
    DirsTo fs' dest :=
  fun q hq => (h q fun _ _ => not_below_of_ancestor hq).eq_dir (hdirs q hq)

theorem made_of_createDirAll (hdirs : DirsTo fs dest)
    (h : createDirAll (dest ++ [name]) fs = .ok fs') :
    DirsTo fs' (dest ++ [name]) ∧ (∀ other p, fs' (dest ++ [name] ++ other :: p) =
      fs (dest ++ name :: other :: p)) ∧ ∀ q, ¬dest ++ [name] <+: q → fs' q = fs q := by
  obtain ⟨hmade, hothers⟩ := createDirAll_eq_ok (hdirs [] List.nil_prefix) h
  refine ⟨hmade, fun other p => ?_, fun q hq => ?_⟩
  · rw [hothers _ (not_ancestor_of_below p), List.append_assoc, List.singleton_append]
  · by_cases hbelow : q <+: dest ++ [name]
    · obtain rfl | hbelow := List.prefix_concat_iff.mp hbelow
      · exact absurd List.prefix_rfl hq
      · rw [hmade q (hbelow.trans (List.prefix_append _ _)), hdirs q hbelow]
    · exact hothers q hbelow

mutual

theorem confined_copyEntry : ∀ {tree : Source} {fs fs' : Fs Bytes Bytes} {dest : Path}
    {name : Bytes}, DirsTo fs dest → copyEntry dest name tree fs = .ok fs' →
      Confined dest [(name, tree)] fs fs'
  | .file data, fs, fs', dest, name, hdirs, h => by
      obtain ⟨-, hnotDir, -, hgone, hkept⟩ := atomicWrite_eq_ok hdirs h
      intro q hq
      have hq := hq name List.mem_cons_self
      have htarget : q ≠ dest ++ [name] := fun heq => hq (heq ▸ List.prefix_rfl)
      by_cases htemp : q = dest ++ [tempName name]
      · have hname : tempName name ≠ name := fun heq => htarget (by rw [htemp, heq])
        have hgone := hgone hname
        rw [← htemp] at hgone hnotDir
        -- A directory would have made the write fail.
        cases hold : fs q with
        | none => exact .inl (hgone.trans hold.symm)
        | some node =>
            cases node with
            | dir => exact absurd hold hnotDir
            | file content =>
                exact .inr ⟨⟨name, data, List.mem_cons_self, htemp⟩, ⟨content, hold⟩, hgone⟩
      · exact .inl (hkept q htarget htemp)
  | .other, fs, fs', dest, name, _, h => by
      cases h
      exact fun _ _ => .inl rfl
  | .dir entries, fs, fs', dest, name, hdirs, h => by
      obtain ⟨middle, hcreate, hentries⟩ := bind_eq_ok.mp h
      obtain ⟨hmade, -, hothers⟩ := made_of_createDirAll hdirs hcreate
      intro q hq
      have hq := hq name List.mem_cons_self
      have hinside := confined_copyEntries hmade hentries q
        fun other _ hother => hq ((List.prefix_append _ _).trans hother)
      refine .inl ((hinside.eq_of_not_taken ?_).trans (hothers q hq))
      rintro ⟨other, data, -, rfl⟩
      exact hq (List.prefix_append _ _)

theorem confined_copyEntries : ∀ {entries : Entries Bytes Bytes} {fs fs' : Fs Bytes Bytes}
    {dest : Path}, DirsTo fs dest → copyEntries dest entries fs = .ok fs' →
      Confined dest entries fs fs'
  | [], fs, fs', dest, _, h => by
      cases h
      exact fun _ _ => .inl rfl
  | (name, tree) :: rest, fs, fs', dest, hdirs, h => by
      obtain ⟨middle, hfirst, hrest⟩ := bind_eq_ok.mp h
      have hone := confined_copyEntry hdirs hfirst
      have hothers := confined_copyEntries (dirsTo_of_confined hdirs hone) hrest
      intro q hq
      have hfirst := hone q (List.forall_mem_singleton.mpr (hq name List.mem_cons_self))
      have hrest := hothers q fun later hlater => hq later (List.mem_cons_of_mem _ hlater)
      exact (hfirst.mono (TakenBy.mono (by simp))).trans (hrest.mono (TakenBy.mono (by simp)))

end

/-- A file that has the temporary name of one that is copied is gone, and a directory cannot have
been there. -/
theorem gone_of_copyEntries {data : Bytes} (hdirs : DirsTo fs dest)
    (h : copyEntries dest entries fs = .ok fs') (hmem : (name, .file data) ∈ entries)
    (htemp : tempName name ∉ names entries) :
    fs (dest ++ [tempName name]) ≠ some .dir ∧ fs' (dest ++ [tempName name]) = none := by
  induction entries generalizing fs with
  | nil => cases hmem
  | cons entry rest ih =>
      obtain ⟨first, tree⟩ := entry
      obtain ⟨middle, hfirst, hrest⟩ := bind_eq_ok.mp h
      have hone := confined_copyEntry hdirs hfirst
      have hmiddle := dirsTo_of_confined hdirs hone
      obtain ⟨hhead, htail⟩ := List.ne_and_not_mem_of_not_mem_cons htemp
      obtain heq | hmem := List.mem_cons.mp hmem
      · obtain ⟨rfl, rfl⟩ := Prod.mk.inj heq
        obtain ⟨-, hnotDir, -, hgone, -⟩ := atomicWrite_eq_ok hdirs hfirst
        refine ⟨hnotDir, ?_⟩
        apply (confined_copyEntries hmiddle hrest _ fun other hother => ?_).eq_none (hgone hhead)
        exact not_prefix_cons_of_ne (ne_of_mem_of_not_mem hother htail) []
      · obtain ⟨hnotDir, hgone⟩ := ih hmiddle hrest hmem htail
        refine ⟨fun hdir => hnotDir ?_, hgone⟩
        apply (hone _ fun other hother => ?_).eq_dir hdir
        rw [List.mem_singleton.mp hother]
        exact not_prefix_cons_of_ne (Ne.symm hhead) []

/-! ## Whole directories -/

/-- No temporary name of a file is `..` or has been listed before it, unless for something that
is not copied. -/
structure NoClash (entries : Entries Bytes Bytes) : Prop where
  named : ∀ name data, (name, .file data) ∈ entries → tempName name ≠ parentName
  order : entries.Pairwise fun earlier later => earlier.2 ≠ .other →
    ∀ data, later.2 = .file data → earlier.1 ≠ tempName later.1

theorem noClash_cons {tree : Source} {rest : Entries Bytes Bytes} :
    NoClash ((name, tree) :: rest) ↔
      (∀ data, tree = .file data → tempName name ≠ parentName) ∧
      (tree ≠ .other → ∀ later data, (later, .file data) ∈ rest → name ≠ tempName later) ∧
      NoClash rest := by
  constructor
  · intro h
    obtain ⟨hfirst, hrest⟩ := List.pairwise_cons.mp h.order
    exact ⟨fun data htree => h.named name data (htree ▸ List.mem_cons_self),
      fun htree later data hmem => hfirst _ hmem htree data rfl,
      fun later data hmem => h.named later data (List.mem_cons_of_mem _ hmem), hrest⟩
  · rintro ⟨hname, hfirst, hnamed, horder⟩
    refine ⟨fun later data hmem => ?_, List.pairwise_cons.mpr ⟨?_, horder⟩⟩
    · obtain heq | hmem := List.mem_cons.mp hmem
      · obtain ⟨rfl, rfl⟩ := Prod.mk.inj heq
        exact hname data rfl
      · exact hnamed later data hmem
    · rintro ⟨later, _⟩ hmem htree data rfl
      exact hfirst htree later data hmem

theorem find_of_rest {middle : Fs Bytes Bytes} {rest : Entries Bytes Bytes}
    (hname : name ∉ names rest) (hmiddle : DirsTo middle dest)
    (hrest : copyEntries dest rest middle = .ok fs') (p : Path) :
    Spared (p = [] ∧ ∃ later data, (later, .file data) ∈ rest ∧ name = tempName later) middle fs'
      (dest ++ name :: p) := by
  have hspared := confined_copyEntries hmiddle hrest (dest ++ name :: p) fun other hother =>
    not_prefix_cons_of_ne (ne_of_mem_of_not_mem hother hname) p
  refine hspared.mono ?_
  rintro ⟨later, data, hmem, htemp⟩
  obtain ⟨rfl, rfl⟩ := List.cons.inj (List.append_cancel_left htemp)
  exact ⟨rfl, later, data, hmem, rfl⟩

theorem find_of_copyEntries (hdirs : DirsTo fs dest)
    (habsent : ∀ name p, fs (dest ++ name :: p) = none)
    (h : copyEntries dest entries fs = .ok fs')
    (hfound : ∀ name ∈ names entries, ∀ p, fs' (dest ++ name :: p) = findIn entries name p)
    (p : Path) : fs' (dest ++ p) = (Tree.dir entries).find p := by
  have hconfined := confined_copyEntries hdirs h
  cases p with
  | nil =>
      rw [List.append_nil, find]
      exact dirsTo_of_confined hdirs hconfined dest List.prefix_rfl
  | cons name p =>
      rw [find]
      by_cases hname : name ∈ names entries
      · exact hfound name hname p
      · rw [findIn_eq_none hname]
        exact (hconfined _ fun other hother =>
          not_prefix_cons_of_ne (ne_of_mem_of_not_mem hother hname) p).eq_none (habsent name p)

mutual

theorem exists_copyEntry : ∀ {tree : Source} {fs : Fs Bytes Bytes} {dest : Path} {name : Bytes},
    tree.Distinct → tree.AllDirs NoClash → DirsTo fs dest →
    (∀ p, fs (dest ++ name :: p) = none) →
    (∀ data, tree = .file data →
      tempName name ≠ parentName ∧ fs (dest ++ [tempName name]) ≠ some .dir) →
    ∃ fs', copyEntry dest name tree fs = .ok fs' ∧ ∀ p, fs' (dest ++ name :: p) = tree.find p
  | .file data, fs, dest, name, _, _, hdirs, habsent, hfree => by
      obtain ⟨hname, htemp⟩ := hfree data rfl
      obtain ⟨fs', hwrite⟩ := atomicWrite_ok data hdirs hname htemp (by simp [habsent []])
      obtain ⟨-, -, htarget, -, hkept⟩ := atomicWrite_eq_ok hdirs hwrite
      refine ⟨fs', hwrite, fun p => ?_⟩
      cases p with
      | nil => exact htarget
      | cons other p => rw [find, hkept _ (by simp) (by simp), habsent]
  | .other, fs, dest, name, _, _, _, habsent, _ => ⟨fs, rfl, habsent⟩
  | .dir entries, fs, dest, name, hdistinct, hclash, hdirs, habsent, _ => by
      have hway : ∀ p, p <+: dest ++ [name] → ∀ content, fs p ≠ some (.file content) := by
        intro p hp content
        obtain rfl | hp := List.prefix_concat_iff.mp hp
        · simp [habsent []]
        · simp [hdirs p hp]
      obtain ⟨middle, hcreate⟩ := createDirAll_of_no_file hway
      obtain ⟨hmade, hinside, -⟩ := made_of_createDirAll hdirs hcreate
      have hempty : ∀ other p, middle (dest ++ [name] ++ other :: p) = none :=
        fun other p => (hinside other p).trans (habsent (other :: p))
      obtain ⟨fs', hentries, hfound⟩ := exists_copyEntries hdistinct.1 hdistinct.2 hclash.1 hclash.2
        hmade (fun other _ p => hempty other p) fun later _ _ => by rw [hempty _ []]; simp
      refine ⟨fs', bind_eq_ok.mpr ⟨middle, hcreate, hentries⟩, fun p => ?_⟩
      rw [← find_of_copyEntries hmade hempty hentries hfound p, List.append_assoc,
        List.singleton_append]

theorem exists_copyEntries : ∀ {entries : Entries Bytes Bytes} {fs : Fs Bytes Bytes} {dest : Path},
    (names entries).Nodup → AllDirsIn (fun entries => (names entries).Nodup) entries →
    NoClash entries → AllDirsIn NoClash entries → DirsTo fs dest →
    (∀ name ∈ names entries, ∀ p, fs (dest ++ name :: p) = none) →
    (∀ name data, (name, .file data) ∈ entries → fs (dest ++ [tempName name]) ≠ some .dir) →
    ∃ fs', copyEntries dest entries fs = .ok fs' ∧
      ∀ name ∈ names entries, ∀ p, fs' (dest ++ name :: p) = findIn entries name p
  | [], fs, dest, _, _, _, _, _, _, _ =>
      ⟨fs, rfl, fun _ hname => absurd hname List.not_mem_nil⟩
  | (name, tree) :: rest, fs, dest, hnodup, hdistinct, hclash, hclashes, hdirs, habsent, hfree => by
      obtain ⟨hname, hnodupRest⟩ := List.nodup_cons.mp hnodup
      obtain ⟨hnamed, horder, hclashRest⟩ := noClash_cons.mp hclash
      obtain ⟨middle, hfirst, hfound⟩ := exists_copyEntry hdistinct.1 hclashes.1 hdirs
        (habsent name List.mem_cons_self)
        fun data htree => ⟨hnamed data htree, hfree name data (htree ▸ List.mem_cons_self)⟩
      have hone := confined_copyEntry hdirs hfirst
      have hmiddle := dirsTo_of_confined hdirs hone
      have hkept : ∀ other, name ≠ other → ∀ p,
          Spared (TakenBy dest [(name, tree)] (dest ++ other :: p)) fs middle
            (dest ++ other :: p) := by
        intro other hne p
        apply hone
        intro first hfirst
        rw [List.mem_singleton.mp hfirst]
        exact not_prefix_cons_of_ne hne p
      obtain ⟨fs', hrest, hothers⟩ := exists_copyEntries hnodupRest hdistinct.2 hclashRest
        hclashes.2 hmiddle
        (fun other hother p => (hkept other (ne_of_mem_of_not_mem hother hname).symm p).eq_none
          (habsent other (List.mem_cons_of_mem _ hother) p))
        (by
          intro later data hmem
          by_cases htemp : name = tempName later
          · -- only something that was not copied can have the name
            have hother : tree = .other := by
              by_contra hcopied
              exact horder hcopied later data hmem htemp
            rw [← htemp, hfound [], hother]
            simp [find]
          · exact (hkept _ htemp []).ne_dir (hfree later data (List.mem_cons_of_mem _ hmem)))
      refine ⟨fs', bind_eq_ok.mpr ⟨middle, hfirst, hrest⟩, fun wanted hwanted p => ?_⟩
      by_cases heq : name = wanted
      · subst heq
        rw [findIn, if_pos rfl, ← hfound p]
        obtain hsame | ⟨⟨rfl, later, data, hmem, htemp⟩, ⟨content, hfile⟩, -⟩ :=
          find_of_rest hname hmiddle hrest p
        · exact hsame
        · rw [hfound] at hfile
          have hcopied : tree ≠ .other := by
            rintro rfl
            cases hfile
          exact absurd htemp (horder hcopied later data hmem)
      · rw [findIn, if_neg heq]
        exact hothers wanted (List.mem_of_ne_of_mem (Ne.symm heq) hwanted) p

end

mutual

theorem noClash_of_copyEntry : ∀ {tree : Source} {fs fs' : Fs Bytes Bytes} {dest : Path}
    {name : Bytes}, tree.Distinct → DirsTo fs dest → (∀ p, fs (dest ++ name :: p) = none) →
    copyEntry dest name tree fs = .ok fs' → (∀ p, fs' (dest ++ name :: p) = tree.find p) →
    tree.AllDirs NoClash
  | .file data, _, _, _, _, _, _, _, _, _ => trivial
  | .other, _, _, _, _, _, _, _, _, _ => trivial
  | .dir entries, fs, fs', dest, name, hdistinct, hdirs, habsent, h, hfound => by
      obtain ⟨middle, hcreate, hentries⟩ := bind_eq_ok.mp h
      obtain ⟨hmade, hinside, -⟩ := made_of_createDirAll hdirs hcreate
      refine noClash_of_copyEntries hdistinct.1 hdistinct.2 hmade
        (fun other _ p => (hinside other p).trans (habsent (other :: p))) hentries
        fun other _ p => ?_
      rw [List.append_assoc, List.singleton_append, hfound, find]

theorem noClash_of_copyEntries : ∀ {entries : Entries Bytes Bytes} {fs fs' : Fs Bytes Bytes}
    {dest : Path}, (names entries).Nodup →
    AllDirsIn (fun entries => (names entries).Nodup) entries → DirsTo fs dest →
    (∀ name ∈ names entries, ∀ p, fs (dest ++ name :: p) = none) →
    copyEntries dest entries fs = .ok fs' →
    (∀ name ∈ names entries, ∀ p, fs' (dest ++ name :: p) = findIn entries name p) →
    NoClash entries ∧ AllDirsIn NoClash entries
  | [], _, _, _, _, _, _, _, _, _ => ⟨⟨by simp, .nil⟩, trivial⟩
  | (name, tree) :: rest, fs, fs', dest, hnodup, hdistinct, hdirs, habsent, h, hfound => by
      obtain ⟨hname, hnodupRest⟩ := List.nodup_cons.mp hnodup
      obtain ⟨middle, hfirst, hrest⟩ := bind_eq_ok.mp h
      have hone := confined_copyEntry hdirs hfirst
      have hmiddle := dirsTo_of_confined hdirs hone
      have habsent' := habsent name List.mem_cons_self
      have hfound' : ∀ p, fs' (dest ++ name :: p) = tree.find p := by
        intro p
        rw [hfound name List.mem_cons_self, findIn, if_pos rfl]
      have hcopied : ∀ p, middle (dest ++ name :: p) = tree.find p := by
        intro p
        obtain hsame | ⟨⟨rfl, -⟩, ⟨content, hfile⟩, hgone⟩ := find_of_rest hname hmiddle hrest p
        · rw [← hsame, hfound']
        · -- what is lost was not there in the source
          rw [hfound'] at hgone
          cases tree with
          | other =>
              cases hfirst
              rw [habsent'] at hfile
              cases hfile
          | _ => cases hgone
      have htree := noClash_of_copyEntry hdistinct.1 hdirs habsent' hfirst hcopied
      have habsentRest : ∀ other ∈ names rest, ∀ p, middle (dest ++ other :: p) = none := by
        intro other hother p
        refine (hone _ fun first hmem => ?_).eq_none
          (habsent other (List.mem_cons_of_mem _ hother) p)
        rw [List.mem_singleton.mp hmem]
        exact not_prefix_cons_of_ne (ne_of_mem_of_not_mem hother hname).symm p
      obtain ⟨hclash, hclashes⟩ := noClash_of_copyEntries hnodupRest hdistinct.2 hmiddle habsentRest
        hrest fun other hother p => by
          rw [hfound other (List.mem_cons_of_mem _ hother), findIn,
            if_neg (ne_of_mem_of_not_mem hother hname).symm]
      refine ⟨noClash_cons.mpr ⟨?_, ?_, hclash⟩, htree, hclashes⟩
      · rintro data rfl
        exact (atomicWrite_eq_ok hdirs hfirst).1
      · rintro htree later data hmem rfl
        obtain ⟨hnotDir, hgone⟩ := gone_of_copyEntries hmiddle hrest hmem hname
        rw [hcopied []] at hnotDir
        rw [hfound' []] at hgone
        cases tree with
        | other => exact htree rfl
        | dir entries => exact hnotDir rfl
        | file content => cases hgone

end

/-- The copy succeeds and has at every path what the source has exactly if there is no clash. -/
theorem copies_iff_noClash (hroot : fs [] = some .dir)
    (hway : ∀ p, p <+: dest → ∀ content, fs p ≠ some (.file content))
    (habsent : ∀ p, fs (dest ++ p) = none) (hdistinct : (Tree.dir entries).Distinct) :
    (∃ fs', copyDirAll entries dest fs = .ok fs' ∧
        ∀ p, fs' (dest ++ p) = (Tree.dir entries).find p) ↔
      (Tree.dir entries).AllDirs NoClash := by
  obtain ⟨middle, hcreate⟩ := createDirAll_of_no_file hway
  obtain ⟨hmade, hothers⟩ := createDirAll_eq_ok hroot hcreate
  have hempty : ∀ name p, middle (dest ++ name :: p) = none := by
    intro name p
    rw [hothers _ (not_ancestor_of_below p), habsent]
  constructor
  · rintro ⟨fs', hcopy, hfound⟩
    rw [copyDirAll, hcreate] at hcopy
    exact noClash_of_copyEntries hdistinct.1 hdistinct.2 hmade (fun name _ p => hempty name p) hcopy
      fun name _ p => by rw [hfound, find]
  · intro hclash
    obtain ⟨fs', hentries, hfound⟩ := exists_copyEntries hdistinct.1 hdistinct.2 hclash.1 hclash.2
      hmade (fun name _ p => hempty name p) fun later _ _ => by simp [hempty _ []]
    exact ⟨fs', bind_eq_ok.mpr ⟨middle, hcreate, hentries⟩,
      find_of_copyEntries hmade hempty hentries hfound⟩

/-! ## The digest -/

instance : Std.TransCmp Collected.compare := by
  unfold Collected.compare
  infer_instance

theorem Collected.path_eq_of_compare {f g : Collected} (h : f.compare g = .eq) :
    f.path = g.path :=
  Std.LawfulEqCmp.eq_of_compare (compareLex_eq_eq.mp h).2

theorem Collected.isLE_total (f g : Collected) :
    ((f.compare g).isLE || (g.compare f).isLE) = true := by
  have hswap : g.compare f = (f.compare g).swap := Std.OrientedCmp.eq_swap
  rw [hswap]
  cases f.compare g with
  | lt => rfl
  | eq => rfl
  | gt => rfl

/-- The same files are sorted alike, in whatever order they were met, if no two of them have one
path. -/
theorem mergeSort_of_perm {files files' : List Collected} (hperm : files.Perm files')
    (hpath : ∀ f ∈ files, ∀ g ∈ files, f.path = g.path → f = g) :
    files.mergeSort (fun f g => (f.compare g).isLE) =
      files'.mergeSort fun f g => (f.compare g).isLE := by
  have hsorted : ∀ l : List Collected, (l.mergeSort fun f g => (f.compare g).isLE).Pairwise
      fun f g => (f.compare g).isLE = true :=
    List.pairwise_mergeSort (fun _ _ _ h h' => Std.TransCmp.isLE_trans h h') Collected.isLE_total
  apply List.Perm.eq_of_pairwise _ (hsorted files) (hsorted files')
  · exact (List.mergeSort_perm ..).trans (hperm.trans (List.mergeSort_perm ..).symm)
  · intro f g hf hg hle hge
    have hfiles : g ∈ files := hperm.mem_iff.mpr (List.mem_mergeSort.mp hg)
    apply hpath f (List.mem_mergeSort.mp hf) g hfiles
    exact Collected.path_eq_of_compare (Std.OrientedCmp.isLE_antisymm hle hge)

theorem hashTree_of_find (prim : Primitives) (toStringLossy : Bytes → Bytes)
    {copy : Entries Bytes Bytes} (hdistinct : (Tree.dir entries).Distinct)
    (hcopy : (Tree.dir copy).Distinct)
    (hfind : ∀ p, (Tree.dir copy).find p = (Tree.dir entries).find p) :
    hashTree prim toStringLossy copy = hashTree prim toStringLossy entries := by
  have hperm : (filesIn copy).Perm (filesIn entries) := files_perm hcopy hdistinct hfind
  have hsort : (collectFiles toStringLossy copy).mergeSort (fun f g => (f.compare g).isLE) =
      (collectFiles toStringLossy entries).mergeSort fun f g => (f.compare g).isLE := by
    apply mergeSort_of_perm (hperm.map _)
    intro f hf g hg hpath
    obtain ⟨⟨path, data⟩, hmem, rfl⟩ := List.mem_map.mp hf
    obtain ⟨⟨path', data'⟩, hmem', rfl⟩ := List.mem_map.mp hg
    obtain rfl : path = path' := hpath
    have hdata := (mem_files hcopy).mp hmem
    rw [(mem_files hcopy).mp hmem'] at hdata
    cases hdata
    rfl
  unfold hashTree
  rw [hsort]

/-- A directory is copied, to a path where nothing was, with the same files and directories and
the same contents, exactly if in no directory a file's temporary name is `..` or has been listed
before it.  A listing of the copy, in any order, then has the digest of the source. -/
theorem copy_dir_all_copies (prim : Primitives) (toStringLossy : Bytes → Bytes)
    (entries : Entries Bytes Bytes) (dest : Path) (fs : Fs Bytes Bytes)
    (hroot : fs [] = some .dir)
    (hway : ∀ p, p <+: dest → ∀ content, fs p ≠ some (.file content))
    (habsent : ∀ p, fs (dest ++ p) = none) (hdistinct : (Tree.dir entries).Distinct) :
    ((∃ fs', copyDirAll entries dest fs = .ok fs' ∧
        ∀ p, fs' (dest ++ p) = (Tree.dir entries).find p) ↔
      (Tree.dir entries).AllDirs NoClash) ∧
    ((Tree.dir entries).AllDirs NoClash → ∀ fs', copyDirAll entries dest fs = .ok fs' →
      ∀ copy : Entries Bytes Bytes, (Tree.dir copy).Distinct →
        (∀ p, (Tree.dir copy).find p = fs' (dest ++ p)) →
          hashTree prim toStringLossy copy = hashTree prim toStringLossy entries) := by
  have hcopies := copies_iff_noClash hroot hway habsent hdistinct
  refine ⟨hcopies, fun hclash fs' hcopy copy hlisted hfind => ?_⟩
  obtain ⟨fs'', hcopy', hfound⟩ := hcopies.mpr hclash
  obtain rfl := Except.ok.inj (hcopy.symm.trans hcopy')
  apply hashTree_of_find prim toStringLossy hdistinct hlisted
  intro p
  rw [hfind, hfound]

def emptyDisk : Fs Bytes Bytes := fun path => if path = [] then some .dir else none

def rootPath : Path := [utf8Bytes "raft_data"]

/-- A snapshot directory lists a log, whose temporary name is that of the file after it. -/
def walThenTemp : Entries Bytes Bytes :=
  [(utf8Bytes "snap", .dir [(utf8Bytes "a.wal", .file [1]), (utf8Bytes "a.tmp", .file [2])]),
    (utf8Bytes "raft.redb", .file [3])]

theorem walThenTemp_distinct : (Tree.dir walThenTemp).Distinct := by
  refine ⟨?_, ⟨?_, trivial, trivial, trivial⟩, trivial, trivial⟩
  · decide +kernel
  · decide +kernel

theorem emptyDisk_way (dest : Path) :
    ∀ p, p <+: dest → ∀ content, emptyDisk p ≠ some (.file content) := by
  intro p _ content
  unfold emptyDisk
  split <;> simp

theorem walThenTemp_noClash : (Tree.dir walThenTemp).AllDirs NoClash := by
  have hinner : NoClash [(utf8Bytes "a.wal", .file [1]), (utf8Bytes "a.tmp", .file [2])] := by
    rw [noClash_cons, noClash_cons]
    refine ⟨fun _ _ => by decide +kernel, fun _ later data hmem => ?_, fun _ _ => by decide +kernel,
      by simp, by simp, .nil⟩
    obtain ⟨rfl, -⟩ := Prod.mk.inj (List.mem_singleton.mp hmem)
    decide +kernel
  have houter : NoClash walThenTemp := by
    rw [walThenTemp, noClash_cons, noClash_cons]
    refine ⟨by simp, fun _ later data hmem => ?_, fun _ _ => by decide +kernel, by simp, by simp,
      .nil⟩
    obtain ⟨rfl, -⟩ := Prod.mk.inj (List.mem_singleton.mp hmem)
    decide +kernel
  exact ⟨houter, ⟨hinner, trivial, trivial, trivial⟩, trivial, trivial⟩

theorem copy_dir_all_copies_snapshot : ∃ fs', copyDirAll walThenTemp rootPath emptyDisk = .ok fs' ∧
    (∀ p, fs' (rootPath ++ p) = (Tree.dir walThenTemp).find p) :=
  (copy_dir_all_copies samplePrimitives id walThenTemp rootPath emptyDisk rfl
    (emptyDisk_way rootPath) (fun _ => rfl) walThenTemp_distinct).1.mpr walThenTemp_noClash

def tempThenWal : Entries Bytes Bytes :=
  [(utf8Bytes "a.tmp", .file [1]), (utf8Bytes "a.wal", .file [2])]

def onlyWal : Entries Bytes Bytes := [(utf8Bytes "a.wal", .file [2])]

theorem copyDirAll_tempThenWal :
    copyDirAll tempThenWal rootPath emptyDisk = copyDirAll onlyWal rootPath emptyDisk := by
  let made := emptyDisk.set rootPath (some .dir)
  let temp := rootPath ++ [utf8Bytes "a.tmp"]
  let wal := rootPath ++ [utf8Bytes "a.wal"]
  have hboth : copyDirAll tempThenWal rootPath emptyDisk =
      .ok ((((((made.set temp (some (.file [1]))).set temp none).set temp (some (.file [1]))).set
        temp (some (.file [2]))).set temp none).set wal (some (.file [2]))) := rfl
  have hone : copyDirAll onlyWal rootPath emptyDisk =
      .ok (((made.set temp (some (.file [2]))).set temp none).set wal (some (.file [2]))) := rfl
  rw [hboth, hone, set_set, set_set, set_set, set_set, set_set]

/-- The copy succeeds, it lacks a file of the source, and its digest is another one. -/
theorem sibling_with_temporary_name_is_lost : ∃ fs',
    copyDirAll tempThenWal rootPath emptyDisk = .ok fs' ∧
      (Tree.dir tempThenWal).find [utf8Bytes "a.tmp"] = some (.file [1]) ∧
      fs' (rootPath ++ [utf8Bytes "a.tmp"]) = none ∧
      (∀ p, (Tree.dir onlyWal).find p = fs' (rootPath ++ p)) ∧
      hashTree samplePrimitives id onlyWal ≠ hashTree samplePrimitives id tempThenWal := by
  have hcopy := copyDirAll_tempThenWal
  refine ⟨_, rfl, ?_, ?_, fun p => ?_, ?_⟩
  · decide +kernel
  · decide +kernel
  · have hdistinct : (Tree.dir onlyWal).Distinct := ⟨List.nodup_singleton _, trivial, trivial⟩
    have hnoClash : NoClash onlyWal := by
      rw [onlyWal, noClash_cons]
      exact ⟨fun _ _ => by decide +kernel, by simp, by simp, .nil⟩
    obtain ⟨fs', hone, hfound⟩ := (copies_iff_noClash rfl (emptyDisk_way rootPath) (fun _ => rfl)
      hdistinct).mpr ⟨hnoClash, trivial, trivial⟩
    rw [← hfound p]
    exact congrFun (Except.ok.inj (hone.symm.trans hcopy.symm)) _
  · unfold hashTree
    rw [List.mergeSort_of_pairwise, List.mergeSort_of_pairwise]
    · decide +kernel
    · decide +kernel
    · decide +kernel

end NexusAuth.Backup
