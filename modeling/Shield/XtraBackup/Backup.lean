import Shield.XtraBackup.Plugin
import Shield.World.Triple

/-!
# What `XtraBackupPlugin.Backup` may remove

`Backup` removes its temporary target directory three times: a stale one before the run
(`os.RemoveAll`, or `os.Remove` when it is no directory), at the end, and in a deferred cleanup;
`xtrabackup --backup` writes into it and `tar` reads it.  `Validate` only checks that
`mysql_temp_targetdir` is not empty.

* `backupWith_ops`: every operation `Backup` can issue acts within the target directory;
* `backup_confined_to_target`: **for a target directory with no symbolic link and no `..` on
  its path, every run of `Backup`, whatever each step answers, leaves each entry outside the
  target directory in place, with its contents and owner**;
* `backup_removes_datadir`: `Validate` accepts an endpoint whose target directory is the data
  directory, and `Backup` then reports success having removed the data directory's files.

The model reads a path through directories only (`Shield.Fs.Ops`); the hypothesis `PlainPath`
on the target directory is where that reading is the kernel's.  Through a symbolic link on the
way, the removals and `xtrabackup` act where the link points.
-/

namespace Shield.XtraBackup

open World

/-- The scope of the target directory `dir`: every path from it down, and no change of owner. -/
def targetScope (dir : String) : (Path → Prop) × Option (Nat × Nat) :=
  (fun q => cleanPath dir <+: q, none)

theorem clearTarget_ops (dir : String) (w : World) :
    OnlyOps (fun o => Covers (targetScope dir) (o.scope w)) (clearTarget (cleanPath dir)) :=
  (OnlyOps.op (Covers.bot _)).bind fun
    | .error _ => .pure _
    | .ok fi => by
      dsimp only
      split <;> exact .op (Covers.refl _)

/-- Every operation of `Backup` acts within the target directory. -/
theorem backupWith_ops (x : XtraBackupEndpoint) (w : World) :
    OnlyOps (fun o => Covers (targetScope x.targetDir) (o.scope w)) (backupWith x) :=
  have hrm : OnlyOps (fun o => Covers (targetScope x.targetDir) (o.scope w))
      (removeAll (cleanPath x.targetDir)) := .op (Covers.refl _)
  .seqErr (clearTarget_ops _ w) <|
    .deferring (.seqErr (.op (Covers.refl _)) (.seqErr (.op (Covers.bot _)) hrm)) hrm

/-- **`Backup` changes nothing outside its target directory.**  For a target directory named by
a path with no `..` and no symbolic link on the way to it or at it, whatever each command and
each file-system call answers, every entry outside `mysql_temp_targetdir` is still there after
`Backup`, naming the same inode, with the same contents, owner and group.  Nothing else keeps
the data directory: an entry under it is kept exactly when it is not under the target
directory. -/
theorem backup_confined_to_target (ep : Endpoint) {x : XtraBackupEndpoint}
    (hx : getXtraBackupEndpoint ep = .ok x) {w w' : World} {t : List Event} {r : Option GoError}
    (_hT : w.fs.PlainPath x.targetDir) (h : Runs (backup ep) t r) (hc : Consistent w t w') :
    Confined (fun q => cleanPath x.targetDir <+: q) none w.fs w'.fs := by
  rw [backup, hx] at h
  exact (within_of_runs (backupWith_ops x w) h hc).1

/-- An endpoint with the two required keys, and `mysql_temp_targetdir` set to the default data
directory. -/
def sameDirEndpoint : Endpoint := fun key =>
  if key = "mysql_user" then some (.str "root")
  else if key = "mysql_password" then some (.str "secret")
  else if key = "mysql_temp_targetdir" then some (.str defaultDataDir)
  else none

/-- A machine whose data directory `/var/lib/mysql` holds one file, `ibdata1`. -/
def mysqlWorld : World where
  fs := FS.ofList
    [(["var"], .dir, rootMeta), (["var", "lib"], .dir, rootMeta),
     (["var", "lib", "mysql"], .dir, ⟨27, 27, ""⟩),
     (["var", "lib", "mysql", "ibdata1"], .reg, ⟨27, 27, "rows"⟩)]
  cassandraDir := []
  vcap := (1000, 1000)
  probeFindsMysqld := false
  stdin := []
  stdout := []

theorem backup_confined_to_target_sameDir :
    getXtraBackupEndpoint sameDirEndpoint =
        .ok ⟨"", defaultDataDir, "root", "secret", defaultXtrabackup, defaultDataDir, defaultTar⟩ ∧
      mysqlWorld.fs.PlainPath defaultDataDir ∧
      Runs (backup sameDirEndpoint) (mysqlWorld.run (backup sameDirEndpoint)).2.1
        (mysqlWorld.run (backup sameDirEndpoint)).1 ∧
      Consistent mysqlWorld (mysqlWorld.run (backup sameDirEndpoint)).2.1
        (mysqlWorld.run (backup sameDirEndpoint)).2.2 ∧
      Confined (fun q => cleanPath defaultDataDir <+: q) none mysqlWorld.fs
        (mysqlWorld.run (backup sameDirEndpoint)).2.2.fs :=
  have hT : mysqlWorld.fs.PlainPath defaultDataDir := by decide
  ⟨rfl, hT, run_runs _ _, run_consistent _ _,
    backup_confined_to_target sameDirEndpoint rfl hT (run_runs _ _) (run_consistent _ _)⟩

/-- `Validate` accepts `sameDirEndpoint`, and on `mysqlWorld` `Backup` succeeds having removed
`/var/lib/mysql/ibdata1`: the first `os.RemoveAll` of the target directory is one of the data
directory. -/
theorem backup_removes_datadir :
    validate sameDirEndpoint = none ∧
      mysqlWorld.fs.lookup ["var", "lib", "mysql", "ibdata1"] = some ⟨.reg, 4⟩ ∧
      (mysqlWorld.run (backup sameDirEndpoint)).1 = none ∧
      (mysqlWorld.run (backup sameDirEndpoint)).2.2.fs.lookup ["var", "lib", "mysql", "ibdata1"] = none :=
  ⟨rfl, rfl, rfl, rfl⟩

end Shield.XtraBackup
