import Shield.Prog
import Shield.Fs.Glob
import Shield.Fs.Archive

/-!
# The machine the plugins run on

A `World` is the file system together with what the plugins' commands act on besides it: the
directory where the running cassandra node keeps its keyspaces, the ids of the user `vcap`,
what the probe for `mysqld` finds in the process list, the archive a restore reads on standard
input and the archives a backup writes on standard output.

* `Cmd.run` is what each command does when it succeeds: `nodetool snapshot` hard-links each
  table's files into `snapshots/shield-backup`, `nodetool clearsnapshot` removes those
  directories, `rm -rf`, `chown -R`, `tar` and the three `xtrabackup` steps act on the file
  system as their names say;
* `World.perform` answers an operation the way the model answers it when nothing unforeseen
  happens, and `World.run` runs a program so, giving its trace;
* `World.Step` adds what the model cannot foresee: a command may fail, having done any part
  of its work (what it changed stays within `Cmd.scope`, `World.Within`), and `os.Remove` or
  `os.RemoveAll` may fail having removed part of what it would (`FS.PartlyRemoved`).
  `World.Consistent` chains steps along a trace, and `run_consistent` says the runs of
  `World.run` are among them.

Not modelled: permissions (the plugins run as root), the process list (only the probe's answer
is), the files `xtrabackup` writes besides the copy of the data directory, and hard links inside
an archive (`tar -x` makes each entry a new inode).
-/

namespace Shield

open Go

namespace FS

/-- The owner and group of the inode the entry at `p` names. -/
def ownerOf (fs : FS) (p : Path) : Option (Nat × Nat) :=
  (fs.lookup p).map fun e => ((fs.meta e.ino).uid, (fs.meta e.ino).gid)

end FS

/-! ## Snapshots -/

/-- The paths inside the `shield-backup` snapshot of a table of a keyspace under `d`:
`d/K/T/snapshots/shield-backup` and everything below it. -/
def inSnapshot (d q : Path) : Bool :=
  decide (d <+: q) && (q.drop (d.length + 2)).take 2 == ["snapshots", snapshotName]

theorem inSnapshot_upClosed (d : Path) : FS.UpClosed (inSnapshot d) := by
  intro q r hq hqr
  simp only [inSnapshot, Bool.and_eq_true, decide_eq_true_eq, beq_iff_eq] at hq ⊢
  obtain ⟨hd, hs⟩ := hq
  obtain ⟨u, rfl⟩ := hqr
  have hlen : 2 ≤ (q.drop (d.length + 2)).length := by
    have := congrArg List.length hs
    simp only [List.length_take, List.length_cons, List.length_nil] at this
    omega
  refine ⟨hd.trans (List.prefix_append _ _), ?_⟩
  rw [List.drop_append_of_le_length (by simp at hlen; omega), List.take_append_of_le_length hlen, hs]

theorem inSnapshot_root (d : Path) : inSnapshot d [] = false := by
  simp [inSnapshot]

/-- `nodetool snapshot` of the table directory `t`: a new directory
`t/snapshots/shield-backup` holding a hard link to each regular file directly in `t`. -/
def snapshotTable (fs : FS) (t : Path) : Option FS :=
  let snap := t ++ ["snapshots", snapshotName]
  if (fs.lookup snap).isSome then none
  else
    match fs.mkdirAll snap with
    | (some _, _) => none
    | (none, fs₁) =>
      (fs.children t).foldlM (fun fs' ne =>
        if ne.2.kind = .reg then
          match fs'.link (t ++ [ne.1]) (snap ++ [ne.1]) with
          | (none, fs'') => some fs''
          | (some _, _) => none
        else some fs') fs₁

/-- `nodetool snapshot -t shield-backup` with the keyspaces `ks` (all keyspaces when there is
none) of the node keeping its keyspaces in `d`: every table of each keyspace; a keyspace
that does not exist fails the command. -/
def snapshotAll (fs : FS) (d : Path) (ks : List String) : Option FS :=
  if ks.all fun k => fs.isDir (d ++ [k]) then
    (if ks = [] then fs.dirNames d else ks).foldlM (fun fs k =>
      (fs.dirNames (d ++ [k])).foldlM (fun fs t => snapshotTable fs (d ++ [k, t])) fs) fs
  else none

/-! ## The world and its commands -/

/-- The machine the plugins run on. -/
structure World where
  fs : FS
  /-- Where the running cassandra node keeps its keyspaces; `nodetool` acts there. -/
  cassandraDir : Path
  /-- The user and group ids of `vcap`. -/
  vcap : Nat × Nat
  /-- Whether the probe `ps -efw | grep -F mysqld | grep -vE 'grep|mysqld_'` finds a line: a
  process whose command line holds `mysqld` and neither `grep` nor `mysqld_`.  A running
  `mysqld` gives one, and so does any other such process, as `tail -f mysqld.log`. -/
  probeFindsMysqld : Bool
  /-- The archive a restore reads on standard input. -/
  stdin : Archive
  /-- The archives written on standard output. -/
  stdout : List Archive

namespace World

/-- The world with the file system `fs`. -/
def withFs (w : World) (fs : FS) : World := { w with fs }

@[simp] theorem withFs_fs (w : World) (fs : FS) : (w.withFs fs).fs = fs := rfl
@[simp] theorem withFs_cassandraDir (w : World) (fs : FS) : (w.withFs fs).cassandraDir = w.cassandraDir := rfl
@[simp] theorem withFs_vcap (w : World) (fs : FS) : (w.withFs fs).vcap = w.vcap := rfl
@[simp] theorem withFs_stdin (w : World) (fs : FS) : (w.withFs fs).stdin = w.stdin := rfl
@[simp] theorem withFs_stdout (w : World) (fs : FS) : (w.withFs fs).stdout = w.stdout := rfl

/-- The world after writing the archive of the directory `d` on standard output. -/
def emit (w : World) (d : Path) : World := { w with stdout := w.stdout ++ [w.fs.archive d] }

end World

/-- The paths strictly below `p`. -/
def below (p q : Path) : Bool := decide (p <+: q ∧ q ≠ p)

theorem below_upClosed (p : Path) : FS.UpClosed (below p) := by
  intro q r hq hqr
  simp only [below, decide_eq_true_eq] at hq ⊢
  refine ⟨hq.1.trans hqr, fun h => hq.2 ?_⟩
  subst h
  exact List.IsPrefix.eq_of_length (hqr) (le_antisymm hqr.length_le hq.1.length_le)

theorem below_root (p : Path) : below p [] = false := by
  simp only [below, decide_eq_false_iff_not, not_and, not_not]
  exact fun h => (List.prefix_nil.1 h).symm

/-- The databases a `--databases` list names: each word, a `db.table` word naming `db`. -/
def databaseNames (databases : String) : List String :=
  ((databases.splitOn " ").filter (· ≠ "")).map fun n => (n.splitOn ".").headD n

/-- What `xtrabackup --backup` copies of the data directory's archive `A`: all of it when
`mysql_databases` is empty; otherwise the files directly in the data directory (the system
tablespace and the logs) and the directories of the databases the list names. -/
def backupSelection (databases : String) (A : Archive) : Archive :=
  if databases = "" then A
  else A.filter fun e => (e.1.length == 1 && e.2.1 != .dir) || e.1.head?.any (databaseNames databases).contains

/-- What a command does when it succeeds; `none` when it cannot succeed. -/
def Cmd.run (c : Cmd) (w : World) : Option World :=
  match c with
  | .clearSnapshot _ =>
    some (w.withFs (w.fs.eraseIf (inSnapshot w.cassandraDir) (inSnapshot_upClosed _) (inSnapshot_root _)))
  | .snapshot _ ks => (snapshotAll w.fs w.cassandraDir ks).map w.withFs
  | .rmRf d => if d = [] then none else some (w.withFs (w.fs.removeAll d).2)
  | .chownVcap d =>
    if (w.fs.lookup d).isSome then some (w.withFs (w.fs.chownTree d w.vcap.1 w.vcap.2)) else none
  | .tarCreate _ d => if w.fs.isDir d then some (w.emit d) else none
  | .tarExtract _ d => if w.fs.isDir d then some (w.withFs (w.fs.extract d w.stdin)) else none
  | .sstableloader .. => some w
  | .mysqldProbe => if w.probeFindsMysqld then some w else none
  | .xtrabackupBackup _ t d dbs _ _ =>
    match w.fs.mkdirAll (cleanPath t) with
    | (none, fs) =>
      if fs.isDir (cleanPath d) then
        some (w.withFs (fs.extract (cleanPath t) (backupSelection dbs (fs.archive (cleanPath d)))))
      else none
    | (some _, _) => none
  | .tarArchive _ d => if w.fs.isDir (cleanPath d) then some (w.emit (cleanPath d)) else none
  | .mkdirP d =>
    match w.fs.mkdirAll (cleanPath d) with
    | (none, fs) => some (w.withFs fs)
    | (some _, _) => none
  | .tarUnpack _ d =>
    if w.fs.isDir (cleanPath d) then some (w.withFs (w.fs.extract (cleanPath d) w.stdin)) else none
  | .xtrabackupPrepare .. => some w
  | .xtrabackupMoveBack _ t d =>
    if w.fs.isDir (cleanPath t) ∧ w.fs.isDir (cleanPath d) then
      some (w.withFs ((w.fs.extract (cleanPath d) (w.fs.archive (cleanPath t))).eraseIf
        (below (cleanPath t)) (below_upClosed _) (below_root _)))
    else none

/-! ## What a failed command may have done -/

/-- `fs'` is what a change confined to the paths `R` leaves of `fs`: each entry outside `R` is
still there, its inode's contents unchanged, and its inode's owner and group either unchanged
or, where `own` allows it, set to `own`.  Entries may be added anywhere. -/
def Confined (R : Path → Prop) (own : Option (Nat × Nat)) (fs fs' : FS) : Prop :=
  ∀ p e, fs.lookup p = some e → ¬ R p →
    fs'.lookup p = some e ∧ (fs'.meta e.ino).data = (fs.meta e.ino).data ∧
      (((fs'.meta e.ino).uid, (fs'.meta e.ino).gid) = ((fs.meta e.ino).uid, (fs.meta e.ino).gid) ∨
        own = some ((fs'.meta e.ino).uid, (fs'.meta e.ino).gid))

/-- Where a command may act, and the owner it may give: its work, and any part of it, stays
within this. -/
def Cmd.scope (c : Cmd) (w : World) : (Path → Prop) × Option (Nat × Nat) :=
  match c with
  | .clearSnapshot _ => (fun q => inSnapshot w.cassandraDir q, none)
  | .rmRf d => (fun q => d <+: q, none)
  | .chownVcap _ => (fun _ => False, some w.vcap)
  | .tarExtract _ d => (fun q => d <+: q, none)
  | .xtrabackupBackup _ t _ _ _ _ => (fun q => cleanPath t <+: q, none)
  | .tarUnpack _ d => (fun q => cleanPath d <+: q, none)
  | .xtrabackupPrepare _ t => (fun q => cleanPath t <+: q, none)
  | .xtrabackupMoveBack _ t d => (fun q => cleanPath t <+: q ∨ cleanPath d <+: q, none)
  | _ => (fun _ => False, none)

/-- `w'` differs from `w` only within the scope `S`: its file system is confined to `S.1` with
the owner `S.2`, and of the rest only standard output may have changed, by more output. -/
def World.Within (S : (Path → Prop) × Option (Nat × Nat)) (w w' : World) : Prop :=
  Confined S.1 S.2 w.fs w'.fs ∧ w'.cassandraDir = w.cassandraDir ∧ w'.vcap = w.vcap ∧
    w'.probeFindsMysqld = w.probeFindsMysqld ∧ w'.stdin = w.stdin ∧ w.stdout <+: w'.stdout

theorem Confined.refl (R : Path → Prop) (own : Option (Nat × Nat)) (fs : FS) :
    Confined R own fs fs :=
  fun _ _ h _ => ⟨h, rfl, .inl rfl⟩

theorem World.Within.refl (S : (Path → Prop) × Option (Nat × Nat)) (w : World) : w.Within S w :=
  ⟨Confined.refl _ _ _, rfl, rfl, rfl, rfl, List.prefix_refl _⟩

/-! ## Operations and runs -/

namespace World

/-- The answer the model gives to an operation, and the world after it. -/
def perform (w : World) : (o : Op) → o.Resp × World
  | .exec c _ =>
    match c.run w with
    | some w' => (none, w')
    | none => (some (.exec c.line), w)
  | .lstat p => (w.fs.lstat p, w)
  | .openFile p => (w.fs.openFile p, w)
  | .readdir h => (w.fs.readdir h, w)
  | .close _ => (none, w)
  | .mkdir p => ((w.fs.mkdir p).1, w.withFs (w.fs.mkdir p).2)
  | .mkdirAll p => ((w.fs.mkdirAll p).1, w.withFs (w.fs.mkdirAll p).2)
  | .link src dst => ((w.fs.link src dst).1, w.withFs (w.fs.link src dst).2)
  | .remove p => ((w.fs.remove p).1, w.withFs (w.fs.remove p).2)
  | .removeAll p => ((w.fs.removeAll p).1, w.withFs (w.fs.removeAll p).2)
  | .glob pattern => (w.fs.glob pattern, w)
  | .walkChown root uid gid =>
    ((w.fs.walkChown root uid gid).1, w.withFs (w.fs.walkChown root uid gid).2)

/-- `w'` can follow `w` when the operation gets the answer `r`: a command succeeds as
`Cmd.run` says, or fails having done any part of its work, within its scope; a removal
answers as the model does, or fails having removed part of what it would; any other
operation answers as the model does. -/
def Step (w : World) : (o : Op) → o.Resp → World → Prop
  | .exec c _, r, w' => (r = none ∧ c.run w = some w') ∨ (r.isSome ∧ w.Within (c.scope w) w')
  | .remove p, r, w' =>
    (r, w') = w.perform (.remove p) ∨ (r.isSome ∧ ∃ fs, w.fs.PartlyRemoved p fs ∧ w' = w.withFs fs)
  | .removeAll p, r, w' =>
    (r, w') = w.perform (.removeAll p) ∨ (r.isSome ∧ ∃ fs, w.fs.PartlyRemoved p fs ∧ w' = w.withFs fs)
  | o, r, w' => (r, w') = w.perform o

/-- The trace `t` can take `w` to `w'`. -/
inductive Consistent : World → List Event → World → Prop
  | nil (w : World) : Consistent w [] w
  | cons {w w₁ w' : World} {o : Op} {r : o.Resp} {t : List Event} :
      w.Step o r w₁ → Consistent w₁ t w' → Consistent w (⟨o, r⟩ :: t) w'

/-- Run a program, each operation answered by `perform`: its result, trace and final world. -/
def run {α : Type} : Prog α → World → α × List Event × World
  | .pure a, w => (a, [], w)
  | .call o k, w =>
    let rw₁ := w.perform o
    let res := run (k rw₁.1) rw₁.2
    (res.1, ⟨o, rw₁.1⟩ :: res.2.1, res.2.2)

/-- The answers of `perform` are among those `Step` allows. -/
theorem step_perform (w : World) (o : Op) : w.Step o (w.perform o).1 (w.perform o).2 := by
  cases o with
  | exec c pipe =>
    simp only [Step, perform]
    cases h : c.run w with
    | some w' => exact .inl ⟨rfl, rfl⟩
    | none => exact .inr ⟨rfl, Within.refl _ _⟩
  | remove | removeAll => exact .inl rfl
  | _ => rfl

theorem run_runs {α : Type} (p : Prog α) (w : World) : Runs p (w.run p).2.1 (w.run p).1 := by
  induction p generalizing w with
  | pure a => exact .pure a
  | call o k ih => exact .call _ (ih _ _)

theorem run_consistent {α : Type} (p : Prog α) (w : World) :
    Consistent w (w.run p).2.1 (w.run p).2.2 := by
  induction p generalizing w with
  | pure a => exact .nil w
  | call o k ih => exact .cons (step_perform w o) (ih _ _)

end World

/-- The path and error of an event that is a failed `os.Remove` or `os.RemoveAll`. -/
def Event.failedRemoval : Event → Option (Path × GoError)
  | ⟨.remove p, some e⟩ => some (p, e)
  | ⟨.removeAll p, some e⟩ => some (p, e)
  | _ => none

/-- Every `os.Remove` and `os.RemoveAll` of the trace `t` on a path of `R` returned nil. -/
def RemovalsOk (R : Path → Prop) (t : List Event) : Prop :=
  ∀ ev ∈ t, ∀ pe ∈ ev.failedRemoval, ¬ R pe.1

instance (R : Path → Prop) [DecidablePred R] (t : List Event) : Decidable (RemovalsOk R t) :=
  inferInstanceAs (Decidable (∀ ev ∈ t, _))

end Shield
