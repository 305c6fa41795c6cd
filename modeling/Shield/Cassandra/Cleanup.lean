import Shield.EarlyExit
import Shield.Cassandra.Plugin
import Shield.World.Basic

/-!
# Cleanup and error propagation in `Backup` and `Restore`

`CassandraPlugin.Backup` registers two deferred calls: `nodetool clearsnapshot`, once the
stale snapshot has been cleared, and `rm -rf` of the staging root, once the root exists;
`Restore` registers the second.  Every directory opened on the way is closed by a deferred
`dir.Close()`.  Each deferred closure declares its own `err`, so its error is dropped.

Whatever each command and each file-system call answers, over any number of keyspaces,
tables and files:

* `backupWith_clears_once_more`: after a successful first `clearsnapshot`, the run goes on
  with the snapshot command and ends with exactly one more `clearsnapshot`;
* `backupWith_removes_staging_once`, `restoreWith_removes_staging_once`: once the staging
  root is created, exactly one `rm -rf` of it follows, and after that at most the final
  `clearsnapshot`;
* `backupWith_returns_first_failure`, `restoreWith_returns_first_failure`: the result is nil
  exactly when no forward step failed, and otherwise the error of the first forward step
  that failed, after which only deferred calls run.

`backup_restore_cleanup` gathers them.  The part of each function that walks directories
(`backupStage`, `restoreLoad`) is handled once, by the combinators of `Shield.EarlyExit`.
-/

namespace Shield.Cassandra

open Prog

/-! ## Failing steps and deferred calls -/

/-- The error with which an event makes `Backup` or `Restore` return, as their code reads the
answer: the error of any command or file-system call, except that `os.Lstat` finding no
snapshot directory (`os.IsNotExist`, on a path other than the data directory) is skipped, and
that a data directory that is not a directory fails with `notADirectory`.  Closing a
directory never fails a step. -/
def fatal (dataDir : Path) : Event → Option GoError
  | ⟨.exec _ _, r⟩ => r
  | ⟨.lstat p, .error e⟩ => if p ≠ dataDir ∧ e.isNotExist then none else some e
  | ⟨.lstat p, .ok info⟩ => if p = dataDir ∧ info.isDir = false then some notADirectory else none
  | ⟨.openFile _, r⟩ => errOf r
  | ⟨.readdir _, r⟩ => errOf r
  | ⟨.close _, _⟩ => none
  | ⟨.mkdir _, r⟩ => r
  | ⟨.mkdirAll _, r⟩ => r
  | ⟨.link _ _, r⟩ => r
  | ⟨.remove _, r⟩ => r
  | ⟨.removeAll _, r⟩ => r
  | ⟨.glob _, r⟩ => errOf r
  | ⟨.walkChown _ _ _, r⟩ => r

/-- The commands `Backup` and `Restore` also issue from deferred calls. -/
def cleanupCmd : Op → Bool
  | .exec (.clearSnapshot _) _ => true
  | .exec (.rmRf _) _ => true
  | _ => false

/-- An operation other than those commands. -/
def NotCleanupCmd (o : Op) : Prop := cleanupCmd o = false

/-- Closing a directory, as every `defer dir.Close()` does. -/
def IsClose (o : Op) : Prop := ∃ h, o = .close h

/-- An operation a deferred call of `Backup` or `Restore` issues. -/
def IsCleanup (binDir : String) (o : Op) : Prop :=
  IsClose o ∨ o = .exec (.rmRf baseDir) .out ∨ o = .exec (.clearSnapshot binDir) .inp

theorem fatal_close (d : Path) : ∀ ev : Event, IsClose ev.op → fatal d ev = none := by
  rintro ⟨_, _⟩ ⟨h, rfl⟩; rfl

theorem NotCleanupCmd.ne_rmRf {o : Op} (h : NotCleanupCmd o) (p : Path) (pipe : Pipe) :
    o ≠ .exec (.rmRf p) pipe := by
  rintro rfl; exact Bool.noConfusion h

theorem NotCleanupCmd.ne_clearSnapshot {o : Op} (h : NotCleanupCmd o) (b : String) (pipe : Pipe) :
    o ≠ .exec (.clearSnapshot b) pipe := by
  rintro rfl; exact Bool.noConfusion h

/-! ## The directory walks stop at their first failure -/

section Stage

variable (d : Path)

theorem exec_single {c : Cmd} {pipe : Pipe} (hc : NotCleanupCmd (.exec c pipe)) :
    Single (fatal d) NotCleanupCmd id (exec c pipe) := .call _ hc fun _ => rfl

theorem mkdir_single (p : Path) : Single (fatal d) NotCleanupCmd id (mkdir p) :=
  .call (.mkdir p) rfl fun _ => rfl

theorem mkdirAll_single (p : Path) : Single (fatal d) NotCleanupCmd id (mkdirAll p) :=
  .call (.mkdirAll p) rfl fun _ => rfl

theorem link_single (src dst : Path) : Single (fatal d) NotCleanupCmd id (link src dst) :=
  .call (.link src dst) rfl fun _ => rfl

theorem openFile_single (p : Path) : Single (fatal d) NotCleanupCmd errOf (openFile p) :=
  .call (.openFile p) rfl fun v => by cases v <;> rfl

theorem readdir_single (h : Path) : Single (fatal d) NotCleanupCmd errOf (readdir h) :=
  .call (.readdir h) rfl fun v => by cases v <;> rfl

theorem lstat_single (p : Path) :
    Single (fatal d) NotCleanupCmd (fun v => fatal d ⟨.lstat p, v⟩) (lstat p) :=
  .call (.lstat p) rfl fun _ => rfl

theorem hardLinkAll_exit (srcDir dstDir : Path) :
    EarlyExit (fatal d) NotCleanupCmd IsClose (hardLinkAll srcDir dstDir) :=
  .bindErr (openFile_single d _) fun dir =>
    .deferring
      (.bindErr (readdir_single d _) fun _ => .forEach (fatal_close d) fun info => by
        by_cases h : info.isDir
        · simpa [h] using .done
        · simpa [h] using .single (link_single d _ _))
      (.op rfl) (.op ⟨dir, rfl⟩)

/-- The snapshot directory of a table, looked up by `os.Lstat`, is not the data directory:
it lies three levels below the keyspace directory. -/
theorem snapshotDir_ne {ks : Path} (hks : d.length ≤ ks.length) (info : Dirent) :
    ((ks.join info.name).join "snapshots").join snapshotName ≠ d := by
  have hs : ValidName "snapshots" := by decide
  have hn : ValidName snapshotName := by decide
  intro h
  have := congrArg List.length h
  simp [info.valid, hs, hn] at this
  omega

theorem linkTable_exit {ks : Path} (hks : d.length ≤ ks.length) (tmp : Path) (info : Dirent) :
    EarlyExit (fatal d) NotCleanupCmd IsClose (linkTable ks tmp info) := by
  unfold linkTable
  split
  · exact .done
  · have hne := snapshotDir_ne d hks info
    refine .bind (lstat_single d _) (fun v hv => ?_) fun v e hv => ?_
    · rcases v with e | _
      · have he : e.isNotExist = true := by by_contra he; simp [fatal, hne, he] at hv
        simpa [he] using .done
      · exact .seqErr (fatal_close d) (.single (mkdirAll_single d _)) (hardLinkAll_exit d _ _)
    · rcases v with e' | _
      · by_cases he : e'.isNotExist
        · simp [fatal, hne, he] at hv
        · simp [fatal, hne, he] at hv
          simp [← hv, he]
      · simp [fatal, hne] at hv

theorem hardLinkKeyspace_exit {src : Path} (hsrc : d.length ≤ src.length) (dst : Path)
    {keyspace : String} (hk : ValidName keyspace) :
    EarlyExit (fatal d) NotCleanupCmd IsClose (hardLinkKeyspace src dst keyspace) := by
  have hks : d.length ≤ (src.join keyspace).length := by simp [hk]; omega
  exact .seqErr (fatal_close d) (.single (mkdir_single d _)) <|
    .bindErr (openFile_single d _) fun dir =>
      .deferring
        (.bindErr (readdir_single d _) fun _ => .forEach (fatal_close d) (linkTable_exit d hks _))
        (.op rfl) (.op ⟨dir, rfl⟩)

theorem backupStage_exit (c : CassandraInfo) (saved : Option (List String)) :
    EarlyExit (fatal (cleanPath c.dataDir)) NotCleanupCmd IsClose (backupStage c saved) := by
  have stage : ∀ info : Dirent,
      EarlyExit (fatal (cleanPath c.dataDir)) NotCleanupCmd IsClose (stageKeyspace c saved info) := by
    intro info
    unfold stageKeyspace
    split
    · exact .done
    · split
      · exact .done
      · exact hardLinkKeyspace_exit _ le_rfl _ info.valid
  refine .bind (lstat_single _ _) (fun v hv => ?_) fun v e hv => ?_
  · rcases v with e | info
    · simp [fatal] at hv
    · have hdir : info.isDir = true := by simpa [fatal] using hv
      simp only [hdir, Bool.not_true, Bool.false_eq_true, ↓reduceIte]
      exact .bindErr (openFile_single _ _) fun dir =>
        .deferring
          (.bindErr (readdir_single _ _) fun _ =>
            .seqErr (fatal_close _) (.forEach (fatal_close _) stage) <|
            .seqErr (fatal_close _) (.single (exec_single _ rfl)) <|
            .seqErr (fatal_close _) (.single (exec_single _ rfl)) .done)
          (.op rfl) (.op ⟨dir, rfl⟩)
  · rcases v with e' | info
    · simpa [fatal] using hv
    · by_cases hdir : info.isDir <;> simp_all [fatal]

theorem restoreLoad_exit (c : CassandraInfo) (saved : Option (List String)) :
    EarlyExit (fatal d) NotCleanupCmd IsClose (restoreLoad c saved) := by
  have load : ∀ info : Dirent,
      EarlyExit (fatal d) NotCleanupCmd IsClose (loadKeyspace c saved info) := by
    intro info
    unfold loadKeyspace restoreKeyspace
    split
    · exact .done
    · split
      · exact .done
      · exact .bindErr (openFile_single d _) fun dir =>
          .deferring
            (.bindErr (readdir_single d _) fun _ => .forEach (fatal_close d) fun info => by
              by_cases h : info.isDir
              · simpa [h] using .single (exec_single d rfl)
              · simpa [h] using .done)
            (.op rfl) (.op ⟨dir, rfl⟩)
  exact .seqErr (fatal_close d) (.single (exec_single d rfl)) <|
    .bindErr (openFile_single d _) fun dir =>
      .deferring (.bindErr (readdir_single d _) fun _ => .forEach (fatal_close d) load)
        (.op rfl) (.op ⟨dir, rfl⟩)

end Stage

/-! ## The runs of `Backup` and `Restore` -/

/-- The runs of the staging-root block: the stale `rm -rf` fails, or `os.MkdirAll` does, or
the body runs between the creation and the deferred `rm -rf`. -/
theorem withStagingRoot_runs {body : Prog (Option GoError)} {t : List Event} {r : Option GoError}
    (h : Runs (withStagingRoot body) t r) :
    (∃ e, t = [⟨.exec (.rmRf baseDir) .out, some e⟩] ∧ r = some e) ∨
    (∃ e, t = [⟨.exec (.rmRf baseDir) .out, none⟩, ⟨.mkdirAll baseDir, some e⟩] ∧ r = some e) ∨
    ∃ t' x, t = ⟨.exec (.rmRf baseDir) .out, none⟩ :: ⟨.mkdirAll baseDir, none⟩ ::
      (t' ++ [⟨.exec (.rmRf baseDir) .out, x⟩]) ∧ Runs body t' r := by
  rcases Runs.seqErr_exec h with ⟨e, rfl, rfl⟩ | ⟨t₁, rfl, h₁⟩
  · exact .inl ⟨e, rfl, rfl⟩
  rcases Runs.seqErr_iff.1 h₁ with ⟨e, h₂, rfl⟩ | ⟨t₂, t₃, rfl, h₂, h₃⟩
  · exact .inr (.inl ⟨e, by rw [Runs.op_iff.1 h₂], rfl⟩)
  · obtain ⟨t₄, t₅, b, rfl, h₄, h₅⟩ := Runs.deferring_iff.1 h₃
    rw [Runs.op_iff.1 h₂, Runs.op_iff.1 h₅]
    exact .inr (.inr ⟨t₄, b, rfl, h₄⟩)

/-- The runs of `Backup` once the configuration is loaded: the first `clearsnapshot` fails, or
the rest runs before the deferred `clearsnapshot`. -/
theorem backupWith_runs {c : CassandraInfo} {t : List Event} {r : Option GoError}
    (h : Runs (backupWith c) t r) :
    (∃ e, t = [⟨.exec (.clearSnapshot c.binDir) .inp, some e⟩] ∧ r = some e) ∨
    ∃ t' x, t = ⟨.exec (.clearSnapshot c.binDir) .inp, none⟩ ::
      (t' ++ [⟨.exec (.clearSnapshot c.binDir) .inp, x⟩]) ∧
      Runs (backupSnapshot (backupFilter c).2 (backupFilter c).1) t' r := by
  rcases Runs.seqErr_exec h with h' | ⟨t₁, rfl, h₁⟩
  · exact .inl h'
  · obtain ⟨t₂, t₃, b, rfl, h₂, h₃⟩ := Runs.deferring_iff.1 h₁
    rw [Runs.op_iff.1 h₃]
    exact .inr ⟨t₂, b, rfl, h₂⟩

/-- The staging-root block issues no `clearsnapshot`. -/
theorem withStagingRoot_ops {body : Prog (Option GoError)} (hb : OnlyOps NotCleanupCmd body)
    (binDir : String) :
    OnlyOps (· ≠ .exec (.clearSnapshot binDir) .inp) (withStagingRoot body) :=
  .seqErr (.op (by simp)) <| .seqErr (.op (by simp)) <|
    .deferring (hb.mono fun _ h => h.ne_clearSnapshot _ _) (.op (by simp))

/-! ## The three guarantees -/

/-- (a) After a successful first `clearsnapshot`, the snapshot command is the next step, and
the run ends with one more `clearsnapshot`, the only other one. -/
def ClearsOnceMore (binDir : String) (t : List Event) : Prop :=
  ∀ rest, t = ⟨.exec (.clearSnapshot binDir) .inp, none⟩ :: rest →
    ∃ snap mid x, rest = snap :: mid ++ [⟨.exec (.clearSnapshot binDir) .inp, x⟩] ∧
      (∃ ks, snap.op = .exec (.snapshot binDir ks) .inp) ∧
      ∀ ev ∈ snap :: mid, ev.op ≠ .exec (.clearSnapshot binDir) .inp

/-- The events of `t` from the first `os.MkdirAll` of the staging root on. -/
def fromCreation (t : List Event) : List Event :=
  t.dropWhile fun ev => ev.op ≠ .mkdirAll baseDir

/-- (b) Once the first `os.MkdirAll` of the staging root has succeeded, exactly one `rm -rf` of
the root follows, and only events satisfying `after` come after it. -/
def RemovesStagingOnce (after : Event → Prop) (t : List Event) : Prop :=
  ∀ rest, fromCreation t = ⟨.mkdirAll baseDir, none⟩ :: rest →
    ∃ mid x post, rest = mid ++ ⟨.exec (.rmRf baseDir) .out, x⟩ :: post ∧
      (∀ ev ∈ mid, ev.op ≠ .exec (.rmRf baseDir) .out) ∧ ∀ ev ∈ post, after ev

/-- (c) The run is forward steps followed by deferred calls; the result is nil exactly when no
forward step failed, and otherwise the error of the first forward step that failed, which is
the last one.  No forward step is a call a deferred function makes: `clearsnapshot` is a
forward step only as the first one, and `rm -rf` of the staging root only before the root is
created. -/
def ReturnsFirstFailure (dataDir : Path) (binDir : String) (t : List Event) (r : Option GoError) :
    Prop :=
  ∃ fwd cl, t = fwd ++ cl ∧ (∀ ev ∈ cl, IsCleanup binDir ev.op) ∧ StopsAt (fatal dataDir) fwd r ∧
    (∀ ev ∈ fwd.tail, ev.op ≠ .exec (.clearSnapshot binDir) .inp) ∧
    ∀ ev ∈ fromCreation fwd, ev.op ≠ .exec (.rmRf baseDir) .out

/-- The staging-root block around a body that stops at its first failure: (c), with no
`clearsnapshot` among the forward steps at all. -/
theorem withStagingRoot_first_failure {d : Path} {body : Prog (Option GoError)}
    (hb : EarlyExit (fatal d) NotCleanupCmd IsClose body) (binDir : String) {t : List Event}
    {r : Option GoError} (h : Runs (withStagingRoot body) t r) :
    ∃ fwd cl, t = fwd ++ cl ∧ (∀ ev ∈ cl, IsCleanup binDir ev.op) ∧ StopsAt (fatal d) fwd r ∧
      (∀ ev ∈ fwd, ev.op ≠ .exec (.clearSnapshot binDir) .inp) ∧
      ∀ ev ∈ fromCreation fwd, ev.op ≠ .exec (.rmRf baseDir) .out := by
  rcases withStagingRoot_runs h with ⟨e, rfl, rfl⟩ | ⟨e, rfl, rfl⟩ | ⟨t', x, rfl, h'⟩
  · exact ⟨_, [], (List.append_nil _).symm, by simp, ⟨[], _, rfl, by simp, rfl⟩, by simp,
      by simp [fromCreation]⟩
  · exact ⟨_, [], (List.append_nil _).symm, by simp, ⟨[_], _, rfl, by simp [fatal], rfl⟩, by simp,
      by simp [fromCreation]⟩
  · obtain ⟨fwd, cl, rfl, hcl, hs⟩ := hb.stops h'
    have hops : ∀ ev ∈ fwd, NotCleanupCmd ev.op := fun ev hev => hb.ops.events h' ev (by simp [hev])
    refine ⟨⟨.exec (.rmRf baseDir) .out, none⟩ :: ⟨.mkdirAll baseDir, none⟩ :: fwd,
      cl ++ [⟨.exec (.rmRf baseDir) .out, x⟩], by simp, ?_,
      .cons rfl (.cons rfl hs), ?_, ?_⟩
    · simpa [IsCleanup, or_imp, forall_and] using fun ev hev => .inl (hcl ev hev)
    · simpa using fun ev hev => (hops ev hev).ne_clearSnapshot _ _
    · simpa [fromCreation] using fun ev hev => (hops ev hev).ne_rmRf _ _

theorem backupWith_clears_once_more (c : CassandraInfo) {t : List Event} {r : Option GoError}
    (h : Runs (backupWith c) t r) : ClearsOnceMore c.binDir t := by
  intro rest ht
  rcases backupWith_runs h with ⟨e, rfl, -⟩ | ⟨t', x, rfl, h'⟩
  · simp at ht
  obtain rfl := (List.cons.inj ht).2
  rcases Runs.seqErr_exec h' with ⟨e, rfl, -⟩ | ⟨t'', rfl, h''⟩
  · exact ⟨_, [], x, rfl, ⟨snapshotArgs (backupFilter c).1, by simp⟩, by simp⟩
  · refine ⟨_, t'', x, rfl, ⟨snapshotArgs (backupFilter c).1, by simp⟩, ?_⟩
    simpa using (withStagingRoot_ops (backupStage_exit _ _).ops c.binDir).events h''

theorem backupWith_removes_staging_once (c : CassandraInfo) {t : List Event} {r : Option GoError}
    (h : Runs (backupWith c) t r) :
    RemovesStagingOnce (fun ev => ev.op = .exec (.clearSnapshot c.binDir) .inp) t := by
  intro rest ht
  rcases backupWith_runs h with ⟨e, rfl, -⟩ | ⟨t', x, rfl, h'⟩
  · simp [fromCreation] at ht
  rcases Runs.seqErr_exec h' with ⟨e, rfl, -⟩ | ⟨t'', rfl, h''⟩
  · simp [fromCreation] at ht
  rcases withStagingRoot_runs h'' with ⟨e, rfl, -⟩ | ⟨e, rfl, -⟩ | ⟨t₂, y, rfl, h₂⟩
  · simp [fromCreation] at ht
  · simp [fromCreation] at ht
  · simp [fromCreation] at ht
    subst ht
    exact ⟨t₂, y, [⟨.exec (.clearSnapshot c.binDir) .inp, x⟩], by simp,
      fun ev hev => ((backupStage_exit _ _).ops.events h₂ ev hev).ne_rmRf _ _, by simp⟩

theorem backupWith_returns_first_failure (c : CassandraInfo) {t : List Event} {r : Option GoError}
    (h : Runs (backupWith c) t r) : ReturnsFirstFailure (cleanPath c.dataDir) c.binDir t r := by
  rcases backupWith_runs h with ⟨e, rfl, rfl⟩ | ⟨t', x, rfl, h'⟩
  · exact ⟨_, [], (List.append_nil _).symm, by simp, ⟨[], _, rfl, by simp, rfl⟩, by simp,
      by simp [fromCreation]⟩
  rcases Runs.seqErr_exec h' with ⟨e, rfl, rfl⟩ | ⟨t'', rfl, h''⟩
  · exact ⟨[_, _], [⟨.exec (.clearSnapshot c.binDir) .inp, x⟩], rfl, by simp [IsCleanup],
      ⟨[_], _, rfl, by simp [fatal], rfl⟩, by simp, by simp [fromCreation]⟩
  · obtain ⟨fwd, cl, rfl, hcl, hs, hno, hrm⟩ :=
      withStagingRoot_first_failure (backupStage_exit _ _) c.binDir h''
    rw [backupFilter_dataDir] at hs
    refine ⟨⟨.exec (.clearSnapshot c.binDir) .inp, none⟩ ::
      ⟨.exec (.snapshot (backupFilter c).2.binDir (snapshotArgs (backupFilter c).1)) .inp, none⟩ :: fwd,
      cl ++ [⟨.exec (.clearSnapshot c.binDir) .inp, x⟩], by simp, ?_,
      .cons rfl (.cons rfl hs), by simpa using hno, by simpa [fromCreation] using hrm⟩
    simpa [IsCleanup, or_imp, forall_and] using hcl

theorem restoreWith_removes_staging_once (c : CassandraInfo) (saved : Option (List String))
    {t : List Event} {r : Option GoError} (h : Runs (restoreWith c saved) t r) :
    RemovesStagingOnce (fun _ => False) t := by
  intro rest ht
  rcases withStagingRoot_runs h with ⟨e, rfl, -⟩ | ⟨e, rfl, -⟩ | ⟨t₂, y, rfl, h₂⟩
  · simp [fromCreation] at ht
  · simp [fromCreation] at ht
  · simp [fromCreation] at ht
    subst ht
    exact ⟨t₂, y, [], rfl,
      fun ev hev => ((restoreLoad_exit [] c saved).ops.events h₂ ev hev).ne_rmRf _ _, by simp⟩

theorem restoreWith_returns_first_failure (c : CassandraInfo) (saved : Option (List String))
    {t : List Event} {r : Option GoError} (h : Runs (restoreWith c saved) t r) :
    ReturnsFirstFailure (cleanPath c.dataDir) c.binDir t r := by
  obtain ⟨fwd, cl, rfl, hcl, hs, hno, hrm⟩ :=
    withStagingRoot_first_failure (restoreLoad_exit _ c saved) c.binDir h
  exact ⟨fwd, cl, rfl, hcl, hs, fun ev hev => hno ev (List.mem_of_mem_tail hev), hrm⟩

/-- **Cleanup and error propagation in `Backup` and `Restore`.**  For every configuration and
every answer of every command and file-system call: (a) once `Backup`'s first
`clearsnapshot` has succeeded, the snapshot command follows and one more `clearsnapshot`
ends the run; (b) once the staging root is created, exactly one `rm -rf` of it follows, with
at most the final `clearsnapshot` after it; (c) the result is nil exactly when no forward
step failed, and otherwise the error of the first one that failed, with only deferred calls
after it. -/
theorem backup_restore_cleanup (c : CassandraInfo) (saved : Option (List String)) :
    (∀ t r, Runs (backupWith c) t r →
      ClearsOnceMore c.binDir t ∧
      RemovesStagingOnce (fun ev => ev.op = .exec (.clearSnapshot c.binDir) .inp) t ∧
      ReturnsFirstFailure (cleanPath c.dataDir) c.binDir t r) ∧
    ∀ t r, Runs (restoreWith c saved) t r →
      RemovesStagingOnce (fun _ => False) t ∧ ReturnsFirstFailure (cleanPath c.dataDir) c.binDir t r :=
  ⟨fun _ _ h => ⟨backupWith_clears_once_more c h, backupWith_removes_staging_once c h,
      backupWith_returns_first_failure c h⟩,
    fun _ _ h => ⟨restoreWith_removes_staging_once c saved h, restoreWith_returns_first_failure c saved h⟩⟩

/-- A node with the keyspace `app` and its table `users-1a2b`, whose one data file belongs to
uid 5, gid 5. -/
def tableWorld : World where
  fs := FS.ofList
    [(["var"], .dir, rootMeta), (["var", "vcap"], .dir, rootMeta),
     (["var", "vcap", "store"], .dir, rootMeta), (["var", "vcap", "store", "cassandra"], .dir, rootMeta),
     (cleanPath defaultDataDir, .dir, rootMeta), (cleanPath defaultDataDir ++ ["app"], .dir, rootMeta),
     (cleanPath defaultDataDir ++ ["app", "users-1a2b"], .dir, rootMeta),
     (cleanPath defaultDataDir ++ ["app", "users-1a2b", "mc-1-big-Data.db"], .reg, ⟨5, 5, "rows"⟩)]
  cassandraDir := cleanPath defaultDataDir
  vcap := (1000, 1000)
  probeFindsMysqld := false
  stdin := []
  stdout := []

/-- On `tableWorld` with the default configuration, `Backup`, and `Restore` with nothing on
standard input, both get past the creation of the staging root and return nil; both runs meet
(a)–(c). -/
theorem backup_restore_cleanup_table :
    (tableWorld.run (backupWith defaultInfo)).1 = none ∧
    (fromCreation (tableWorld.run (backupWith defaultInfo)).2.1).head? = some ⟨.mkdirAll baseDir, none⟩ ∧
    ClearsOnceMore defaultBinDir (tableWorld.run (backupWith defaultInfo)).2.1 ∧
    RemovesStagingOnce (fun ev => ev.op = .exec (.clearSnapshot defaultBinDir) .inp)
      (tableWorld.run (backupWith defaultInfo)).2.1 ∧
    ReturnsFirstFailure (cleanPath defaultDataDir) defaultBinDir (tableWorld.run (backupWith defaultInfo)).2.1
      (tableWorld.run (backupWith defaultInfo)).1 ∧
    (tableWorld.run (restoreWith defaultInfo none)).1 = none ∧
    (fromCreation (tableWorld.run (restoreWith defaultInfo none)).2.1).head? = some ⟨.mkdirAll baseDir, none⟩ ∧
    RemovesStagingOnce (fun _ => False) (tableWorld.run (restoreWith defaultInfo none)).2.1 ∧
    ReturnsFirstFailure (cleanPath defaultDataDir) defaultBinDir (tableWorld.run (restoreWith defaultInfo none)).2.1
      (tableWorld.run (restoreWith defaultInfo none)).1 :=
  have hb := (backup_restore_cleanup defaultInfo none).1 _ _ (World.run_runs (backupWith defaultInfo) tableWorld)
  have hr := (backup_restore_cleanup defaultInfo none).2 _ _ (World.run_runs (restoreWith defaultInfo none) tableWorld)
  ⟨rfl, rfl, hb.1, hb.2.1, hb.2.2, rfl, rfl, hr.1, hr.2⟩

end Shield.Cassandra
