import Shield.Prog
import Shield.Endpoint
import Shield.Go.Sort

/-!
# The cassandra plugin

`src/plugin/cassandra/plugin.go`, function by function.  `CassandraPlugin.Validate` checks each
key `cassandraInfo` loads, with the same accessors, but the exclude list under another key
(`cassandra_exclude_keyspace`).  `CassandraPlugin.Backup` clears a stale `shield-backup`
snapshot, takes a new one, stages the snapshot files of the selected keyspaces under
`/var/vcap/store/shield/cassandra` by hard links (`hardLinkKeyspace`, `hardLinkAll`), hands the
staging tree to `chown -R vcap:vcap` and streams it with `tar`; `CassandraPlugin.Restore`
unpacks an archive into the staging tree and runs `sstableloader` on each table directory
(`restoreKeyspace`).  Each Go function whose body registers a `defer` is split at that point,
so that the deferred call wraps the rest of the body.

Two places of the source are written as the source has them, not as the spec reads them:

* in `Backup` the result of `append(savedKeyspaces, keyspace)` is discarded, so
  `savedKeyspaces` stays the empty slice it was set to (`includeLoop`);
* `Restore` reads `savedKeyspaces`, which it does not declare; the value it sees is taken as
  a parameter of `restore`.
-/

namespace Shield.Cassandra

open Go

/-- `CassandraInfo`: the loaded configuration; `includeKeyspaces` is `none` for a nil slice. -/
structure CassandraInfo where
  host : String
  port : String
  user : String
  password : String
  includeKeyspaces : Option (List String)
  excludeKeyspaces : List String
  binDir : String
  dataDir : String
  tar : String
  deriving DecidableEq, Repr

/-- `DefaultHost`. -/
def defaultHost : String := "127.0.0.1"
/-- `DefaultPort`. -/
def defaultPort : String := "9042"
/-- `DefaultUser`. -/
def defaultUser : String := "cassandra"
/-- `DefaultPassword`. -/
def defaultPassword : String := "cassandra"
/-- `DefaultExcludeKeyspaces`, in the order of the source. -/
def defaultExcludeKeyspaces : List String :=
  ["system_schema", "system_distributed", "system_auth", "system", "system_traces"]
/-- `DefaultBinDir`. -/
def defaultBinDir : String := "/var/vcap/jobs/cassandra/bin"
/-- `DefaultDataDir`. -/
def defaultDataDir : String := "/var/vcap/store/cassandra/data"
/-- `DefaultTar`. -/
def defaultTar : String := "tar"

/-- `cassandraInfo(endpoint)`. -/
def cassandraInfo (ep : Endpoint) : Except GoError CassandraInfo := do
  let host ← ep.stringValueDefault "cassandra_host" defaultHost
  let port ← ep.stringValueDefault "cassandra_port" defaultPort
  let user ← ep.stringValueDefault "cassandra_user" defaultUser
  let password ← ep.stringValueDefault "cassandra_password" defaultPassword
  let includeKeyspace ← ep.arrayValueDefault "cassandra_include_keyspaces" none
  let excludeKeyspace ← ep.arrayValueDefault "cassandra_exclude_keyspaces" (some defaultExcludeKeyspaces)
  let bindir ← ep.stringValueDefault "cassandra_bindir" defaultBinDir
  let datadir ← ep.stringValueDefault "cassandra_datadir" defaultDataDir
  let tar ← ep.stringValueDefault "cassandra_tar" defaultTar
  return ⟨host, port, user, password, includeKeyspace, excludeKeyspace.getD [], bindir, datadir, tar⟩

/-- The configuration `cassandraInfo` loads from an endpoint that sets no key. -/
def defaultInfo : CassandraInfo :=
  ⟨defaultHost, defaultPort, defaultUser, defaultPassword, none, defaultExcludeKeyspaces,
    defaultBinDir, defaultDataDir, defaultTar⟩

example : cassandraInfo (fun _ => none) = .ok defaultInfo := rfl

/-! ## `Validate` -/

/-- The error `Validate` returns when a check failed. -/
def invalidConfiguration : GoError := .msg "cassandra: invalid configuration"

/-- `CassandraPlugin.Validate(endpoint)`: the nine checks, in the source's order, with the
source's defaults.  A check fails only when its accessor does; every value read is accepted.
The exclude list is read under `cassandra_exclude_keyspace`. -/
def validate (ep : Endpoint) : Option GoError :=
  let ok :=
    (ep.stringValueDefault "cassandra_host" "").isOk &&
    (ep.stringValueDefault "cassandra_port" "").isOk &&
    (ep.stringValueDefault "cassandra_user" "").isOk &&
    (ep.stringValueDefault "cassandra_password" "").isOk &&
    (ep.arrayValueDefault "cassandra_include_keyspaces" none).isOk &&
    (ep.arrayValueDefault "cassandra_exclude_keyspace" (some defaultExcludeKeyspaces)).isOk &&
    (ep.stringValueDefault "cassandra_bindir" "").isOk &&
    (ep.stringValueDefault "cassandra_datadir" "").isOk &&
    (ep.stringValueDefault "cassandra_tar" "").isOk
  if ok then none else some invalidConfiguration

/-- The staging root, `baseDir := "/var/vcap/store/shield/cassandra"`. -/
def baseDir : Path := ["var", "vcap", "store", "shield", "cassandra"]

/-- The error `Backup` returns when the data directory is not a directory. -/
def notADirectory : GoError := .msg "cassandra DataDir is not a directory"

/-- The block `Backup` and `Restore` both run before using the staging root: remove a stale
tree with `rm -rf`, `os.MkdirAll` the root, and `defer` the `rm -rf` of the root around
`body`, the rest of the function. -/
def withStagingRoot (body : Prog (Option GoError)) : Prog (Option GoError) :=
  Prog.seqErr (exec (.rmRf baseDir) .out) <|
  Prog.seqErr (mkdirAll baseDir) <|
  Prog.deferring body (exec (.rmRf baseDir) .out)

/-! ## The keyspace filter -/

/-- The loop over the include list in `Backup`: a keyspace found in the exclude list is
skipped, and for any other one `append(savedKeyspaces, keyspace)` is evaluated and its result
dropped, so the slice is returned as it came. -/
def includeLoop (excl saved : List String) : List String → List String
  | [] => saved
  | k :: ks => if searchHit excl k then includeLoop excl saved ks else includeLoop excl saved ks

/-- `savedKeyspaces` after `sort.Strings(savedKeyspaces)`, with the configuration after
`sort.Strings(cassandra.ExcludeKeyspaces)`, which sorts the exclude list in place. -/
def backupFilter (c : CassandraInfo) : Option (List String) × CassandraInfo :=
  match c.includeKeyspaces with
  | none => (none, c)
  | some inc =>
    let excl := sortStrings c.excludeKeyspaces
    (some (sortStrings (includeLoop excl [] inc)), { c with excludeKeyspaces := excl })

@[simp] theorem backupFilter_binDir (c : CassandraInfo) : (backupFilter c).2.binDir = c.binDir := by
  unfold backupFilter; split <;> rfl

@[simp] theorem backupFilter_dataDir (c : CassandraInfo) : (backupFilter c).2.dataDir = c.dataDir := by
  unfold backupFilter; split <;> rfl

/-- The test of the directory loops of `Backup` and `Restore` that skips a keyspace
("Excluding keyspace"): with a nil `savedKeyspaces` the keyspace is skipped when the search
of the exclude list hits it, otherwise when the search of `savedKeyspaces` misses it. -/
def excludesKeyspace (excl : List String) (saved : Option (List String)) (k : String) : Bool :=
  match saved with
  | none => searchHit excl k
  | some ks => !searchHit ks k

/-- The keyspace arguments of `nodetool snapshot`: one per element of a non-nil
`savedKeyspaces`. -/
def snapshotArgs : Option (List String) → List String
  | none => []
  | some ks => ks

/-! ## Staging by hard links -/

/-- `strings.LastIndex(s, "-")` on the characters of `s`; a `-` is one byte, so the index of
the characters before it is also `tableName[:idx]`'s byte bound. -/
def lastDash : List Char → Option Nat
  | [] => none
  | x :: xs =>
    match lastDash xs with
    | some i => some (i + 1)
    | none => if x = '-' then some 0 else none

/-- The table name `hardLinkKeyspace` stages a table directory under: its name up to the last
`-`, or the whole name when it has none. -/
def tableName (name : String) : String :=
  match lastDash name.data with
  | some i => ⟨name.data.take i⟩
  | none => name

/-- `hardLinkAll(srcDir, dstDir)`. -/
def hardLinkAll (srcDir dstDir : Path) : Prog (Option GoError) :=
  Prog.bindErr (openFile srcDir) fun dir =>
  Prog.deferring
    (Prog.bindErr (readdir dir) fun entries =>
      Prog.forEach entries fun info =>
        if info.isDir then .pure none else link (srcDir.join info.name) (dstDir.join info.name))
    (close dir)

/-- The body of `hardLinkKeyspace`'s loop for the table directory entry `info`. -/
def linkTable (srcKeyspaceDir tmpKeyspaceDir : Path) (info : Dirent) : Prog (Option GoError) :=
  if !info.isDir then .pure none
  else
    let srcDir := ((srcKeyspaceDir.join info.name).join "snapshots").join snapshotName
    (lstat srcDir).bind fun
      | .error e => if e.isNotExist then .pure none else .pure (some e)
      | .ok _ =>
        let dstDir := tmpKeyspaceDir.join (tableName info.name)
        Prog.seqErr (mkdirAll dstDir) (hardLinkAll srcDir dstDir)

/-- `hardLinkKeyspace(srcDataDir, dstBaseDir, keyspace)`. -/
def hardLinkKeyspace (srcDataDir dstBaseDir : Path) (keyspace : String) : Prog (Option GoError) :=
  Prog.seqErr (mkdir (dstBaseDir.join keyspace)) <|
  Prog.bindErr (openFile (srcDataDir.join keyspace)) fun dir =>
  Prog.deferring
    (Prog.bindErr (readdir dir) fun entries =>
      Prog.forEach entries (linkTable (srcDataDir.join keyspace) (dstBaseDir.join keyspace)))
    (close dir)

/-! ## `Backup` -/

/-- The body of `Backup`'s loop over the data directory for the entry `info`. -/
def stageKeyspace (c : CassandraInfo) (saved : Option (List String)) (info : Dirent) :
    Prog (Option GoError) :=
  if !info.isDir then .pure none
  else if excludesKeyspace c.excludeKeyspaces saved info.name then .pure none
  else hardLinkKeyspace (cleanPath c.dataDir) baseDir info.name

/-- `Backup` from the check of the data directory on: link, `chown`, stream. -/
def backupStage (c : CassandraInfo) (saved : Option (List String)) : Prog (Option GoError) :=
  Prog.bindErr (lstat (cleanPath c.dataDir)) fun info =>
  if !info.isDir then .pure (some notADirectory)
  else
    Prog.bindErr (openFile (cleanPath c.dataDir)) fun dir =>
    Prog.deferring
      (Prog.bindErr (readdir dir) fun entries =>
        Prog.seqErr (Prog.forEach entries (stageKeyspace c saved)) <|
        Prog.seqErr (exec (.chownVcap baseDir) .out) <|
        Prog.seqErr (exec (.tarCreate c.tar baseDir) .out) <|
        .pure none)
      (close dir)

/-- `Backup` from the new snapshot on. -/
def backupSnapshot (c : CassandraInfo) (saved : Option (List String)) : Prog (Option GoError) :=
  Prog.seqErr (exec (.snapshot c.binDir (snapshotArgs saved)) .inp) <|
  withStagingRoot (backupStage c saved)

/-- `Backup` once the configuration is loaded. -/
def backupWith (c : CassandraInfo) : Prog (Option GoError) :=
  Prog.seqErr (exec (.clearSnapshot c.binDir) .inp) <|
  let filtered := backupFilter c
  Prog.deferring (backupSnapshot filtered.2 filtered.1) (exec (.clearSnapshot c.binDir) .inp)

/-- `CassandraPlugin.Backup(endpoint)`. -/
def backup (ep : Endpoint) : Prog (Option GoError) :=
  match cassandraInfo ep with
  | .error e => .pure (some e)
  | .ok c => backupWith c

/-! ## `Restore` -/

/-- `restoreKeyspace(cassandra, keyspaceDirPath)`. -/
def restoreKeyspace (c : CassandraInfo) (keyspaceDirPath : Path) : Prog (Option GoError) :=
  Prog.bindErr (openFile keyspaceDirPath) fun dir =>
  Prog.deferring
    (Prog.bindErr (readdir dir) fun entries =>
      Prog.forEach entries fun info =>
        if !info.isDir then .pure none
        else exec (.sstableloader c.binDir c.user c.password c.host (keyspaceDirPath.join info.name)) .inp)
    (close dir)

/-- The body of `Restore`'s loop over the staging root for the entry `info`. -/
def loadKeyspace (c : CassandraInfo) (saved : Option (List String)) (info : Dirent) :
    Prog (Option GoError) :=
  if !info.isDir then .pure none
  else if excludesKeyspace c.excludeKeyspaces saved info.name then .pure none
  else restoreKeyspace c (baseDir.join info.name)

/-- `Restore` from the unpacking of the archive on. -/
def restoreLoad (c : CassandraInfo) (saved : Option (List String)) : Prog (Option GoError) :=
  Prog.seqErr (exec (.tarExtract c.tar baseDir) .inp) <|
  Prog.bindErr (openFile baseDir) fun dir =>
  Prog.deferring
    (Prog.bindErr (readdir dir) fun entries => Prog.forEach entries (loadKeyspace c saved))
    (close dir)

/-- `Restore` once the configuration is loaded, `saved` being the `savedKeyspaces` it reads. -/
def restoreWith (c : CassandraInfo) (saved : Option (List String)) : Prog (Option GoError) :=
  withStagingRoot (restoreLoad c saved)

/-- `CassandraPlugin.Restore(endpoint)`. -/
def restore (saved : Option (List String)) (ep : Endpoint) : Prog (Option GoError) :=
  match cassandraInfo ep with
  | .error e => .pure (some e)
  | .ok c => restoreWith c saved

end Shield.Cassandra
