import Shield.Prog
import Shield.Endpoint

/-!
# The xtrabackup plugin

`src/unnamed/part_001`, function by function: `Validate`, `getXtraBackupEndpoint`, `Backup`
and `Restore`.  Paths reach the `os` calls as the configured strings; they are read with
`cleanPath`, as the kernel reads them from the root.

Two places are written as the source has them, not as the spec reads them:

* the probe for `mysqld` is `if err = Exec(...); err == nil { return err }`, so a
  successful probe makes `Restore` return nil;
* a data directory that `os.Lstat` reports as no directory makes `Restore` `return err`
  with `err` nil.
-/

namespace Shield.XtraBackup

/-- `XtraBackupEndpoint`. -/
structure XtraBackupEndpoint where
  databases : String
  dataDir : String
  user : String
  password : String
  bin : String
  targetDir : String
  tar : String
  deriving DecidableEq, Repr

/-- `DefaultTar`. -/
def defaultTar : String := "tar"
/-- `DefaultDataDir`. -/
def defaultDataDir : String := "/var/lib/mysql"
/-- `DefaultTempTargetDir`. -/
def defaultTempTargetDir : String := "/tmp/backups"
/-- `DefaultXtrabackup`. -/
def defaultXtrabackup : String := "/var/vcap/packages/shield-mysql/bin/xtrabackup"

/-- `getXtraBackupEndpoint(endpoint)`. -/
def getXtraBackupEndpoint (ep : Endpoint) : Except GoError XtraBackupEndpoint := do
  let user ← ep.stringValue "mysql_user"
  let password ← ep.stringValue "mysql_password"
  let databases ← ep.stringValueDefault "mysql_databases" ""
  let dataDir ← ep.stringValueDefault "mysql_datadir" defaultDataDir
  let targetDir ← ep.stringValueDefault "mysql_temp_targetdir" defaultTempTargetDir
  let xtrabackupBin ← ep.stringValueDefault "mysql_xtrabackup" defaultXtrabackup
  let tar ← ep.stringValueDefault "mysql_tar" defaultTar
  return ⟨databases, dataDir, user, password, xtrabackupBin, targetDir, tar⟩

/-! ## `Validate` -/

/-- One check of `Validate`: the accessor succeeded and, where the source rejects `""`
(`nonEmpty`), the value is not empty.  A failed check sets `fail`. -/
def fieldOk (r : Except GoError String) (nonEmpty : Bool) : Bool :=
  match r with
  | .error _ => false
  | .ok s => !(nonEmpty && s == "")

/-- The error `Validate` returns when a check failed. -/
def invalidConfiguration : GoError := .msg "xtrabackup: invalid configuration"

/-- `XtraBackupPlugin.Validate(endpoint)`: the seven checks, in the source's order. -/
def validate (ep : Endpoint) : Option GoError :=
  let ok :=
    fieldOk (ep.stringValue "mysql_user") false &&
    fieldOk (ep.stringValue "mysql_password") false &&
    fieldOk (ep.stringValueDefault "mysql_databases" "") false &&
    fieldOk (ep.stringValueDefault "mysql_datadir" defaultDataDir) true &&
    fieldOk (ep.stringValueDefault "mysql_xtrabackup" defaultXtrabackup) true &&
    fieldOk (ep.stringValueDefault "mysql_temp_targetdir" defaultTempTargetDir) true &&
    fieldOk (ep.stringValueDefault "mysql_tar" defaultTar) true
  if ok then none else some invalidConfiguration

/-! ## `Backup` -/

/-- The removal of a stale target directory that `Backup` and `Restore` both open with: when
`os.Lstat` succeeds, `os.RemoveAll` a directory and `os.Remove` anything else. -/
def clearTarget (dir : Path) : Prog (Option GoError) :=
  (lstat dir).bind fun
    | .error _ => .pure none
    | .ok fi => if fi.isDir then removeAll dir else remove dir

/-- `Backup` after the stale target directory is gone. -/
def backupFiles (x : XtraBackupEndpoint) : Prog (Option GoError) :=
  Prog.seqErr
    (exec (.xtrabackupBackup x.bin x.targetDir x.dataDir x.databases x.user x.password) .out) <|
  Prog.seqErr (exec (.tarArchive x.tar x.targetDir) .out) <|
  removeAll (cleanPath x.targetDir)

/-- `XtraBackupPlugin.Backup` once the endpoint is loaded. -/
def backupWith (x : XtraBackupEndpoint) : Prog (Option GoError) :=
  Prog.seqErr (clearTarget (cleanPath x.targetDir)) <|
  Prog.deferring (backupFiles x) (removeAll (cleanPath x.targetDir))

/-- `XtraBackupPlugin.Backup(endpoint)`. -/
def backup (ep : Endpoint) : Prog (Option GoError) :=
  match getXtraBackupEndpoint ep with
  | .error e => .pure (some e)
  | .ok x => backupWith x

/-! ## `Restore` -/

/-- The wipe of the data directory `Restore` makes: `filepath.Glob(dataDir + "/*")`, then
`os.RemoveAll` of each path found. -/
def wipeDataDir (dataDir : String) : Prog (Option GoError) :=
  Prog.bindErr (glob (dataDir ++ "/*")) fun files =>
  Prog.forEach files fun f => removeAll (cleanPath f)

/-- `Restore` from the wipe of the data directory on, with the owner `uid`, `gid` read from it. -/
def restoreFiles (x : XtraBackupEndpoint) (uid gid : Nat) : Prog (Option GoError) :=
  Prog.seqErr (wipeDataDir x.dataDir) <|
  Prog.seqErr (exec (.mkdirP x.targetDir) .out) <|
  Prog.seqErr (exec (.tarUnpack x.tar x.targetDir) .inp) <|
  Prog.seqErr (exec (.xtrabackupPrepare x.bin x.targetDir) .out) <|
  Prog.seqErr (exec (.xtrabackupMoveBack x.bin x.targetDir x.dataDir) .out) <|
  Prog.seqErr (walkChown (cleanPath x.dataDir) uid gid) <|
  removeAll (cleanPath x.targetDir)

/-- `Restore` from the check of the data directory on: a data directory that is no directory
ends the function with the nil `err` of the successful `os.Lstat`. -/
def restoreData (x : XtraBackupEndpoint) : Prog (Option GoError) :=
  (lstat (cleanPath x.dataDir)).bind fun
    | .error e => .pure (some e)
    | .ok fi => if !fi.isDir then .pure none else restoreFiles x fi.uid fi.gid

/-- `XtraBackupPlugin.Restore` once the endpoint is loaded: a successful probe for `mysqld`
returns its nil error. -/
def restoreWith (x : XtraBackupEndpoint) : Prog (Option GoError) :=
  (exec .mysqldProbe .out).bind fun
    | none => .pure none
    | some _ =>
      Prog.seqErr (clearTarget (cleanPath x.targetDir)) <|
      Prog.deferring (restoreData x) (removeAll (cleanPath x.targetDir))

/-- `XtraBackupPlugin.Restore(endpoint)`. -/
def restore (ep : Endpoint) : Prog (Option GoError) :=
  match getXtraBackupEndpoint ep with
  | .error e => .pure (some e)
  | .ok x => restoreWith x

end Shield.XtraBackup
