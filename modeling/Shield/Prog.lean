import Shield.Fs.Ops

/-!
# Plugin code as programs over external operations

The plugins' functions are written here as `Prog` values: trees whose nodes are the calls the
Go code makes (`Op`: a shell command through `plugin.Exec`, or an `os` call) and whose
branches are the code's reaction to each possible answer.  A run of such a program is a
trace of events, each an operation with the answer it got; `Runs p t a` says that `p` can
produce the trace `t` and return `a`.  Nothing constrains the answers, so a statement about
all runs holds whatever each command and each file-system call returns; `Shield.World`
narrows the answers to those a concrete file system gives.

The commands are `Cmd` values, printed by `Cmd.line` exactly as the `fmt.Sprintf` calls of
the source print them.  The Go idioms the plugins use are combinators:

* `seqErr x k` is `err = x(); if err != nil { return err }; k`, and `bindErr` the same for a
  call returning a value and an error;
* `forEach xs body` is a `for` loop whose body may `return err`;
* `deferring body cleanup` is `defer cleanup()` followed by `body`: the cleanup runs after
  the body whatever it returns, and its own error is dropped.
-/

namespace Shield

/-- The standard streams `plugin.Exec` connects to the command: the flags `plugin.STDIN`
and `plugin.STDOUT`, or the `Stdout: os.Stdout` of `plugin.ExecWithOptions`. -/
structure Pipe where
  stdin : Bool
  stdout : Bool
  deriving DecidableEq, Repr

/-- `plugin.STDIN`. -/
def Pipe.inp : Pipe := ⟨true, false⟩

/-- `plugin.STDOUT`, and `ExecWithOptions` with `Stdout: os.Stdout`. -/
def Pipe.out : Pipe := ⟨false, true⟩

/-- The shell commands the two plugins build. -/
inductive Cmd where
  /-- `nodetool clearsnapshot -t shield-backup`. -/
  | clearSnapshot (binDir : String)
  /-- `nodetool snapshot -t shield-backup`, then one quoted argument per keyspace. -/
  | snapshot (binDir : String) (keyspaces : List String)
  /-- `rm -rf "dir"`. -/
  | rmRf (dir : Path)
  /-- `chown -R vcap:vcap "dir"`. -/
  | chownVcap (dir : Path)
  /-- `tar -c -C dir -f - .`: the tree under `dir` on standard output. -/
  | tarCreate (tar : String) (dir : Path)
  /-- `tar -x -C dir -f -`: standard input unpacked under `dir`. -/
  | tarExtract (tar : String) (dir : Path)
  /-- `sstableloader`, loading the table directory `tableDir` into the cluster. -/
  | sstableloader (binDir user password host : String) (tableDir : Path)
  /-- The probe for `mysqld` in the process list: `ps -efw | grep -F mysqld | grep -vE 'grep|mysqld_'`. -/
  | mysqldProbe
  /-- `xtrabackup --backup`, with the value of `mysql_databases`. -/
  | xtrabackupBackup (bin targetDir dataDir databases user password : String)
  /-- `tar -cf - -C dir .`. -/
  | tarArchive (tar dir : String)
  /-- `mkdir -p dir`. -/
  | mkdirP (dir : String)
  /-- `tar -xf - -C dir`. -/
  | tarUnpack (tar dir : String)
  /-- `xtrabackup --prepare`. -/
  | xtrabackupPrepare (bin targetDir : String)
  /-- `xtrabackup --move-back`. -/
  | xtrabackupMoveBack (bin targetDir dataDir : String)
  deriving DecidableEq, Repr

/-- The name under which the cassandra plugin snapshots (`SnapshotName`). -/
def snapshotName : String := "shield-backup"

/-- The `dbs` argument `XtraBackupPlugin.Backup` gives `xtrabackup --backup`. -/
def dbsArg (databases : String) : String :=
  if databases = "" then "" else "--databases=\"" ++ databases ++ "\""

/-- The command line, as the plugins' `fmt.Sprintf` calls write it. -/
def Cmd.line : Cmd → String
  | .clearSnapshot b => b ++ "/nodetool clearsnapshot -t " ++ snapshotName
  | .snapshot b ks =>
    ks.foldl (fun cmd k => cmd ++ " \"" ++ k ++ "\"") (b ++ "/nodetool snapshot -t " ++ snapshotName)
  | .rmRf d => "rm -rf \"" ++ d.render ++ "\""
  | .chownVcap d => "chown -R vcap:vcap \"" ++ d.render ++ "\""
  | .tarCreate t d => t ++ " -c -C " ++ d.render ++ " -f - ."
  | .tarExtract t d => t ++ " -x -C " ++ d.render ++ " -f -"
  | .sstableloader b u pw h d =>
    b ++ "/sstableloader -u \"" ++ u ++ "\" -pw \"" ++ pw ++ "\" -d \"" ++ h ++ "\" \"" ++ d.render ++ "\""
  | .mysqldProbe => "bash -c \" ps -efw | grep -F mysqld | grep -vE 'grep|mysqld_' &> /dev/null \""
  | .xtrabackupBackup b t d dbs u pw =>
    b ++ " --backup --target-dir=" ++ t ++ " --datadir=" ++ d ++ " " ++ dbsArg dbs ++ " --user=" ++ u ++
      " --password=" ++ pw
  | .tarArchive t d => t ++ " -cf - -C " ++ d ++ " ."
  | .mkdirP d => "mkdir -p " ++ d
  | .tarUnpack t d => t ++ " -xf - -C " ++ d
  | .xtrabackupPrepare b t => b ++ " --prepare --target-dir=" ++ t
  | .xtrabackupMoveBack b t d => b ++ " --move-back --target-dir=" ++ t ++ " --datadir=" ++ d

/-- The external operations of the plugins. -/
inductive Op where
  /-- `plugin.Exec(c.line, pipe)` or `plugin.ExecWithOptions`, expecting exit code 0. -/
  | exec (c : Cmd) (pipe : Pipe)
  /-- `os.Lstat`. -/
  | lstat (p : Path)
  /-- `os.Open`. -/
  | openFile (p : Path)
  /-- `(*os.File).Readdir(-1)`. -/
  | readdir (h : Path)
  /-- `(*os.File).Close()`. -/
  | close (h : Path)
  /-- `os.Mkdir`. -/
  | mkdir (p : Path)
  /-- `os.MkdirAll`. -/
  | mkdirAll (p : Path)
  /-- `os.Link`. -/
  | link (src dst : Path)
  /-- `os.Remove`. -/
  | remove (p : Path)
  /-- `os.RemoveAll`. -/
  | removeAll (p : Path)
  /-- `filepath.Glob`. -/
  | glob (pattern : String)
  /-- `filepath.Walk(root, fn)` with a callback that `syscall.Chown`s each path it is given. -/
  | walkChown (root : Path) (uid gid : Nat)
  deriving DecidableEq, Repr

/-- What an operation answers. -/
def Op.Resp : Op → Type
  | .lstat _ => Except GoError FileInfo
  | .openFile _ => Except GoError Path
  | .readdir _ => Except GoError (List Dirent)
  | .glob _ => Except GoError (List String)
  | _ => Option GoError

/-- A program: a result, or an operation and what to do with each of its answers. -/
inductive Prog (α : Type) where
  | pure (a : α)
  | call (op : Op) (k : op.Resp → Prog α)

namespace Prog

/-- Sequencing: run `p`, then `f` on its result. -/
def bind {α β : Type} : Prog α → (α → Prog β) → Prog β
  | .pure a, f => f a
  | .call op k, f => .call op fun r => (k r).bind f

instance : Monad Prog where
  pure := .pure
  bind := bind

@[simp] theorem pure_eq {α : Type} (a : α) : (Pure.pure a : Prog α) = .pure a := rfl

@[simp] theorem bind_eq {α β : Type} (p : Prog α) (f : α → Prog β) : p >>= f = p.bind f := rfl

@[simp] theorem pure_bind {α β : Type} (a : α) (f : α → Prog β) : (Prog.pure a).bind f = f a := rfl

@[simp] theorem call_bind {α β : Type} (op : Op) (k : op.Resp → Prog α) (f : α → Prog β) :
    (Prog.call op k).bind f = .call op fun r => (k r).bind f := rfl

/-- Perform one operation and return its answer. -/
def perform (op : Op) : Prog op.Resp := .call op .pure

/-- `err := x(); if err != nil { return err }; k`. -/
def seqErr (x : Prog (Option GoError)) (k : Prog (Option GoError)) : Prog (Option GoError) :=
  x.bind fun
    | some e => .pure (some e)
    | none => k

/-- `v, err := x(); if err != nil { return err }; k v`. -/
def bindErr {β : Type} (x : Prog (Except GoError β)) (k : β → Prog (Option GoError)) :
    Prog (Option GoError) :=
  x.bind fun
    | .error e => .pure (some e)
    | .ok v => k v

/-- A `for` loop over a slice whose body may `return err`. -/
def forEach {β : Type} : List β → (β → Prog (Option GoError)) → Prog (Option GoError)
  | [], _ => .pure none
  | x :: xs, body => seqErr (body x) (forEach xs body)

/-- `defer cleanup()` followed by `body`. -/
def deferring {α β : Type} (body : Prog α) (cleanup : Prog β) : Prog α :=
  body.bind fun r => cleanup.bind fun _ => .pure r

end Prog

/-! ## The operations, typed -/

/-- `plugin.Exec(c.line, pipe)`. -/
def exec (c : Cmd) (pipe : Pipe) : Prog (Option GoError) := .call (.exec c pipe) .pure

/-- `os.Lstat(p)`. -/
def lstat (p : Path) : Prog (Except GoError FileInfo) := .call (.lstat p) .pure

/-- `os.Open(p)`. -/
def openFile (p : Path) : Prog (Except GoError Path) := .call (.openFile p) .pure

/-- `dir.Readdir(-1)`. -/
def readdir (h : Path) : Prog (Except GoError (List Dirent)) := .call (.readdir h) .pure

/-- `dir.Close()`. -/
def close (h : Path) : Prog (Option GoError) := .call (.close h) .pure

/-- `os.Mkdir(p, perm)`. -/
def mkdir (p : Path) : Prog (Option GoError) := .call (.mkdir p) .pure

/-- `os.MkdirAll(p, perm)`. -/
def mkdirAll (p : Path) : Prog (Option GoError) := .call (.mkdirAll p) .pure

/-- `os.Link(src, dst)`. -/
def link (src dst : Path) : Prog (Option GoError) := .call (.link src dst) .pure

/-- `os.Remove(p)`. -/
def remove (p : Path) : Prog (Option GoError) := .call (.remove p) .pure

/-- `os.RemoveAll(p)`. -/
def removeAll (p : Path) : Prog (Option GoError) := .call (.removeAll p) .pure

/-- `filepath.Glob(pattern)`. -/
def glob (pattern : String) : Prog (Except GoError (List String)) := .call (.glob pattern) .pure

/-- `filepath.Walk(root, …)` with the chown callback. -/
def walkChown (root : Path) (uid gid : Nat) : Prog (Option GoError) :=
  .call (.walkChown root uid gid) .pure

/-! ## Runs -/

/-- An operation with the answer it got. -/
structure Event where
  op : Op
  resp : op.Resp

/-- `Runs p t a`: the program `p` can issue the events `t`, in this order, and return `a`. -/
inductive Runs {α : Type} : Prog α → List Event → α → Prop
  | pure (a : α) : Runs (.pure a) [] a
  | call {op : Op} {k : op.Resp → Prog α} {t : List Event} {a : α} (r : op.Resp) :
      Runs (k r) t a → Runs (.call op k) (⟨op, r⟩ :: t) a

namespace Runs

variable {α β : Type}

theorem pure_iff {a b : α} {t : List Event} : Runs (.pure a) t b ↔ t = [] ∧ b = a := by
  constructor
  · rintro ⟨⟩; exact ⟨rfl, rfl⟩
  · rintro ⟨rfl, rfl⟩; exact .pure _

theorem call_iff {op : Op} {k : op.Resp → Prog α} {t : List Event} {a : α} :
    Runs (.call op k) t a ↔ ∃ r t', t = ⟨op, r⟩ :: t' ∧ Runs (k r) t' a := by
  constructor
  · rintro ⟨⟩; exact ⟨_, _, rfl, ‹_›⟩
  · rintro ⟨r, t', rfl, h⟩; exact .call r h

theorem bind_iff {p : Prog α} {f : α → Prog β} {t : List Event} {b : β} :
    Runs (p.bind f) t b ↔ ∃ t₁ t₂ a, t = t₁ ++ t₂ ∧ Runs p t₁ a ∧ Runs (f a) t₂ b := by
  induction p generalizing t with
  | pure a =>
    simp only [Prog.pure_bind, pure_iff]
    exact ⟨fun h => ⟨[], t, a, rfl, ⟨rfl, rfl⟩, h⟩, by rintro ⟨_, _, _, rfl, ⟨rfl, rfl⟩, h⟩; exact h⟩
  | call op k ih =>
    simp only [Prog.call_bind, call_iff, ih]
    constructor
    · rintro ⟨r, t', rfl, t₁, t₂, a, rfl, h₁, h₂⟩
      exact ⟨_ :: t₁, t₂, a, rfl, ⟨r, t₁, rfl, h₁⟩, h₂⟩
    · rintro ⟨_, t₂, a, rfl, ⟨r, t₁, rfl, h₁⟩, h₂⟩
      exact ⟨r, t₁ ++ t₂, rfl, t₁, t₂, a, rfl, h₁, h₂⟩

/-- A single operation issues one event, and returns its answer. -/
theorem op_iff {op : Op} {t : List Event} {r : op.Resp} :
    Runs (.call op .pure) t r ↔ t = [⟨op, r⟩] := by
  simp only [call_iff, pure_iff]
  constructor
  · rintro ⟨r', _, rfl, rfl, rfl⟩; rfl
  · rintro rfl; exact ⟨r, [], rfl, rfl, rfl⟩

theorem seqErr_iff {x k : Prog (Option GoError)} {t : List Event} {r : Option GoError} :
    Runs (Prog.seqErr x k) t r ↔
      (∃ e, Runs x t (some e) ∧ r = some e) ∨ ∃ t₁ t₂, t = t₁ ++ t₂ ∧ Runs x t₁ none ∧ Runs k t₂ r := by
  unfold Prog.seqErr
  rw [bind_iff]
  constructor
  · rintro ⟨t₁, t₂, (_ | e), rfl, h₁, h₂⟩
    · exact .inr ⟨t₁, t₂, rfl, h₁, h₂⟩
    · obtain ⟨rfl, rfl⟩ := pure_iff.1 h₂; exact .inl ⟨e, by simpa using h₁, rfl⟩
  · rintro (⟨e, h, rfl⟩ | ⟨t₁, t₂, rfl, h₁, h₂⟩)
    · exact ⟨t, [], some e, by simp, h, .pure _⟩
    · exact ⟨t₁, t₂, none, rfl, h₁, h₂⟩

/-- `seqErr` after one command: the command fails and its error is returned, or the rest runs. -/
theorem seqErr_exec {c : Cmd} {pipe : Pipe} {k : Prog (Option GoError)} {t : List Event}
    {r : Option GoError} (h : Runs (Prog.seqErr (exec c pipe) k) t r) :
    (∃ e, t = [⟨.exec c pipe, some e⟩] ∧ r = some e) ∨
      ∃ t', t = ⟨.exec c pipe, none⟩ :: t' ∧ Runs k t' r := by
  rcases seqErr_iff.1 h with ⟨e, h₁, rfl⟩ | ⟨t₁, t₂, rfl, h₁, h₂⟩
  · exact .inl ⟨e, op_iff.1 h₁, rfl⟩
  · rw [op_iff.1 h₁]; exact .inr ⟨t₂, rfl, h₂⟩

theorem deferring_iff {body : Prog α} {cleanup : Prog β} {t : List Event} {r : α} :
    Runs (Prog.deferring body cleanup) t r ↔
      ∃ t₁ t₂ b, t = t₁ ++ t₂ ∧ Runs body t₁ r ∧ Runs cleanup t₂ b := by
  unfold Prog.deferring
  simp only [bind_iff, pure_iff]
  constructor
  · rintro ⟨t₁, _, a, rfl, h₁, t₂, _, b, rfl, h₂, rfl, rfl⟩
    exact ⟨t₁, t₂, b, by simp, h₁, h₂⟩
  · rintro ⟨t₁, t₂, b, rfl, h₁, h₂⟩
    exact ⟨t₁, t₂, r, rfl, h₁, t₂, [], b, by simp, h₂, rfl, rfl⟩

end Runs

/-! ## Which operations a program issues -/

/-- On every branch, every operation `p` performs satisfies `S`. -/
inductive OnlyOps (S : Op → Prop) {α : Type} : Prog α → Prop
  | pure (a : α) : OnlyOps S (.pure a)
  | call {op : Op} {k : op.Resp → Prog α} : S op → (∀ r, OnlyOps S (k r)) → OnlyOps S (.call op k)

namespace OnlyOps

variable {S : Op → Prop} {α β : Type}

theorem bind {p : Prog α} {f : α → Prog β} (hp : OnlyOps S p) (hf : ∀ a, OnlyOps S (f a)) :
    OnlyOps S (p.bind f) := by
  induction hp with
  | pure a => exact hf a
  | call hop _ ih => exact .call hop ih

theorem events {p : Prog α} (hp : OnlyOps S p) {t : List Event} {a : α} (h : Runs p t a) :
    ∀ ev ∈ t, S ev.op := by
  induction h with
  | pure => simp
  | call r _ ih =>
    cases hp with
    | call hop hk => simpa [hop] using ih (hk r)

theorem op {o : Op} (h : S o) : OnlyOps S (.call o .pure) := .call h fun r => .pure r

theorem mono {T : Op → Prop} {p : Prog α} (hp : OnlyOps S p) (hST : ∀ o, S o → T o) :
    OnlyOps T p := by
  induction hp with
  | pure a => exact .pure a
  | call hop _ ih => exact .call (hST _ hop) ih

theorem ite {c : Prop} [Decidable c] {x y : Prog α} (hx : OnlyOps S x) (hy : OnlyOps S y) :
    OnlyOps S (if c then x else y) := by
  split
  · exact hx
  · exact hy

theorem seqErr {x k : Prog (Option GoError)} (hx : OnlyOps S x) (hk : OnlyOps S k) :
    OnlyOps S (Prog.seqErr x k) :=
  hx.bind fun r => by cases r <;> first | exact hk | exact .pure _

theorem bindErr {x : Prog (Except GoError β)} {k : β → Prog (Option GoError)} (hx : OnlyOps S x)
    (hk : ∀ v, OnlyOps S (k v)) : OnlyOps S (Prog.bindErr x k) :=
  hx.bind fun r => by cases r <;> first | exact hk _ | exact .pure _

theorem deferring {body : Prog α} {cleanup : Prog β} (hb : OnlyOps S body)
    (hc : OnlyOps S cleanup) : OnlyOps S (Prog.deferring body cleanup) :=
  hb.bind fun _ => hc.bind fun _ => .pure _

theorem forEach {xs : List β} {body : β → Prog (Option GoError)} (hb : ∀ x, OnlyOps S (body x)) :
    OnlyOps S (Prog.forEach xs body) := by
  induction xs with
  | nil => exact .pure _
  | cons x xs ih => exact seqErr (hb x) ih

end OnlyOps

end Shield
