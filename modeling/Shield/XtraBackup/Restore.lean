import Shield.XtraBackup.Backup

/-!
# `XtraBackupPlugin.Restore`: the owner it gives, its wipe, and its early returns

What a run of `Restore` leaves, over every machine and whatever each step answers, and runs of
the model (`World.run`, whose runs are runs of the program on a consistent machine: `run_runs`,
`run_consistent`) on small machines:

* `restore_owns_datadir`: **when the probe for `mysqld` finds nothing and the data directory is a
  directory named with no `..` and no symbolic link on its path, a run of `Restore` that
  returns nil leaves every entry at or below the data directory that is no symbolic link with
  the owner and group the data directory had when `Restore` started**; the walk of
  `filepath.Walk` reaches every entry (`FS.walkChown_owner`), and the deferred removal of the
  target directory, even failing, only removes;
* `wipeDataDir_empties`: **for a data directory named by a rooted path with no meta character
  and no `..` or symbolic link on its path, that is a directory, the wipe changes nothing but
  what is strictly below the data directory, and when it returns nil it has removed all of
  that**; `filepath.Glob` lists the directory's entries (`FS.glob_star`);
* `restore_returns_nil_early`: when the probe finds a line, `Restore` returns nil after the probe
  alone; with a data directory that is a regular file, it returns nil after the `os.Lstat` of
  it; in neither run is `xtrabackup --move-back` issued;
* `restore_wipes_other_directory`: with the data directory `/data[1]` the wipe globs
  `/data[1]/*`, whose `[1]` is a character class: every run of it that returns nil has removed
  `/data1/x`, outside the data directory, and left `/data[1]/keep`;
* `restore_chowns_through_symlink`: the ownership walk over a data directory holding a symbolic
  link to `/etc/passwd`, as `--move-back` leaves one from a backup holding it, gives
  `/etc/passwd` the data directory's owner, since `syscall.Chown` follows the link, while the
  link keeps its own.
-/

namespace Shield.XtraBackup

open World Go

/-- An endpoint with the two required keys and the data directory `dataDir`. -/
def endpointAt (dataDir : String) : Endpoint := fun key =>
  if key = "mysql_user" then some (.str "root")
  else if key = "mysql_password" then some (.str "secret")
  else if key = "mysql_datadir" then some (.str dataDir)
  else none

/-- A machine with the entries `es`, the probe for `mysqld` finding a line or not, and the
archive `stdin` on standard input. -/
def machine (es : List (Path × Kind × Meta)) (probe : Bool) (stdin : Archive) : World :=
  ⟨FS.ofList es, [], (1000, 1000), probe, stdin, []⟩

/-- `/var/lib`, and in it `mysql` of kind `k`, owned by uid and gid 27. -/
def varLibMysql (k : Kind) : List (Path × Kind × Meta) :=
  [(["var"], .dir, rootMeta), (["var", "lib"], .dir, rootMeta),
   (["var", "lib", "mysql"], k, ⟨27, 27, ""⟩)]

/-! ## The owner of what is restored -/

section Owner

variable (x : XtraBackupEndpoint)

/-- Every entry at or below the data directory that is no symbolic link names an inode owned by
`o`. -/
def OwnedBelow (o : Nat × Nat) (w : World) : Prop :=
  ∀ q e, cleanPath x.dataDir <+: q → w.fs.lookup q = some e → (∀ t, e.kind ≠ .symlink t) →
    w.fs.owner e.ino = o

variable {x}

/-- A removal, whole or partial, keeps what `OwnedBelow` says. -/
theorem OwnedBelow.partlyRemoved {o : Nat × Nat} {w : World} (h : OwnedBelow x o w) {p : Path} {fs : FS}
    (hfs : w.fs.PartlyRemoved p fs) : OwnedBelow x o (w.withFs fs) := by
  intro q e hq he hk
  have := h q e hq (hfs.sub q e he) hk
  rwa [World.withFs_fs, FS.owner, hfs.meta]

variable (x)

/-- `Restore` from the wipe of the data directory on, with the owner `o` read from it: when it
returns nil, the walk has given every entry at or below the data directory that is no symbolic
link the owner `o`, and the removal of the target directory keeps that. -/
theorem restoreFiles_owner (o : Nat × Nat) :
    Triple (fun _ => True) (restoreFiles x o.1 o.2) fun r w => r = none → OwnedBelow x o w := by
  have hwalk : Triple (fun _ => True)
      (Prog.seqErr (walkChown (cleanPath x.dataDir) o.1 o.2) (removeAll (cleanPath x.targetDir)))
      fun r w => r = none → OwnedBelow x o w :=
    .seqErr ((Triple.walkChown _ _ _ fun r w => r = none → OwnedBelow x o w).mono
        (fun w _ hr q e hq he hk => ?_) fun _ _ h => h)
      ((Triple.removeAllOk _).mono
        (fun w hw _ => (hw rfl).partlyRemoved (FS.partlyRemoved_removeAll _)) fun _ _ h => h)
      fun _ _ _ h => nomatch h
  · have he : ∀ (e : GoError) (w : World), some e = none → OwnedBelow x o w := fun _ _ h => Option.noConfusion h
    exact .seqErr_any (.seqErr_any (.seqErr_any (.seqErr_any (.seqErr_any hwalk he) he) he) he) he
  · have he' : w.fs.lookup q = some e := by
      rwa [World.withFs_fs, FS.lookup, FS.entries_walkChown] at he
    exact FS.walkChown_owner hr hq he' hk

/-- What `Restore` knows of the data directory before its wipe: it is gone, or it is still the
entry `e₀` it was, with the owner `o`. -/
def DataDirKept (e₀ : Entry) (o : Nat × Nat) (w : World) : Prop :=
  w.fs.lookup (cleanPath x.dataDir) = none ∨
    (w.fs.lookup (cleanPath x.dataDir) = some e₀ ∧ w.fs.owner e₀.ino = o)

/-- A removal, whole or partial, keeps the data directory `e₀` and its owner `o`, unless it
removes it. -/
theorem DataDirKept.of_partlyRemoved {T : Path} {e₀ : Entry} {o : Nat × Nat} {w : World} {fs : FS}
    (h₀ : w.fs.lookup (cleanPath x.dataDir) = some e₀) (ho : w.fs.owner e₀.ino = o)
    (hfs : w.fs.PartlyRemoved T fs) : DataDirKept x e₀ o (w.withFs fs) := by
  cases he : fs.lookup (cleanPath x.dataDir) with
  | none => exact .inl he
  | some e =>
    obtain rfl : e = e₀ := Option.some.inj ((hfs.sub _ _ he).symm.trans h₀)
    exact .inr ⟨he, by rw [World.withFs_fs, FS.owner, hfs.meta]; exact ho⟩

/-- The removal of a stale target directory, whatever it answers, keeps the data directory `e₀`
and its owner `o`, unless it removes it. -/
theorem clearTarget_keeps {e₀ : Entry} {o : Nat × Nat} :
    Triple (fun w => w.fs.lookup (cleanPath x.dataDir) = some e₀ ∧ w.fs.owner e₀.ino = o)
      (clearTarget (cleanPath x.targetDir)) fun _ w => DataDirKept x e₀ o w := by
  refine .bind ((Triple.lstat _ fun _ w => w.fs.lookup (cleanPath x.dataDir) = some e₀ ∧
    w.fs.owner e₀.ino = o).mono (fun _ h => h) fun _ _ h => h) fun res => ?_
  rcases res with e | fi
  · exact .pure fun _ h => .inr h
  · exact .ite (fun _ => (Triple.removeAll_partly _ _).mono
      (fun w hw _ hfs => .of_partlyRemoved x hw.1 hw.2 hfs) fun _ _ h => h)
      fun _ => (Triple.remove_partly _ _).mono (fun w hw _ hfs => .of_partlyRemoved x hw.1 hw.2 hfs)
        fun _ _ h => h

/-- `Restore` from the `os.Lstat` of the data directory on: the owner `o` it reads is the one the
data directory kept. -/
theorem restoreData_owner {e₀ : Entry} (hk₀ : e₀.kind = .dir) (o : Nat × Nat) :
    Triple (DataDirKept x e₀ o) (restoreData x) fun r w => r = none → OwnedBelow x o w := by
  refine .bind ((Triple.lstat _ fun res _ => ∀ fi, res = .ok fi → fi.isDir = true ∧
      (fi.uid, fi.gid) = o).mono (fun w hw fi hfi => ?_) fun _ _ h => h) fun res => ?_
  · rcases hw with hn | ⟨he, ho⟩
    · simp [FS.lstat, hn] at hfi
    · simp only [FS.lstat, he, Except.ok.injEq] at hfi
      subst hfi
      exact ⟨by simp [FileInfo.isDir, FS.info, hk₀], ho⟩
  · rcases res with e | fi
    · exact .pure fun _ _ h => nomatch h
    · intro w t r w' hA hr hc
      obtain ⟨hd, ho⟩ := hA fi rfl
      simp only [hd, Bool.not_true, Bool.false_eq_true, if_false] at hr
      exact ho ▸ restoreFiles_owner x (fi.uid, fi.gid) True.intro hr hc

/-- `Restore` once the endpoint is loaded, with the probe for `mysqld` finding nothing and the
data directory the directory `e₀` owned by `o`. -/
theorem restoreWith_owner {e₀ : Entry} (hk₀ : e₀.kind = .dir) (o : Nat × Nat) :
    Triple (fun w => w.probeFindsMysqld = false ∧ w.fs.lookup (cleanPath x.dataDir) = some e₀ ∧
      w.fs.owner e₀.ino = o) (restoreWith x) fun r w => r = none → OwnedBelow x o w := by
  refine .bind ((Triple.exec _ _ fun r w => r ≠ none ∧ w.fs.lookup (cleanPath x.dataDir) = some e₀ ∧
      w.fs.owner e₀.ino = o).mono (fun w hw => ⟨fun w' h => ?_, fun e w' hw' => ⟨nofun, ?_⟩⟩)
      fun _ _ h => h) fun r => ?_
  · simp [Cmd.run, hw.1] at h
  · exact ⟨hw'.1.lookup hw.2.1 id, (hw'.1.owner_eq hw.2.1 id).trans hw.2.2⟩
  · rcases r with _ | e
    · exact .pure fun _ h => absurd rfl h.1
    exact .seqErr ((clearTarget_keeps x).mono (fun _ hw => hw.2) fun _ _ h => h)
      (.deferring (restoreData_owner x hk₀ o) fun _ =>
        (Triple.removeAll_partly _ _).mono (fun w hw _ hfs hr => (hw hr).partlyRemoved hfs) fun _ _ h => h)
      fun _ _ _ h => nomatch h

end Owner

/-- **The owner of what `Restore` leaves in the data directory.**  When the probe for `mysqld`
finds nothing (it answers only whether some process line holds `mysqld`) and the data directory,
named with no `..`, is a directory, a run of `Restore` that returns nil leaves every entry at or
below the data directory that is no symbolic link with the owner and group the data directory had
when `Restore` started.  A symbolic link keeps its own: the walk's `syscall.Chown` follows it. -/
theorem restore_owns_datadir (ep : Endpoint) {x : XtraBackupEndpoint}
    (hx : getXtraBackupEndpoint ep = .ok x) {w w' : World} {t : List Event}
    (hm : w.probeFindsMysqld = false) (_hP : w.fs.PlainPath x.dataDir)
    (hD : w.fs.isDir (cleanPath x.dataDir) = true)
    (h : Runs (restore ep) t none) (hc : Consistent w t w') {q : Path} {e : Entry}
    (hq : cleanPath x.dataDir <+: q) (he : w'.fs.lookup q = some e) (hk : ∀ s, e.kind ≠ .symlink s) :
    w'.fs.ownerOf q = w.fs.ownerOf (cleanPath x.dataDir) := by
  rw [restore, hx] at h
  obtain ⟨i, hi⟩ := FS.lookup_of_isDir hD
  have := restoreWith_owner x rfl (w.fs.owner i) ⟨hm, hi, rfl⟩ h hc rfl q e hq he hk
  simp only [FS.ownerOf, he, hi, Option.map_some']
  exact congrArg some this


/-- `/var/lib/mysql` owned by 27:27, the probe finding nothing, and on standard input a backup
holding one data file, `ibdata1`, owned by root. -/
def dataMachine : World := machine (varLibMysql .dir) false [(["ibdata1"], .reg, ⟨0, 0, "rows"⟩)]

theorem restore_owns_datadir_ibdata1 :
    getXtraBackupEndpoint (endpointAt defaultDataDir) =
        .ok ⟨"", defaultDataDir, "root", "secret", defaultXtrabackup, defaultTempTargetDir, defaultTar⟩ ∧
      dataMachine.probeFindsMysqld = false ∧ dataMachine.fs.PlainPath defaultDataDir ∧
      dataMachine.fs.isDir (cleanPath defaultDataDir) = true ∧
      Runs (restore (endpointAt defaultDataDir))
        (dataMachine.run (restore (endpointAt defaultDataDir))).2.1 none ∧
      Consistent dataMachine (dataMachine.run (restore (endpointAt defaultDataDir))).2.1
        (dataMachine.run (restore (endpointAt defaultDataDir))).2.2 ∧
      cleanPath defaultDataDir <+: cleanPath defaultDataDir ++ ["ibdata1"] ∧
      (dataMachine.run (restore (endpointAt defaultDataDir))).2.2.fs.lookup
        (cleanPath defaultDataDir ++ ["ibdata1"]) = some ⟨.reg, 7⟩ ∧
      (∀ s, Kind.reg ≠ .symlink s) ∧
      (dataMachine.run (restore (endpointAt defaultDataDir))).2.2.fs.ownerOf
        (cleanPath defaultDataDir ++ ["ibdata1"]) = dataMachine.fs.ownerOf (cleanPath defaultDataDir) :=
  have hx : getXtraBackupEndpoint (endpointAt defaultDataDir) =
      .ok ⟨"", defaultDataDir, "root", "secret", defaultXtrabackup, defaultTempTargetDir, defaultTar⟩ := rfl
  have hr : Runs (restore (endpointAt defaultDataDir))
      (dataMachine.run (restore (endpointAt defaultDataDir))).2.1 none := run_runs _ _
  have he : (dataMachine.run (restore (endpointAt defaultDataDir))).2.2.fs.lookup
      (cleanPath defaultDataDir ++ ["ibdata1"]) = some ⟨.reg, 7⟩ := rfl
  have hk : ∀ s, Kind.reg ≠ .symlink s := fun _ h => nomatch h
  have hm : dataMachine.probeFindsMysqld = false := rfl
  have hP : dataMachine.fs.PlainPath defaultDataDir := by decide
  have hD : dataMachine.fs.isDir (cleanPath defaultDataDir) = true := rfl
  ⟨hx, hm, hP, hD, hr, run_consistent _ _, List.prefix_append _ _, he, hk,
    restore_owns_datadir (endpointAt defaultDataDir) hx hm hP hD hr (run_consistent _ _)
      (List.prefix_append _ _) he hk⟩

/-! ## Early returns -/

/-- When the probe for `mysqld` finds a line, `Restore` returns the nil error of the successful
probe; with a data directory that `os.Lstat` reports as a regular file, it returns the nil error
of that `os.Lstat`.  Neither run reaches `xtrabackup --move-back`. -/
theorem restore_returns_nil_early :
    ((machine (varLibMysql .dir) true []).run (restore (endpointAt defaultDataDir))).1 = none ∧
    ((machine (varLibMysql .dir) true []).run (restore (endpointAt defaultDataDir))).2.1.map
        Event.op = [.exec .mysqldProbe .out] ∧
    ((machine (varLibMysql .reg) false []).run (restore (endpointAt defaultDataDir))).1 = none ∧
    ((machine (varLibMysql .reg) false []).run (restore (endpointAt defaultDataDir))).2.1.map
        Event.op =
      [.exec .mysqldProbe .out, .lstat (cleanPath defaultTempTargetDir),
       .lstat (cleanPath defaultDataDir), .removeAll (cleanPath defaultTempTargetDir)] :=
  ⟨rfl, rfl, rfl, rfl⟩

/-! ## The wipe of the data directory -/

section Wipe

variable (D : String) (w₀ : World)

/-- What the wipe may do to `w₀`, whatever each removal answers: remove entries strictly below the
data directory `D`, and nothing else. -/
def WipeFrame (w : World) : Prop :=
  Confined (fun q => cleanPath D <+: q ∧ q ≠ cleanPath D) none w₀.fs w.fs ∧
    ∀ q e, w.fs.lookup q = some e → w₀.fs.lookup q = some e

/-- What the wipe loop has done once it has removed the paths `done`: nothing is left at or below
any of them. -/
def Wiped (done : List String) (w : World) : Prop :=
  ∀ f ∈ done, ∀ q, cleanPath f <+: q → w.fs.lookup q = none

variable {D w₀}

/-- One turn of the wipe loop, on an entry of the data directory: whatever `os.RemoveAll`
answers, it removes only below the data directory. -/
theorem WipeFrame.step {n : String} (hn : n ∈ w₀.fs.entryNames (cleanPath D))
    (hroot : D.data.head? = some '/') :
    Triple (WipeFrame D w₀) (removeAll (cleanPath (goJoin D n))) fun _ => WipeFrame D w₀ := by
  obtain ⟨ne, hne, rfl⟩ := List.mem_map.1 hn
  rw [cleanPath_goJoin hroot (FS.validName_of_mem_children hne)]
  refine (Triple.removeAll_partly _ _).mono (fun w hw fs hfs => ⟨hw.1.trans ((Confined.partlyRemoved hfs).mono
    (fun q hq => ⟨(List.prefix_append _ _).trans hq, fun h => ?_⟩) fun _ h => h),
      fun q e he => hw.2 q e (hfs.sub q e he)⟩) fun _ _ h => h
  have := hq.length_le
  simp only [h, List.length_append, List.length_singleton] at this
  omega

/-- One turn of the wipe loop: when `os.RemoveAll` returns nil, nothing is left at or below its
path, nor below those removed before. -/
theorem Wiped.step (pre : List String) (f : String) :
    Triple (Wiped pre) (removeAll (cleanPath f)) fun r w => r = none → Wiped (pre ++ [f]) w := by
  refine (Triple.removeAllOk _).mono (fun w hw hr g hg q hq => ?_) fun _ _ h => h
  rcases List.mem_append.1 hg with hg | hg
  · cases he : (w.fs.removeAll (cleanPath f)).2.lookup q with
    | none => exact he
    | some e => simpa [hw g hg q hq] using (FS.removeAll_sub he).1
  · rw [List.mem_singleton.1 hg] at hq
    have hf : cleanPath f ≠ [] := by rintro h; simp [h, FS.removeAll] at hr
    exact FS.lookup_removeAll hf hq

/-- The whole loop over the paths `Glob` found leaves nothing below the data directory. -/
theorem Wiped.empty (hroot : D.data.head? = some '/') {w : World} (hf : WipeFrame D w₀ w)
    (h : Wiped ((sortStrings (w₀.fs.entryNames (cleanPath D))).map (goJoin D)) w)
    {q : Path} (hq : cleanPath D <+: q) (hne : q ≠ cleanPath D) : w.fs.lookup q = none := by
  cases he : w.fs.lookup q with
  | none => rfl
  | some e =>
    obtain ⟨rest, rfl⟩ := hq
    obtain ⟨n, rest, rfl⟩ := List.exists_cons_of_ne_nil (show rest ≠ [] from fun h => hne (by simp [h]))
    have hq₀ := hf.2 _ _ he
    obtain ⟨e', he'⟩ := Option.ne_none_iff_exists'.1 fun (hn : w₀.fs.lookup (cleanPath D ++ [n]) = none) =>
      absurd (FS.lookup_eq_none_below hn (List.prefix_append (cleanPath D ++ [n]) rest))
        (by simp [hq₀])
    have hc := FS.mem_children.2 he'
    have hn : n ∈ w₀.fs.entryNames (cleanPath D) := List.mem_map.2 ⟨_, hc, rfl⟩
    have := h (goJoin D n) (List.mem_map.2 ⟨n, mem_sortStrings.2 hn, rfl⟩) (cleanPath D ++ n :: rest)
      (by rw [cleanPath_goJoin hroot (FS.validName_of_mem_children hc)]; exact ⟨rest, by simp⟩)
    simp [he] at this

/-- The wipe from the machine `w₀`, whose data directory is a directory: whatever each removal
answers it removes only below the data directory, and when it returns nil it has removed every
path `Glob` found. -/
theorem wipeDataDir_spec (hroot : D.data.head? = some '/') (hm : hasMeta D.data = false)
    (hD : w₀.fs.isDir (cleanPath D) = true) :
    Triple (fun w => w = w₀) (wipeDataDir D) fun r w => WipeFrame D w₀ w ∧
      (r = none → Wiped ((sortStrings (w₀.fs.entryNames (cleanPath D))).map (goJoin D)) w) := by
  have hD0 : D ≠ "" := by rintro rfl; simp at hroot
  refine .bindErr ((Triple.glob _ fun res w =>
      res = .ok ((sortStrings (w₀.fs.entryNames (cleanPath D))).map (goJoin D)) ∧ w = w₀).mono
    (fun w hw => by subst hw; exact ⟨FS.glob_star hD0 hm hD, rfl⟩) fun _ _ h => h) (fun v => ?_)
    fun e w h => nomatch h.1
  refine (Triple.of_pure fun hv => ?_).mono (fun w h => ⟨h.1, h.2⟩) fun _ _ h => h
  cases hv
  refine (Triple.conj (Triple.forEach_inv fun f hf => ?_) (Triple.forEach Wiped.step _ [])).mono
    (fun w hw => ⟨by subst hw; exact ⟨Confined.refl _ _ _, fun _ _ h => h⟩, nofun⟩) fun _ _ h => h
  obtain ⟨n, hn, rfl⟩ := List.mem_map.1 hf
  exact WipeFrame.step (mem_sortStrings.1 hn) hroot

end Wipe

/-- **The wipe of the data directory.**  For a data directory named by a rooted path with no meta
character of `filepath.Match` and no `..` or symbolic link on its path, that is a directory, the wipe `Restore` makes, whatever
each removal answers, leaves the data directory itself and every entry beside it with their inode,
its contents and its owner; when it returns nil, nothing is left below the data directory. -/
theorem wipeDataDir_empties {D : String} (hroot : D.data.head? = some '/') (hm : hasMeta D.data = false)
    {w w' : World} {t : List Event} {r : Option GoError} (_hP : w.fs.PlainPath D)
    (hD : w.fs.isDir (cleanPath D) = true) (h : Runs (wipeDataDir D) t r) (hc : Consistent w t w') :
    (r = none → ∀ q, cleanPath D <+: q → q ≠ cleanPath D → w'.fs.lookup q = none) ∧
      Confined (fun q => cleanPath D <+: q ∧ q ≠ cleanPath D) none w.fs w'.fs := by
  obtain ⟨hf, hw⟩ := wipeDataDir_spec hroot hm hD rfl h hc
  exact ⟨fun hr q hq hne => Wiped.empty hroot hf (hw hr) hq hne, hf.1⟩

/-- `/var/lib/mysql` holding the file `ibdata1` and the directory `db` with the file `t.ibd`. -/
def fullDataDir : World :=
  machine (varLibMysql .dir ++ [(["var", "lib", "mysql", "ibdata1"], .reg, ⟨27, 27, "rows"⟩),
    (["var", "lib", "mysql", "db"], .dir, ⟨27, 27, ""⟩),
    (["var", "lib", "mysql", "db", "t.ibd"], .reg, ⟨27, 27, "t"⟩)]) false []

theorem wipeDataDir_empties_full :
    defaultDataDir.data.head? = some '/' ∧ hasMeta defaultDataDir.data = false ∧
      fullDataDir.fs.PlainPath defaultDataDir ∧ fullDataDir.fs.isDir (cleanPath defaultDataDir) = true ∧
      Runs (wipeDataDir defaultDataDir) (fullDataDir.run (wipeDataDir defaultDataDir)).2.1
        (fullDataDir.run (wipeDataDir defaultDataDir)).1 ∧
      Consistent fullDataDir (fullDataDir.run (wipeDataDir defaultDataDir)).2.1
        (fullDataDir.run (wipeDataDir defaultDataDir)).2.2 ∧
      (fullDataDir.run (wipeDataDir defaultDataDir)).1 = none ∧
      ((fullDataDir.run (wipeDataDir defaultDataDir)).1 = none → ∀ q, cleanPath defaultDataDir <+: q →
        q ≠ cleanPath defaultDataDir → (fullDataDir.run (wipeDataDir defaultDataDir)).2.2.fs.lookup q = none) ∧
      Confined (fun q => cleanPath defaultDataDir <+: q ∧ q ≠ cleanPath defaultDataDir) none
        fullDataDir.fs (fullDataDir.run (wipeDataDir defaultDataDir)).2.2.fs :=
  have hroot : defaultDataDir.data.head? = some '/' := rfl
  have hm : hasMeta defaultDataDir.data = false := rfl
  have hP : fullDataDir.fs.PlainPath defaultDataDir := by decide
  have hD : fullDataDir.fs.isDir (cleanPath defaultDataDir) = true := rfl
  ⟨hroot, hm, hP, hD, run_runs _ _, run_consistent _ _, rfl,
    wipeDataDir_empties hroot hm hP hD (run_runs _ _) (run_consistent _ _)⟩

/-! ## A data directory with a meta character -/

/-- The directory `/data[1]` holding `keep`, beside the directory `/data1` holding `x`. -/
def bracketFiles : List (Path × Kind × Meta) :=
  [(["data[1]"], .dir, ⟨27, 27, ""⟩), (["data[1]", "keep"], .reg, ⟨27, 27, "k"⟩),
   (["data1"], .dir, rootMeta), (["data1", "x"], .reg, ⟨0, 0, "x"⟩)]

/-- With the data directory `/data[1]`, a directory, the wipe of `Restore` returns nil when its
removal succeeds, and every run of it that returns nil has removed `/data1/x`, which is not in the
data directory, and left `/data[1]/keep`, which is. -/
theorem restore_wipes_other_directory :
    (machine bracketFiles false []).fs.isDir (cleanPath "/data[1]") = true ∧
    (machine bracketFiles false []).fs.lookup ["data1", "x"] = some ⟨.reg, 4⟩ ∧
    ((machine bracketFiles false []).run (wipeDataDir "/data[1]")).1 = none ∧
    Triple (fun w => w = machine bracketFiles false []) (wipeDataDir "/data[1]") fun r w =>
      r = none → w.fs.lookup ["data1", "x"] = none ∧ w.fs.lookup ["data[1]", "keep"] = some ⟨.reg, 2⟩ := by
  refine ⟨rfl, rfl, rfl, .bindErr ((Triple.glob _ fun res w => res = .ok ["/data1/x"] ∧
    w = machine bracketFiles false []).mono (fun w hw => ⟨hw ▸ rfl, hw⟩) fun _ _ h => h) (fun v => ?_)
    fun _ _ h => nomatch h.1⟩
  refine (Triple.of_pure fun hv => ?_).mono (fun w h => ⟨h.1, h.2⟩) fun _ _ h => h
  cases hv
  exact .seqErr ((Triple.removeAllOk _).mono (fun w hw _ => by subst hw; exact ⟨rfl, rfl⟩) fun _ _ h => h)
    (.pure fun _ h _ => h rfl) fun _ _ _ h => nomatch h

/-! ## The ownership walk -/

/-- The data directory beside `/etc/passwd`, owned by root, and in it a symbolic link `link` to
`/etc/passwd`, owned by root, as `--move-back` leaves one from a backup holding it. -/
def linkedFiles : List (Path × Kind × Meta) :=
  varLibMysql .dir ++ [(["etc"], .dir, rootMeta), (["etc", "passwd"], .reg, ⟨0, 0, "root"⟩),
    (["var", "lib", "mysql", "link"], .symlink "/etc/passwd", rootMeta)]

/-- The ownership walk of `Restore`, with the owner 27:27 read from the data directory, returns nil
over a data directory holding a symbolic link to `/etc/passwd`, having given `/etc/passwd`, outside
the data directory, the owner 27:27, while the link keeps root. -/
theorem restore_chowns_through_symlink :
    (machine linkedFiles false []).fs.ownerOf (cleanPath defaultDataDir) = some (27, 27) ∧
    (machine linkedFiles false []).fs.ownerOf ["etc", "passwd"] = some (0, 0) ∧
    ((machine linkedFiles false []).run (walkChown (cleanPath defaultDataDir) 27 27)).1 = none ∧
    ((machine linkedFiles false []).run (walkChown (cleanPath defaultDataDir) 27 27)).2.2.fs.ownerOf
        ["etc", "passwd"] = some (27, 27) ∧
    ((machine linkedFiles false []).run (walkChown (cleanPath defaultDataDir) 27 27)).2.2.fs.ownerOf
        ["var", "lib", "mysql", "link"] = some (0, 0) :=
  ⟨rfl, rfl, rfl, rfl, rfl⟩

end Shield.XtraBackup
