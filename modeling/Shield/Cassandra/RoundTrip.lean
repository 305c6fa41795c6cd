import Shield.Cassandra.Staging
import Shield.Fs.Archive

/-!
# From `Backup` to `Restore`: each staged table is loaded once

`Backup` clears the staging root, stages the keyspaces its filter keeps and streams the staging
tree with `tar`; `Restore` clears the staging root, unpacks the archive there, and runs
`sstableloader` on each directory `K/T` below it whose keyspace its own filter keeps.

* `keeps_backupFilter`: `Backup` sorts the exclude list before it filters, and still
  skips the keyspaces `Restore` skips with the same `savedKeyspaces`;
* `backup_streams`: **a run of `Backup` that returns nil has written the archive of a staging
  tree whose top directories all name keyspaces its filter keeps**;
* `restore_loads`: **a run of `Restore` on a well-formed archive loads no table directory twice,
  only table directories of the archive whose keyspace it keeps, and, when it returns nil, all
  of them**;
* `restore_loads_backup`: **`Restore` run on what `Backup` streamed loads each table directory of
  the staged tree once, and nothing else**.
-/

namespace Shield.Cassandra

open World

/-! ## The keyspace filters -/

/-- The keyspaces the directory loops of `Backup` and `Restore` do not skip, with the
configuration `c` and `savedKeyspaces` equal to `saved`. -/
def keeps (c : CassandraInfo) (saved : Option (List String)) (K : String) : Bool :=
  !excludesKeyspace c.excludeKeyspaces saved K

/-- Sorting the exclude list changes no decision: with a nil `savedKeyspaces` the configuration
is left as it is, and otherwise only `savedKeyspaces` is read. -/
theorem keeps_backupFilter (c : CassandraInfo) :
    keeps (backupFilter c).2 (backupFilter c).1 = keeps c (backupFilter c).1 := by
  unfold keeps backupFilter
  split <;> rfl

/-! ## The staging tree `Backup` streams -/

/-- Nothing is strictly below the staging root. -/
def Cleared (fs : FS) : Prop := ∀ q, baseDir <+: q → q ≠ baseDir → fs.lookup q = none

/-- `rm -rf` then `os.MkdirAll` of the staging root leave nothing below it. -/
theorem cleared_mkdirAll (fs : FS) : Cleared ((fs.removeAll baseDir).2.mkdirAll baseDir).2 :=
  fun q hq hne => ((Grows.mkdirAll _ _).lookup_eq fun _ he =>
    hne (he.1.eq_of_length (le_antisymm he.1.length_le hq.length_le))).trans
    (FS.lookup_removeAll (by simp [baseDir]) hq)

/-- The directories directly below the staging root name keyspaces `keep` holds of. -/
def TopDirsKept (keep : String → Bool) (fs : FS) : Prop :=
  ∀ K i, fs.lookup (baseDir ++ [K]) = some ⟨.dir, i⟩ → keep K = true

/-- Where staging may add directories: below the staging directory of a kept keyspace, or on the
way to the staging root. -/
def StagingDir (keep : String → Bool) (q : Path) : Prop :=
  (∃ K, keep K = true ∧ baseDir ++ [K] <+: q) ∨ q <+: baseDir

theorem topDirsKept_of_grows {keep : String → Bool} {fs₀ fs : FS} (h₀ : Cleared fs₀)
    (hg : Grows (fun q e => e.kind = .dir → StagingDir keep q) fs₀ fs) : TopDirsKept keep fs := by
  intro K i hK
  rcases hg.2 _ _ hK (h₀ _ (List.prefix_append _ _) (by simp)) rfl with ⟨K', hK', hp⟩ | hp
  · rw [List.prefix_append_right_inj] at hp
    obtain rfl : K' = K := by simpa using hp
    exact hK'
  · exact absurd hp.length_le (by simp)

/-- The staged directory of a table lies below the keyspace's staging directory, or on the
way to the staging root: `tableName` may be `.` or `..`. -/
theorem stagedDir_around (b : Path) (K : String) {T : String} (hT : '/' ∉ T.data) {q : Path}
    (hq : q <+: stagedDir (b ++ [K]) T) : b ++ [K] <+: q ∨ q <+: b := by
  rcases prefix_stagedDir hT hq with hq | rfl
  · rcases List.prefix_concat_iff.1 hq with rfl | hq
    · exact .inl (List.prefix_refl _)
    · exact .inr hq
  · unfold stagedDir
    rw [Path.join_of_not_mem (tableName_noSlash hT)]
    rcases Path.push_cases (b ++ [K]) (tableName T) with h | h | h <;> rw [h]
    · exact .inl (List.prefix_refl _)
    · exact .inr (by simp)
    · exact .inl (List.prefix_append _ _)

theorem hardLinkAll_newDirs (D : Path → Prop) (srcDir dstDir : Path) :
    OnlyOps (fun o => o.Additive ∧ ∀ q, o.NewDir q → D q) (hardLinkAll srcDir dstDir) :=
  .bindErr (.op ⟨trivial, fun _ h => h.elim⟩) fun _ =>
    .deferring (.bindErr (.op ⟨trivial, fun _ h => h.elim⟩) fun _ =>
      .forEach fun _ => .ite (.pure _) (.op ⟨trivial, fun _ h => h.elim⟩)) (.op ⟨trivial, fun _ h => h.elim⟩)

/-- Staging the keyspace `K` only reads and adds, and adds directories only below `b/K` or on
the way to `b`. -/
theorem hardLinkKeyspace_newDirs (d b : Path) {K : String} (hK : ValidName K) :
    OnlyOps (fun o => o.Additive ∧ ∀ q, o.NewDir q → b ++ [K] <+: q ∨ q <+: b)
      (hardLinkKeyspace d b K) := by
  unfold hardLinkKeyspace
  rw [Path.join_validName _ hK, Path.join_validName _ hK]
  refine .seqErr (.op ⟨trivial, fun q hq => .inl (hq ▸ List.prefix_refl _)⟩) <|
    .bindErr (.op ⟨trivial, fun _ h => h.elim⟩) fun _ => .deferring
      (.bindErr (.op ⟨trivial, fun _ h => h.elim⟩) fun _ => .forEach fun x => ?_)
      (.op ⟨trivial, fun _ h => h.elim⟩)
  unfold linkTable
  refine .ite (.pure _) ((OnlyOps.op ⟨trivial, fun _ h => h.elim⟩).bind fun r => ?_)
  cases r with
  | error => exact .ite (.pure _) (.pure _)
  | ok =>
    exact .seqErr (.op ⟨trivial, fun q hq => stagedDir_around b K x.valid.2.2.2 hq⟩)
      (hardLinkAll_newDirs _ _ _)

theorem stageKeyspace_newDirs (c : CassandraInfo) (saved : Option (List String)) (x : Dirent) :
    OnlyOps (fun o => o.Additive ∧ ∀ q, o.NewDir q → StagingDir (keeps c saved) q)
      (stageKeyspace c saved x) := by
  unfold stageKeyspace
  split
  · exact .pure _
  split
  · exact .pure _
  rename_i hex
  refine (hardLinkKeyspace_newDirs _ _ x.valid).mono fun o ho => ⟨ho.1, fun q hq => ?_⟩
  exact (ho.2 q hq).imp_left fun h => ⟨x.name, by simpa [keeps] using hex, h⟩

section Backup

variable (c : CassandraInfo) (saved : Option (List String))

/-- The staging loop of `Backup`: each keyspace adds only directories `StagingDir` allows, and
standard output is untouched. -/
theorem stageKeyspace_spec (fs₀ : FS) (s₀ : List Archive) (x : Dirent) :
    Triple (fun w => w.stdout = s₀ ∧ Grows (fun q e => e.kind = .dir → StagingDir (keeps c saved) q) fs₀ w.fs)
      (stageKeyspace c saved x) fun r w => r = none →
        w.stdout = s₀ ∧ Grows (fun q e => e.kind = .dir → StagingDir (keeps c saved) q) fs₀ w.fs := by
  intro w t r w' hw hr hc _
  obtain ⟨heq, hg⟩ := grows_of_runs (stageKeyspace_newDirs c saved x) hr hc
  exact ⟨by rw [heq]; exact hw.1, hw.2.trans hg⟩

/-- `Backup` from the check of the data directory on, with nothing below the staging root: if it
returns nil, it has written the archive of a staging tree whose top directories are kept
keyspaces. -/
theorem backupStage_spec (fs₀ : FS) (s₀ : List Archive) (h₀ : Cleared fs₀) :
    Triple (fun w => w.fs = fs₀ ∧ w.stdout = s₀) (backupStage c saved) fun r w =>
      r = none → ∃ fs, TopDirsKept (keeps c saved) fs ∧ w.stdout = s₀ ++ [fs.archive baseDir] := by
  have hJ : ∀ w : World, w.fs = fs₀ ∧ w.stdout = s₀ →
      w.stdout = s₀ ∧ Grows (fun q e => e.kind = .dir → StagingDir (keeps c saved) q) fs₀ w.fs :=
    fun w h => ⟨h.2, h.1 ▸ .refl _ _⟩
  unfold backupStage
  refine .bindErr (Triple.lstat _ fun _ w => w.fs = fs₀ ∧ w.stdout = s₀) (fun _ => ?_)
    fun _ _ _ h => nomatch h
  refine .ite (fun _ => .pure fun _ _ h => nomatch h) fun _ => ?_
  refine .bindErr (Triple.openFile _ fun _ w => w.fs = fs₀ ∧ w.stdout = s₀)
    (fun _ => .deferring ?_ fun _ => Triple.close _ _) fun _ _ _ h => nomatch h
  refine .bindErr (Triple.readdir _ fun _ w => w.fs = fs₀ ∧ w.stdout = s₀) (fun l => ?_)
    fun _ _ _ h => nomatch h
  refine .seqErr (((Triple.forEach (fun _ => stageKeyspace_spec c saved fs₀ s₀) l []).mono
    (fun w h => hJ w h) fun _ _ h => h)) ?_ fun _ _ _ h => nomatch h
  refine .seqErr ((Triple.exec _ _ fun r w => r = none →
      w.stdout = s₀ ∧ TopDirsKept (keeps c saved) w.fs).mono (fun w h => ?_) fun _ _ h => h)
    (.seqErr ((Triple.exec _ _ fun r w => r = none →
      ∃ fs, TopDirsKept (keeps c saved) fs ∧ w.stdout = s₀ ++ [fs.archive baseDir]).mono
      (fun w h => ⟨fun w' hw' _ => ?_, fun _ _ _ h => nomatch h⟩) fun _ _ h => h)
      (.pure fun _ h _ => h rfl) fun _ _ _ h => nomatch h)
    fun _ _ _ h => nomatch h
  · obtain ⟨hs, hg⟩ := h rfl
    refine ⟨fun w' hw' _ => ?_, fun _ _ _ h => nomatch h⟩
    simp only [Cmd.run, Option.ite_none_right_eq_some, Option.some.injEq] at hw'
    obtain ⟨-, rfl⟩ := hw'
    refine ⟨hs, fun K i hK => topDirsKept_of_grows h₀ hg K i ?_⟩
    simpa using hK
  · obtain ⟨hs, hk⟩ := h rfl
    simp only [Cmd.run, Option.ite_none_right_eq_some, Option.some.injEq] at hw'
    obtain ⟨-, rfl⟩ := hw'
    exact ⟨w.fs, hk, by simp [World.emit, hs]⟩

/-- What a run of `Backup` has streamed: when it returned nil, the archive of a staging tree
whose top directories are keyspaces `keep` holds of, after `s₀`. -/
def Streamed (keep : String → Bool) (s₀ : List Archive) (r : Option GoError) (w : World) : Prop :=
  r = none → ∃ fs, TopDirsKept keep fs ∧ s₀ ++ [fs.archive baseDir] <+: w.stdout

/-- Standard output only grows: what was streamed stays streamed. -/
theorem streamed_step {keep : String → Bool} {s₀ : List Archive} {r : Option GoError} {w w' : World}
    {o : Op} {r' : o.Resp} (h : Streamed keep s₀ r w) (hs : w.Step o r' w') : Streamed keep s₀ r w' :=
  fun hr => (h hr).imp fun _ hk => ⟨hk.1, hk.2.trans (step_within hs).2.2.2.2.2⟩

/-- A command whose success leaves standard output as it was. -/
theorem exec_keeps_stdout {cmd : Cmd} (hcmd : ∀ w w', cmd.run w = some w' → w'.stdout = w.stdout)
    (pipe : Pipe) (s₀ : List Archive) :
    Triple (fun w => w.stdout = s₀) (exec cmd pipe) fun r w => r = none → w.stdout = s₀ :=
  (Triple.exec cmd pipe _).mono
    (fun w hw => ⟨fun w' h _ => (hcmd w w' h).trans hw, fun _ _ _ h => nomatch h⟩) fun _ _ h => h

theorem withStagingRoot_backup (s₀ : List Archive) :
    Triple (fun w => w.stdout = s₀) (withStagingRoot (backupStage c saved)) (Streamed (keeps c saved) s₀) := by
  unfold withStagingRoot
  refine .seqErr ((Triple.exec _ _ fun r w => r = none →
      w.stdout = s₀ ∧ ∃ fs : FS, w.fs = (fs.removeAll baseDir).2).mono
      (fun w hw => ⟨fun w' h _ => ?_, fun _ _ _ h => nomatch h⟩) fun _ _ h => h)
    (.seqErr ((Triple.mkdirAll baseDir fun r w => r = none → w.stdout = s₀ ∧ Cleared w.fs).mono
        (fun w h _ => ?_) fun _ _ h => h)
      (.deferring (Triple.ghost fun w₁ h₁ => ?_) fun _ => Triple.stable fun _ _ _ _ h hs => streamed_step h hs)
      fun _ _ _ h => nomatch h)
    fun _ _ _ h => nomatch h
  · simp only [Cmd.run, Option.ite_none_left_eq_some, Option.some.injEq] at h
    obtain ⟨-, rfl⟩ := h
    exact ⟨hw, w.fs, rfl⟩
  · obtain ⟨hs, fs, hfs⟩ := h rfl
    refine ⟨hs, ?_⟩
    rw [World.withFs_fs, hfs]
    exact cleared_mkdirAll fs
  · obtain ⟨hs, hcl⟩ := h₁ rfl
    refine (backupStage_spec c saved w₁.fs s₀ hcl).mono (fun w hw => by subst hw; exact ⟨rfl, hs⟩)
      fun _ _ h hr => ?_
    obtain ⟨fs, hk, hout⟩ := h hr
    exact ⟨fs, hk, hout ▸ List.prefix_refl _⟩

end Backup

/-- `Backup` once the configuration is loaded, from standard output `s₀`. -/
theorem backupWith_spec (c : CassandraInfo) (s₀ : List Archive) :
    Triple (fun v => v.stdout = s₀) (backupWith c) (Streamed (keeps c (backupFilter c).1) s₀) := by
  have hsnap : Triple (fun v => v.stdout = s₀) (backupSnapshot (backupFilter c).2 (backupFilter c).1)
      (Streamed (keeps (backupFilter c).2 (backupFilter c).1) s₀) :=
    .seqErr (@exec_keeps_stdout (.snapshot _ _) (fun _ _ h => by
        simp only [Cmd.run, Option.map_eq_some'] at h
        obtain ⟨_, -, rfl⟩ := h
        rfl) _ _)
      ((withStagingRoot_backup _ _ _).mono (fun _ h => h rfl) fun _ _ h => h) fun _ _ _ h => nomatch h
  rw [← keeps_backupFilter]
  exact .seqErr (@exec_keeps_stdout (.clearSnapshot c.binDir) (fun _ _ h => by cases h; rfl) _ _)
    ((Triple.deferring hsnap fun _ => Triple.stable fun _ _ _ _ h hs => streamed_step h hs).mono
      (fun _ h => h rfl) fun _ _ h => h)
    fun _ _ _ h => nomatch h

/-- **What `Backup` streams.**  A run of `Backup` with the configuration `c` that returns nil has
written, after what was on standard output, the archive of a staging tree each of whose top
directories names a keyspace that `Restore` keeps when it reads the `savedKeyspaces` of `Backup`. -/
theorem backup_streams (c : CassandraInfo) {w w' : World} {t : List Event}
    (h : Runs (backupWith c) t none) (hc : Consistent w t w') :
    ∃ fs, TopDirsKept (keeps c (backupFilter c).1) fs ∧ w.stdout ++ [fs.archive baseDir] <+: w'.stdout :=
  backupWith_spec c w.stdout rfl h hc rfl

/-- `Backup` with the default configuration returns nil on `tableWorld`. -/
theorem tableWorld_backup_runs :
    Runs (backupWith defaultInfo) (tableWorld.run (backupWith defaultInfo)).2.1 none :=
  run_runs _ _

theorem backup_streams_table :
    ∃ fs, TopDirsKept (keeps defaultInfo (backupFilter defaultInfo).1) fs ∧
      tableWorld.stdout ++ [fs.archive baseDir] <+: (tableWorld.run (backupWith defaultInfo)).2.2.stdout :=
  backup_streams defaultInfo tableWorld_backup_runs (run_consistent _ _)

/-! ## What `Restore` loads -/

/-- The table directory an operation loads: that of a run of `sstableloader`. -/
def tableLoaded : Op → Option Path
  | .exec (.sstableloader _ _ _ _ d) _ => some d
  | _ => none

/-- The table directories a trace loads, in order. -/
def loads (t : List Event) : List Path := t.filterMap fun ev => tableLoaded ev.op

@[simp] theorem loads_nil : loads [] = [] := rfl

@[simp] theorem loads_append (t₁ t₂ : List Event) : loads (t₁ ++ t₂) = loads t₁ ++ loads t₂ :=
  List.filterMap_append ..

@[simp] theorem loads_singleton (ev : Event) : loads [ev] = (tableLoaded ev.op).toList := by
  cases h : tableLoaded ev.op <;> simp [loads, h]

/-- The table directories of the keyspace directory `kd`: its directories, in directory order. -/
def tableDirs (fs : FS) (kd : Path) : List Path := (fs.dirNames kd).map fun T => kd ++ [T]

/-- The table directories `Restore` loads from the staging tree of `fs`, in the order it loads
them: those of each keyspace directory whose keyspace `keep` holds of. -/
def loadPlan (keep : String → Bool) (fs : FS) : List Path :=
  (fs.dirNames baseDir).flatMap fun K => if keep K then tableDirs fs (baseDir ++ [K]) else []

/-- The directories of a listing `l` of the directory `d`, by their paths. -/
def listedDirs (d : Path) (l : List Dirent) : List Path :=
  (l.filter Dirent.isDir).map fun x => d ++ [x.name]

/-- `loadPlan` for the keyspace directories of a listing `l` of the staging root. -/
def listedPlan (keep : String → Bool) (fs : FS) (l : List Dirent) : List Path :=
  ((l.filter Dirent.isDir).map (·.name)).flatMap fun K =>
    if keep K then tableDirs fs (baseDir ++ [K]) else []

section Listings

variable {fs : FS} {d : Path} {l : List Dirent}

@[simp] theorem listedDirs_append (d : Path) (u v : List Dirent) :
    listedDirs d (u ++ v) = listedDirs d u ++ listedDirs d v := by
  simp [listedDirs]

theorem listedDirs_eq (h : fs.readdir d = .ok l) : listedDirs d l = tableDirs fs d := by
  rw [tableDirs, ← FS.dirNames_of_readdir h, List.map_map]
  rfl

@[simp] theorem listedPlan_append (keep : String → Bool) (fs : FS) (u v : List Dirent) :
    listedPlan keep fs (u ++ v) = listedPlan keep fs u ++ listedPlan keep fs v := by
  simp [listedPlan]

theorem listedPlan_eq (keep : String → Bool) (h : fs.readdir baseDir = .ok l) :
    listedPlan keep fs l = loadPlan keep fs := by
  rw [listedPlan, FS.dirNames_of_readdir h, loadPlan]

/-- What the elements up to `x` of a listing contribute is a prefix of what all contribute. -/
theorem prefix_of_concat {α β : Type} {f : List α → List β} (hf : ∀ u v, f (u ++ v) = f u ++ f v)
    {pre post l : List α} {x : α} (h : pre ++ x :: post = l) : f (pre ++ [x]) <+: f l := by
  rw [← h, show pre ++ x :: post = pre ++ [x] ++ post by simp, hf (pre ++ [x]) post]
  exact List.prefix_append _ _

end Listings

/-- `defer dir.Close()`: closing changes nothing and loads nothing, so what the body establishes
holds after it. -/
theorem TraceTriple.deferring_close {α : Type} {P : World → Prop} {Q : α → List Event → World → Prop}
    {body : Prog α} {d : Path} (hb : TraceTriple P body Q)
    (hQ : ∀ a t w, Q a t w → Q a (t ++ [⟨.close d, none⟩]) w) :
    TraceTriple P (Prog.deferring body (close d)) Q :=
  hb.deferring fun a t => (TraceTriple.close d _).mono (fun w h => hQ a t w h) fun _ _ _ h => h

/-- **A loop that loads its elements' tables in turn.**  If each body, from the machine `w₁`,
loads a prefix of its element's part `F [x]`, and all of it when it returns nil, leaving `w₁` as
it was, then the loop loads a prefix of `F xs`, and all of it when it returns nil. -/
theorem forEach_loads {β : Type} {xs : List β} {body : β → Prog (Option GoError)} (w₁ : World)
    {F : List β → List Path} (hF : ∀ u v, F (u ++ v) = F u ++ F v)
    (hb : ∀ pre x post, pre ++ x :: post = xs → TraceTriple (fun w => w = w₁) (body x)
      fun r t w => loads t <+: F [x] ∧ (r = none → loads t = F [x] ∧ w = w₁)) :
    TraceTriple (fun w => w = w₁) (Prog.forEach xs body) fun r t w =>
      loads t <+: F xs ∧ (r = none → loads t = F xs ∧ w = w₁) := by
  have h0 : F [] = [] := by simpa using hF [] []
  refine (@TraceTriple.forEach _ _ _ (fun pre tp w => loads tp = F pre ∧ w = w₁)
    (fun _ t _ => loads t <+: F xs) fun pre x post tp hx => TraceTriple.of_pure fun ht =>
      (hb pre x post hx).mono (fun _ h => h) fun r t w h => ⟨fun hr => ?_, fun e _ => ?_⟩).mono
    (fun w hw => ⟨by rw [loads_nil, h0], hw⟩) fun r t w h => ?_
  · beta_reduce
    rw [loads_append, ht, hF, (h.2 hr).1]
    exact ⟨rfl, (h.2 hr).2⟩
  · beta_reduce
    rw [loads_append, ht]
    exact ((List.prefix_append_right_inj _).2 h.1).trans (hF pre [x] ▸ prefix_of_concat hF hx)
  · cases r with
    | none => exact ⟨(h.1 rfl).1 ▸ List.prefix_refl _, fun _ => h.1 rfl⟩
    | some e => exact ⟨h.2 e rfl, nofun⟩

/-- `restoreKeyspace` on a keyspace directory of the machine `w₁`: it loads a prefix of the
directory's table directories, all of them when it returns nil, and then leaves the machine as
it was. -/
theorem restoreKeyspace_spec (c : CassandraInfo) {kd : Path} (w₁ : World) (hkd : w₁.fs.isDir kd = true) :
    TraceTriple (fun w => w = w₁) (restoreKeyspace c kd) fun r t w =>
      loads t <+: tableDirs w₁.fs kd ∧ (r = none → loads t = tableDirs w₁.fs kd ∧ w = w₁) := by
  obtain ⟨l, hl⟩ : ∃ l, w₁.fs.readdir kd = .ok l := by
    unfold FS.readdir; rw [if_pos hkd]; exact ⟨_, rfl⟩
  have hb : ∀ x : Dirent, TraceTriple (fun w => w = w₁)
      (if !x.isDir then .pure none
        else exec (.sstableloader c.binDir c.user c.password c.host (kd.join x.name)) .inp)
      fun r t w => loads t <+: listedDirs kd [x] ∧ (r = none → loads t = listedDirs kd [x] ∧ w = w₁) := by
    intro x
    refine .ite (fun hd => .pure fun w hw => ?_) fun hd => ?_
    · simp only [Bool.not_eq_true'] at hd
      simp [listedDirs, hd, hw]
    · simp only [Bool.not_eq_true', Bool.not_eq_false] at hd
      have hload : tableLoaded (.exec (.sstableloader c.binDir c.user c.password c.host (kd.join x.name)) .inp) =
          some (kd ++ [x.name]) := by
        simp [tableLoaded, x.valid]
      refine (TraceTriple.exec _ _ _).mono (fun w hw => ⟨fun w' h => ?_, fun e w' _ => ?_⟩)
        fun _ _ _ h => h
      · cases h
        simp [listedDirs, hd, hload, hw]
      · simp [listedDirs, hd, hload]
  unfold restoreKeyspace
  refine .bindErr ((TraceTriple.openFile kd fun res t w => (res = .ok kd ∧ loads t = []) ∧ w = w₁).mono
      (fun w hw => by subst hw; exact ⟨⟨FS.openFile_of_isDir hkd, rfl⟩, rfl⟩) fun _ _ _ h => h)
    (fun v t₁ => TraceTriple.of_pure fun ⟨hv, ht₁⟩ => ?_) fun _ _ _ h => nomatch h.1.1
  cases hv
  refine TraceTriple.deferring_close (.bindErr ((TraceTriple.readdir kd fun res t w =>
      (res = .ok l ∧ loads t = []) ∧ w = w₁).mono
      (fun w hw => by subst hw; exact ⟨⟨hl, rfl⟩, rfl⟩) fun _ _ _ h => h)
    (fun v t₂ => TraceTriple.of_pure fun ⟨hv, ht₂⟩ => ?_) fun _ _ _ h => nomatch h.1.1)
    fun r t w h => by simpa [tableLoaded] using h
  cases hv
  exact (forEach_loads w₁ (listedDirs_append kd) fun _ x _ _ => hb x).mono (fun _ h => h)
    fun r t w h => by simpa only [loads_append, ht₁, ht₂, List.nil_append, ← listedDirs_eq hl] using h

/-- `Restore`'s loop over the staging root of the machine `w₁`: it loads a prefix of
`loadPlan`, all of it when it returns nil. -/
theorem restoreLoop_spec (c : CassandraInfo) (saved : Option (List String)) (w₁ : World)
    {l : List Dirent} (hl : w₁.fs.readdir baseDir = .ok l) :
    TraceTriple (fun w => w = w₁) (Prog.forEach l (loadKeyspace c saved)) fun r t _ =>
      loads t <+: loadPlan (keeps c saved) w₁.fs ∧ (r = none → loads t = loadPlan (keeps c saved) w₁.fs) := by
  refine (forEach_loads w₁ (listedPlan_append (keeps c saved) w₁.fs) fun pre x post hx => ?_).mono
    (fun _ h => h) fun r t w h => ?_
  · unfold loadKeyspace
    refine .ite (fun hd => .pure fun w hw => ?_) fun hd => ?_
    · simp only [Bool.not_eq_true'] at hd
      simp [listedPlan, hd, hw]
    refine .ite (fun he => .pure fun w hw => ?_) fun he => ?_
    · simp [listedPlan, keeps, he, hw]
    simp only [Bool.not_eq_true', Bool.not_eq_false] at hd
    have hk : keeps c saved x.name = true := by simpa [keeps] using he
    have hdir : w₁.fs.isDir (baseDir ++ [x.name]) = true := by
      obtain ⟨i, hi⟩ := (FS.exists_mem_readdir hl).1 ⟨x, by rw [← hx]; simp, rfl, by
        simpa [Dirent.isDir, FileInfo.isDir] using hd⟩
      exact FS.isDir_of_lookup hi
    rw [Path.join_validName _ x.valid]
    exact (restoreKeyspace_spec c w₁ hdir).mono (fun _ h => h) fun r t w h => by
      simpa [listedPlan, hd, hk] using h
  · rw [← listedPlan_eq _ hl]
    exact ⟨h.1, fun hr => (h.2 hr).1⟩

/-! ## The archive and what is loaded from it -/

/-- The table directories `Restore` loads, with the filter `keep`, from the archive `A`:
`K/T` below the staging root for each directory `K/T` of `A` whose keyspace `keep` holds of. -/
def ArchiveTable (keep : String → Bool) (A : Archive) (p : Path) : Prop :=
  ∃ K T m, p = baseDir ++ [K, T] ∧ ([K, T], Kind.dir, m) ∈ A ∧ keep K = true

/-- What a run of `Restore` that loaded `ls` did with the archive `A`: it loaded no table
directory twice, only table directories of `A`, and, if it returned nil, all of them. -/
def LoadsArchive (keep : String → Bool) (A : Archive) (r : Option GoError) (ls : List Path) : Prop :=
  ls.Nodup ∧ (∀ p ∈ ls, ArchiveTable keep A p) ∧ (r = none → ∀ p, ArchiveTable keep A p → p ∈ ls)

theorem loadsArchive_nil (keep : String → Bool) (A : Archive) (e : GoError) :
    LoadsArchive keep A (some e) [] :=
  ⟨List.nodup_nil, nofun, nofun⟩

theorem nodup_loadPlan (keep : String → Bool) (fs : FS) : (loadPlan keep fs).Nodup := by
  refine List.nodup_flatMap.2 ⟨fun K _ => ?_, (FS.nodup_dirNames _).imp fun {K K'} hne p hp hp' => ?_⟩
  · split
    · exact (FS.nodup_dirNames _).map fun T T' h => by simpa using h
    · exact List.nodup_nil
  · simp only [tableDirs] at hp hp'
    split at hp <;> split at hp' <;> simp only [List.mem_map, List.not_mem_nil] at hp hp'
    obtain ⟨T, -, rfl⟩ := hp
    obtain ⟨T', -, h⟩ := hp'
    have : K = K' ∧ T = T' := by simpa using h.symm
    exact hne this.1

/-- Unpacked from a well-formed archive, the staging tree's plan is the archive's tables. -/
theorem mem_loadPlan {keep : String → Bool} {A : Archive} {fs : FS} (hA : A.WF)
    (hu : FS.Unpacked baseDir A fs) {p : Path} : p ∈ loadPlan keep fs ↔ ArchiveTable keep A p := by
  have hdir : ∀ r, r ≠ [] → ((∃ i, fs.lookup (baseDir ++ r) = some ⟨.dir, i⟩) ↔
      ∃ m, (r, Kind.dir, m) ∈ A) := fun r hr => hu.kind hr .dir
  simp only [loadPlan, tableDirs, List.mem_flatMap, FS.mem_dirNames]
  constructor
  · rintro ⟨K, -, hp⟩
    split at hp
    · obtain ⟨T, hT, rfl⟩ := List.mem_map.1 hp
      rw [FS.mem_dirNames, List.append_assoc, List.singleton_append] at hT
      obtain ⟨m, hm⟩ := (hdir _ (by simp)).1 hT
      exact ⟨K, T, m, by simp, hm, ‹_›⟩
    · cases hp
  · rintro ⟨K, T, m, rfl, hm, hk⟩
    obtain ⟨m', hm'⟩ := hA.closed _ hm (by simp)
    refine ⟨K, (hdir [K] (by simp)).2 ⟨m', by simpa using hm'⟩, ?_⟩
    rw [if_pos hk]
    exact List.mem_map.2 ⟨T, FS.mem_dirNames.2 (by simpa using (hdir [K, T] (by simp)).2 ⟨m, hm⟩), by simp⟩

theorem loadsArchive_of_plan {keep : String → Bool} {A : Archive} {fs : FS} (hA : A.WF)
    (hu : FS.Unpacked baseDir A fs) {r : Option GoError} {ls : List Path} (hp : ls <+: loadPlan keep fs)
    (hn : r = none → ls = loadPlan keep fs) : LoadsArchive keep A r ls :=
  ⟨(nodup_loadPlan keep fs).sublist hp.sublist, fun _ h => (mem_loadPlan hA hu).1 (hp.subset h),
    fun hr _ h => hn hr ▸ (mem_loadPlan hA hu).2 h⟩

/-- `Restore` from the unpacking of the archive on, on a machine with nothing below the staging
root and the well-formed archive `A` on standard input. -/
theorem restoreLoad_spec (c : CassandraInfo) (saved : Option (List String)) {A : Archive} (hA : A.WF)
    (w₀ : World) (hin : w₀.stdin = A) (h₀ : Cleared w₀.fs) :
    TraceTriple (fun w => w = w₀) (restoreLoad c saved) fun r t _ =>
      LoadsArchive (keeps c saved) A r (loads t) := by
  unfold restoreLoad
  refine .seqErr ((TraceTriple.exec _ _ fun r t w => loads t = [] ∧ (r = none → FS.Unpacked baseDir A w.fs)).mono
      (fun w hw => ⟨fun w' h => ⟨rfl, fun _ => ?_⟩, fun _ _ _ => ⟨rfl, nofun⟩⟩) fun _ _ _ h => h)
    (fun t₁ => TraceTriple.of_pure fun ht₁ => TraceTriple.ghost fun w₁ hu => ?_)
    fun e t w h => by rw [h.1]; exact loadsArchive_nil _ _ e
  · subst hw
    simp only [Cmd.run, Option.ite_none_right_eq_some, Option.some.injEq] at h
    obtain ⟨hb, rfl⟩ := h
    rw [World.withFs_fs, hin]
    exact FS.extract_spec hA hb h₀
  have hb := (hu rfl).1
  obtain ⟨l, hl⟩ : ∃ l, w₁.fs.readdir baseDir = .ok l := by
    unfold FS.readdir; rw [if_pos hb]; exact ⟨_, rfl⟩
  refine .bindErr ((TraceTriple.openFile baseDir fun res t w => (res = .ok baseDir ∧ loads t = []) ∧ w = w₁).mono
      (fun w hw => by subst hw; exact ⟨⟨FS.openFile_of_isDir hb, rfl⟩, rfl⟩) fun _ _ _ h => h)
    (fun v t₂ => TraceTriple.of_pure fun ⟨hv, ht₂⟩ => ?_) fun _ _ _ h => nomatch h.1.1
  cases hv
  refine TraceTriple.deferring_close (.bindErr ((TraceTriple.readdir baseDir fun res t w =>
      (res = .ok l ∧ loads t = []) ∧ w = w₁).mono
      (fun w hw => by subst hw; exact ⟨⟨hl, rfl⟩, rfl⟩) fun _ _ _ h => h)
    (fun v t₃ => TraceTriple.of_pure fun ⟨hv, ht₃⟩ => ?_) fun _ _ _ h => nomatch h.1.1)
    fun r t w h => by simpa [tableLoaded] using h
  cases hv
  refine (restoreLoop_spec c saved w₁ hl).mono (fun _ h => h) fun r t _ h => ?_
  simp only [loads_append, ht₁, ht₂, ht₃, List.nil_append]
  exact loadsArchive_of_plan hA (hu rfl) h.1 h.2

/-- `Restore` once the configuration is loaded, on the archive `A`. -/
theorem restoreWith_spec (c : CassandraInfo) (saved : Option (List String)) {A : Archive} (hA : A.WF) :
    TraceTriple (fun w => w.stdin = A) (restoreWith c saved) fun r t _ =>
      LoadsArchive (keeps c saved) A r (loads t) := by
  unfold restoreWith withStagingRoot
  refine .seqErr ((TraceTriple.exec _ _ fun r t w => loads t = [] ∧
      (r = none → w.stdin = A ∧ ∃ fs : FS, w.fs = (fs.removeAll baseDir).2)).mono
      (fun w hw => ⟨fun w' h => ⟨rfl, fun _ => ?_⟩, fun _ _ _ => ⟨rfl, nofun⟩⟩) fun _ _ _ h => h)
    (fun t₁ => TraceTriple.of_pure fun ht₁ => ?_) fun e t w h => by rw [h.1]; exact loadsArchive_nil _ _ e
  · simp only [Cmd.run, Option.ite_none_left_eq_some, Option.some.injEq] at h
    obtain ⟨-, rfl⟩ := h
    exact ⟨hw, w.fs, rfl⟩
  refine .seqErr ((TraceTriple.mkdirAll baseDir fun r t w => loads t = [] ∧
      (r = none → w.stdin = A ∧ Cleared w.fs)).mono (fun w h => ⟨rfl, fun _ => ?_⟩) fun _ _ _ h => h)
    (fun t₂ => TraceTriple.of_pure fun ht₂ => ?_) fun e t w h => by
      rw [loads_append, ht₁, h.1]; exact loadsArchive_nil _ _ e
  · obtain ⟨hs, fs, hfs⟩ := h rfl
    refine ⟨hs, ?_⟩
    rw [World.withFs_fs, hfs]
    exact cleared_mkdirAll fs
  exact .deferring (TraceTriple.ghost fun w₀ h₀ => restoreLoad_spec c saved hA w₀ (h₀ rfl).1 (h₀ rfl).2)
    fun a t₃ => .op fun _ _ _ (h : LoadsArchive (keeps c saved) A a (loads t₃)) _ => by
      simpa [ht₁, ht₂, tableLoaded] using h

/-- **What `Restore` loads.**  Every run of `Restore` with the configuration `c`, reading `saved`
for `savedKeyspaces`, on a machine whose standard input is a well-formed archive `A`, whatever
each step answers, runs `sstableloader` on no directory twice, only on `baseDir/K/T` for a
directory `K/T` of `A` whose keyspace `K` it keeps, and, when it returns nil, on each of them. -/
theorem restore_loads (c : CassandraInfo) (saved : Option (List String)) {A : Archive} (hA : A.WF)
    {v v' : World} {t : List Event} {r : Option GoError} (hin : v.stdin = A)
    (h : Runs (restoreWith c saved) t r) (hc : Consistent v t v') :
    LoadsArchive (keeps c saved) A r (loads t) :=
  restoreWith_spec c saved hA hin h hc

/-- The staging tree of `tableWorld`'s backup: the keyspace `app` with its table `users`. -/
def stagedTree : FS := FS.ofList
  [(["var"], .dir, rootMeta), (["var", "vcap"], .dir, rootMeta),
   (["var", "vcap", "store"], .dir, rootMeta), (["var", "vcap", "store", "shield"], .dir, rootMeta),
   (baseDir, .dir, rootMeta), (baseDir ++ ["app"], .dir, rootMeta),
   (baseDir ++ ["app", "users"], .dir, rootMeta),
   (baseDir ++ ["app", "users", "mc-1-big-Data.db"], .reg, ⟨1000, 1000, "rows"⟩)]

/-- `tableWorld` with the archive of `stagedTree` on standard input. -/
def restoreWorld : World := { tableWorld with stdin := stagedTree.archive baseDir }

theorem restore_loads_staged :
    LoadsArchive (keeps defaultInfo none) (stagedTree.archive baseDir)
      (restoreWorld.run (restoreWith defaultInfo none)).1
      (loads (restoreWorld.run (restoreWith defaultInfo none)).2.1) :=
  restore_loads defaultInfo none (FS.archive_wf stagedTree baseDir) rfl (run_runs _ _) (run_consistent _ _)

example : loads (restoreWorld.run (restoreWith defaultInfo none)).2.1 = [baseDir ++ ["app", "users"]] := by
  rfl

/-! ## Backing up, then restoring -/

/-- **`Restore` loads what `Backup` staged, each table once.**  If a run of `Backup` with the
configuration `c` returns nil, it has streamed, after what was on standard output, the archive of
a staging tree `fs`; and every run of `Restore` with the same configuration, reading the
`savedKeyspaces` of `Backup`, on a machine whose standard input is that archive, whatever each
step answers, runs `sstableloader` on no directory twice, only on `baseDir/K/T` for a directory
`K/T` of the staged tree, and, when it returns nil, on each of them. -/
theorem restore_loads_backup (c : CassandraInfo) {w w' : World} {t : List Event}
    (hb : Runs (backupWith c) t none) (hbc : Consistent w t w') :
    ∃ fs : FS, w.stdout ++ [fs.archive baseDir] <+: w'.stdout ∧
      ∀ (v v' : World) (t' : List Event) (r : Option GoError), v.stdin = fs.archive baseDir →
        Runs (restoreWith c (backupFilter c).1) t' r → Consistent v t' v' →
        (loads t').Nodup ∧
        (∀ p ∈ loads t', ∃ K T i, p = baseDir ++ [K, T] ∧ fs.lookup (baseDir ++ [K, T]) = some ⟨.dir, i⟩) ∧
        (r = none → ∀ K T i, fs.lookup (baseDir ++ [K, T]) = some ⟨.dir, i⟩ → baseDir ++ [K, T] ∈ loads t') := by
  obtain ⟨fs, hkept, hout⟩ := backupWith_spec c w.stdout rfl hb hbc rfl
  have htable : ∀ p, ArchiveTable (keeps c (backupFilter c).1) (fs.archive baseDir) p ↔
      ∃ K T i, p = baseDir ++ [K, T] ∧ fs.lookup (baseDir ++ [K, T]) = some ⟨.dir, i⟩ := by
    intro p
    constructor
    · rintro ⟨K, T, m, rfl, hm, -⟩
      obtain ⟨r, e, -, he, hx⟩ := FS.mem_archive.1 hm
      simp only [Prod.mk.injEq] at hx
      obtain ⟨rfl, hk, -⟩ := hx
      exact ⟨K, T, e.ino, rfl, by rw [he, hk]⟩
    · rintro ⟨K, T, i, rfl, hi⟩
      have hi' : fs.lookup (baseDir ++ [K] ++ [T]) = some ⟨.dir, i⟩ := by simpa using hi
      have hK : fs.isDir (baseDir ++ [K]) = true := FS.isDir_of_lookup_append hi'
      obtain ⟨j, hj⟩ := FS.lookup_of_isDir hK
      exact ⟨K, T, fs.meta i, rfl, FS.mem_archive.2 ⟨[K, T], ⟨.dir, i⟩, by simp, hi, rfl⟩,
        hkept K j hj⟩
  refine ⟨fs, hout, fun v v' t' r hin hr hc => ?_⟩
  obtain ⟨hnd, hsound, hcomp⟩ := restoreWith_spec c _ (FS.archive_wf fs baseDir) hin hr hc
  exact ⟨hnd, fun p hp => (htable p).1 (hsound p hp),
    fun hr0 K T i hi => hcomp hr0 _ ((htable _).2 ⟨K, T, i, rfl, hi⟩)⟩

theorem restore_loads_backup_table :
    ∃ fs : FS, tableWorld.stdout ++ [fs.archive baseDir] <+:
        (tableWorld.run (backupWith defaultInfo)).2.2.stdout ∧
      ∀ (v v' : World) (t' : List Event) (r : Option GoError), v.stdin = fs.archive baseDir →
        Runs (restoreWith defaultInfo (backupFilter defaultInfo).1) t' r → Consistent v t' v' →
        (loads t').Nodup ∧
        (∀ p ∈ loads t', ∃ K T i, p = baseDir ++ [K, T] ∧ fs.lookup (baseDir ++ [K, T]) = some ⟨.dir, i⟩) ∧
        (r = none → ∀ K T i, fs.lookup (baseDir ++ [K, T]) = some ⟨.dir, i⟩ → baseDir ++ [K, T] ∈ loads t') :=
  restore_loads_backup defaultInfo tableWorld_backup_runs (run_consistent _ _)

end Shield.Cassandra
