import Shield.Cassandra.Ownership
import Shield.World.Triple

/-!
# What `hardLinkKeyspace` stages

`hardLinkKeyspace(srcDataDir, dstBaseDir, keyspace)` makes `dstBaseDir/keyspace` and, for each
directory `T` of the keyspace directory with an entry `snapshots/shield-backup`, the directory
`T` up to its last `-` (`tableName`), in which it hard-links each entry of the snapshot that
`Readdir` reports as no directory.

* `Staged` and `StagedLink`: the entries a run may add, read on the file system before it;
* `hardLinkAll_spec`, `linkTable_spec`, `hardLinkKeyspace_spec`: one snapshot's copy, one turn of
  the loop over the tables, and the whole function, as triples over consistent runs;
* `hardLinkKeyspace_stages`: **a run of `hardLinkKeyspace` that returns nil keeps every entry,
  adds only `Staged` entries, and adds every staged file**: the tree under
  `dstBaseDir/keyspace` is exactly the staged one;
* `hardLinkKeyspace_merges_tables`: that tree is not one directory per table holding only
  regular files: the tables `users-1` and `users-2` are both staged into `users`, and a symbolic
  link of a snapshot is staged as well.
-/

namespace Shield.Cassandra

open World

/-! ## The staged tree -/

/-- Where `hardLinkKeyspace` reads the snapshot of the table `T` of the keyspace directory `ks`. -/
def snapshotDir (ks : Path) (T : String) : Path := ks ++ [T, "snapshots", snapshotName]

/-- The directory `hardLinkKeyspace` stages the table `T` in, under `dst`. -/
def stagedDir (dst : Path) (T : String) : Path := dst.join (tableName T)

/-- A table `hardLinkKeyspace` stages: one with an entry `snapshots/shield-backup`. -/
def StagedTable (fs : FS) (ks : Path) (T : String) : Prop := (fs.lookup (snapshotDir ks T)).isSome

/-- A staged file: the name `f` in the staged directory of a table `T`, naming the entry `e` of
`f` in the snapshot of `T`, which is no directory. -/
def StagedLink (fs : FS) (ks dst q : Path) (e : Entry) : Prop :=
  ∃ T f, fs.lookup (snapshotDir ks T ++ [f]) = some e ∧ e.kind ≠ .dir ∧ q = stagedDir dst T ++ [f]

/-- The entries `hardLinkKeyspace` may add: `dst`, the staged directory of each staged table,
and the staged files. -/
def Staged (fs : FS) (ks dst q : Path) (e : Entry) : Prop :=
  (q = dst ∧ e.kind = .dir) ∨ (∃ T, StagedTable fs ks T ∧ q = stagedDir dst T ∧ e.kind = .dir) ∨
    StagedLink fs ks dst q e

/-- The staged files of the table `T` are all in `fs`. -/
def StagedFiles (fs₀ : FS) (ks dst : Path) (T : String) (fs : FS) : Prop :=
  ∀ f e, fs₀.lookup (snapshotDir ks T ++ [f]) = some e → e.kind ≠ .dir →
    fs.lookup (stagedDir dst T ++ [f]) = some e

theorem snapshotDir_eq {ks : Path} {T : String} (hT : ValidName T) :
    ((ks.join T).join "snapshots").join snapshotName = snapshotDir ks T := by
  simp [snapshotDir, hT, show ValidName "snapshots" by decide, show ValidName snapshotName by decide]

theorem prefix_snapshotDir (ks : Path) (T : String) (f : List String) : ks <+: snapshotDir ks T ++ f := by
  simp [snapshotDir]

theorem tableName_noSlash {T : String} (h : '/' ∉ T.data) : '/' ∉ (tableName T).data := by
  unfold tableName
  split
  · exact fun hm => h (List.mem_of_mem_take hm)
  · exact h

/-- A path above the staged directory of a table is above `dst`, or is that directory. -/
theorem prefix_stagedDir {dst q : Path} {T : String} (hT : '/' ∉ T.data) (h : q <+: stagedDir dst T) :
    q <+: dst ∨ q = stagedDir dst T := by
  unfold stagedDir at *
  rw [Path.join_of_not_mem (tableName_noSlash hT)] at *
  exact Path.prefix_push h

section Spec

variable {fs₀ : FS} {ks b : Path} {K : String}

/-- **Staging never writes into a snapshot it reads.**  With the keyspace directory `ks` not at
or above the staging root `b`, and nothing at `b/K` before, no staged entry lies in a snapshot of
`ks`: a staged path is `b/K`, a staged directory `b/K` joined with a table name (which may be
`b/K` itself or `b`), or a name in one, and none of these is below `ks` unless `ks` is `b/K`,
where nothing was. -/
theorem not_staged_snapshot (hd : ¬ ks <+: b) (hfree : fs₀.lookup (b ++ [K]) = none) (T : String)
    (f : List String) (e : Entry) : ¬ Staged fs₀ ks (b ++ [K]) (snapshotDir ks T ++ f) e := by
  have hks := prefix_snapshotDir ks T f
  have hlen : ks.length + 3 ≤ (snapshotDir ks T ++ f).length := by simp [snapshotDir]
  have above : ∀ {s : Path}, ks <+: s → ks.length < s.length →
      (s = b ++ [K] ∨ ∃ T', StagedTable fs₀ ks T' ∧ s = stagedDir (b ++ [K]) T') → False := by
    rintro s hs hlt (rfl | ⟨T', hT', rfl⟩)
    · exact (List.prefix_concat_iff.1 hs).elim (fun h => by rw [h] at hlt; omega) hd
    · obtain ⟨e', he'⟩ := Option.isSome_iff_exists.1 hT'
      have hv : ValidName T' := FS.validName_of_lookup he' (by simp [snapshotDir])
      rcases prefix_stagedDir hv.2.2.2 hs with hs | rfl
      · rcases List.prefix_concat_iff.1 hs with rfl | hs
        · have := FS.lookup_eq_none_below hfree (prefix_snapshotDir (b ++ [K]) T' [])
          rw [List.append_nil, he'] at this
          cases this
        · exact hd hs
      · exact lt_irrefl _ hlt
  rintro (⟨hq, -⟩ | ⟨T', hT', hq, -⟩ | ⟨T', f', he', -, hq⟩)
  · rw [hq] at hks hlen
    exact above hks (by omega) (.inl rfl)
  · rw [hq] at hks hlen
    exact above hks (by omega) (.inr ⟨T', hT', rfl⟩)
  · rw [hq] at hks hlen
    have hlt : ks.length < (stagedDir (b ++ [K]) T').length := by simp at hlen; omega
    have hs : ks <+: stagedDir (b ++ [K]) T' :=
      (List.prefix_concat_iff.1 hks).resolve_left fun h => by rw [h, List.length_append] at hlt; omega
    obtain ⟨i, hi⟩ := FS.lookup_of_isDir (FS.isDir_of_lookup_append he')
    exact above hs hlt (.inr ⟨T', by simp [StagedTable, hi], rfl⟩)

section Loops

variable (hdis : ∀ T f e, ¬ Staged fs₀ ks (b ++ [K]) (snapshotDir ks T ++ f) e)
include hdis

/-! ## One snapshot: `hardLinkAll` -/

/-- What the loop of `hardLinkAll` over the snapshot of `T` has done after the entries `pre`. -/
def LinkedFiles (fs₀ : FS) (ks dst : Path) (T : String) (pre : List Dirent) (fs : FS) : Prop :=
  Grows (Staged fs₀ ks dst) fs₀ fs ∧
    ∀ x ∈ pre, x.isDir = false → ∀ e, fs₀.lookup (snapshotDir ks T ++ [x.name]) = some e →
      fs.lookup (stagedDir dst T ++ [x.name]) = some e

theorem linkFile_spec (T : String) (pre : List Dirent) (x : Dirent) :
    Triple (fun w => LinkedFiles fs₀ ks (b ++ [K]) T pre w.fs)
      (if x.isDir then .pure none
        else link ((snapshotDir ks T).join x.name) ((stagedDir (b ++ [K]) T).join x.name))
      fun r w => r = none → LinkedFiles fs₀ ks (b ++ [K]) T (pre ++ [x]) w.fs := by
  refine .ite (fun hx => .pure fun w h _ => ⟨h.1, fun y hy hyd => ?_⟩) fun hx => ?_
  · rcases List.mem_append.1 hy with hy | hy
    · exact h.2 y hy hyd
    · rw [List.mem_singleton.1 hy, hx] at hyd
      cases hyd
  · rw [Path.join_validName _ x.valid, Path.join_validName _ x.valid]
    refine (Triple.link _ _ fun r w => r = none → LinkedFiles fs₀ ks (b ++ [K]) T (pre ++ [x]) w.fs).mono
      (fun w h hr => ?_) fun _ _ h => h
    have hsrc := h.1.lookup_eq (hdis T [x.name])
    obtain ⟨e, he, hnew⟩ := FS.lookup_link hr
    have hg := Grows.link w.fs (snapshotDir ks T ++ [x.name]) (stagedDir (b ++ [K]) T ++ [x.name])
    refine ⟨h.1.trans (hg.mono fun q e' ⟨hq, hs, hk⟩ => .inr (.inr ⟨T, x.name, hsrc ▸ hs, hk, hq⟩)),
      fun y hy hyd e' he' => ?_⟩
    rcases List.mem_append.1 hy with hy | hy
    · exact hg.lookup (h.2 y hy hyd e' he')
    · rw [List.mem_singleton.1 hy] at he' ⊢
      rw [hsrc, he'] at he
      cases he
      exact hnew

/-- `hardLinkAll` from the snapshot of `T` into its staged directory: a run that returns nil
stages every file of the snapshot, adding only staged entries. -/
theorem hardLinkAll_spec (T : String) :
    Triple (fun w => Grows (Staged fs₀ ks (b ++ [K])) fs₀ w.fs)
      (hardLinkAll (snapshotDir ks T) (stagedDir (b ++ [K]) T))
      fun r w => r = none → Grows (Staged fs₀ ks (b ++ [K])) fs₀ w.fs ∧
        StagedFiles fs₀ ks (b ++ [K]) T w.fs := by
  unfold hardLinkAll
  refine .bindErr ((Triple.openFile (snapshotDir ks T) fun res w =>
      (fs₀.isDir (snapshotDir ks T) = true → res = .ok (snapshotDir ks T)) ∧
        Grows (Staged fs₀ ks (b ++ [K])) fs₀ w.fs).mono
      (fun w hg => ⟨fun hd => FS.openFile_of_isDir (hg.isDir hd), hg⟩) fun _ _ h => h)
    (fun h => .deferring ?_ fun _ => Triple.close h _) fun _ _ _ hne => nomatch hne
  refine .bindErr ((Triple.readdir h fun res w =>
      (∀ l, res = .ok l → ∀ f e, fs₀.lookup (snapshotDir ks T ++ [f]) = some e → e.kind ≠ .dir →
        ∃ x ∈ l, x.name = f ∧ x.isDir = false) ∧ LinkedFiles fs₀ ks (b ++ [K]) T [] w.fs).mono
      (fun w ⟨hh, hg⟩ => ⟨fun l hl f e he hk => ?_, hg, fun _ h => nomatch h⟩) fun _ _ h => h)
    (fun l => ?_) fun _ _ _ hne => nomatch hne
  · cases hh (FS.isDir_of_lookup_append he)
    obtain ⟨x, hx, hxn, hxk⟩ := (FS.exists_mem_readdir hl).2 ⟨e.ino, hg.lookup he⟩
    exact ⟨x, hx, hxn, by simp [Dirent.isDir, FileInfo.isDir, hxk, hk]⟩
  · refine (Triple.of_pure fun hA => (Triple.forEach (linkFile_spec hdis T) l []).mono (fun _ h => h)
      fun r w h hr => ?_).mono (fun w h => ⟨h.1 l rfl, h.2⟩) fun _ _ h => h
    obtain ⟨hg, hl⟩ := h hr
    refine ⟨hg, fun f e he hk => ?_⟩
    obtain ⟨x, hx, rfl, hxd⟩ := hA f e he hk
    exact hl x (by simpa using hx) hxd e he

/-! ## One table: `linkTable` -/

/-- The table `T` is staged in `fs`: its staged directory is there when `T` has a snapshot, and so
is every staged file of it. -/
def TableStaged (fs₀ : FS) (ks dst : Path) (T : String) (fs : FS) : Prop :=
  (StagedTable fs₀ ks T → (fs.lookup (stagedDir dst T)).isSome) ∧ StagedFiles fs₀ ks dst T fs

/-- The turn of `hardLinkKeyspace`'s loop for the entry `x`: a run that returns nil adds only
staged entries and, for a directory, stages it. -/
theorem linkTable_core (x : Dirent) :
    Triple (fun w => Grows (Staged fs₀ ks (b ++ [K])) fs₀ w.fs ∧ w.fs.isDir (b ++ [K]) = true)
      (linkTable ks (b ++ [K]) x)
      fun r w => r = none → Grows (Staged fs₀ ks (b ++ [K])) fs₀ w.fs ∧
        (x.isDir = true → TableStaged fs₀ ks (b ++ [K]) x.name w.fs) := by
  unfold linkTable
  dsimp only
  rw [snapshotDir_eq x.valid]
  refine .ite (fun hx => .pure fun w h _ => ⟨h.1, fun hd => by simp [hd] at hx⟩) fun _ => ?_
  have hsrc : ∀ {fs : FS}, Grows (Staged fs₀ ks (b ++ [K])) fs₀ fs →
      fs.lookup (snapshotDir ks x.name) = fs₀.lookup (snapshotDir ks x.name) := fun hg => by
    simpa using hg.lookup_eq (hdis x.name [])
  refine .bind ((Triple.lstat (snapshotDir ks x.name) fun res w =>
      (Grows (Staged fs₀ ks (b ++ [K])) fs₀ w.fs ∧ w.fs.isDir (b ++ [K]) = true) ∧
        res = w.fs.lstat (snapshotDir ks x.name)).mono (fun w h => ⟨h, rfl⟩) fun _ _ h => h) fun
    | .error e => .ite (fun _ => .pure fun w ⟨⟨hg, _⟩, hres⟩ _ => ?_) fun _ => .pure fun _ _ h => nomatch h
    | .ok fi => ?_
  · have hnone : fs₀.lookup (snapshotDir ks x.name) = none := by
      rw [← hsrc hg]; exact FS.lookup_of_lstat_error hres.symm
    refine ⟨hg, fun _ => ⟨fun hT => by simp [StagedTable, hnone] at hT, fun f e' he' _ => ?_⟩⟩
    obtain ⟨i, hi⟩ := FS.lookup_of_isDir (FS.isDir_of_lookup_append he')
    rw [hnone] at hi
    cases hi
  · have hF : ∀ fs fs' : FS, (fs.lookup (stagedDir (b ++ [K]) x.name)).isSome →
        Confined (fun _ => False) none fs fs' → (fs'.lookup (stagedDir (b ++ [K]) x.name)).isSome :=
      fun _ _ h hc => hc.isSome_lookup id h
    refine .seqErr ((Triple.mkdirAll (stagedDir (b ++ [K]) x.name) fun r w =>
        r = none → Grows (Staged fs₀ ks (b ++ [K])) fs₀ w.fs ∧
          (w.fs.lookup (stagedDir (b ++ [K]) x.name)).isSome).mono
        (fun w ⟨⟨hg, hdst⟩, hres⟩ hr => ⟨hg.trans ((Grows.mkdirAll _ _).mono_new ?_), FS.lookup_mkdirAll hr⟩)
        fun _ _ h => h)
      (((hardLinkAll_spec hdis x.name).frame (hardLinkAll_additive _ _) hF).mono (fun _ h => h rfl)
        fun _ _ h hr => ⟨(h.1 hr).1, fun _ => ⟨fun _ => h.2, (h.1 hr).2⟩⟩)
      fun _ _ _ h => nomatch h
    rintro q e ⟨hq, hk⟩ hnew
    rcases prefix_stagedDir x.valid.2.2.2 hq with hq | rfl
    · obtain ⟨i, hi⟩ := FS.lookup_of_isDir (FS.isDir_above hdst hq)
      rw [hi] at hnew
      cases hnew
    · have hs := FS.lookup_of_lstat_ok hres.symm
      rw [hsrc hg] at hs
      exact .inr (.inl ⟨x.name, hs, rfl, hk⟩)

/-- What the loop of `hardLinkKeyspace` has done after the table entries `pre`. -/
def LinkedTables (fs₀ : FS) (ks dst : Path) (pre : List Dirent) (fs : FS) : Prop :=
  Grows (Staged fs₀ ks dst) fs₀ fs ∧ fs.isDir dst = true ∧
    ∀ x ∈ pre, x.isDir = true → TableStaged fs₀ ks dst x.name fs

theorem linkTable_spec (pre : List Dirent) (x : Dirent) :
    Triple (fun w => LinkedTables fs₀ ks (b ++ [K]) pre w.fs) (linkTable ks (b ++ [K]) x)
      fun r w => r = none → LinkedTables fs₀ ks (b ++ [K]) (pre ++ [x]) w.fs := by
  have hF : ∀ fs fs' : FS, (fs.isDir (b ++ [K]) = true ∧ ∀ y ∈ pre, y.isDir = true →
      TableStaged fs₀ ks (b ++ [K]) y.name fs) → Confined (fun _ => False) none fs fs' →
      fs'.isDir (b ++ [K]) = true ∧ ∀ y ∈ pre, y.isDir = true → TableStaged fs₀ ks (b ++ [K]) y.name fs' := by
    rintro fs fs' ⟨hd, hpre⟩ hc
    obtain ⟨i, hi⟩ := FS.lookup_of_isDir hd
    exact ⟨FS.isDir_of_lookup (hc.lookup hi id), fun y hy hyd =>
      ⟨fun hT => hc.isSome_lookup id ((hpre y hy hyd).1 hT), fun f e he hk => hc.lookup ((hpre y hy hyd).2 f e he hk) id⟩⟩
  refine ((linkTable_core hdis x).frame (linkTable_additive _ _ x) hF).mono
    (fun w h => ⟨⟨h.1, h.2.1⟩, h.2⟩) fun r w ⟨h, hd, hpre⟩ hr => ⟨(h hr).1, hd, fun y hy hyd => ?_⟩
  rcases List.mem_append.1 hy with hy | hy
  · exact hpre y hy hyd
  · rw [List.mem_singleton.1 hy] at hyd ⊢
    exact (h hr).2 hyd

end Loops

/-! ## The keyspace: `hardLinkKeyspace` -/

/-- `hardLinkKeyspace` on the file system `fs₀`, with the keyspace directory not at or above the
staging root: a run that returns nil has made `b/K`, adds only staged entries, and adds the staged
directory of every table with a snapshot and every staged file. -/
theorem hardLinkKeyspace_spec {d : Path} (hK : ValidName K) (hd : ¬ d ++ [K] <+: b) :
    Triple (fun w => w.fs = fs₀) (hardLinkKeyspace d b K) fun r w => r = none →
      Grows (Staged fs₀ (d ++ [K]) (b ++ [K])) fs₀ w.fs ∧ w.fs.isDir (b ++ [K]) = true ∧
        (∀ T, StagedTable fs₀ (d ++ [K]) T → (w.fs.lookup (stagedDir (b ++ [K]) T)).isSome) ∧
        ∀ q e, StagedLink fs₀ (d ++ [K]) (b ++ [K]) q e → w.fs.lookup q = some e := by
  unfold hardLinkKeyspace
  rw [Path.join_validName _ hK, Path.join_validName _ hK]
  refine .seqErr ((Triple.mkdir (b ++ [K]) fun r w => r = none → fs₀.lookup (b ++ [K]) = none ∧
      Grows (Staged fs₀ (d ++ [K]) (b ++ [K])) fs₀ w.fs ∧ w.fs.isDir (b ++ [K]) = true).mono
      (fun w hw hr => by
        subst hw
        exact ⟨FS.lookup_of_mkdir_ok hr, (Grows.mkdir _ _).mono fun q e h => .inl h, FS.isDir_mkdir hr⟩)
      fun _ _ h => h)
    ((Triple.of_pure fun hfree => ?_).mono (fun w h => h rfl) fun _ _ h => h) fun _ _ _ hne => nomatch hne
  have hdis := not_staged_snapshot hd hfree
  refine .bindErr ((Triple.openFile (d ++ [K]) fun res w =>
      (fs₀.isDir (d ++ [K]) = true → res = .ok (d ++ [K])) ∧
        Grows (Staged fs₀ (d ++ [K]) (b ++ [K])) fs₀ w.fs ∧ w.fs.isDir (b ++ [K]) = true).mono
      (fun w h => ⟨fun hd => FS.openFile_of_isDir (h.1.isDir hd), h⟩) fun _ _ h => h)
    (fun h => .deferring ?_ fun _ => Triple.close h _) fun _ _ _ hne => nomatch hne
  refine .bindErr ((Triple.readdir h fun res w =>
      (∀ l, res = .ok l → ∀ T, StagedTable fs₀ (d ++ [K]) T → ∃ x ∈ l, x.name = T ∧ x.isDir = true) ∧
        LinkedTables fs₀ (d ++ [K]) (b ++ [K]) [] w.fs).mono
      (fun w ⟨hh, hg, hdst⟩ => ⟨fun l hl T hT => ?_, hg, hdst, fun _ h => nomatch h⟩)
      fun _ _ h => h)
    (fun l => ?_) fun _ _ _ hne => nomatch hne
  · obtain ⟨e, he⟩ := Option.isSome_iff_exists.1 hT
    have hT' : fs₀.isDir (d ++ [K] ++ [T]) = true :=
      FS.isDir_of_lookup_below he ⟨["snapshots", snapshotName], by simp [snapshotDir]⟩ (by simp [snapshotDir])
    cases hh (FS.isDir_above hT' (List.prefix_append _ _))
    obtain ⟨i, hi⟩ := FS.lookup_of_isDir hT'
    obtain ⟨x, hx, hxn, hxk⟩ := (FS.exists_mem_readdir hl).2 ⟨i, hg.lookup hi⟩
    exact ⟨x, hx, hxn, by simp [Dirent.isDir, FileInfo.isDir, hxk]⟩
  · refine (Triple.of_pure fun hA => (Triple.forEach (linkTable_spec hdis) l []).mono (fun _ h => h)
      fun r w h hr => ?_).mono (fun w h => ⟨h.1 l rfl, h.2⟩) fun _ _ h => h
    obtain ⟨hg, hdst, hl⟩ := h hr
    have staged : ∀ T, StagedTable fs₀ (d ++ [K]) T → TableStaged fs₀ (d ++ [K]) (b ++ [K]) T w.fs := by
      intro T hT
      obtain ⟨x, hx, rfl, hxd⟩ := hA T hT
      exact hl x (by simpa using hx) hxd
    refine ⟨hg, hdst, fun T hT => (staged T hT).1 hT, fun q e ⟨T, f, he, hk, hq⟩ => ?_⟩
    obtain ⟨i, hi⟩ := FS.lookup_of_isDir (FS.isDir_of_lookup_append he)
    rw [hq]
    exact (staged T (by simp [StagedTable, hi])).2 f e he hk

end Spec

/-- **What a keyspace's staging leaves.**  If a run of `hardLinkKeyspace(d, b, K)` returns nil,
the keyspace directory `d/K` not at or above the staging root `b`, then every entry of the file
system before is kept, naming the same inode with the same contents and owner; `b/K` is a
directory; every entry added is `Staged`: `b/K`, the directory `b/K` joined with `tableName T` for
each table `T` with a snapshot, or in it a name `f` for an entry `f` of `T`'s snapshot that is no
directory, naming the same inode; the staged directory of every table with a snapshot is there,
and so is every such file.  Without the hypothesis on `d/K`, staging can write into a snapshot it
has still to read (the example after `hardLinkKeyspace_merges_tables`). -/
theorem hardLinkKeyspace_stages {d b : Path} {K : String} (hK : ValidName K) (hd : ¬ d ++ [K] <+: b)
    {w w' : World} {t : List Event} (h : Runs (hardLinkKeyspace d b K) t none) (hc : Consistent w t w') :
    Grows (Staged w.fs (d ++ [K]) (b ++ [K])) w.fs w'.fs ∧ w'.fs.isDir (b ++ [K]) = true ∧
      (∀ T, StagedTable w.fs (d ++ [K]) T → (w'.fs.lookup (stagedDir (b ++ [K]) T)).isSome) ∧
      ∀ q e, StagedLink w.fs (d ++ [K]) (b ++ [K]) q e → w'.fs.lookup q = some e :=
  hardLinkKeyspace_spec hK hd rfl h hc rfl

/-- A node with the keyspace `app` holding the tables `users-1` and `users-2`, each with a
snapshot: the first holds `a-Data.db` and a symbolic link `link` to it, the second `b-Data.db`;
and the parent of the staging root. -/
def stagingWorld : World where
  fs := FS.ofList
    [(["var"], .dir, rootMeta), (["var", "vcap"], .dir, rootMeta),
     (["var", "vcap", "store"], .dir, rootMeta), (["var", "vcap", "store", "cassandra"], .dir, rootMeta),
     (["var", "vcap", "store", "shield"], .dir, rootMeta), (baseDir, .dir, rootMeta),
     (cleanPath defaultDataDir, .dir, rootMeta), (cleanPath defaultDataDir ++ ["app"], .dir, rootMeta),
     (cleanPath defaultDataDir ++ ["app", "users-1"], .dir, rootMeta),
     (cleanPath defaultDataDir ++ ["app", "users-1", "snapshots"], .dir, rootMeta),
     (snapshotDir (cleanPath defaultDataDir ++ ["app"]) "users-1", .dir, rootMeta),
     (snapshotDir (cleanPath defaultDataDir ++ ["app"]) "users-1" ++ ["a-Data.db"], .reg, ⟨5, 5, "a"⟩),
     (snapshotDir (cleanPath defaultDataDir ++ ["app"]) "users-1" ++ ["link"], .symlink "a-Data.db", rootMeta),
     (cleanPath defaultDataDir ++ ["app", "users-2"], .dir, rootMeta),
     (cleanPath defaultDataDir ++ ["app", "users-2", "snapshots"], .dir, rootMeta),
     (snapshotDir (cleanPath defaultDataDir ++ ["app"]) "users-2", .dir, rootMeta),
     (snapshotDir (cleanPath defaultDataDir ++ ["app"]) "users-2" ++ ["b-Data.db"], .reg, ⟨5, 5, "b"⟩)]
  cassandraDir := cleanPath defaultDataDir
  vcap := (1000, 1000)
  probeFindsMysqld := false
  stdin := []
  stdout := []

theorem hardLinkKeyspace_stages_app :
    ValidName "app" ∧ ¬ cleanPath defaultDataDir ++ ["app"] <+: baseDir ∧
      Runs (hardLinkKeyspace (cleanPath defaultDataDir) baseDir "app")
        (stagingWorld.run (hardLinkKeyspace (cleanPath defaultDataDir) baseDir "app")).2.1 none ∧
      Consistent stagingWorld (stagingWorld.run (hardLinkKeyspace (cleanPath defaultDataDir) baseDir "app")).2.1
        (stagingWorld.run (hardLinkKeyspace (cleanPath defaultDataDir) baseDir "app")).2.2 ∧
      Grows (Staged stagingWorld.fs (cleanPath defaultDataDir ++ ["app"]) (baseDir ++ ["app"])) stagingWorld.fs
        (stagingWorld.run (hardLinkKeyspace (cleanPath defaultDataDir) baseDir "app")).2.2.fs := by
  have hr : Runs (hardLinkKeyspace (cleanPath defaultDataDir) baseDir "app")
      (stagingWorld.run (hardLinkKeyspace (cleanPath defaultDataDir) baseDir "app")).2.1 none :=
    run_runs _ stagingWorld
  exact ⟨by decide, by decide, hr, run_consistent _ _,
    (hardLinkKeyspace_stages (by decide) (by decide) hr (run_consistent _ _)).1⟩

/-- On `stagingWorld`, `hardLinkKeyspace` returns nil having staged both tables into the one
directory `users`, the symbolic link `link` among their files. -/
theorem hardLinkKeyspace_merges_tables :
    (stagingWorld.run (hardLinkKeyspace (cleanPath defaultDataDir) baseDir "app")).1 = none ∧
      tableName "users-1" = "users" ∧ tableName "users-2" = "users" ∧
      (stagingWorld.run (hardLinkKeyspace (cleanPath defaultDataDir) baseDir "app")).2.2.fs.lookup
          (baseDir ++ ["app", "users", "a-Data.db"]) = some ⟨.reg, 12⟩ ∧
      (stagingWorld.run (hardLinkKeyspace (cleanPath defaultDataDir) baseDir "app")).2.2.fs.lookup
          (baseDir ++ ["app", "users", "b-Data.db"]) = some ⟨.reg, 17⟩ ∧
      (stagingWorld.run (hardLinkKeyspace (cleanPath defaultDataDir) baseDir "app")).2.2.fs.lookup
          (baseDir ++ ["app", "users", "link"]) = some ⟨.symlink "a-Data.db", 13⟩ :=
  ⟨rfl, rfl, rfl, rfl, rfl, rfl⟩

/-- A keyspace directory `/snapshots` holding the table `shield-backup-1`, with a snapshot holding
`f`, and the table `t2`, without one. -/
def snapshotsWorld : World :=
  ⟨FS.ofList [(["snapshots"], .dir, rootMeta), (["snapshots", "shield-backup-1"], .dir, rootMeta),
    (["snapshots", "shield-backup-1", "snapshots"], .dir, rootMeta),
    (snapshotDir ["snapshots"] "shield-backup-1", .dir, rootMeta),
    (snapshotDir ["snapshots"] "shield-backup-1" ++ ["f"], .reg, rootMeta),
    (["snapshots", "t2"], .dir, rootMeta)], [], (1000, 1000), false, [], []⟩

/- Why `hardLinkKeyspace_stages` asks that `d/K` not be at or above the staging root: with
`d/K = /snapshots` and `b = /snapshots/t2`, the table `shield-backup-1` is staged into
`/snapshots/t2/snapshots/shield-backup`, which is where the loop then finds a snapshot of the table
`t2`, which had none; `t2` is staged too. -/
example :
    (snapshotsWorld.run (hardLinkKeyspace [] ["snapshots", "t2"] "snapshots")).1 = none ∧
      snapshotsWorld.fs.lookup (snapshotDir ["snapshots"] "t2") = none ∧
      ((snapshotsWorld.run (hardLinkKeyspace [] ["snapshots", "t2"] "snapshots")).2.2.fs.lookup
        ["snapshots", "t2", "snapshots", "t2", "f"]).isSome :=
  ⟨rfl, rfl, rfl⟩

end Shield.Cassandra
