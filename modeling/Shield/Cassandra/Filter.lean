import Shield.Cassandra.Plugin

/-!
# The keyspace filter of `Backup`

Which keyspace directories `CassandraPlugin.Backup` hands to `hardLinkKeyspace`, and what it
asks `nodetool snapshot` to snapshot.

* `includeLoop_eq`: the loop over the include list returns `savedKeyspaces` as it came, the
  result of `append` being dropped; so with an include list `savedKeyspaces` is the empty
  slice (`backupFilter_include`), the snapshot command names no keyspace, and the loop over
  the data directory stages nothing (`stageKeyspace_of_include`).
* `stageKeyspace_eq`: the loop body hands an entry to `hardLinkKeyspace` exactly when it is a
  directory that `excludesKeyspace` keeps.  With no include list and an exclude list in
  ascending order, that is exactly the directories not in the exclude list
  (`stageKeyspace_of_sorted`).
* The default exclude list is not in ascending order, and the search misses `system` in it:
  `backup_stages_excluded_keyspace` and `savedKeyspaces_dropped` are the two divergences at
  concrete configurations, and `searchStrings_unsorted_excludes` shows the search that `Backup`
  and `Restore` make over that list with no include list.
-/

namespace Shield.Cassandra

open Go

/-- A directory entry named `name`, as `Readdir` reports a directory owned by root. -/
def dirEntry (name : String) (h : ValidName name) : Dirent := ⟨⟨name, .dir, 0, 0⟩, h⟩

/-- The `append` whose result is dropped leaves `savedKeyspaces` as it was. -/
theorem includeLoop_eq (excl saved ks : List String) : includeLoop excl saved ks = saved := by
  induction ks with
  | nil => rfl
  | cons k ks ih => simp [includeLoop, ih]

@[simp] theorem backupFilter_of_none {c : CassandraInfo} (h : c.includeKeyspaces = none) :
    backupFilter c = (none, c) := by
  simp [backupFilter, h]

/-- With an include list, `savedKeyspaces` is the empty slice, and `nodetool snapshot` is run
with no keyspace argument. -/
theorem backupFilter_include {c : CassandraInfo} {inc : List String}
    (h : c.includeKeyspaces = some inc) :
    (backupFilter c).1 = some [] ∧
      (Cmd.snapshot c.binDir (snapshotArgs (backupFilter c).1)).line =
        c.binDir ++ "/nodetool snapshot -t " ++ snapshotName := by
  simp [backupFilter, h, includeLoop_eq, snapshotArgs, Cmd.line, sortStrings]

/-- The loop body of `Backup` over the data directory: `hardLinkKeyspace` on a directory the
filter keeps, nothing otherwise. -/
theorem stageKeyspace_eq (c : CassandraInfo) (saved : Option (List String)) (info : Dirent) :
    stageKeyspace c saved info =
      if info.isDir && !excludesKeyspace c.excludeKeyspaces saved info.name then
        hardLinkKeyspace (cleanPath c.dataDir) baseDir info.name
      else .pure none := by
  unfold stageKeyspace
  cases info.isDir <;> cases excludesKeyspace c.excludeKeyspaces saved info.name <;> rfl

/-- With an include list, `Backup` stages no keyspace at all. -/
theorem stageKeyspace_of_include {c : CassandraInfo} {inc : List String}
    (h : c.includeKeyspaces = some inc) (info : Dirent) :
    stageKeyspace (backupFilter c).2 (backupFilter c).1 info = .pure none := by
  rw [stageKeyspace_eq, (backupFilter_include h).1]
  simp [excludesKeyspace, searchHit, searchStrings, search, searchLoop]

/-- **The filter is exact on a sorted exclude list.**  With no include list and an exclude list
in ascending order, `Backup` hands a directory to `hardLinkKeyspace` exactly when its name is
not in the exclude list. -/
theorem stageKeyspace_of_sorted {c : CassandraInfo} (hinc : c.includeKeyspaces = none)
    (hs : c.excludeKeyspaces.Sorted GoLE) (info : Dirent) :
    stageKeyspace (backupFilter c).2 (backupFilter c).1 info =
      if info.isDir = true ∧ info.name ∉ c.excludeKeyspaces then
        hardLinkKeyspace (cleanPath c.dataDir) baseDir info.name
      else .pure none := by
  simp only [backupFilter_of_none hinc, stageKeyspace_eq, excludesKeyspace]
  congr 1
  simp [← searchHit_iff_mem hs]

theorem stageKeyspace_of_sorted_app :
    defaultInfo.includeKeyspaces = none ∧ ["system"].Sorted GoLE ∧
      stageKeyspace (backupFilter { defaultInfo with excludeKeyspaces := ["system"] }).2
          (backupFilter { defaultInfo with excludeKeyspaces := ["system"] }).1
          (dirEntry "app" (by decide)) =
        hardLinkKeyspace (cleanPath defaultDataDir) baseDir "app" :=
  ⟨rfl, by decide, by
    rw [stageKeyspace_of_sorted rfl (by decide)]
    exact if_pos ⟨rfl, by decide⟩⟩

/-! ## The divergences at concrete configurations -/

/-- With the default configuration the exclude list is searched unsorted: the search misses
`system`, and `Backup` hands the directory `system` to `hardLinkKeyspace`.  With the include
list `["app"]`, `Backup` hands nothing to it, though `app` is not excluded. -/
theorem backup_stages_excluded_keyspace :
    ¬ defaultExcludeKeyspaces.Sorted GoLE ∧ "system" ∈ defaultExcludeKeyspaces ∧
    stageKeyspace (backupFilter defaultInfo).2 (backupFilter defaultInfo).1
        (dirEntry "system" (by decide)) =
      hardLinkKeyspace (cleanPath defaultDataDir) baseDir "system" ∧
    "app" ∉ defaultExcludeKeyspaces ∧
    stageKeyspace (backupFilter { defaultInfo with includeKeyspaces := some ["app"] }).2
        (backupFilter { defaultInfo with includeKeyspaces := some ["app"] }).1
        (dirEntry "app" (by decide)) = .pure none := by
  refine ⟨by decide, by decide, ?_, by decide, stageKeyspace_of_include rfl _⟩
  rw [backupFilter_of_none rfl, stageKeyspace_eq]
  exact if_pos (by decide)

/-- With the default configuration, the directory loops of `Backup` and `Restore` run with a
nil `savedKeyspaces` and search the exclude list as configured, out of ascending order: for
`system`, which is in it, `sort.SearchStrings` returns `0`, where `system_schema` stands, so the
test `idx < len(xs) && xs[idx] == k` fails, and `Restore` loads the keyspace `system`. -/
theorem searchStrings_unsorted_excludes :
    cassandraInfo (fun _ => none) = .ok defaultInfo ∧ backupFilter defaultInfo = (none, defaultInfo) ∧
    defaultInfo.excludeKeyspaces = defaultExcludeKeyspaces ∧ ¬ defaultExcludeKeyspaces.Sorted GoLE ∧
    "system" ∈ defaultExcludeKeyspaces ∧ searchStrings defaultExcludeKeyspaces "system" = 0 ∧
    searchHit defaultExcludeKeyspaces "system" = false ∧
    loadKeyspace defaultInfo none (dirEntry "system" (by decide)) =
      restoreKeyspace defaultInfo (baseDir.join "system") :=
  ⟨rfl, backupFilter_of_none rfl, rfl, by decide, by decide, by decide, by decide, if_neg (by decide)⟩

/-- With the include list `["app"]` and an empty exclude list, `savedKeyspaces` ends empty
instead of `["app"]`, and the snapshot command has no keyspace argument. -/
theorem savedKeyspaces_dropped :
    (backupFilter { defaultInfo with includeKeyspaces := some ["app"], excludeKeyspaces := [] }).1 =
      some [] ∧
    (Cmd.snapshot defaultBinDir (snapshotArgs
        (backupFilter { defaultInfo with includeKeyspaces := some ["app"], excludeKeyspaces := [] }).1)).line =
      "/var/vcap/jobs/cassandra/bin/nodetool snapshot -t shield-backup" :=
  backupFilter_include rfl

end Shield.Cassandra
