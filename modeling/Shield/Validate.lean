import Shield.Cassandra.Plugin
import Shield.XtraBackup.Plugin

/-!
# What `Validate` promises the loaders

Each plugin's `Validate` reads the endpoint with the accessors its loader reads it with
(`cassandraInfo`, `getXtraBackupEndpoint`), prints what it finds, and fails when an accessor
does or, for some xtrabackup keys, when the value is empty.  Whether a loader can still fail
on an endpoint its `Validate` accepted:

* `XtraBackup.validate_eq_none_iff`: **`XtraBackupPlugin.Validate` accepts exactly the
  endpoints `getXtraBackupEndpoint` loads with a non-empty data directory, `xtrabackup`
  binary, temporary target directory and `tar`**, so the loader never fails on an endpoint
  `Validate` accepted;
* `Cassandra.validate_loads_iff`: `CassandraPlugin.Validate` reads the exclude list under
  `cassandra_exclude_keyspace`, `cassandraInfo` under `cassandra_exclude_keyspaces`; **on an
  endpoint where both keys read well, `Validate` accepts exactly what `cassandraInfo` loads**;
* `Cassandra.validate_accepts_unloadable`: a string under `cassandra_exclude_keyspaces` passes
  `Validate` and makes `cassandraInfo`, and so `Backup`, fail.

Only success or failure of an accessor matters to `Validate`'s checks, and it never depends on
the default (`Endpoint.isOk_stringValueDefault`, `Endpoint.isOk_arrayValueDefault`).  Every
error of a loader names one of the keys it reads (`XtraBackup.key_getXtraBackupEndpoint`,
`Cassandra.key_cassandraInfo`), and the xtrabackup defaults pass `Validate`'s checks
(`XtraBackup.validate_required_only`).
-/

namespace Shield

/-! ## `XtraBackupPlugin.Validate` and `getXtraBackupEndpoint` -/

namespace XtraBackup

/-- One check of `Validate` passes exactly when the accessor gives a value, non-empty where the
check asks for it. -/
theorem fieldOk_iff {r : Except GoError String} {nonEmpty : Bool} :
    fieldOk r nonEmpty = true ↔ ∃ s, r = .ok s ∧ (nonEmpty = true → s ≠ "") := by
  cases r <;> cases nonEmpty <;> simp [fieldOk]

/-- `getXtraBackupEndpoint` loads `x` exactly when each of its seven reads gives `x`'s field. -/
theorem getXtraBackupEndpoint_eq_ok {ep : Endpoint} {x : XtraBackupEndpoint} :
    getXtraBackupEndpoint ep = .ok x ↔
      ep.stringValue "mysql_user" = .ok x.user ∧ ep.stringValue "mysql_password" = .ok x.password ∧
      ep.stringValueDefault "mysql_databases" "" = .ok x.databases ∧
      ep.stringValueDefault "mysql_datadir" defaultDataDir = .ok x.dataDir ∧
      ep.stringValueDefault "mysql_temp_targetdir" defaultTempTargetDir = .ok x.targetDir ∧
      ep.stringValueDefault "mysql_xtrabackup" defaultXtrabackup = .ok x.bin ∧
      ep.stringValueDefault "mysql_tar" defaultTar = .ok x.tar := by
  simp only [getXtraBackupEndpoint, except_bind_eq_ok, pure, Except.pure, Except.ok.injEq]
  constructor
  · rintro ⟨u, hu, p, hp, d, hd, dd, hdd, t, ht, b, hb, tr, htr, rfl⟩
    exact ⟨hu, hp, hd, hdd, ht, hb, htr⟩
  · rintro ⟨hu, hp, hd, hdd, ht, hb, htr⟩
    exact ⟨_, hu, _, hp, _, hd, _, hdd, _, ht, _, hb, _, htr, rfl⟩

/-- **`XtraBackupPlugin.Validate` accepts exactly what `getXtraBackupEndpoint` loads with a
non-empty data directory, `xtrabackup` binary, temporary target directory and `tar`.** -/
theorem validate_eq_none_iff (ep : Endpoint) :
    validate ep = none ↔ ∃ x, getXtraBackupEndpoint ep = .ok x ∧
      x.dataDir ≠ "" ∧ x.bin ≠ "" ∧ x.targetDir ≠ "" ∧ x.tar ≠ "" := by
  simp only [validate, ite_eq_left_iff, reduceCtorEq, imp_false, not_not, Bool.and_eq_true, fieldOk_iff,
    getXtraBackupEndpoint_eq_ok]
  constructor
  · rintro ⟨⟨⟨⟨⟨⟨⟨u, hu, -⟩, p, hp, -⟩, d, hd, -⟩, dd, hdd, hdd'⟩, b, hb, hb'⟩, t, ht, ht'⟩, tr, htr, htr'⟩
    exact ⟨⟨d, dd, u, p, b, t, tr⟩, ⟨hu, hp, hd, hdd, ht, hb, htr⟩, hdd' trivial, hb' trivial, ht' trivial, htr' trivial⟩
  · rintro ⟨x, ⟨hu, hp, hd, hdd, ht, hb, htr⟩, h₁, h₂, h₃, h₄⟩
    exact ⟨⟨⟨⟨⟨⟨⟨_, hu, nofun⟩, _, hp, nofun⟩, _, hd, nofun⟩, _, hdd, fun _ => h₁⟩, _, hb, fun _ => h₂⟩,
      _, ht, fun _ => h₃⟩, _, htr, fun _ => h₄⟩

/-- Every error of `getXtraBackupEndpoint` names one of the seven keys it reads. -/
theorem key_getXtraBackupEndpoint {ep : Endpoint} {e : GoError} (h : getXtraBackupEndpoint ep = .error e) :
    ∃ key ∈ ["mysql_user", "mysql_password", "mysql_databases", "mysql_datadir",
      "mysql_temp_targetdir", "mysql_xtrabackup", "mysql_tar"], e.key? = some key := by
  simp only [getXtraBackupEndpoint, except_bind_eq_error, pure, Except.pure, reduceCtorEq, and_false,
    exists_false, or_false] at h
  rcases h with h | ⟨_, -, h | ⟨_, -, h | ⟨_, -, h | ⟨_, -, h | ⟨_, -, h | ⟨_, -, h⟩⟩⟩⟩⟩⟩
  iterate 2 exact ⟨_, by decide, Endpoint.key_stringValue h⟩
  all_goals exact ⟨_, by decide, Endpoint.key_stringValueDefault h⟩

/-- Every default passes its own check: `Validate` accepts an endpoint that sets the user and
the password and no other key, and `getXtraBackupEndpoint` loads the defaults from it. -/
theorem validate_required_only {ep : Endpoint} {u p : String}
    (hu : ep "mysql_user" = some (.str u)) (hp : ep "mysql_password" = some (.str p))
    (hrest : ∀ key, key ≠ "mysql_user" → key ≠ "mysql_password" → ep key = none) :
    validate ep = none ∧ getXtraBackupEndpoint ep =
      .ok ⟨"", defaultDataDir, u, p, defaultXtrabackup, defaultTempTargetDir, defaultTar⟩ := by
  simp (disch := decide) only [validate, getXtraBackupEndpoint, fieldOk, Endpoint.stringValue,
    Endpoint.stringValueDefault, hu, hp, hrest]
  exact ⟨rfl, rfl⟩

end XtraBackup

/-! ## `CassandraPlugin.Validate` and `cassandraInfo` -/

namespace Cassandra

/-- **`Validate` and `cassandraInfo` differ only in the key of the exclude list.**  `Validate`
accepts an endpoint on which `cassandraInfo` reads the exclude list well exactly when
`cassandraInfo` loads it and `Validate`'s own read of the exclude list succeeds. -/
theorem validate_loads_iff (ep : Endpoint) :
    validate ep = none ∧
        (ep.arrayValueDefault "cassandra_exclude_keyspaces" (some defaultExcludeKeyspaces)).isOk ↔
      (cassandraInfo ep).isOk ∧
        (ep.arrayValueDefault "cassandra_exclude_keyspace" (some defaultExcludeKeyspaces)).isOk := by
  simp only [validate, ite_eq_left_iff, reduceCtorEq, imp_false, not_not, cassandraInfo, except_isOk_bind, except_isOk_pure, and_true, exists_and_right,
    ← except_isOk_iff, Endpoint.isOk_stringValueDefault, Endpoint.isOk_arrayValueDefault,
    Bool.and_eq_true]
  tauto

/-- Every error of `cassandraInfo` names one of the nine keys it reads. -/
theorem key_cassandraInfo {ep : Endpoint} {e : GoError} (h : cassandraInfo ep = .error e) :
    ∃ key ∈ ["cassandra_host", "cassandra_port", "cassandra_user", "cassandra_password",
      "cassandra_include_keyspaces", "cassandra_exclude_keyspaces", "cassandra_bindir",
      "cassandra_datadir", "cassandra_tar"], e.key? = some key := by
  simp only [cassandraInfo, except_bind_eq_error, pure, Except.pure, reduceCtorEq, and_false,
    exists_false, or_false] at h
  rcases h with h | ⟨_, -, h | ⟨_, -, h | ⟨_, -, h | ⟨_, -, h | ⟨_, -, h | ⟨_, -, h | ⟨_, -, h |
    ⟨_, -, h⟩⟩⟩⟩⟩⟩⟩⟩
  all_goals first
    | exact ⟨_, by decide, Endpoint.key_stringValueDefault h⟩
    | exact ⟨_, by decide, Endpoint.key_arrayValueDefault h⟩

/-- An endpoint holding a string, not a list, under `cassandra_exclude_keyspaces`. -/
def excludeString : Endpoint := fun key =>
  if key = "cassandra_exclude_keyspaces" then some (.str "system") else none

/-- `Validate` accepts `excludeString`, reading its exclude list under another key, and
`cassandraInfo` rejects it, so `Backup` fails before its first step. -/
theorem validate_accepts_unloadable :
    validate excludeString = none ∧
      cassandraInfo excludeString = .error (.typeMismatch "cassandra_exclude_keyspaces" "array") ∧
      backup excludeString = .pure (some (.typeMismatch "cassandra_exclude_keyspaces" "array")) :=
  ⟨rfl, rfl, rfl⟩

end Cassandra

end Shield
