import Shield.World.Basic

/-!
# What each operation may change

`Confined R own` is the frame of a change: outside the paths `R` every entry stays, every inode
it names keeps its contents, and an owner changes only to `own`.  It is a preorder, monotone in
`R` and `own`, and each construction of a file system keeps within a frame:

* `FS.create`, `FS.addLink`, `FS.createAll`, `FS.mkdirAll`, `FS.link` and the snapshot of a
  table only add entries: they are confined to no path at all;
* `FS.eraseIf P` is confined to `P`, and a removal of `p`, whole or partial
  (`FS.PartlyRemoved`), to the paths from `p` down;
* `FS.chown`, `FS.chownTree` and `FS.walkChown` keep every entry and every content, and give an
  owner only their own `uid`, `gid`.

From these: `Cmd.run_within`, a command that succeeds stays within `Cmd.scope`, as one that
fails does by the definition of a step; `step_within`, every step stays within its operation's
scope `Op.scope`; and `within_of_runs`, **a run of a program stays within any scope that
covers each operation the program can issue.**

`Grows N fs fs'` is the frame of a program that only adds entries, each new one satisfying `N`:
`step_grows` and `grows_of_runs` give it for a run whose operations only add, with each new
directory among those its `mkdir` and `mkdirAll` name (`Op.NewDir`).
-/

namespace Shield

open Go

/-! ## The frame relation -/

namespace Confined

variable {R R' : Path → Prop} {own own' : Option (Nat × Nat)} {fs fs₁ fs₂ : FS}

theorem trans (h₁ : Confined R own fs fs₁) (h₂ : Confined R own fs₁ fs₂) :
    Confined R own fs fs₂ := by
  intro p e hp hR
  obtain ⟨hp₁, hd₁, ho₁⟩ := h₁ p e hp hR
  obtain ⟨hp₂, hd₂, ho₂⟩ := h₂ p e hp₁ hR
  refine ⟨hp₂, hd₂.trans hd₁, ?_⟩
  rcases ho₂ with ho₂ | ho₂
  · rw [ho₂]; exact ho₁
  · exact .inr ho₂

theorem mono (h : Confined R own fs fs₁) (hR : ∀ q, R q → R' q)
    (hown : ∀ o, own = some o → own' = some o) : Confined R' own' fs fs₁ := by
  intro p e hp hR'
  obtain ⟨hp₁, hd, ho⟩ := h p e hp fun hr => hR' (hR p hr)
  exact ⟨hp₁, hd, ho.imp_right (hown _)⟩

/-- An entry outside the frame is still there. -/
theorem lookup (h : Confined R own fs fs₁) {p : Path} {e : Entry} (hp : fs.lookup p = some e) (hR : ¬ R p) :
    fs₁.lookup p = some e :=
  (h p e hp hR).1

theorem isSome_lookup (h : Confined R own fs fs₁) {p : Path} (hR : ¬ R p) (hp : (fs.lookup p).isSome) :
    (fs₁.lookup p).isSome := by
  obtain ⟨e, he⟩ := Option.isSome_iff_exists.1 hp
  rw [h.lookup he hR]
  rfl

/-- With no owner to give, an entry outside the frame keeps its owner. -/
theorem owner_eq (h : Confined R none fs fs₁) {p : Path} {e : Entry} (hp : fs.lookup p = some e) (hR : ¬ R p) :
    fs₁.owner e.ino = fs.owner e.ino :=
  (h p e hp hR).2.2.resolve_right nofun

/-- A change that keeps every entry, and the inodes the entries name, is confined to nothing. -/
theorem of_lookup (hl : ∀ p e, fs.lookup p = some e → fs₁.lookup p = some e)
    (hm : ∀ i < fs.nextIno, fs₁.meta i = fs.meta i) : Confined R own fs fs₁ := by
  intro p e hp _
  have hi : e.ino < fs.nextIno := fs.fresh _ (FS.lookup_eq_some.1 hp)
  exact ⟨hl p e hp, by rw [hm _ hi], .inl (by rw [hm _ hi])⟩

theorem foldl {β : Type} {f : FS → β → FS} (hf : ∀ fs b, Confined R own fs (f fs b))
    (l : List β) (fs : FS) : Confined R own fs (l.foldl f fs) := by
  induction l generalizing fs with
  | nil => exact .refl _ _ _
  | cons b l ih => exact (hf fs b).trans (ih _)

theorem foldlM {β : Type} {f : FS → β → Option FS}
    (hf : ∀ fs b fs₁, f fs b = some fs₁ → Confined R own fs fs₁) (l : List β) {fs fs₁ : FS}
    (h : l.foldlM f fs = some fs₁) : Confined R own fs fs₁ := by
  induction l generalizing fs with
  | nil => cases h; exact .refl _ _ _
  | cons b l ih =>
    obtain ⟨fs₂, h₁, h₂⟩ := Option.bind_eq_some.1 h
    exact (hf _ _ _ h₁).trans (ih h₂)

/-- A fold that carries a file system beside other data, each step confined. -/
theorem foldl_snd {β γ : Type} {f : γ × FS → β → γ × FS}
    (hf : ∀ acc b, Confined R own acc.2 (f acc b).2) (l : List β) (acc : γ × FS) :
    Confined R own acc.2 (l.foldl f acc).2 := by
  induction l generalizing acc with
  | nil => exact .refl _ _ _
  | cons b l ih => exact (hf acc b).trans (ih _)

/-! ## File-system constructions -/

theorem create (fs : FS) (p : Path) (k : Kind) (m : Meta) (h : fs.Free p) :
    Confined R own fs (fs.create p k m h) :=
  of_lookup (fun _ _ => lookupIn_append_of_some) fun _ hi => if_neg (Nat.ne_of_lt hi)

theorem addLink (fs : FS) (p : Path) (e : Entry) (h : fs.Free p) (he : e.ino < fs.nextIno) :
    Confined R own fs (fs.addLink p e h he) :=
  of_lookup (fun _ _ => lookupIn_append_of_some) fun _ _ => rfl

theorem eraseIf (fs : FS) (P : Path → Bool) (hup : FS.UpClosed P) (hroot : P [] = false) :
    Confined (fun q => P q = true) own fs (fs.eraseIf P hup hroot) := by
  intro p e hp hP
  refine ⟨?_, rfl, .inl rfl⟩
  show lookupIn (fs.entries.filter _) p = _
  rw [lookupIn_filter, if_neg hP]
  exact hp

theorem setOwner (fs : FS) (i uid gid : Nat) :
    Confined R (some (uid, gid)) fs (fs.setOwner i uid gid) := by
  intro p e hp _
  refine ⟨hp, ?_⟩
  by_cases hi : e.ino = i
  · subst hi; simp [FS.setOwner, FS.setMeta]
  · simp [FS.setOwner, FS.setMeta, hi]

theorem createAll (fs : FS) (es : List (Path × Kind × Meta)) : Confined R own fs (fs.createAll es) :=
  foldl (fun fs pkm => by
    split
    · exact create _ _ _ _ ‹_›
    · exact .refl _ _ _) es fs

theorem extract (fs : FS) (d : Path) (a : Archive) : Confined R own fs (fs.extract d a) :=
  createAll _ _

theorem mkdir (fs : FS) (p : Path) : Confined R own fs (fs.mkdir p).2 := by
  unfold FS.mkdir
  split
  · exact create _ _ _ _ ‹_›
  · exact .refl _ _ _

theorem mkdirAllFrom (fs : FS) (done : Path) (rest : List String) :
    Confined R own fs (fs.mkdirAllFrom done rest).2 := by
  induction rest generalizing fs done with
  | nil => exact .refl _ _ _
  | cons n rest ih =>
    unfold FS.mkdirAllFrom
    split
    · split
      · exact ih _ _
      · exact .refl _ _ _
    · have hm : Confined R own fs (fs.mkdir (done ++ [n])).2 := mkdir fs _
      split <;> rename_i heq <;> rw [heq] at hm
      · exact hm.trans (ih _ _)
      · exact hm
    · exact .refl _ _ _

theorem mkdirAll (fs : FS) (p : Path) : Confined R own fs (fs.mkdirAll p).2 :=
  mkdirAllFrom _ _ _

theorem link (fs : FS) (src dst : Path) : Confined R own fs (fs.link src dst).2 := by
  unfold FS.link
  split
  · exact .refl _ _ _
  · split
    · exact .refl _ _ _
    · split
      · exact addLink _ _ _ ‹_› (fs.fresh _ (FS.lookup_eq_some.1 ‹_›))
      · exact .refl _ _ _

/-- A removal of `p`, whole or partial, is confined to the paths from `p` down. -/
theorem partlyRemoved {fs fs' : FS} {p : Path} (h : fs.PartlyRemoved p fs') :
    Confined (fun q => p <+: q) own fs fs' := fun q e he hq =>
  ⟨(h.keep q hq).trans he, by rw [h.meta], .inl (by rw [h.meta])⟩

theorem remove (fs : FS) (p : Path) : Confined (fun q => p <+: q) own fs (fs.remove p).2 :=
  partlyRemoved (FS.partlyRemoved_remove p)

theorem removeAll (fs : FS) (p : Path) : Confined (fun q => p <+: q) own fs (fs.removeAll p).2 :=
  partlyRemoved (FS.partlyRemoved_removeAll p)

theorem chown (fs : FS) (p : Path) (uid gid : Nat) :
    Confined R (some (uid, gid)) fs (fs.chown p uid gid).2 := by
  unfold FS.chown
  split
  · split
    · exact setOwner _ _ _ _
    · exact .refl _ _ _
  · exact .refl _ _ _

theorem chownTree (fs : FS) (p : Path) (uid gid : Nat) :
    Confined R (some (uid, gid)) fs (fs.chownTree p uid gid) :=
  foldl (fun _ _ => setOwner _ _ _ _) _ _

theorem walkChown (fs : FS) (root : Path) (uid gid : Nat) :
    Confined R (some (uid, gid)) fs (fs.walkChown root uid gid).2 := by
  unfold FS.walkChown
  split
  · exact .refl _ _ _
  · refine foldl_snd (fun acc p => ?_) _ (none, fs)
    unfold FS.chownStep
    split
    · exact .refl _ _ _
    · exact chown _ _ _ _

theorem snapshotTable {t : Path} (h : snapshotTable fs t = some fs₁) : Confined R own fs fs₁ := by
  unfold Shield.snapshotTable at h
  dsimp only at h
  split at h
  · cases h
  · split at h
    · cases h
    · rename_i fs₂ h₂
      have hm : Confined R own fs (fs.mkdirAll (t ++ ["snapshots", snapshotName])).2 := mkdirAll fs _
      rw [h₂] at hm
      refine hm.trans (foldlM (fun fs b fs' hb => ?_) _ h)
      split at hb
      · split at hb
        · rename_i heq
          cases hb
          have hl : Confined R own fs (fs.link (t ++ [b.1]) (t ++ ["snapshots", snapshotName] ++ [b.1])).2 :=
            link fs _ _
          rwa [heq] at hl
        · cases hb
      · cases hb; exact .refl _ _ _

theorem snapshotAll {d : Path} {ks : List String} (h : snapshotAll fs d ks = some fs₁) :
    Confined R own fs fs₁ := by
  unfold Shield.snapshotAll at h
  split at h
  · exact foldlM (fun _ _ _ hk => foldlM (fun _ _ _ => snapshotTable) _ hk) _ h
  · cases h

end Confined

/-! ## Growth -/

/-- `fs'` is `fs` with entries added, each new one satisfying `N`: every entry of `fs` is kept,
naming an inode whose contents and owner are unchanged. -/
def Grows (N : Path → Entry → Prop) (fs fs' : FS) : Prop :=
  Confined (fun _ => False) none fs fs' ∧ ∀ q e, fs'.lookup q = some e → fs.lookup q = none → N q e

namespace Grows

variable {N N' : Path → Entry → Prop} {fs fs₁ fs₂ : FS}

theorem refl (N : Path → Entry → Prop) (fs : FS) : Grows N fs fs :=
  ⟨.refl _ _ _, fun _ _ h h₀ => by rw [h₀] at h; cases h⟩

theorem trans (h₁ : Grows N fs fs₁) (h₂ : Grows N fs₁ fs₂) : Grows N fs fs₂ := by
  refine ⟨h₁.1.trans h₂.1, fun q e hq hq₀ => ?_⟩
  cases hq₁ : fs₁.lookup q with
  | none => exact h₂.2 q e hq hq₁
  | some e₁ =>
    have h₂q := h₂.1.lookup hq₁ id
    rw [hq] at h₂q
    cases h₂q
    exact h₁.2 q e hq₁ hq₀

theorem mono (h : Grows N fs fs₁) (hN : ∀ q e, N q e → N' q e) : Grows N' fs fs₁ :=
  ⟨h.1, fun q e h₁ h₀ => hN q e (h.2 q e h₁ h₀)⟩

/-- `mono`, knowing that the entry is new. -/
theorem mono_new (h : Grows N fs fs₁) (hN : ∀ q e, N q e → fs.lookup q = none → N' q e) :
    Grows N' fs fs₁ :=
  ⟨h.1, fun q e h₁ h₀ => hN q e (h.2 q e h₁ h₀) h₀⟩

/-- An entry of `fs` is kept. -/
theorem lookup (h : Grows N fs fs₁) {q : Path} {e : Entry} (hq : fs.lookup q = some e) :
    fs₁.lookup q = some e :=
  h.1.lookup hq id

theorem isDir (h : Grows N fs fs₁) {p : Path} (hd : fs.isDir p = true) : fs₁.isDir p = true := by
  obtain ⟨i, hi⟩ := FS.isDir_iff.1 hd
  exact FS.isDir_of_lookup (h.lookup (FS.lookup_eq_some.2 hi))

/-- A path that no new entry may take is unchanged. -/
theorem lookup_eq (h : Grows N fs fs₁) {q : Path} (hq : ∀ e, ¬ N q e) : fs₁.lookup q = fs.lookup q := by
  cases h₀ : fs.lookup q with
  | some e => exact h.lookup h₀
  | none =>
    cases h₁ : fs₁.lookup q with
    | none => rfl
    | some e => exact absurd (h.2 q e h₁ h₀) (hq e)

theorem create (fs : FS) (p : Path) (k : Kind) (m : Meta) (h : fs.Free p) :
    Grows (fun q e => q = p ∧ e.kind = k) fs (fs.create p k m h) := by
  refine ⟨.create _ _ _ _ _, fun q e hq hq₀ => ?_⟩
  rw [FS.lookup_create] at hq
  split at hq
  · cases hq; exact ⟨‹_›, rfl⟩
  · rw [hq] at hq₀; cases hq₀

theorem addLink (fs : FS) (p : Path) (e : Entry) (h : fs.Free p) (he : e.ino < fs.nextIno) :
    Grows (fun q e' => q = p ∧ e' = e) fs (fs.addLink p e h he) := by
  refine ⟨.addLink _ _ _ _ _, fun q e' hq hq₀ => ?_⟩
  rw [FS.lookup_addLink] at hq
  split at hq
  · cases hq; exact ⟨‹_›, rfl⟩
  · rw [hq] at hq₀; cases hq₀

theorem mkdir (fs : FS) (p : Path) : Grows (fun q e => q = p ∧ e.kind = .dir) fs (fs.mkdir p).2 := by
  unfold FS.mkdir
  split
  · exact create _ _ _ _ ‹_›
  · exact refl _ _

/-- `os.MkdirAll` adds only directories, each on the way to its path. -/
theorem mkdirAllFrom (fs : FS) (done : Path) (rest : List String) :
    Grows (fun q e => q <+: done ++ rest ∧ e.kind = .dir) fs (fs.mkdirAllFrom done rest).2 := by
  induction rest generalizing fs done with
  | nil => exact refl _ _
  | cons n rest ih =>
    have hih : ∀ fs, Grows (fun q e => q <+: done ++ n :: rest ∧ e.kind = .dir) fs
        (fs.mkdirAllFrom (done ++ [n]) rest).2 :=
      fun fs => (ih fs _).mono fun q e h => ⟨by simpa using h.1, h.2⟩
    unfold FS.mkdirAllFrom
    split
    · split
      · exact hih fs
      · exact refl _ _
    · have hm : Grows (fun q e => q <+: done ++ n :: rest ∧ e.kind = .dir) fs
          (fs.mkdir (done ++ [n])).2 :=
        (mkdir fs _).mono fun q e h => ⟨by rw [h.1]; simp, h.2⟩
      split <;> rename_i heq <;> rw [heq] at hm
      · exact hm.trans (hih _)
      · exact hm
    · exact refl _ _

theorem mkdirAll (fs : FS) (p : Path) :
    Grows (fun q e => q <+: p ∧ e.kind = .dir) fs (fs.mkdirAll p).2 :=
  mkdirAllFrom _ _ _

/-- `tar -x` below `b` adds only entries at or below `b`. -/
theorem extract (fs : FS) (b : Path) (A : Archive) : Grows (fun q _ => b <+: q) fs (fs.extract b A) := by
  induction A generalizing fs with
  | nil => exact refl _ _
  | cons x A ih =>
    rw [show x :: A = [x] ++ A from rfl, FS.extract_append, FS.extract_singleton]
    refine Grows.trans ?_ (ih _)
    split
    · exact (create _ _ _ _ _).mono fun q _ h => h.1 ▸ List.prefix_append _ _
    · exact refl _ _

/-- `os.Link` adds only its destination, naming the entry of its source, which is no
directory. -/
theorem link (fs : FS) (src dst : Path) :
    Grows (fun q e => q = dst ∧ fs.lookup src = some e ∧ e.kind ≠ .dir) fs (fs.link src dst).2 := by
  unfold FS.link
  split
  · exact refl _ _
  · rename_i e heq
    split
    · exact refl _ _
    · split
      · exact (addLink _ _ _ ‹_› (fs.fresh _ (FS.lookup_eq_some.1 heq))).mono
          fun q e' h => ⟨h.1, h.2 ▸ heq, h.2 ▸ ‹_›⟩
      · exact refl _ _

end Grows

/-! ## Scopes of commands and operations -/

namespace World

variable {S S' : (Path → Prop) × Option (Nat × Nat)} {w w₁ w₂ : World}

/-- The scope `S` covers `S'`: it has all of `S'`'s paths, and the owner `S'` allows. -/
def Covers (S S' : (Path → Prop) × Option (Nat × Nat)) : Prop :=
  (∀ q, S'.1 q → S.1 q) ∧ ∀ o, S'.2 = some o → S.2 = some o

theorem Covers.bot (S : (Path → Prop) × Option (Nat × Nat)) : Covers S (fun _ => False, none) :=
  ⟨fun _ => False.elim, fun _ h => nomatch h⟩

theorem Covers.refl (S : (Path → Prop) × Option (Nat × Nat)) : Covers S S :=
  ⟨fun _ => id, fun _ => id⟩

theorem Within.trans (h₁ : w.Within S w₁) (h₂ : w₁.Within S w₂) : w.Within S w₂ :=
  ⟨h₁.1.trans h₂.1, h₂.2.1.trans h₁.2.1, h₂.2.2.1.trans h₁.2.2.1, h₂.2.2.2.1.trans h₁.2.2.2.1,
    h₂.2.2.2.2.1.trans h₁.2.2.2.2.1, h₁.2.2.2.2.2.trans h₂.2.2.2.2.2⟩

theorem Within.mono (h : w.Within S' w₁) (hS : Covers S S') : w.Within S w₁ :=
  ⟨h.1.mono hS.1 hS.2, h.2⟩

theorem Within.withFs {fs : FS} (h : Confined S.1 S.2 w.fs fs) : w.Within S (w.withFs fs) :=
  ⟨h, rfl, rfl, rfl, rfl, List.prefix_refl _⟩

theorem Within.emit (S : (Path → Prop) × Option (Nat × Nat)) (d : Path) : w.Within S (w.emit d) :=
  ⟨.refl _ _ _, rfl, rfl, rfl, rfl, List.prefix_append _ _⟩

end World

open World

/-- **A command that succeeds stays within its scope.** -/
theorem Cmd.run_within {c : Cmd} {w w' : World} (h : c.run w = some w') :
    w.Within (c.scope w) w' := by
  cases c with
  | clearSnapshot => cases h; exact .withFs (Confined.eraseIf _ _ _ _)
  | snapshot =>
    obtain ⟨fs, hfs, rfl⟩ := Option.map_eq_some'.1 h
    exact .withFs (Confined.snapshotAll hfs)
  | rmRf d =>
    simp only [Cmd.run] at h
    split at h <;> cases h
    exact .withFs (Confined.removeAll _ _)
  | chownVcap d =>
    simp only [Cmd.run] at h
    split at h <;> cases h
    exact .withFs (Confined.chownTree _ _ _ _)
  | tarCreate | tarArchive =>
    simp only [Cmd.run] at h
    split at h <;> cases h
    exact .emit _ _
  | tarExtract | tarUnpack =>
    simp only [Cmd.run] at h
    split at h <;> cases h
    exact .withFs (Confined.extract _ _ _)
  | sstableloader | xtrabackupPrepare => cases h; exact .refl _ _
  | mysqldProbe =>
    simp only [Cmd.run] at h
    split at h <;> cases h
    exact .refl _ _
  | xtrabackupBackup _ t =>
    simp only [Cmd.run] at h
    split at h <;> [(rename_i fs heq; split at h <;> cases h); cases h]
    have hm : Confined (fun q => cleanPath t <+: q) none w.fs (w.fs.mkdirAll (cleanPath t)).2 :=
      Confined.mkdirAll _ _
    rw [heq] at hm
    exact .withFs (hm.trans (Confined.extract _ _ _))
  | mkdirP d =>
    simp only [Cmd.run] at h
    split at h <;> [rename_i fs heq; cases h]
    cases h
    have hm : Confined (fun _ => False) none w.fs (w.fs.mkdirAll (cleanPath d)).2 :=
      Confined.mkdirAll _ _
    rw [heq] at hm
    exact .withFs hm
  | xtrabackupMoveBack _ t d =>
    simp only [Cmd.run] at h
    split at h <;> cases h
    refine .withFs ((Confined.extract _ _ _).trans ((Confined.eraseIf _ _ _ _).mono ?_ fun _ => id))
    intro q hq
    exact .inl (of_decide_eq_true hq).1

/-- Where an operation may act, and the owner it may give. -/
def Op.scope (o : Op) (w : World) : (Path → Prop) × Option (Nat × Nat) :=
  match o with
  | .exec c _ => c.scope w
  | .remove p => (fun q => p <+: q, none)
  | .removeAll p => (fun q => p <+: q, none)
  | .walkChown _ uid gid => (fun _ => False, some (uid, gid))
  | _ => (fun _ => False, none)

/-- A scope reads only the node's data directory and the ids of `vcap`, which no step changes. -/
theorem Op.scope_congr (o : Op) {w w₁ : World} (hc : w₁.cassandraDir = w.cassandraDir)
    (hv : w₁.vcap = w.vcap) : o.scope w₁ = o.scope w := by
  cases o with
  | exec c => cases c <;> simp [Op.scope, Cmd.scope, hc, hv]
  | _ => rfl

/-- An operation that only reads the file system or adds entries to it. -/
def Op.Additive : Op → Prop
  | .lstat _ | .openFile _ | .readdir _ | .close _ | .mkdir _ | .mkdirAll _ | .link _ _
  | .glob _ => True
  | _ => False

/-- An operation that only reads or adds acts within every scope. -/
theorem Op.Additive.covers {o : Op} (h : o.Additive) (S : (Path → Prop) × Option (Nat × Nat))
    (w : World) : Covers S (o.scope w) := by
  cases o <;> first | exact Covers.bot S | exact h.elim

/-- **Every step stays within the scope of its operation.** -/
theorem step_within {w w' : World} {o : Op} {r : o.Resp} (h : w.Step o r w') :
    w.Within (o.scope w) w' := by
  cases o with
  | exec c =>
    rcases h with ⟨-, h⟩ | ⟨-, h⟩
    · exact Cmd.run_within h
    · exact h
  | lstat | openFile | readdir | close | glob => cases h; exact .refl _ _
  | mkdir p => cases h; exact .withFs (Confined.mkdir _ _)
  | mkdirAll p => cases h; exact .withFs (Confined.mkdirAll _ _)
  | link => cases h; exact .withFs (Confined.link _ _ _)
  | remove p =>
    rcases h with h | ⟨-, fs, hfs, rfl⟩
    · cases h; exact .withFs (Confined.remove _ _)
    · exact .withFs (Confined.partlyRemoved hfs)
  | removeAll p =>
    rcases h with h | ⟨-, fs, hfs, rfl⟩
    · cases h; exact .withFs (Confined.removeAll _ _)
    · exact .withFs (Confined.partlyRemoved hfs)
  | walkChown => cases h; exact .withFs (Confined.walkChown _ _ _ _)

theorem World.Consistent.within {S : (Path → Prop) × Option (Nat × Nat)} {w w' : World}
    {t : List Event} (h : Consistent w t w') (hS : ∀ ev ∈ t, Covers S (ev.op.scope w)) :
    w.Within S w' := by
  induction h with
  | nil w => exact .refl S w
  | cons hstep _ ih =>
    have h₁ := (step_within hstep).mono (hS _ (List.mem_cons_self _ _))
    refine h₁.trans (ih fun ev hev => ?_)
    rw [Op.scope_congr _ h₁.2.1 h₁.2.2.1]
    exact hS ev (List.mem_cons_of_mem _ hev)

/-- **A run of a program stays within a scope that covers every operation it can issue.** -/
theorem within_of_runs {α : Type} {p : Prog α} {S : (Path → Prop) × Option (Nat × Nat)}
    {w w' : World} {t : List Event} {a : α} (hp : OnlyOps (fun o => Covers S (o.scope w)) p)
    (h : Runs p t a) (hc : Consistent w t w') : w.Within S w' :=
  hc.within (hp.events h)

/-! ## Programs that only add entries -/

/-- The directories an operation may add: the path of `os.Mkdir`, and the paths on the way to
that of `os.MkdirAll`. -/
def Op.NewDir : Op → Path → Prop
  | .mkdir p, q => q = p
  | .mkdirAll p, q => q <+: p
  | _, _ => False

/-- A step of an operation that only reads and adds changes only the file system, and adds to
it only entries that are no directories and the directories its operation names. -/
theorem step_grows {w w' : World} {o : Op} {r : o.Resp} (ho : o.Additive) (h : w.Step o r w') :
    w' = w.withFs w'.fs ∧ Grows (fun q e => e.kind = .dir → o.NewDir q) w.fs w'.fs := by
  cases o with
  | lstat | openFile | readdir | close | glob => cases h; exact ⟨rfl, .refl _ _⟩
  | mkdir p => cases h; exact ⟨rfl, (Grows.mkdir _ _).mono fun _ _ h _ => h.1⟩
  | mkdirAll p => cases h; exact ⟨rfl, (Grows.mkdirAll _ _).mono fun _ _ h _ => h.1⟩
  | link => cases h; exact ⟨rfl, (Grows.link _ _ _).mono fun _ _ h hd => absurd hd h.2.2⟩
  | _ => exact ho.elim

theorem World.Consistent.grows {D : Path → Prop} {w w' : World} {t : List Event}
    (h : Consistent w t w') (hS : ∀ ev ∈ t, ev.op.Additive ∧ ∀ q, ev.op.NewDir q → D q) :
    w' = w.withFs w'.fs ∧ Grows (fun q e => e.kind = .dir → D q) w.fs w'.fs := by
  induction h with
  | nil w => exact ⟨rfl, .refl _ _⟩
  | @cons w w₁ w' _ _ _ hstep _ ih =>
    obtain ⟨ho, hD⟩ := hS _ (List.mem_cons_self _ _)
    obtain ⟨h₁, g₁⟩ := step_grows ho hstep
    obtain ⟨h₂, g₂⟩ := ih fun ev hev => hS ev (List.mem_cons_of_mem _ hev)
    refine ⟨?_, (g₁.mono fun q _ h hd => hD q (h hd)).trans g₂⟩
    calc w' = w₁.withFs w'.fs := h₂
      _ = w.withFs w'.fs := by rw [h₁]; rfl

/-- **A run of a program that only reads and adds** changes only the file system, and adds to
it only entries that are no directories and directories its operations name. -/
theorem grows_of_runs {α : Type} {p : Prog α} {D : Path → Prop}
    (hp : OnlyOps (fun o => o.Additive ∧ ∀ q, o.NewDir q → D q) p) {w w' : World}
    {t : List Event} {a : α} (h : Runs p t a) (hc : Consistent w t w') :
    w' = w.withFs w'.fs ∧ Grows (fun q e => e.kind = .dir → D q) w.fs w'.fs :=
  hc.grows (hp.events h)

end Shield
