import Shield.Fs.Basic

/-!
# The `os` and `syscall` calls of the plugins

Each call the Go code makes on the file system is a function of the state: it returns what
the Go call returns (an error, or a value and an error) and the state after it.

* `lstat` is `os.Lstat`; `follow` resolves a final symbolic link the way `os.Open`,
  `os.Stat` and `syscall.Chown` do, up to the kernel's 40 links;
* `openFile` and `readdir` are `os.Open` and `(*os.File).Readdir(-1)`: the entries of a
  directory in directory order, each described as `os.Lstat` would;
* `mkdir`, `mkdirAll`, `link`, `remove` and `removeAll` are `os.Mkdir`, `os.MkdirAll`,
  `os.Link`, `os.Remove` and `os.RemoveAll`;
* `chown` is `syscall.Chown`, which follows a final symbolic link, and `chownTree` is
  `chown -R`, which does not.

Paths are read component by component from the root; a component on the way that is not a
directory stops the walk with `ENOTDIR`, a missing one with `ENOENT`.  Symbolic links in the
middle of a path are not followed, and a configured path reaches these calls cleaned, its `..`
taken away and a trailing `/` dropped; the kernel follows such a link, a final one too when the
path ends in `/`, and reads `..` after it.  `PlainPath` names the configured paths on which the
two readings agree.  Permissions are not modelled: the plugins run as root, and every directory
and inode they create belongs to uid 0, gid 0.  What the model's `remove` and `removeAll`
return is their answer when nothing stands in the way; `PartlyRemoved` is what a failed one may
leave (a mount point answers `EBUSY`, an immutable inode `EPERM`).
-/

namespace Shield

/-- The error numbers the model produces. -/
inductive Errno where
  | enoent | enotdir | eexist | eperm | enotempty | ebusy | eloop | einval
  deriving DecidableEq, Repr

/-- An error value as the Go code holds it. -/
inductive GoError where
  /-- A system call's error, wrapped in an `*os.PathError` or `*os.LinkError`. -/
  | errno (e : Errno)
  /-- An error built with `fmt.Errorf`. -/
  | msg (s : String)
  /-- A failure reported by `plugin.Exec`: the command could not run or exited non-zero. -/
  | exec (line : String)
  /-- `plugin.EndpointMissingRequiredDataError`: the endpoint has no value for the key. -/
  | missingKey (key : String)
  /-- `plugin.EndpointDataTypeMismatchError`: the key's value is not of the wanted type. -/
  | typeMismatch (key want : String)
  deriving DecidableEq, Repr

/-- `os.IsNotExist`. -/
def GoError.isNotExist : GoError → Bool
  | .errno .enoent => true
  | _ => false

/-- What `os.Lstat` and `Readdir` report about an entry: `Name()`, `IsDir()` and the owner
read through `Sys().(*syscall.Stat_t)`. -/
structure FileInfo where
  name : String
  kind : Kind
  uid : Nat
  gid : Nat
  deriving DecidableEq, Repr

/-- `(os.FileInfo).IsDir()`. -/
def FileInfo.isDir (fi : FileInfo) : Bool := decide (fi.kind = .dir)

/-- What `Readdir` lists: a `FileInfo` whose name is the name of a directory entry. -/
structure Dirent extends FileInfo where
  valid : ValidName name

/-- `IsDir()` of a listed entry. -/
def Dirent.isDir (d : Dirent) : Bool := d.toFileInfo.isDir

/-- The owner, group and (empty) contents of what the plugin creates as root. -/
def rootMeta : Meta := ⟨0, 0, ""⟩

namespace FS

/-- The description of the entry `e` under the name `n`. -/
def info (fs : FS) (n : String) (e : Entry) : FileInfo :=
  ⟨n, e.kind, (fs.meta e.ino).uid, (fs.meta e.ino).gid⟩

/-- The error of walking from `cur` down `rest`: the first missing or non-directory step. -/
def walkErr (fs : FS) (cur : Path) : List String → Option Errno
  | [] => none
  | n :: rest =>
    match fs.lookup (cur ++ [n]) with
    | none => some .enoent
    | some e => if e.kind = .dir then walkErr fs (cur ++ [n]) rest else some .enotdir

/-- Why the entry at `p` cannot be reached when it is not there. -/
def missingErr (fs : FS) (p : Path) : Errno := (fs.walkErr [] p.dropLast).getD .enoent

/-- Why a new entry cannot be made at `p`. -/
def takenErr (fs : FS) (p : Path) : Errno :=
  if (fs.lookup p).isSome then .eexist else (fs.walkErr [] p.dropLast).getD .einval

/-- `os.Lstat(p)`. -/
def lstat (fs : FS) (p : Path) : Except GoError FileInfo :=
  match fs.lookup p with
  | some e => .ok (fs.info (p.getLast?.getD "/") e)
  | none => .error (.errno (fs.missingErr p))

/-- The configured path `s` is read on `fs` as the model reads it: it has no `..` component, and
no entry on the way to its cleaned path, nor the entry there, is a symbolic link.  On such a
path the kernel follows no link and goes up nowhere, whether or not the path ends in `/`. -/
def PlainPath (fs : FS) (s : String) : Prop :=
  ['.', '.'] ∉ splitSlash s.data ∧ ∀ q ∈ (cleanPath s).inits, ∀ e ∈ fs.lookup q, e.kind.isSymlink = false

instance (fs : FS) (s : String) : Decidable (fs.PlainPath s) := inferInstanceAs (Decidable (_ ∧ _))

/-- Resolve final symbolic links, at most `n` of them; a link's text is read from the
directory holding the link unless it starts with `/`. -/
def follow (fs : FS) : Nat → Path → Except Errno Path
  | 0, _ => .error .eloop
  | n + 1, p =>
    match fs.lookup p with
    | some ⟨.symlink t, _⟩ =>
      fs.follow n (Path.join (if t.data.head? = some '/' then [] else p.dropLast) t)
    | some _ => .ok p
    | none => .error (fs.missingErr p)

/-- The kernel's limit on symbolic links followed in one lookup. -/
def maxSymlinks : Nat := 40

/-- `os.Open(p)`: the handle is the path reached. -/
def openFile (fs : FS) (p : Path) : Except GoError Path :=
  (fs.follow maxSymlinks p).mapError .errno

/-- The entries directly inside `d`, in directory order, with their names. -/
def children (fs : FS) (d : Path) : List (String × Entry) :=
  fs.entries.filterMap fun qe => if qe.1.dropLast = d then qe.1.getLast?.map (·, qe.2) else none

theorem validName_of_mem_children {fs : FS} {d : Path} {ne : String × Entry}
    (h : ne ∈ fs.children d) : ValidName ne.1 := by
  obtain ⟨⟨q, e⟩, hq, hne⟩ := List.mem_filterMap.1 h
  split at hne
  · obtain ⟨n, hn, rfl⟩ := Option.map_eq_some'.1 hne
    exact fs.names _ hq n (List.mem_of_getLast?_eq_some hn)
  · cases hne

/-- `(*os.File).Readdir(-1)` on the handle `d`. -/
def readdir (fs : FS) (d : Path) : Except GoError (List Dirent) :=
  if fs.isDir d then
    .ok (@List.pmap _ _ (fun ne : String × Entry => ValidName ne.1)
      (fun ne h => ⟨fs.info ne.1 ne.2, h⟩) (fs.children d) fun _ => validName_of_mem_children)
  else .error (.errno .enotdir)

/-- The names of the directories directly in `d`, in directory order. -/
def dirNames (fs : FS) (d : Path) : List String :=
  ((fs.children d).filter fun ne => ne.2.kind = .dir).map Prod.fst

/-- `os.Mkdir(p, perm)`. -/
def mkdir (fs : FS) (p : Path) : Option GoError × FS :=
  if h : fs.Free p then (none, fs.create p .dir rootMeta h) else (some (.errno (fs.takenErr p)), fs)

/-- `os.MkdirAll` below the directory `done`: each missing component is made with `os.Mkdir`,
a component that is not a directory fails with `ENOTDIR`. -/
def mkdirAllFrom (fs : FS) (done : Path) : List String → Option GoError × FS
  | [] => (none, fs)
  | n :: rest =>
    match fs.follow maxSymlinks (done ++ [n]) with
    | .ok q => if fs.isDir q then fs.mkdirAllFrom (done ++ [n]) rest else (some (.errno .enotdir), fs)
    | .error .enoent =>
      match fs.mkdir (done ++ [n]) with
      | (none, fs') => fs'.mkdirAllFrom (done ++ [n]) rest
      | (some e, fs') => (some e, fs')
    | .error e => (some (.errno e), fs)

/-- `os.MkdirAll(p, perm)`. -/
def mkdirAll (fs : FS) (p : Path) : Option GoError × FS := fs.mkdirAllFrom [] p

/-- `os.Link(src, dst)`: a new name for the inode of `src`, which must not be a directory. -/
def link (fs : FS) (src dst : Path) : Option GoError × FS :=
  match h : fs.lookup src with
  | none => (some (.errno (fs.missingErr src)), fs)
  | some e =>
    if e.kind = .dir then (some (.errno .eperm), fs)
    else if hd : fs.Free dst then (none, fs.addLink dst e hd (fs.fresh _ (lookup_eq_some.1 h)))
    else (some (.errno (fs.takenErr dst)), fs)

theorem under_upClosed (p : Path) : UpClosed fun q => decide (p <+: q) := by
  intro q r hq hqr
  simp only [decide_eq_true_eq] at hq ⊢
  exact hq.trans hqr

/-- Everything at or below `p`, as `os.RemoveAll` and `rm -rf` remove it. -/
def eraseUnder (fs : FS) (p : Path) (hp : p ≠ []) : FS :=
  fs.eraseIf (fun q => decide (p <+: q)) (under_upClosed p) (by simpa using hp)

/-- `os.Remove(p)`: an entry that is not a directory, or an empty directory. -/
def remove (fs : FS) (p : Path) : Option GoError × FS :=
  if hp : p = [] then (some (.errno .ebusy), fs)
  else
    match fs.lookup p with
    | none => (some (.errno (fs.missingErr p)), fs)
    | some e =>
      if e.kind = .dir ∧ fs.children p ≠ [] then (some (.errno .enotempty), fs)
      else (none, fs.eraseUnder p hp)

/-- `os.RemoveAll(p)`: nothing to do when `p` is absent; the root itself cannot go. -/
def removeAll (fs : FS) (p : Path) : Option GoError × FS :=
  if hp : p = [] then
    (some (.errno .ebusy), fs.eraseIf (fun q => decide (q ≠ [])) (fun q r hq hqr => by
      simp only [decide_eq_true_eq] at hq ⊢; rintro rfl; exact hq (List.prefix_nil.1 hqr)) rfl)
  else if (fs.lookup p).isSome then (none, fs.eraseUnder p hp) else (none, fs)

/-- What a failed `os.Remove(p)` or `os.RemoveAll(p)` may leave of `fs`: some entries at or
below `p` gone, and nothing else changed. -/
structure PartlyRemoved (p : Path) (fs fs' : FS) : Prop where
  meta : fs'.meta = fs.meta
  sub : ∀ q e, fs'.lookup q = some e → fs.lookup q = some e
  keep : ∀ q, ¬ p <+: q → fs'.lookup q = fs.lookup q

/-- Owner and group of inode `i` set to `uid`, `gid`. -/
def setOwner (fs : FS) (i uid gid : Nat) : FS := fs.setMeta i { fs.meta i with uid, gid }

/-- The owner and group of inode `i`. -/
def owner (fs : FS) (i : Nat) : Nat × Nat := ((fs.meta i).uid, (fs.meta i).gid)

/-- `syscall.Chown(p, uid, gid)`: the inode reached by following final symbolic links. -/
def chown (fs : FS) (p : Path) (uid gid : Nat) : Option GoError × FS :=
  match fs.follow maxSymlinks p with
  | .ok q =>
    match fs.lookup q with
    | some e => (none, fs.setOwner e.ino uid gid)
    | none => (some (.errno .enoent), fs)
  | .error e => (some (.errno e), fs)

/-- `chown -R uid:gid p`: every entry at or below `p`, symbolic links themselves included. -/
def chownTree (fs : FS) (p : Path) (uid gid : Nat) : FS :=
  (fs.entries.filter fun qe => decide (p <+: qe.1)).foldl (fun fs qe => fs.setOwner qe.2.ino uid gid) fs

/-! ## What the calls return -/

variable {fs : FS}

theorem isDir_of_lookup {p : Path} {i : Nat} (h : fs.lookup p = some ⟨.dir, i⟩) : fs.isDir p = true :=
  isDir_iff.2 ⟨i, lookup_eq_some.1 h⟩

theorem lookup_of_isDir {p : Path} (h : fs.isDir p = true) : ∃ i, fs.lookup p = some ⟨.dir, i⟩ :=
  (isDir_iff.1 h).imp fun _ => lookup_eq_some.2

/-- An entry's directory is a directory. -/
theorem isDir_of_lookup_append {p : Path} {n : String} {e : Entry} (h : fs.lookup (p ++ [n]) = some e) :
    fs.isDir p = true := by
  simpa using fs.closed _ (lookup_eq_some.1 h) (by simp)

theorem validName_of_lookup {p : Path} {e : Entry} (h : fs.lookup p = some e) {n : String}
    (hn : n ∈ p) : ValidName n :=
  fs.names _ (lookup_eq_some.1 h) n hn

theorem mem_children {d : Path} {n : String} {e : Entry} :
    (n, e) ∈ fs.children d ↔ fs.lookup (d ++ [n]) = some e := by
  rw [lookup_eq_some, children, List.mem_filterMap]
  constructor
  · rintro ⟨⟨q, e'⟩, hq, h⟩
    split at h
    · obtain ⟨n', hn', h'⟩ := Option.map_eq_some'.1 h
      cases h'
      rename_i hd
      rwa [← hd, List.dropLast_append_getLast? _ hn']
    · cases h
  · exact fun h => ⟨(d ++ [n], e), h, by simp⟩

/-- The entries `Readdir` lists are the entries of the directory, by name and kind. -/
theorem exists_mem_readdir {d : Path} {l : List Dirent} (h : fs.readdir d = .ok l) {n : String}
    {k : Kind} : (∃ x ∈ l, x.name = n ∧ x.kind = k) ↔ ∃ i, fs.lookup (d ++ [n]) = some ⟨k, i⟩ := by
  unfold readdir at h
  split at h
  · cases h
    simp only [List.mem_pmap]
    constructor
    · rintro ⟨_, ⟨⟨n', k', i⟩, hne, rfl⟩, rfl, rfl⟩
      exact ⟨i, mem_children.1 hne⟩
    · rintro ⟨i, hi⟩
      exact ⟨_, ⟨(n, ⟨k, i⟩), mem_children.2 hi, rfl⟩, rfl, rfl⟩
  · cases h

/-- A directory lists each name once. -/
theorem nodup_children (d : Path) : ((fs.children d).map Prod.fst).Nodup := by
  have hf : ∀ qe : Path × Entry, Option.map Prod.fst
      (if qe.1.dropLast = d then qe.1.getLast?.map (·, qe.2) else none) =
      (fun q : Path => if q.dropLast = d then q.getLast? else none) qe.1 := by
    intro qe; by_cases h : qe.1.dropLast = d <;> simp [h, Function.comp_def]
  rw [children, List.map_filterMap, funext hf]
  show (List.filterMap ((fun q : Path => if q.dropLast = d then q.getLast? else none) ∘ Prod.fst)
    fs.entries).Nodup
  rw [← List.filterMap_map]
  refine fs.nodup.filterMap fun q q' n hq hq' => ?_
  simp only [Option.mem_def, Option.ite_none_right_eq_some] at hq hq'
  rw [← List.dropLast_append_getLast? _ hq.2, ← List.dropLast_append_getLast? _ hq'.2, hq.1, hq'.1]

theorem nodup_dirNames (d : Path) : (fs.dirNames d).Nodup :=
  (nodup_children d).sublist ((List.filter_sublist _).map _)

theorem mem_dirNames {d : Path} {n : String} :
    n ∈ fs.dirNames d ↔ ∃ i, fs.lookup (d ++ [n]) = some ⟨.dir, i⟩ := by
  simp only [dirNames, List.mem_map, List.mem_filter, decide_eq_true_eq]
  constructor
  · rintro ⟨⟨n, k, i⟩, ⟨he, hk⟩, rfl⟩
    cases hk
    exact ⟨i, mem_children.1 he⟩
  · rintro ⟨i, hi⟩
    exact ⟨(n, ⟨.dir, i⟩), ⟨mem_children.2 hi, rfl⟩, rfl⟩

theorem map_readdir {d : Path} {l : List Dirent} (h : fs.readdir d = .ok l) :
    l.map Dirent.toFileInfo = (fs.children d).map fun ne => fs.info ne.1 ne.2 := by
  unfold readdir at h
  split at h
  · cases h
    rw [List.map_pmap]
    exact List.pmap_eq_map _ _ _ _
  · cases h

/-- The directories `Readdir` lists are those of `dirNames`, in order. -/
theorem dirNames_of_readdir {d : Path} {l : List Dirent} (h : fs.readdir d = .ok l) :
    (l.filter Dirent.isDir).map (·.name) = fs.dirNames d := by
  have := congrArg (fun l => (l.filter FileInfo.isDir).map FileInfo.name) (map_readdir h)
  simpa [List.filter_map, Function.comp_def, dirNames, info, FileInfo.isDir, Dirent.isDir] using this

theorem openFile_of_isDir {p : Path} (h : fs.isDir p = true) : fs.openFile p = .ok p := by
  obtain ⟨i, hi⟩ := isDir_iff.1 h
  simp [openFile, maxSymlinks, follow, lookup_eq_some.2 hi]
  rfl

theorem lookup_of_lstat_ok {p : Path} {fi : FileInfo} (h : fs.lstat p = .ok fi) :
    (fs.lookup p).isSome := by
  unfold lstat at h
  split at h
  · rename_i heq; simp [heq]
  · cases h

/-- What a successful `os.Lstat` reports is the entry at its path: its kind, owner and group. -/
theorem lstat_ok {p : Path} {fi : FileInfo} (h : fs.lstat p = .ok fi) :
    ∃ e, fs.lookup p = some e ∧ fi.kind = e.kind ∧ (fi.uid, fi.gid) = fs.owner e.ino := by
  unfold lstat at h
  split at h
  · rename_i e he
    cases h
    exact ⟨e, he, rfl, rfl⟩
  · cases h

theorem isDir_of_lstat {p : Path} {fi : FileInfo} (h : fs.lstat p = .ok fi) (hd : fi.isDir = true) :
    fs.isDir p = true := by
  obtain ⟨⟨k, i⟩, he, hk, -⟩ := lstat_ok h
  obtain rfl : k = .dir := hk.symm.trans (of_decide_eq_true hd)
  exact isDir_of_lookup he

theorem lookup_of_lstat_error {p : Path} {e : GoError} (h : fs.lstat p = .error e) :
    fs.lookup p = none := by
  unfold lstat at h
  split at h
  · cases h
  · assumption

/-- A path strictly above an entry is a directory. -/
theorem isDir_of_lookup_below {p q : Path} {e : Entry} (he : fs.lookup q = some e) (hpq : p <+: q)
    (hne : p ≠ q) : fs.isDir p = true := by
  have hq0 : q ≠ [] := by rintro rfl; exact hne (List.prefix_nil.1 hpq)
  have hpd : p <+: q.dropLast := by
    rw [← List.dropLast_append_getLast hq0] at hpq
    exact (List.prefix_concat_iff.1 hpq).resolve_left fun h =>
      hne (h.trans (List.dropLast_append_getLast hq0))
  exact isDir_above (fs.closed _ (lookup_eq_some.1 he) hq0) hpd

/-- Nothing is below a path that is not there. -/
theorem lookup_eq_none_below {p q : Path} (hp : fs.lookup p = none) (hq : p <+: q) :
    fs.lookup q = none := by
  cases hl : fs.lookup q with
  | none => rfl
  | some e =>
    by_cases hpq : p = q
    · rw [hpq, hl] at hp; cases hp
    · obtain ⟨i, hi⟩ := lookup_of_isDir (isDir_of_lookup_below hl hq hpq)
      rw [hi] at hp; cases hp

theorem lookup_eraseUnder {p q : Path} (hp : p ≠ []) (hq : p <+: q) :
    (fs.eraseUnder p hp).lookup q = none :=
  (lookupIn_filter fs.entries (fun q => decide (p <+: q)) q).trans (if_pos (decide_eq_true hq))

/-- After `os.RemoveAll(p)` of a path other than the root, nothing is at or below `p`. -/
theorem lookup_removeAll {p q : Path} (hp : p ≠ []) (hq : p <+: q) :
    (fs.removeAll p).2.lookup q = none := by
  unfold removeAll
  rw [dif_neg hp]
  split
  · exact lookup_eraseUnder hp hq
  · exact lookup_eq_none_below (Option.not_isSome_iff_eq_none.1 ‹_›) hq

/-- `os.RemoveAll` only removes: an entry after it was there before, and no inode changes. -/
theorem removeAll_sub {p q : Path} {e : Entry} (h : (fs.removeAll p).2.lookup q = some e) :
    fs.lookup q = some e ∧ (fs.removeAll p).2.meta = fs.meta := by
  revert h
  unfold removeAll
  split
  · dsimp only
    rw [lookup_eraseIf]
    split
    · intro h; cases h
    · exact fun h => ⟨h, rfl⟩
  · split
    · dsimp only
      rw [eraseUnder, lookup_eraseIf]
      split
      · intro h; cases h
      · exact fun h => ⟨h, rfl⟩
    · exact fun h => ⟨h, rfl⟩

theorem PartlyRemoved.refl (p : Path) : fs.PartlyRemoved p fs := ⟨rfl, fun _ _ h => h, fun _ _ => rfl⟩

/-- Removing whole subtrees at or below `p` removes part of what is at or below `p`. -/
theorem PartlyRemoved.eraseIf {p : Path} {P : Path → Bool} {hup : UpClosed P} {hroot : P [] = false}
    (hP : ∀ q, P q = true → p <+: q) : fs.PartlyRemoved p (fs.eraseIf P hup hroot) := by
  refine ⟨rfl, fun q e he => ?_, fun q hq => ?_⟩
  · rw [lookup_eraseIf] at he
    split at he
    · cases he
    · exact he
  · rw [lookup_eraseIf, if_neg fun h => hq (hP q h)]

theorem PartlyRemoved.eraseUnder {p : Path} (hp : p ≠ []) : fs.PartlyRemoved p (fs.eraseUnder p hp) :=
  .eraseIf fun _ h => of_decide_eq_true h

/-- What `os.RemoveAll` does when nothing stands in the way is one of its partial removals. -/
theorem partlyRemoved_removeAll (p : Path) : fs.PartlyRemoved p (fs.removeAll p).2 := by
  unfold removeAll
  split
  · rename_i hp
    subst hp
    dsimp only
    exact .eraseIf fun _ _ => List.nil_prefix
  · split
    · exact .eraseUnder ‹_›
    · exact .refl p

/-- What `os.Remove` does when nothing stands in the way is one of its partial removals. -/
theorem partlyRemoved_remove (p : Path) : fs.PartlyRemoved p (fs.remove p).2 := by
  unfold remove
  split
  · exact .refl p
  · split
    · exact .refl p
    · split
      · exact .refl p
      · exact .eraseUnder ‹_›

/-- `chown -R` changes no entry. -/
@[simp] theorem lookup_chownTree (p q : Path) (uid gid : Nat) :
    (fs.chownTree p uid gid).lookup q = fs.lookup q := by
  unfold chownTree
  generalize fs.entries.filter (fun qe => decide (p <+: qe.1)) = l
  induction l generalizing fs with
  | nil => rfl
  | cons qe l ih => rw [List.foldl_cons, ih]; rfl

theorem owner_setOwner (i j uid gid : Nat) :
    (fs.setOwner i uid gid).owner j = if j = i then (uid, gid) else fs.owner j := by
  by_cases h : j = i <;> simp [setOwner, setMeta, owner, h]

/-- `syscall.Chown` changes no entry. -/
@[simp] theorem entries_chown (p : Path) (uid gid : Nat) : (fs.chown p uid gid).2.entries = fs.entries := by
  unfold chown
  split
  · split <;> rfl
  · rfl

@[simp] theorem lookup_chown (p q : Path) (uid gid : Nat) : (fs.chown p uid gid).2.lookup q = fs.lookup q := by
  unfold lookup
  rw [entries_chown]

/-- `syscall.Chown` gives an inode the owner `uid`, `gid` or leaves it as it was. -/
theorem owner_chown (p : Path) (uid gid j : Nat) :
    (fs.chown p uid gid).2.owner j = fs.owner j ∨ (fs.chown p uid gid).2.owner j = (uid, gid) := by
  unfold chown
  split
  · split
    · rw [owner_setOwner]; split
      · exact .inr rfl
      · exact .inl rfl
    · exact .inl rfl
  · exact .inl rfl

/-- `syscall.Chown` changes no inode's contents. -/
@[simp] theorem data_chown (p : Path) (uid gid i : Nat) :
    ((fs.chown p uid gid).2.meta i).data = (fs.meta i).data := by
  unfold chown
  split
  · split
    · simp only [setOwner, setMeta]
      split <;> simp_all
    · rfl
  · rfl

/-- `syscall.Chown` of an entry that is no symbolic link sets its own inode's owner. -/
theorem chown_of_lookup {p : Path} {e : Entry} (he : fs.lookup p = some e) (hk : ∀ t, e.kind ≠ .symlink t)
    (uid gid : Nat) : fs.chown p uid gid = (none, fs.setOwner e.ino uid gid) := by
  obtain ⟨k, i⟩ := e
  have hf : fs.follow maxSymlinks p = .ok p := by
    cases k with
    | symlink t => exact absurd rfl (hk t)
    | _ => simp [maxSymlinks, follow, he]
  simp [chown, hf, he]

/-- A successful `os.Mkdir` makes a directory. -/
theorem isDir_mkdir {p : Path} (h : (fs.mkdir p).1 = none) : (fs.mkdir p).2.isDir p = true := by
  unfold mkdir at h ⊢
  split
  · exact isDir_of_lookup (by rw [lookup_create, if_pos rfl])
  · rw [dif_neg ‹_›] at h; cases h

/-- `os.Mkdir` succeeds only where nothing is. -/
theorem lookup_of_mkdir_ok {p : Path} (h : (fs.mkdir p).1 = none) : fs.lookup p = none := by
  unfold mkdir at h
  split at h
  · exact ‹fs.Free p›.2.1
  · cases h

theorem lookup_of_follow_ok {n : Nat} {p q : Path} (h : fs.follow n p = .ok q) : (fs.lookup p).isSome := by
  cases n with
  | zero => cases h
  | succ n =>
    cases hl : fs.lookup p with
    | none => simp [follow, hl] at h
    | some e => rfl

/-- A successful `os.MkdirAll` below an entry leaves an entry at its path. -/
theorem lookup_mkdirAllFrom {done : Path} {rest : List String} (hd : (fs.lookup done).isSome)
    (h : (fs.mkdirAllFrom done rest).1 = none) :
    ((fs.mkdirAllFrom done rest).2.lookup (done ++ rest)).isSome := by
  induction rest generalizing fs done with
  | nil => simpa [mkdirAllFrom] using hd
  | cons n rest ih =>
    rw [show done ++ n :: rest = done ++ [n] ++ rest by simp]
    unfold mkdirAllFrom at h ⊢
    split at h
    · rename_i hf
      split at h
      · rw [if_pos ‹_›]
        exact ih (lookup_of_follow_ok hf) h
      · cases h
    · split at h
      · rename_i fs' hm
        have hd' := @isDir_mkdir fs (done ++ [n]) (by rw [hm])
        rw [hm] at hd'
        obtain ⟨i, hi⟩ := lookup_of_isDir hd'
        exact ih (by simp [hi]) h
      · cases h
    · cases h

/-- A successful `os.MkdirAll` leaves an entry at its path. -/
theorem lookup_mkdirAll {p : Path} (h : (fs.mkdirAll p).1 = none) : ((fs.mkdirAll p).2.lookup p).isSome := by
  obtain ⟨i, hi⟩ := lookup_of_isDir fs.root
  exact @lookup_mkdirAllFrom fs [] p (by simp [hi]) h

/-- What `os.Link` can do: add its destination as a name of its source's entry, which is no
directory, or fail and change nothing. -/
theorem link_cases (src dst : Path) :
    (∃ e hd he, fs.lookup src = some e ∧ e.kind ≠ .dir ∧ fs.link src dst = (none, fs.addLink dst e hd he)) ∨
      ((fs.link src dst).1.isSome ∧ (fs.link src dst).2 = fs) := by
  unfold link
  split
  · exact .inr ⟨rfl, rfl⟩
  · rename_i e heq
    split
    · exact .inr ⟨rfl, rfl⟩
    · split
      · exact .inl ⟨e, ‹_›, fs.fresh _ (lookup_eq_some.1 heq), heq, ‹_›, rfl⟩
      · exact .inr ⟨rfl, rfl⟩

/-- A successful `os.Link` gives its destination the entry of its source. -/
theorem lookup_link {src dst : Path} (h : (fs.link src dst).1 = none) :
    ∃ e, fs.lookup src = some e ∧ (fs.link src dst).2.lookup dst = some e := by
  rcases link_cases src dst with ⟨e, hd, he, hs, -, heq⟩ | ⟨hne, -⟩
  · rw [heq]
    exact ⟨e, hs, by rw [lookup_addLink, if_pos rfl]⟩
  · rw [h] at hne; cases hne

end FS

end Shield
