import Shield.Go.Match
import Shield.Go.Sort

/-!
# `filepath.Glob` and `filepath.Walk` on a file system

The two `path/filepath` functions the xtrabackup plugin's `Restore` calls, in their Go 1.7
form, as functions of the file system:

* `FS.glob` is `Glob(pattern)`: a pattern whose directory part has no meta character is
  matched against the sorted names of that one directory (reached with `os.Stat`, so through
  a final symbolic link); otherwise `Glob` first globs the directory part, and matches in
  each directory found;
* `FS.walkOrder` is the order in which `Walk` hands paths to its callback: the root, then
  each entry in sorted name order, descending into a directory that `os.Lstat` reports as
  one; `FS.walkChown` runs `Restore`'s callback, `syscall.Chown`, on each path in turn.
-/

namespace Shield

open Go

namespace FS

/-- The names of the entries of directory `d`, as `Readdirnames` lists them. -/
def entryNames (fs : FS) (d : Path) : List String := (fs.children d).map (·.1)

/-- The lower-case `glob(dir, pattern, matches)`: the names in `dir` that match, in sorted
order, appended to `found` as `filepath.Join(dir, name)`.  A `dir` that cannot be reached
or is no directory adds nothing, and is no error. -/
def globIn (fs : FS) (dir : String) (pattern : List Char) (found : List String) :
    Except GoError (List String) :=
  match fs.follow maxSymlinks (cleanPath dir) with
  | .error _ => .ok found
  | .ok q =>
    if fs.isDir q then
      (sortStrings (fs.entryNames q)).foldlM (fun acc n =>
        (matchPattern pattern n.data).map fun hit => if hit then acc ++ [goJoin dir n] else acc)
        found
    else .ok found

/-- `filepath.Glob(pattern)`, with fuel for its recursion on the directory part of the
pattern, which is shorter than the pattern. -/
def globFuel (fs : FS) : Nat → String → Except GoError (List String)
  | 0, _ => .ok []
  | fuel + 1, pattern =>
    if !hasMeta pattern.data then
      match fs.lstat (cleanPath pattern) with
      | .ok _ => .ok [pattern]
      | .error _ => .ok []
    else
      let dir := cleanGlobPath (splitPath pattern.data).1
      let file := (splitPath pattern.data).2
      if !hasMeta dir then fs.globIn ⟨dir⟩ file []
      else if dir = pattern.data then .error errBadPattern
      else do
        let m ← fs.globFuel fuel ⟨dir⟩
        m.foldlM (fun acc d => fs.globIn d file acc) []

/-- `filepath.Glob(pattern)`. -/
def glob (fs : FS) (pattern : String) : Except GoError (List String) :=
  fs.globFuel (pattern.length + 1) pattern

/-- The paths `filepath.Walk` hands to its callback from `p`, in order, with fuel for the
depth: `p`, then, for a directory, what each of its entries leads to, in sorted name order. -/
def walkOrder (fs : FS) : Nat → Path → List Path
  | 0, p => [p]
  | n + 1, p =>
    if fs.isDir p then
      p :: (sortStrings (fs.entryNames p)).flatMap fun c => fs.walkOrder n (p ++ [c])
    else [p]

/-- One call of `Restore`'s `Walk` callback on `p`, once the walk has gone so far: after an
error the walk has stopped; otherwise `syscall.Chown(p, uid, gid)`. -/
def chownStep (uid gid : Nat) (acc : Option GoError × FS) (p : Path) : Option GoError × FS :=
  match acc.1 with
  | some e => (some e, acc.2)
  | none => acc.2.chown p uid gid

/-- `filepath.Walk(root, fn)` with `Restore`'s callback, which calls `syscall.Chown(path, uid,
gid)` on each path and returns its error; the first error ends the walk.  A missing root
is handed to the callback with `os.Lstat`'s error, which it returns.  The callback changes no
entry, so the order computed before the walk is the order of the walk. -/
def walkChown (fs : FS) (root : Path) (uid gid : Nat) : Option GoError × FS :=
  match fs.lookup root with
  | none => (some (.errno (fs.missingErr root)), fs)
  | some _ => (fs.walkOrder fs.entries.length root).foldl (chownStep uid gid) (none, fs)

variable {fs : FS}

/-! ## What `Glob` finds in a directory -/

/-- Matched against a lone star, every name without a slash is joined to `dir`. -/
theorem foldlM_star (dir : String) (L : List String) (hL : ∀ n ∈ L, '/' ∉ n.data) (acc : List String) :
    L.foldlM (fun acc n => (matchPattern ['*'] n.data).map fun hit =>
      if hit then acc ++ [goJoin dir n] else acc) acc = .ok (acc ++ L.map (goJoin dir)) := by
  induction L generalizing acc with
  | nil => simp [pure, Except.pure]
  | cons n L ih =>
    rw [List.foldlM_cons, matchPattern_star n.data, decide_eq_true (hL n (.head _))]
    exact (ih (fun m hm => hL m (.tail _ hm)) _).trans (by simp)

/-- **`filepath.Glob(D + "/*")`** for a path `D` with no meta character that names a directory:
the names of its entries, sorted, each joined to `D`. -/
theorem glob_star {D : String} (hD : D ≠ "") (hm : hasMeta D.data = false)
    (hd : fs.isDir (cleanPath D) = true) :
    fs.glob (D ++ "/*") = .ok ((sortStrings (fs.entryNames (cleanPath D))).map (goJoin D)) := by
  obtain ⟨i, hi⟩ := lookup_of_isDir hd
  have hD' : D.data ≠ [] := fun h => hD (congrArg String.mk h)
  have hdata : (D ++ "/*").data = D.data ++ ['/', '*'] := by simp
  have hf : fs.follow maxSymlinks (cleanPath D) = .ok (cleanPath D) := by simp [maxSymlinks, follow, hi]
  have hL : ∀ n ∈ sortStrings (fs.entryNames (cleanPath D)), '/' ∉ n.data := by
    intro n hn
    obtain ⟨ne, hne, rfl⟩ := List.mem_map.1 (mem_sortStrings.1 hn)
    exact (validName_of_mem_children hne).2.2.2
  simp only [glob, globFuel, hdata, splitPath_append_slash _ (by decide : '*' ≠ '/'),
    cleanGlobPath_append_slash hD', hm]
  simp [hasMeta, globIn, hf, hd, foldlM_star _ _ hL]

/-! ## What the walk reaches, and the owners it leaves -/

/-- Every entry at or below `p`, at most `n` levels down, is handed to the callback. -/
theorem mem_walkOrder (n : Nat) {p q : Path} {e : Entry} (hpq : p <+: q) (he : fs.lookup q = some e)
    (hlen : q.length ≤ p.length + n) : q ∈ fs.walkOrder n p := by
  induction n generalizing p with
  | zero =>
    rw [hpq.eq_of_length (le_antisymm hpq.length_le (by omega))]
    simp [walkOrder]
  | succ n ih =>
    by_cases hqp : p = q
    · subst hqp
      unfold walkOrder
      split <;> simp
    obtain ⟨r, rfl⟩ := hpq
    obtain ⟨c, r, rfl⟩ : ∃ c r', r = c :: r' :=
      List.exists_cons_of_ne_nil fun h => hqp (by simp [h])
    have hc : ∃ e', fs.lookup (p ++ [c]) = some e' := by
      by_cases hr : r = []
      · subst hr; exact ⟨e, he⟩
      · have hd : fs.isDir (p ++ [c]) = true := isDir_of_lookup_below he ⟨r, by simp⟩
          fun h => hr (List.cons.inj (List.append_cancel_left h)).2.symm
        obtain ⟨i, hi⟩ := lookup_of_isDir hd
        exact ⟨_, hi⟩
    obtain ⟨e', he'⟩ := hc
    have hmem : c ∈ fs.entryNames p := List.mem_map.2 ⟨(c, e'), mem_children.2 he', rfl⟩
    unfold walkOrder
    rw [if_pos (isDir_of_lookup_below he ⟨c :: r, rfl⟩ hqp)]
    refine List.mem_cons_of_mem _ (List.mem_flatMap.2 ⟨c, mem_sortStrings.2 hmem, ih ⟨r, by simp⟩ ?_⟩)
    simp only [List.length_append, List.length_cons, List.length_singleton] at hlen ⊢
    omega

/-- An entry's path is shorter than the list of entries: each path above it is an entry too. -/
theorem length_lt_of_lookup {q : Path} {e : Entry} (he : fs.lookup q = some e) :
    q.length < fs.entries.length := by
  have hsub : ∀ k ∈ List.range (q.length + 1), q.take k ∈ fs.entries.map Prod.fst := by
    intro k _
    by_cases hkq : q.take k = q
    · rw [hkq]; exact List.mem_map_of_mem _ (lookup_eq_some.1 he)
    · obtain ⟨i, hi⟩ := lookup_of_isDir (isDir_of_lookup_below he (List.take_prefix k q) hkq)
      exact List.mem_map_of_mem _ (lookup_eq_some.1 hi)
  have hnd : ((List.range (q.length + 1)).map q.take).Nodup :=
    List.Nodup.map_on (fun a ha b hb hab => by
      have := congrArg List.length hab
      simp only [List.length_take, List.mem_range] at this ha hb
      omega) (List.nodup_range _)
  have := (List.subperm_of_subset hnd fun x hx => by
    obtain ⟨k, hk, rfl⟩ := List.mem_map.1 hx
    exact hsub k hk).length_le
  simp only [List.length_map, List.length_range] at this
  omega

/-- Once all its calls succeed, `Chown` after `Chown` has given every path handed over that is no
symbolic link, and every inode that had it before, the owner `uid`, `gid`. -/
theorem owner_foldl_chownStep (uid gid : Nat) (L : List Path) (acc : Option GoError × FS)
    (h : (L.foldl (chownStep uid gid) acc).1 = none) {i : Nat}
    (hi : acc.2.owner i = (uid, gid) ∨ ∃ p ∈ L, ∃ e, acc.2.lookup p = some e ∧
      (∀ t, e.kind ≠ .symlink t) ∧ e.ino = i) :
    (L.foldl (chownStep uid gid) acc).2.owner i = (uid, gid) := by
  induction L generalizing acc with
  | nil => simpa using hi
  | cons p L ih =>
    obtain ⟨r, fs₀⟩ := acc
    cases r with
    | some e =>
      have : ∀ L' : List Path, L'.foldl (chownStep uid gid) (some e, fs₀) = (some e, fs₀) := by
        intro L'; induction L' <;> simp [chownStep, *]
      rw [List.foldl_cons, show chownStep uid gid (some e, fs₀) p = (some e, fs₀) from rfl, this] at h
      cases h
    | none =>
      refine ih _ h ?_
      show (fs₀.chown p uid gid).2.owner i = (uid, gid) ∨ ∃ p' ∈ L, ∃ e,
        (fs₀.chown p uid gid).2.lookup p' = some e ∧ (∀ t, e.kind ≠ .symlink t) ∧ e.ino = i
      rcases hi with hi | ⟨p', hp', e, he, hk, rfl⟩
      · exact .inl ((owner_chown p uid gid i).elim (·.trans hi) id)
      · rcases List.mem_cons.1 hp' with rfl | hp'
        · left
          rw [chown_of_lookup he hk, owner_setOwner, if_pos rfl]
        · exact .inr ⟨p', hp', e, by rwa [lookup_chown], hk, rfl⟩

/-- **The walk's ownership change.**  When `filepath.Walk` with `Restore`'s callback returns
nil, every entry at or below the root that is no symbolic link has the owner `uid`, `gid`; the
entries themselves are as they were. -/
theorem walkChown_owner {root q : Path} {e : Entry} {uid gid : Nat}
    (h : (fs.walkChown root uid gid).1 = none) (hq : root <+: q) (he : fs.lookup q = some e)
    (hk : ∀ t, e.kind ≠ .symlink t) : (fs.walkChown root uid gid).2.owner e.ino = (uid, gid) := by
  unfold walkChown at h ⊢
  split at h
  · cases h
  · exact owner_foldl_chownStep uid gid _ _ h (.inr ⟨q, mem_walkOrder _ hq he
      (by have := length_lt_of_lookup he; omega), e, he, hk, rfl⟩)

/-- A property of the file system that every `syscall.Chown` keeps holds after the walk. -/
theorem walkChown_keeps {uid gid : Nat} {P : FS → Prop} (hP : ∀ fs p, P fs → P (fs.chown p uid gid).2) (root : Path)
    (h : P fs) : P (fs.walkChown root uid gid).2 := by
  unfold walkChown
  split
  · exact h
  · generalize fs.walkOrder fs.entries.length root = L
    suffices ∀ acc : Option GoError × FS, P acc.2 → P (L.foldl (chownStep uid gid) acc).2 from this _ h
    induction L with
    | nil => exact fun _ h => h
    | cons p L ih =>
      intro acc hacc
      rw [List.foldl_cons]
      refine ih _ ?_
      unfold chownStep
      split
      · exact hacc
      · exact hP _ _ hacc

@[simp] theorem entries_walkChown (root : Path) (uid gid : Nat) :
    (fs.walkChown root uid gid).2.entries = fs.entries :=
  @walkChown_keeps fs uid gid (fun fs' => fs'.entries = fs.entries)
    (fun _ _ h => (entries_chown _ _ _).trans h) root rfl

/-- The walk changes no inode's contents. -/
@[simp] theorem data_walkChown (root : Path) (uid gid i : Nat) :
    ((fs.walkChown root uid gid).2.meta i).data = (fs.meta i).data :=
  @walkChown_keeps fs uid gid (fun fs' => (fs'.meta i).data = (fs.meta i).data)
    (fun _ _ h => (data_chown _ _ _ _).trans h) root rfl

end FS

end Shield
