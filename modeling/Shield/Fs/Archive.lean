import Shield.Fs.Ops

/-!
# Archives: what `tar -c` writes and what `tar -x` makes of it

An archive lists the entries below a directory by their paths relative to it, each with its
kind, owner and contents, in the order the file system lists them.  `FS.archive` writes one and
`FS.extract` unpacks one below a directory, creating each entry in turn.

* `Archive.WF`: what an archive `tar` writes satisfies, as a structure of named facts: distinct
  non-empty relative paths of valid names, each entry's directory an entry of the archive
  listed before it;
* `archive_wf`: **every archive of a file system is well formed**;
* `extract_spec`: **unpacking a well-formed archive into a directory with nothing below it
  makes exactly the archive's entries below it, each with its kind, owner and contents**;
* `extract_archive`: **the round trip `tar -c | tar -x` into an empty directory reproduces the
  tree below the source directory**, entry by entry; hard links become separate inodes;
* `archive_extract`: **the other round trip, `tar -x | tar -c`, gives back the archive**, in
  order.

The model departs from GNU `tar` in three ways that none of the results above depends on.  It
lists entries in the order they were created, where `tar` reads each directory in the order
the directory gives and descends into it at once; it writes no entry for the directory itself
and no leading `./`, where `tar -c -C d .` writes `./` and `./name`, and `tar -x` of `./` then
sets the owner of the directory it unpacks into; and it keeps entries of kind `other`, where
`tar` leaves sockets out.
-/

namespace Shield

/-- An archive as `tar` writes it: the entries below a directory, by their paths relative to
it, parents first, with their kinds, owners and contents. -/
abbrev Archive := List (Path × Kind × Meta)

namespace FS

/-- `tar -c -C d .`: the entries strictly below `d`, in directory order. -/
def archive (fs : FS) (d : Path) : Archive :=
  fs.entries.filterMap fun pe =>
    if d <+: pe.1 ∧ pe.1 ≠ d then some (pe.1.drop d.length, pe.2.kind, fs.meta pe.2.ino) else none

/-- `tar -x -C d`: each entry of the archive made below `d`, in order. -/
def extract (fs : FS) (d : Path) (a : Archive) : FS :=
  fs.createAll (a.map fun e => (d ++ e.1, e.2))

end FS

/-! ## Well-formed archives -/

/-- An archive as `tar -c` writes it. -/
structure Archive.WF (A : Archive) : Prop where
  nodup : (A.map Prod.fst).Nodup
  ne_nil : ∀ x ∈ A, x.1 ≠ []
  names : ∀ x ∈ A, ∀ n ∈ x.1, ValidName n
  closed : ∀ x ∈ A, x.1.dropLast ≠ [] → ∃ m, (x.1.dropLast, Kind.dir, m) ∈ A
  ordered : A.Pairwise fun x y => x.1.dropLast ≠ y.1

namespace Archive.WF

variable {A P : Archive} {x : Path × Kind × Meta}

/-- An entry's path is not among those listed before it. -/
theorem not_mem_before (hA : A.WF) (h : P ++ [x] <+: A) (k : Kind) (m : Meta) : (x.1, k, m) ∉ P := by
  obtain ⟨S, rfl⟩ := h
  intro hx
  have := hA.nodup
  simp only [List.append_assoc, List.singleton_append, List.map_append, List.map_cons,
    List.nodup_append, List.nodup_cons] at this
  exact this.2.2 (List.mem_map_of_mem _ hx) (List.mem_cons_self _ _)

/-- An entry's directory, when it is below the archive's root, is listed before it. -/
theorem parent_mem_before (hA : A.WF) (h : P ++ [x] <+: A) (hx : x.1.dropLast ≠ []) :
    ∃ m, (x.1.dropLast, Kind.dir, m) ∈ P := by
  obtain ⟨S, rfl⟩ := h
  obtain ⟨m, hm⟩ := hA.closed x (by simp) hx
  have hord := hA.ordered
  simp only [List.append_assoc, List.singleton_append, List.pairwise_append, List.pairwise_cons] at hord
  simp only [List.append_assoc, List.singleton_append, List.mem_append, List.mem_cons] at hm
  refine ⟨m, ?_⟩
  rcases hm with hm | hm | hm
  · exact hm
  · have hlen := congrArg (fun y : Path × Kind × Meta => y.1.length) hm
    have : x.1 ≠ [] := fun h0 => hx (by simp [h0])
    simp only [List.length_dropLast] at hlen
    exact absurd hlen (by have := List.length_pos.2 this; omega)
  · exact absurd rfl (hord.2.1.1 _ hm)

end Archive.WF

namespace FS

variable {fs : FS} {d : Path}

theorem mem_archive {x : Path × Kind × Meta} :
    x ∈ fs.archive d ↔ ∃ r e, r ≠ [] ∧ fs.lookup (d ++ r) = some e ∧ x = (r, e.kind, fs.meta e.ino) := by
  simp only [archive, List.mem_filterMap, lookup_eq_some]
  constructor
  · rintro ⟨⟨p, e⟩, hp, hx⟩
    split at hx
    · obtain ⟨⟨r, rfl⟩, hne⟩ := ‹d <+: p ∧ p ≠ d›
      refine ⟨r, e, fun h0 => hne (by simp [h0]), hp, ?_⟩
      simpa using hx.symm
    · cases hx
  · rintro ⟨r, e, hr, hp, rfl⟩
    refine ⟨(d ++ r, e), hp, ?_⟩
    rw [if_pos ⟨List.prefix_append _ _, by simpa using hr⟩]
    simp

/-- **Every archive of a file system is well formed.** -/
theorem archive_wf (fs : FS) (d : Path) : (fs.archive d).WF where
  nodup := by
    have hmap : (fs.archive d).map Prod.fst = (fs.entries.map Prod.fst).filterMap
        fun p => if d <+: p ∧ p ≠ d then some (p.drop d.length) else none := by
      rw [archive, List.map_filterMap, List.filterMap_map]
      congr 1
      funext pe
      simp only [Function.comp_apply]
      split_ifs <;> rfl
    rw [hmap]
    refine fs.nodup.filterMap fun p p' r hp hp' => ?_
    simp only [Option.mem_def, Option.ite_none_right_eq_some, Option.some.injEq] at hp hp'
    obtain ⟨⟨⟨u, rfl⟩, -⟩, rfl⟩ := hp
    obtain ⟨⟨⟨u', rfl⟩, -⟩, hu⟩ := hp'
    simp only [List.drop_left] at hu ⊢
    rw [hu]
  ne_nil := by
    intro x hx
    obtain ⟨r, e, hr, -, rfl⟩ := mem_archive.1 hx
    exact hr
  names := by
    intro x hx n hn
    obtain ⟨r, e, -, he, rfl⟩ := mem_archive.1 hx
    exact fs.names _ (lookup_eq_some.1 he) n (List.mem_append_right _ hn)
  closed := by
    intro x hx hne
    obtain ⟨r, e, hr, he, rfl⟩ := mem_archive.1 hx
    have hdir : fs.isDir (d ++ r.dropLast) = true := by
      have := fs.closed _ (lookup_eq_some.1 he) (by simp [hr])
      rwa [List.dropLast_append_of_ne_nil _ hr] at this
    obtain ⟨i, hi⟩ := lookup_of_isDir hdir
    exact ⟨fs.meta i, mem_archive.2 ⟨r.dropLast, _, hne, hi, rfl⟩⟩
  ordered := by
    refine fs.ordered.filterMap _ fun a a' haa' x hx x' hx' => ?_
    simp only [Option.mem_def, Option.ite_none_right_eq_some, Option.some.injEq] at hx hx'
    obtain ⟨⟨⟨r, hr⟩, hne⟩, rfl⟩ := hx
    obtain ⟨⟨⟨r', hr'⟩, -⟩, rfl⟩ := hx'
    rw [← hr, ← hr', List.drop_left, List.drop_left]
    intro h
    refine haa' ?_
    rw [← hr, ← hr', List.dropLast_append_of_ne_nil _ (fun h0 => hne (by simp [← hr, h0])), h]

end FS

/-! ## Unpacking -/

namespace FS

variable {fs : FS} {b : Path} {A : Archive}

theorem extract_append (fs : FS) (b : Path) (P S : Archive) :
    fs.extract b (P ++ S) = (fs.extract b P).extract b S := by
  simp [extract, createAll, List.foldl_append]

theorem extract_singleton (fs : FS) (b : Path) (x : Path × Kind × Meta) :
    fs.extract b [x] = if h : fs.Free (b ++ x.1) then fs.create (b ++ x.1) x.2.1 x.2.2 h else fs :=
  rfl

/-- A new entry joins the archive of every directory above it, last. -/
theorem archive_create (fs : FS) (d p : Path) (k : Kind) (m : Meta) (h : fs.Free p) :
    (fs.create p k m h).archive d =
      fs.archive d ++ if d <+: p ∧ p ≠ d then [(p.drop d.length, k, m)] else [] := by
  have hent : (fs.create p k m h).entries = fs.entries ++ [(p, ⟨k, fs.nextIno⟩)] := rfl
  rw [archive, hent, List.filterMap_append, archive]
  congr 1
  · refine List.filterMap_congr fun pe hpe => ?_
    rw [meta_create, if_neg (Nat.ne_of_lt (fs.fresh pe hpe))]
  · split_ifs with hc <;> simp [hc]

/-- What has been unpacked of `P` below `b`: `b` is a directory, and the entries strictly
below it are exactly those of `P`, each with its kind, owner, group and contents. -/
def Unpacked (b : Path) (P : Archive) (fs : FS) : Prop :=
  fs.isDir b = true ∧
    ∀ r, r ≠ [] → ∀ k m, (∃ i, fs.lookup (b ++ r) = some ⟨k, i⟩ ∧ fs.meta i = m) ↔ (r, k, m) ∈ P

theorem Unpacked.kind {P : Archive} (hP : Unpacked b P fs) {r : Path} (hr : r ≠ []) (k : Kind) :
    (∃ i, fs.lookup (b ++ r) = some ⟨k, i⟩) ↔ ∃ m, (r, k, m) ∈ P :=
  ⟨fun ⟨i, hi⟩ => ⟨_, (hP.2 r hr k _).1 ⟨i, hi, rfl⟩⟩,
    fun ⟨_, hm⟩ => ((hP.2 r hr k _).2 hm).imp fun _ h => h.1⟩

/-- The place of an archive's next entry is free: its path is new, its directory is already
unpacked, and its name is a valid one. -/
theorem Unpacked.free (hA : A.WF) {P : Archive} {x : Path × Kind × Meta} (h : P ++ [x] <+: A)
    (hP : Unpacked b P fs) : fs.Free (b ++ x.1) := by
  have hx : x ∈ A := h.subset (by simp)
  have hx0 : x.1 ≠ [] := hA.ne_nil x hx
  refine ⟨by simp [hx0], ?_, ?_, ?_⟩
  · cases hl : fs.lookup (b ++ x.1) with
    | none => rfl
    | some e =>
      obtain ⟨m, hm⟩ := (hP.kind hx0 e.kind).1 ⟨e.ino, hl⟩
      exact absurd hm (hA.not_mem_before h _ _)
  · rw [List.dropLast_append_of_ne_nil _ hx0]
    by_cases hp : x.1.dropLast = []
    · simpa [hp] using hP.1
    · obtain ⟨m, hm⟩ := hA.parent_mem_before h hp
      obtain ⟨i, hi⟩ := (hP.kind hp .dir).2 ⟨m, hm⟩
      exact isDir_of_lookup hi
  · intro n hn
    simp only [List.getLast?_append, List.getLast?_eq_getLast _ hx0, Option.mem_def,
      Option.or_some, Option.some.injEq] at hn
    exact hA.names x hx n (hn ▸ List.getLast_mem hx0)

/-- One entry more: creating it in its free place unpacks it. -/
theorem Unpacked.step (hA : A.WF) {P : Archive} {x : Path × Kind × Meta} (h : P ++ [x] <+: A)
    (hP : Unpacked b P fs) : Unpacked b (P ++ [x]) (fs.extract b [x]) := by
  have hx0 : x.1 ≠ [] := hA.ne_nil x (h.subset (by simp))
  have hfree := hP.free hA h
  rw [extract_singleton, dif_pos hfree]
  refine ⟨?_, fun r hr k m => ?_⟩
  · obtain ⟨i, hi⟩ := lookup_of_isDir hP.1
    have hb : (fs.create (b ++ x.1) x.2.1 x.2.2 hfree).lookup b = some ⟨.dir, i⟩ := by
      rw [lookup_create, if_neg (by simpa using hx0), hi]
    exact isDir_of_lookup hb
  · rw [lookup_create]
    by_cases hrx : r = x.1
    · subst hrx
      rw [if_pos rfl]
      simp only [Option.some.injEq, Entry.mk.injEq, meta_create]
      constructor
      · rintro ⟨i, ⟨rfl, rfl⟩, rfl⟩
        simp
      · intro hm
        rcases List.mem_append.1 hm with hm | hm
        · exact absurd hm (hA.not_mem_before h _ _)
        · obtain ⟨rfl, rfl⟩ : k = x.2.1 ∧ m = x.2.2 := by
            simpa [Prod.ext_iff] using List.mem_singleton.1 hm
          exact ⟨_, ⟨rfl, rfl⟩, if_pos rfl⟩
    · rw [if_neg (by simpa using hrx)]
      have hold : (∃ i, fs.lookup (b ++ r) = some ⟨k, i⟩ ∧
          (fs.create (b ++ x.1) x.2.1 x.2.2 hfree).meta i = m) ↔
          ∃ i, fs.lookup (b ++ r) = some ⟨k, i⟩ ∧ fs.meta i = m :=
        exists_congr fun i => and_congr_right fun hl => by
          rw [meta_create, if_neg (Nat.ne_of_lt (fs.fresh _ (lookup_eq_some.1 hl)))]
      rw [hold, hP.2 r hr k m]
      refine ⟨List.mem_append_left _, fun hm => ?_⟩
      rcases List.mem_append.1 hm with hm | hm
      · exact hm
      · exact absurd (congrArg Prod.fst (List.mem_singleton.1 hm)) hrx

section Unpack

variable (hA : A.WF) (hb : fs.isDir b = true) (hempty : ∀ q, b <+: q → q ≠ b → fs.lookup q = none)
include hA hb hempty

/-- Unpacking a well-formed archive into a directory with nothing below it: each part of the
archive, unpacked, is exactly what is below the directory. -/
theorem unpacked_of_part : ∀ P, P <+: A → Unpacked b P (fs.extract b P) := by
  intro P
  induction P using List.reverseRecOn with
  | nil =>
    refine fun _ => ⟨hb, fun r hr k m => ?_⟩
    simp only [extract, createAll, List.map_nil, List.foldl_nil, List.not_mem_nil, iff_false,
      not_exists, not_and]
    intro i
    rw [hempty _ (List.prefix_append _ _) (by simpa using hr)]
    simp
  | append_singleton P x ih =>
    intro h
    rw [extract_append]
    exact (ih ((List.prefix_append _ _).trans h)).step hA h

/-- **Unpacking a well-formed archive** into a directory with nothing below it makes exactly
the archive's entries below it, each with its kind, owner, group and contents. -/
theorem extract_spec : Unpacked b A (fs.extract b A) :=
  unpacked_of_part hA hb hempty A (List.prefix_refl _)

/-- Unpacking a well-formed archive into a directory with nothing below it: each part of the
archive, unpacked, is what `tar -c` then writes of the directory. -/
theorem archive_extract_part : ∀ P, P <+: A → (fs.extract b P).archive b = P := by
  intro P
  induction P using List.reverseRecOn with
  | nil =>
    refine fun _ => List.eq_nil_iff_forall_not_mem.2 fun x hx => ?_
    obtain ⟨r, e, hr, he, -⟩ := mem_archive.1 hx
    rw [show fs.extract b [] = fs from rfl,
      hempty _ (List.prefix_append _ _) (by simpa using hr)] at he
    cases he
  | append_singleton P x ih =>
    intro h
    have hP := (List.prefix_append _ _).trans h
    have hx0 : x.1 ≠ [] := hA.ne_nil x (h.subset (by simp))
    have hfree := (unpacked_of_part hA hb hempty P hP).free hA h
    rw [extract_append, extract_singleton, dif_pos hfree, archive_create, ih hP,
      if_pos ⟨List.prefix_append _ _, by simpa using hx0⟩, List.drop_left]

/-- **`tar -x -C b` then `tar -c -C b .` gives back the archive.**  A well-formed archive
unpacked into a directory with nothing below it is, entry for entry and in order, what `tar`
writes of that directory. -/
theorem archive_extract : (fs.extract b A).archive b = A :=
  archive_extract_part hA hb hempty A (List.prefix_refl _)

end Unpack

/-- **`tar -c -C d . | tar -x -C b`.**  Unpacked into a directory `b` with nothing below it,
the archive of `d` makes below `b` exactly the entries below `d`, each with its kind, owner,
group and contents. -/
theorem extract_archive (fs fs' : FS) (d b : Path) (hb : fs'.isDir b = true)
    (hempty : ∀ q, b <+: q → q ≠ b → fs'.lookup q = none) {r : Path} (hr : r ≠ []) (k : Kind)
    (m : Meta) :
    (∃ i, (fs'.extract b (fs.archive d)).lookup (b ++ r) = some ⟨k, i⟩ ∧
        (fs'.extract b (fs.archive d)).meta i = m) ↔
      ∃ i, fs.lookup (d ++ r) = some ⟨k, i⟩ ∧ fs.meta i = m := by
  rw [(extract_spec (archive_wf fs d) hb hempty).2 r hr k m, mem_archive]
  constructor
  · rintro ⟨r', e, -, he, hx⟩
    simp only [Prod.mk.injEq] at hx
    obtain ⟨rfl, rfl, rfl⟩ := hx
    exact ⟨e.ino, he, rfl⟩
  · rintro ⟨i, hi, rfl⟩
    exact ⟨r, ⟨k, i⟩, hr, hi, rfl⟩

end FS

end Shield
