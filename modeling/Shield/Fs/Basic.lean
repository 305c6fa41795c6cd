import Shield.Go.Path
import Mathlib.Data.List.Nodup

/-!
# The file system: entries, inodes and their invariants

The state both plugins act on.  A file system is a list of entries, one per path, each naming
an inode; an inode carries owner, group and contents.  Two entries naming one inode are hard
links to each other, which is what `os.Link` creates and what `nodetool snapshot` makes of
the live table files.  The order of the list is the order in which a directory lists its
entries, which Go leaves unspecified; every result below holds for every order.

An `FS` carries its own well-formedness: one entry per path, a root directory, every entry
inside a directory listed before it, every component a `ValidName`, every inode number below
`nextIno`.  It is
changed only by the three constructions at the end of the file, each of which keeps these
facts: `FS.create` (a new inode at a free path), `FS.addLink` (a further name for an existing
inode) and `FS.eraseIf` (removal of a set of paths closed under going deeper), together with
`FS.setMeta` on the inode table.
-/

namespace Shield

/-- The kind of an entry, as `os.Lstat` reports it. -/
inductive Kind where
  /-- A directory. -/
  | dir
  /-- A regular file. -/
  | reg
  /-- A symbolic link and the text it points to. -/
  | symlink (target : String)
  /-- A socket, named pipe or device. -/
  | other
  deriving DecidableEq, Repr, Inhabited

/-- Whether an entry of this kind is a symbolic link. -/
def Kind.isSymlink : Kind → Bool
  | .symlink _ => true
  | _ => false

/-- A directory entry: its kind and the inode it names. -/
structure Entry where
  kind : Kind
  ino : Nat
  deriving DecidableEq, Repr, Inhabited

/-- What an inode holds besides its kind. -/
structure Meta where
  uid : Nat
  gid : Nat
  data : String
  deriving DecidableEq, Repr

/-- The entry at `p` in a list of entries. -/
def lookupIn : List (Path × Entry) → Path → Option Entry
  | [], _ => none
  | (q, e) :: es, p => if q = p then some e else lookupIn es p

/-- Whether `p` is a directory in a list of entries. -/
def isDirIn (es : List (Path × Entry)) (p : Path) : Bool :=
  match lookupIn es p with
  | some e => decide (e.kind = .dir)
  | none => false

theorem lookupIn_eq_none {es : List (Path × Entry)} {p : Path} :
    lookupIn es p = none ↔ p ∉ es.map Prod.fst := by
  induction es with
  | nil => simp [lookupIn]
  | cons qe es ih =>
    obtain ⟨q, e⟩ := qe
    by_cases h : q = p
    · simp [lookupIn, h]
    · simp [lookupIn, h, ih, Ne.symm h]

theorem mem_of_lookupIn {es : List (Path × Entry)} {p : Path} {e : Entry}
    (h : lookupIn es p = some e) : (p, e) ∈ es := by
  induction es with
  | nil => simp [lookupIn] at h
  | cons qe es ih =>
    obtain ⟨q, e'⟩ := qe
    by_cases hq : q = p
    · simp only [lookupIn, hq, if_true, Option.some.injEq] at h; simp [hq, h]
    · simp only [lookupIn, hq, if_false] at h; exact List.mem_cons_of_mem _ (ih h)

theorem lookupIn_of_mem {es : List (Path × Entry)} (hnd : (es.map Prod.fst).Nodup) {p : Path}
    {e : Entry} (h : (p, e) ∈ es) : lookupIn es p = some e := by
  induction es with
  | nil => simp at h
  | cons qe es ih =>
    obtain ⟨q, e'⟩ := qe
    simp only [List.map_cons, List.nodup_cons, List.mem_map, Prod.exists, exists_and_right,
      exists_eq_right, not_exists] at hnd
    rcases List.mem_cons.1 h with h | h
    · simp_all [lookupIn]
    · have hq : q ≠ p := by rintro rfl; exact hnd.1 e h
      simp [lookupIn, hq, ih hnd.2 h]

theorem lookupIn_append_of_some {es l : List (Path × Entry)} {p : Path} {e : Entry}
    (h : lookupIn es p = some e) : lookupIn (es ++ l) p = some e := by
  induction es with
  | nil => simp [lookupIn] at h
  | cons qe es ih =>
    obtain ⟨q, e'⟩ := qe
    by_cases hq : q = p <;> simp_all [lookupIn]

theorem lookupIn_append_of_none {es l : List (Path × Entry)} {p : Path}
    (h : lookupIn es p = none) : lookupIn (es ++ l) p = lookupIn l p := by
  induction es with
  | nil => rfl
  | cons qe es ih =>
    obtain ⟨q, e'⟩ := qe
    by_cases hq : q = p <;> simp_all [lookupIn]

theorem lookupIn_filter (es : List (Path × Entry)) (P : Path → Bool) (p : Path) :
    lookupIn (es.filter fun qe => !P qe.1) p = if P p then none else lookupIn es p := by
  induction es with
  | nil => simp [lookupIn]
  | cons qe es ih =>
    obtain ⟨q, e⟩ := qe
    by_cases hq : q = p
    · subst hq; cases h : P q <;> simp [lookupIn, h, ih]
    · cases h : P q <;> simp [lookupIn, h, ih, hq]

theorem isDirIn_append_of_isDirIn {es l : List (Path × Entry)} {p : Path}
    (h : isDirIn es p = true) : isDirIn (es ++ l) p = true := by
  unfold isDirIn at h ⊢
  split at h
  · rw [lookupIn_append_of_some ‹_›]; exact h
  · cases h

/-! ## File systems -/

/-- A file system: its entries in directory order, the inode table, and the next free inode
number, with the facts every real file system satisfies. -/
structure FS where
  entries : List (Path × Entry)
  meta : Nat → Meta
  nextIno : Nat
  nodup : (entries.map Prod.fst).Nodup
  root : isDirIn entries [] = true
  closed : ∀ pe ∈ entries, pe.1 ≠ [] → isDirIn entries pe.1.dropLast = true
  ordered : entries.Pairwise fun a b => a.1.dropLast ≠ b.1
  names : ∀ pe ∈ entries, ∀ n ∈ pe.1, ValidName n
  fresh : ∀ pe ∈ entries, pe.2.ino < nextIno

namespace FS

/-- The entry at `p`, without following a final symbolic link. -/
def lookup (fs : FS) (p : Path) : Option Entry := lookupIn fs.entries p

/-- Whether `p` is a directory. -/
def isDir (fs : FS) (p : Path) : Bool := isDirIn fs.entries p

theorem lookup_eq_some {fs : FS} {p : Path} {e : Entry} :
    fs.lookup p = some e ↔ (p, e) ∈ fs.entries :=
  ⟨mem_of_lookupIn, lookupIn_of_mem fs.nodup⟩

theorem isDir_iff {fs : FS} {p : Path} : fs.isDir p = true ↔ ∃ i, (p, ⟨.dir, i⟩) ∈ fs.entries := by
  unfold isDir isDirIn
  constructor
  · intro h
    split at h
    · rename_i e he
      exact ⟨e.ino, by obtain ⟨k, i⟩ := e; simp at h; subst h; exact mem_of_lookupIn he⟩
    · cases h
  · rintro ⟨i, h⟩
    rw [lookupIn_of_mem fs.nodup h]; rfl

/-- Every component of an entry's path, and of its parent's, can name an entry. -/
theorem names_dropLast (fs : FS) {p : Path} (h : fs.isDir p = true) : ∀ n ∈ p, ValidName n := by
  obtain ⟨i, hi⟩ := isDir_iff.1 h
  exact fs.names _ hi

/-- `p` can receive a new entry: it is not the root, is not taken, lies in a directory and its
last component can name an entry. -/
def Free (fs : FS) (p : Path) : Prop :=
  p ≠ [] ∧ fs.lookup p = none ∧ fs.isDir p.dropLast = true ∧ ∀ n ∈ p.getLast?, ValidName n

instance (fs : FS) (p : Path) : Decidable (fs.Free p) := by
  unfold Free; exact inferInstance

theorem Free.names {fs : FS} {p : Path} (h : fs.Free p) : ∀ n ∈ p, ValidName n := by
  intro n hn
  rw [← List.dropLast_append_getLast h.1] at hn
  rcases List.mem_append.1 hn with hn | hn
  · exact fs.names_dropLast h.2.2.1 n hn
  · exact h.2.2.2 n (by simp_all [List.getLast?_eq_getLast _ h.1])

/-- Add the entry `(p, e)` at a free path, with a new inode table. -/
def insert (fs : FS) (p : Path) (e : Entry) (meta : Nat → Meta) (next : Nat) (h : fs.Free p)
    (hnext : fs.nextIno ≤ next) (he : e.ino < next) : FS where
  entries := fs.entries ++ [(p, e)]
  meta := meta
  nextIno := next
  nodup := by
    rw [List.map_append, List.nodup_append]
    exact ⟨fs.nodup, List.nodup_singleton _, by
      simpa using fun q hq => lookupIn_eq_none.1 h.2.1 (List.mem_map.2 ⟨_, hq, rfl⟩)⟩
  root := isDirIn_append_of_isDirIn fs.root
  closed := by
    intro qe hq hne
    rcases List.mem_append.1 hq with hq | hq
    · exact isDirIn_append_of_isDirIn (fs.closed qe hq hne)
    · simp only [List.mem_singleton] at hq; subst hq; exact isDirIn_append_of_isDirIn h.2.2.1
  ordered := by
    refine List.pairwise_append.2 ⟨fs.ordered, List.pairwise_singleton _ _, ?_⟩
    rintro a ha b hb hab
    obtain rfl := List.mem_singleton.1 hb
    subst hab
    have hdir : fs.isDir a.1.dropLast = true := by
      by_cases ha0 : a.1 = []
      · exact absurd (by simp [ha0]) h.1
      · exact fs.closed a ha ha0
    obtain ⟨i, hi⟩ := isDir_iff.1 hdir
    exact lookupIn_eq_none.1 h.2.1 (List.mem_map.2 ⟨_, hi, rfl⟩)
  names := by
    intro qe hq
    rcases List.mem_append.1 hq with hq | hq
    · exact fs.names qe hq
    · simp only [List.mem_singleton] at hq; subst hq; exact h.names
  fresh := by
    intro qe hq
    rcases List.mem_append.1 hq with hq | hq
    · exact lt_of_lt_of_le (fs.fresh qe hq) hnext
    · simp only [List.mem_singleton] at hq; subst hq; exact he

/-- A new inode of kind `k` and content `m`, entered at the free path `p`. -/
def create (fs : FS) (p : Path) (k : Kind) (m : Meta) (h : fs.Free p) : FS :=
  fs.insert p ⟨k, fs.nextIno⟩ (fun i => if i = fs.nextIno then m else fs.meta i) (fs.nextIno + 1) h
    (Nat.le_succ _) (Nat.lt_succ_self _)

/-- A further name `p` for the inode of the entry `e`: a hard link. -/
def addLink (fs : FS) (p : Path) (e : Entry) (h : fs.Free p) (he : e.ino < fs.nextIno) : FS :=
  fs.insert p e fs.meta fs.nextIno h le_rfl he

theorem lookup_insert {fs : FS} {p q : Path} {e : Entry} {meta : Nat → Meta} {next : Nat} (h : fs.Free p)
    (hnext : fs.nextIno ≤ next) (he : e.ino < next) :
    (fs.insert p e meta next h hnext he).lookup q = if q = p then some e else fs.lookup q := by
  show lookupIn (fs.entries ++ [(p, e)]) q = _
  cases hq : lookupIn fs.entries q with
  | none =>
    rw [lookupIn_append_of_none hq]
    by_cases hqp : q = p
    · subst hqp; simp [lookupIn]
    · simp [lookupIn, Ne.symm hqp, hqp, lookup, hq]
  | some x =>
    have hqp : q ≠ p := by
      rintro rfl
      have h0 : lookupIn fs.entries q = none := h.2.1
      rw [hq] at h0
      cases h0
    rw [lookupIn_append_of_some hq, if_neg hqp]
    exact hq.symm

@[simp] theorem lookup_create {fs : FS} {p q : Path} {k : Kind} {m : Meta} (h : fs.Free p) :
    (fs.create p k m h).lookup q = if q = p then some ⟨k, fs.nextIno⟩ else fs.lookup q :=
  lookup_insert h _ _

@[simp] theorem meta_create {fs : FS} {p : Path} {k : Kind} {m : Meta} (h : fs.Free p) (i : Nat) :
    (fs.create p k m h).meta i = if i = fs.nextIno then m else fs.meta i :=
  rfl

@[simp] theorem lookup_addLink {fs : FS} {p q : Path} {e : Entry} (h : fs.Free p) (he : e.ino < fs.nextIno) :
    (fs.addLink p e h he).lookup q = if q = p then some e else fs.lookup q :=
  lookup_insert h _ _

/-- Every path above a directory is a directory. -/
theorem isDir_above {fs : FS} {p q : Path} (hp : fs.isDir p = true) (hq : q <+: p) : fs.isDir q = true := by
  induction p using List.reverseRecOn with
  | nil => rwa [List.prefix_nil.1 hq]
  | append_singleton p n ih =>
    rcases List.prefix_concat_iff.1 hq with rfl | hq
    · exact hp
    · obtain ⟨i, hi⟩ := isDir_iff.1 hp
      exact ih (by simpa using fs.closed _ hi (by simp)) hq

/-- The paths of a set that contains, with each path, everything below it. -/
def UpClosed (P : Path → Bool) : Prop := ∀ p q, P p = true → p <+: q → P q = true

/-- Remove every entry whose path satisfies `P`: a set of whole subtrees, never the root. -/
def eraseIf (fs : FS) (P : Path → Bool) (hup : UpClosed P) (hroot : P [] = false) : FS where
  entries := fs.entries.filter fun qe => !P qe.1
  meta := fs.meta
  nextIno := fs.nextIno
  nodup := by
    have := fs.nodup
    exact (List.Sublist.map Prod.fst (List.filter_sublist _)).nodup this
  root := by
    have := fs.root
    unfold isDirIn at this ⊢
    rwa [lookupIn_filter, hroot, if_neg (by simp)]
  closed := by
    intro qe hq hne
    obtain ⟨hq, hP⟩ := List.mem_filter.1 hq
    have hpar : P qe.1.dropLast = false := by
      cases hp : P qe.1.dropLast
      · rfl
      · simp [hup _ _ hp (List.dropLast_prefix _)] at hP
    have := fs.closed qe hq hne
    unfold isDirIn at this ⊢
    rwa [lookupIn_filter, hpar, if_neg (by simp)]
  ordered := fs.ordered.filter _
  names := fun qe hq => fs.names qe (List.mem_filter.1 hq).1
  fresh := fun qe hq => fs.fresh qe (List.mem_filter.1 hq).1

theorem lookup_eraseIf (fs : FS) (P : Path → Bool) (hup : UpClosed P) (hroot : P [] = false) (q : Path) :
    (fs.eraseIf P hup hroot).lookup q = if P q then none else fs.lookup q :=
  lookupIn_filter fs.entries P q

/-- Set the owner, group and contents of inode `i`. -/
def setMeta (fs : FS) (i : Nat) (m : Meta) : FS :=
  { fs with meta := fun j => if j = i then m else fs.meta j }

/-- The file system holding only its root directory, inode 0, owned by root. -/
def empty : FS where
  entries := [([], ⟨.dir, 0⟩)]
  meta := fun _ => ⟨0, 0, ""⟩
  nextIno := 1
  nodup := by simp
  root := rfl
  closed := by simp
  ordered := List.pairwise_singleton _ _
  names := by simp
  fresh := by simp

/-- Each entry of `es` created in turn, as a new inode, where its place is free. -/
def createAll (fs : FS) (es : List (Path × Kind × Meta)) : FS :=
  es.foldl (fun fs pkm => if h : fs.Free pkm.1 then fs.create pkm.1 pkm.2.1 pkm.2.2 h else fs) fs

/-- The file system holding the entries `es`, parents first. -/
def ofList (es : List (Path × Kind × Meta)) : FS := empty.createAll es

end FS

end Shield
