import Mathlib.Data.List.Infix

/-!
# Paths: `filepath.Join`, `filepath.Clean` and the path a string names

The plugins build every path with `filepath.Join` (`src/plugin/cassandra/plugin.go`) or take
it verbatim from the endpoint (`src/unnamed/part_001`).  A path is modelled by the components
of its cleaned absolute form, `Path := List String`, the root being `[]`:

* `splitSlash` cuts a string at its slashes;
* `Path.push` adds one component the way `filepath.Clean` treats it (`""` and `"."` vanish,
  `".."` goes up, and goes nowhere above the root);
* `Path.join p s` is `filepath.Join(p, s)` for an absolute `p`, and `cleanPath s` is the path
  the string `s` names, a relative one being read from the root directory;
* `Path.render` writes a path back as the string Go prints for it;
* `goClean` and `goJoin` are `filepath.Clean` and `filepath.Join` on strings, for the paths
  `filepath.Glob` returns.

A directory entry's name is a `ValidName`: not empty, not `.` or `..`, without a slash; for
such a name `Path.join p n = p ++ [n]` (`join_validName`).
-/

namespace Shield

/-- The components of a cleaned absolute path, outermost first; `[]` is `/`. -/
abbrev Path := List String

/-- Cut a string at every `'/'`, keeping the empty pieces. -/
def splitSlash : List Char → List (List Char)
  | [] => [[]]
  | c :: cs =>
    if c = '/' then [] :: splitSlash cs
    else
      match splitSlash cs with
      | [] => [[c]]
      | p :: ps => (c :: p) :: ps

theorem splitSlash_of_not_mem {l : List Char} (h : '/' ∉ l) : splitSlash l = [l] := by
  induction l with
  | nil => rfl
  | cons c cs ih =>
    simp only [List.mem_cons, not_or] at h
    simp [splitSlash, Ne.symm h.1, ih h.2]

/-- What can name an entry of a directory. -/
def ValidName (n : String) : Prop := n ≠ "" ∧ n ≠ "." ∧ n ≠ ".." ∧ '/' ∉ n.data

instance (n : String) : Decidable (ValidName n) := inferInstanceAs (Decidable (_ ∧ _))

namespace Path

/-- One component read by `filepath.Clean`. -/
def push (p : Path) (c : String) : Path :=
  if c = "" ∨ c = "." then p else if c = ".." then p.dropLast else p ++ [c]

/-- `filepath.Join(p, s)` for an absolute path `p`: `Clean(p + "/" + s)`. -/
def join (p : Path) (s : String) : Path :=
  (splitSlash s.data).foldl (fun q c => q.push ⟨c⟩) p

/-- The string Go prints for an absolute cleaned path. -/
def render (p : Path) : String := "/" ++ "/".intercalate p

theorem join_of_not_mem {p : Path} {s : String} (h : '/' ∉ s.data) : p.join s = p.push s := by
  simp [join, splitSlash_of_not_mem h]

theorem push_validName (p : Path) {n : String} (h : ValidName n) : p.push n = p ++ [n] := by
  obtain ⟨h1, h2, h3, -⟩ := h
  simp [push, h1, h2, h3]

@[simp] theorem join_validName (p : Path) {n : String} (h : ValidName n) : p.join n = p ++ [n] := by
  rw [join_of_not_mem h.2.2.2, push_validName p h]

/-- A path above `p.push c` is above `p`, or is `p.push c`. -/
theorem prefix_push {p q : Path} {c : String} (h : q <+: p.push c) : q <+: p ∨ q = p.push c := by
  unfold push at h ⊢
  by_cases h₁ : c = "" ∨ c = "."
  · rw [if_pos h₁] at h
    exact .inl h
  · by_cases h₂ : c = ".."
    · rw [if_neg h₁, if_pos h₂] at h
      exact .inl (h.trans (List.dropLast_prefix p))
    · rw [if_neg h₁, if_neg h₂] at h ⊢
      exact (List.prefix_concat_iff.1 h).symm

/-- One component read by `Clean` stays, goes up, or goes down. -/
theorem push_cases (p : Path) (c : String) :
    p.push c = p ∨ p.push c = p.dropLast ∨ p.push c = p ++ [c] := by
  unfold push
  split
  · exact .inl rfl
  · split
    · exact .inr (.inl rfl)
    · exact .inr (.inr rfl)

/-- One component read by `Clean` never goes above the parent. -/
theorem dropLast_prefix_push (p : Path) (c : String) : p.dropLast <+: p.push c := by
  unfold push
  split
  · exact List.dropLast_prefix p
  · split
    · exact List.prefix_refl _
    · exact (List.dropLast_prefix p).trans (List.prefix_append _ _)

end Path

/-- The path a string names, with `filepath.Clean`'s reading; a relative path is read from the
root, the working directory of the plugin.  The empty string names no file (the kernel
answers `ENOENT`): its path `[""]` can never be an entry, since `""` is no `ValidName`. -/
def cleanPath (s : String) : Path := if s = "" then [""] else Path.join [] s

/-! ## `filepath.Clean` and `filepath.Join` on strings -/

/-- One component read by `filepath.Clean` on a string: a relative path keeps the `..` that
cannot go up. -/
def cleanStep (rooted : Bool) (acc : List String) (c : String) : List String :=
  if c = "" ∨ c = "." then acc
  else if c = ".." then
    match acc.getLast? with
    | some ".." => acc ++ [".."]
    | some _ => acc.dropLast
    | none => if rooted then [] else [".."]
  else acc ++ [c]

/-- `filepath.Clean(s)`. -/
def goClean (s : String) : String :=
  let rooted := s.data.head? = some '/'
  let comps := (splitSlash s.data).foldl (fun acc c => cleanStep rooted acc ⟨c⟩) []
  if rooted then "/" ++ "/".intercalate comps
  else if comps = [] then "." else "/".intercalate comps

/-- `filepath.Join(dir, name)`: the non-empty elements joined by `/`, then cleaned. -/
def goJoin (dir name : String) : String :=
  if dir = "" then (if name = "" then "" else goClean name) else goClean (dir ++ "/" ++ name)

/-! ## What a cleaned rooted path names -/

theorem splitSlash_ne_nil (l : List Char) : splitSlash l ≠ [] := by
  cases l with
  | nil => simp [splitSlash]
  | cons c cs =>
    unfold splitSlash
    split
    · simp
    · split <;> simp

/-- No piece of a string cut at its slashes holds a slash. -/
theorem not_mem_of_mem_splitSlash {l c : List Char} (h : c ∈ splitSlash l) : '/' ∉ c := by
  induction l generalizing c with
  | nil => simp [splitSlash] at h; simp [h]
  | cons d ds ih =>
    unfold splitSlash at h
    split at h
    · rcases List.mem_cons.1 h with rfl | h
      · simp
      · exact ih h
    · split at h <;> rename_i heq
      · exact absurd heq (splitSlash_ne_nil ds)
      · rcases List.mem_cons.1 h with rfl | h
        · have := ih (heq ▸ List.mem_cons_self _ _)
          simp_all [eq_comm]
        · exact ih (heq ▸ List.mem_cons_of_mem _ h)

theorem splitSlash_append_slash (xs ys : List Char) :
    splitSlash (xs ++ '/' :: ys) = splitSlash xs ++ splitSlash ys := by
  induction xs with
  | nil => simp [splitSlash]
  | cons c cs ih =>
    by_cases hc : c = '/'
    · simp [splitSlash, hc, ih]
    · obtain ⟨p, ps, hp⟩ := List.exists_cons_of_ne_nil (splitSlash_ne_nil cs)
      simp [splitSlash, hc, ih, hp]

theorem join_append_slash (p : Path) (a b : String) : p.join (a ++ "/" ++ b) = (p.join a).join b := by
  rw [Path.join, show (a ++ "/" ++ b).data = a.data ++ '/' :: b.data by simp, splitSlash_append_slash,
    List.foldl_append]
  rfl

/-- A path below a named directory, by a name. -/
theorem cleanPath_append_slash {a n : String} (ha : a ≠ "") (hn : ValidName n) :
    cleanPath (a ++ "/" ++ n) = cleanPath a ++ [n] := by
  have hne : a ++ "/" ++ n ≠ "" := by
    intro h; have := congrArg String.data h; simp at this
  rw [cleanPath, if_neg hne, join_append_slash, cleanPath, if_neg ha, Path.join_validName _ hn]

/-- One component read by `filepath.Clean` on a rooted path, where the path so far holds names
only, is one read by `Path.push`, and leaves names only. -/
theorem cleanStep_rooted {acc : List String} (hacc : ∀ a ∈ acc, ValidName a) {c : String}
    (hc : '/' ∉ c.data) : cleanStep true acc c = Path.push acc c ∧ ∀ a ∈ cleanStep true acc c, ValidName a := by
  unfold cleanStep Path.push
  by_cases h₁ : c = "" ∨ c = "."
  · simpa only [if_pos h₁, true_and] using hacc
  · simp only [if_neg h₁]
    by_cases h₂ : c = ".."
    · simp only [if_pos h₂]
      have hdl : ∀ a ∈ acc.dropLast, ValidName a := fun a ha => hacc a (List.dropLast_subset _ ha)
      cases hl : acc.getLast? with
      | none => simp [List.getLast?_eq_none_iff.1 hl]
      | some l =>
        have hl' : l ≠ ".." := fun h => (hacc l (List.mem_of_getLast?_eq_some hl)).2.2.1 h
        simpa only [hl', true_and] using hdl
    · simp only [if_neg h₂, true_and]
      intro a ha
      rcases List.mem_append.1 ha with ha | ha
      · exact hacc a ha
      · obtain rfl := List.mem_singleton.1 ha
        exact ⟨fun h => h₁ (.inl h), fun h => h₁ (.inr h), h₂, hc⟩

theorem foldl_cleanStep_rooted (L : List (List Char)) (hL : ∀ c ∈ L, '/' ∉ c) (acc : List String)
    (hacc : ∀ a ∈ acc, ValidName a) :
    L.foldl (fun acc c => cleanStep true acc ⟨c⟩) acc = L.foldl (fun q c => Path.push q ⟨c⟩) acc ∧
      ∀ a ∈ L.foldl (fun acc c => cleanStep true acc ⟨c⟩) acc, ValidName a := by
  induction L generalizing acc with
  | nil => exact ⟨rfl, hacc⟩
  | cons c L ih =>
    obtain ⟨h₁, h₂⟩ := @cleanStep_rooted _ hacc ⟨c⟩ (hL c (List.mem_cons_self _ _))
    simp only [List.foldl_cons, h₁] at h₂ ⊢
    exact ih (fun c hc => hL c (List.mem_cons_of_mem _ hc)) _ (h₁ ▸ h₂)

theorem data_intercalate_go (acc : String) (as : List String) :
    (String.intercalate.go acc "/" as).data = acc.data ++ (as.map fun a => '/' :: a.data).flatten := by
  induction as generalizing acc with
  | nil => simp [String.intercalate.go]
  | cons a as ih => simp [String.intercalate.go, ih]

/-- Names joined by slashes cut back into the names. -/
theorem splitSlash_intercalate (cs : List String) (hcs : ∀ c ∈ cs, '/' ∉ c.data) (hne : cs ≠ []) :
    splitSlash ("/".intercalate cs).data = cs.map String.data := by
  obtain ⟨c, cs, rfl⟩ := List.exists_cons_of_ne_nil hne
  suffices ∀ (acc : List Char) (as : List String), (∀ a ∈ as, '/' ∉ a.data) →
      splitSlash (acc ++ (as.map fun a => '/' :: a.data).flatten) = splitSlash acc ++ as.map String.data by
    rw [String.intercalate, data_intercalate_go, this _ _ fun a ha => hcs a (List.mem_cons_of_mem _ ha),
      splitSlash_of_not_mem (hcs c (List.mem_cons_self _ _))]
    rfl
  intro acc as has
  induction as generalizing acc with
  | nil => simp
  | cons a as ih =>
    rw [List.map_cons, List.flatten_cons, ← List.append_assoc, ih _ fun b hb => has b (List.mem_cons_of_mem _ hb),
      splitSlash_append_slash, splitSlash_of_not_mem (has a (List.mem_cons_self _ _))]
    simp

/-- Reading names one by one appends them. -/
theorem foldl_push_validName (cs : List String) (h : ∀ c ∈ cs, ValidName c) (p : Path) :
    (cs.map String.data).foldl (fun q c => Path.push q ⟨c⟩) p = p ++ cs := by
  induction cs generalizing p with
  | nil => simp
  | cons c cs ih =>
    rw [List.map_cons, List.foldl_cons, Path.push_validName _ (h c (List.mem_cons_self _ _)),
      ih fun c hc => h c (List.mem_cons_of_mem _ hc)]
    simp

/-- **`filepath.Clean` keeps what a rooted path names.** -/
theorem cleanPath_goClean {s : String} (hs : s.data.head? = some '/') : cleanPath (goClean s) = cleanPath s := by
  have hs0 : s ≠ "" := by rintro rfl; simp at hs
  obtain ⟨heq, hvalid⟩ := foldl_cleanStep_rooted (splitSlash s.data)
    (fun c hc => not_mem_of_mem_splitSlash hc) [] nofun
  unfold goClean
  simp only [hs, decide_True, if_true]
  generalize (splitSlash s.data).foldl (fun acc c => cleanStep true acc ⟨c⟩) [] = comps at heq hvalid
  have hne : "/" ++ "/".intercalate comps ≠ "" := by
    intro h; have := congrArg String.data h; simp at this
  rw [cleanPath, if_neg hne, cleanPath, if_neg hs0, Path.join, Path.join, ← heq, String.data_append,
    show "/".data ++ ("/".intercalate comps).data = [] ++ '/' :: ("/".intercalate comps).data from rfl,
    splitSlash_append_slash, List.foldl_append]
  by_cases hc : comps = []
  · subst hc
    simp [splitSlash, String.intercalate, Path.push]
  · rw [splitSlash_intercalate comps (fun c hc => (hvalid c hc).2.2.2) hc, foldl_push_validName _ hvalid]
    simp [splitSlash, Path.push]

/-- **`filepath.Join` of a rooted directory and a name** names the entry of that name in it. -/
theorem cleanPath_goJoin {dir n : String} (hd : dir.data.head? = some '/') (hn : ValidName n) :
    cleanPath (goJoin dir n) = cleanPath dir ++ [n] := by
  have hd0 : dir ≠ "" := by rintro rfl; simp at hd
  rw [goJoin, if_neg hd0, cleanPath_goClean, cleanPath_append_slash hd0 hn]
  simp [hd]

end Shield
