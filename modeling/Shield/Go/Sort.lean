import Mathlib.Data.List.Sort
import Mathlib.Data.List.GetD

/-!
# Go's `sort` package on string slices

The cassandra plugin (`src/plugin/cassandra/plugin.go`) filters keyspaces with two functions
of Go's standard library, `sort.Strings` and `sort.SearchStrings`, and after each search it
tests `idx < len(xs) && xs[idx] == k`.  This file models them as Go computes them:

* `goLess` is Go's `<` on strings, byte-wise lexicographic, which on UTF-8 text is the order
  of code points;
* `sortStrings` is `sort.Strings`, the ascending permutation of the slice;
* `search` is `sort.Search`: the bisection loop over `[0, n)` probing `int(uint(i+j) >> 1)`;
  `searchStrings` is `sort.SearchStrings`, and `searchHit xs k` is the test the plugin writes
  after the call.

The loop is written with fuel `n`, and `searchLoop_fuel` shows that the fuel never cuts it
short.  On a predicate that is false and then true the search returns the first index where
the predicate holds (`search_spec`), so on an ascending slice `searchHit` is membership
(`searchHit_iff_mem`).  Nothing of the sort holds on a slice that is not sorted: there the
bisection looks at the wrong half.
-/

namespace Shield.Go

/-! ## The order on strings -/

/-- Go's `<` on the characters of two strings. -/
def lessChars : List Char → List Char → Bool
  | _, [] => false
  | [], _ :: _ => true
  | a :: as, b :: bs => decide (a.toNat < b.toNat) || (a == b && lessChars as bs)

/-- Go's `a < b` on strings. -/
def goLess (a b : String) : Bool := lessChars a.data b.data

theorem lessChars_irrefl (l : List Char) : lessChars l l = false := by
  induction l with
  | nil => rfl
  | cons a l ih => simp [lessChars, ih]

theorem lessChars_trans {a b c : List Char} (h₁ : lessChars a b = true)
    (h₂ : lessChars b c = true) : lessChars a c = true := by
  induction a generalizing b c with
  | nil => cases b <;> cases c <;> simp_all [lessChars]
  | cons x as ih =>
    cases b with
    | nil => simp [lessChars] at h₁
    | cons y bs =>
      cases c with
      | nil => simp [lessChars] at h₂
      | cons z cs =>
        simp only [lessChars, Bool.or_eq_true, decide_eq_true_eq, Bool.and_eq_true,
          beq_iff_eq] at h₁ h₂ ⊢
        rcases h₁ with h₁ | ⟨rfl, h₁⟩ <;> rcases h₂ with h₂ | ⟨rfl, h₂⟩
        · exact .inl (by omega)
        · exact .inl h₁
        · exact .inl h₂
        · exact .inr ⟨rfl, ih h₁ h₂⟩

theorem lessChars_total {a b : List Char} (h : a ≠ b) :
    lessChars a b = true ∨ lessChars b a = true := by
  induction a generalizing b with
  | nil => cases b <;> simp_all [lessChars]
  | cons x as ih =>
    cases b with
    | nil => simp [lessChars]
    | cons y bs =>
      simp only [lessChars, Bool.or_eq_true, decide_eq_true_eq, Bool.and_eq_true, beq_iff_eq]
      rcases Nat.lt_trichotomy x.toNat y.toNat with hxy | hxy | hxy
      · exact .inl (.inl hxy)
      · obtain rfl : x = y := Char.ext (UInt32.toNat.inj hxy)
        rcases ih (fun he => h (by rw [he])) with h' | h'
        · exact .inl (.inr ⟨rfl, h'⟩)
        · exact .inr (.inr ⟨rfl, h'⟩)
      · exact .inr (.inl hxy)

theorem goLess_irrefl (a : String) : goLess a a = false := lessChars_irrefl _

theorem goLess_trans {a b c : String} (h₁ : goLess a b = true) (h₂ : goLess b c = true) :
    goLess a c = true := lessChars_trans h₁ h₂

theorem goLess_total {a b : String} (h : a ≠ b) : goLess a b = true ∨ goLess b a = true :=
  lessChars_total (fun he => h (String.ext he))

theorem goLess_asymm {a b : String} (h : goLess a b = true) : goLess b a = false := by
  cases hba : goLess b a
  · rfl
  · simpa [goLess_irrefl] using goLess_trans h hba

/-- Go's `a <= b` on strings. -/
def GoLE (a b : String) : Prop := goLess b a = false

instance : DecidableRel GoLE := fun a b => inferInstanceAs (Decidable (goLess b a = false))

theorem goLE_iff {a b : String} : GoLE a b ↔ a = b ∨ goLess a b = true := by
  unfold GoLE
  by_cases hab : a = b
  · simp [hab, goLess_irrefl]
  · rcases goLess_total hab with h | h
    · simp [hab, h, goLess_asymm h]
    · simp [hab, h, goLess_asymm h]

instance : IsTotal String GoLE where
  total a b := by
    by_cases hab : a = b
    · exact .inl (goLE_iff.2 (.inl hab))
    · rcases goLess_total hab with h | h
      · exact .inl (goLE_iff.2 (.inr h))
      · exact .inr (goLE_iff.2 (.inr h))

instance : IsTrans String GoLE where
  trans a b c hab hbc := by
    rcases goLE_iff.1 hab with rfl | hab
    · exact hbc
    rcases goLE_iff.1 hbc with rfl | hbc
    · exact goLE_iff.2 (.inr hab)
    · exact goLE_iff.2 (.inr (goLess_trans hab hbc))

/-- A string below an upper end of an ascending pair is below the lower end's successors. -/
theorem goLess_of_goLE_of_goLess {a b x : String} (hab : GoLE a b) (hb : goLess b x = true) :
    goLess a x = true := by
  rcases goLE_iff.1 hab with rfl | hab
  · exact hb
  · exact goLess_trans hab hb

/-! ## `sort.Strings` -/

/-- `sort.Strings`: the slice in ascending order.  Strings that compare equal are equal, so
every sorting algorithm yields this same permutation. -/
def sortStrings (xs : List String) : List String := xs.insertionSort GoLE

theorem sortStrings_sorted (xs : List String) : (sortStrings xs).Sorted GoLE :=
  List.sorted_insertionSort _ _

theorem sortStrings_perm (xs : List String) : (sortStrings xs).Perm xs :=
  List.perm_insertionSort _ _

@[simp] theorem mem_sortStrings {xs : List String} {k : String} : k ∈ sortStrings xs ↔ k ∈ xs :=
  (sortStrings_perm xs).mem_iff

/-! ## `sort.Search` and `sort.SearchStrings` -/

/-- The loop of `sort.Search`: while `i < j` it probes `h = (i + j) / 2` and keeps `[i, h)`
when `f h` holds and `[h + 1, j)` otherwise. -/
def searchLoop (f : Nat → Bool) : Nat → Nat → Nat → Nat
  | 0, i, _ => i
  | fuel + 1, i, j =>
    if i < j then
      if f ((i + j) / 2) then searchLoop f fuel i ((i + j) / 2)
      else searchLoop f fuel ((i + j) / 2 + 1) j
    else i

/-- `sort.Search(n, f)`: the loop on `[0, n)`, which ends within `n` rounds. -/
def search (n : Nat) (f : Nat → Bool) : Nat := searchLoop f n 0 n

/-- `sort.SearchStrings(a, x)`: `sort.Search(len(a), func(i) { return a[i] >= x })`. -/
def searchStrings (a : List String) (x : String) : Nat :=
  search a.length (fun i => !goLess (a.getD i "") x)

/-- The test `idx < len(xs) && xs[idx] == k` the plugin makes after
`idx := sort.SearchStrings(xs, k)`. -/
def searchHit (xs : List String) (k : String) : Bool :=
  decide (searchStrings xs k < xs.length) && xs.getD (searchStrings xs k) "" == k

/-- Each round shrinks `[i, j)`, so fuel `j - i` is enough and more fuel changes nothing. -/
theorem searchLoop_fuel (f : Nat → Bool) {fuel i j : Nat} (h : j - i ≤ fuel) :
    searchLoop f (fuel + 1) i j = searchLoop f fuel i j := by
  induction fuel generalizing i j with
  | zero => simp [searchLoop, show ¬ i < j by omega]
  | succ fuel ih =>
    conv_lhs => rw [searchLoop]
    conv_rhs => rw [searchLoop]
    split_ifs <;> first | rfl | exact ih (by omega)

/-- A predicate on `[0, n)` that, once true, stays true. -/
def MonotoneOn (n : Nat) (f : Nat → Bool) : Prop :=
  ∀ a b, a ≤ b → b < n → f a = true → f b = true

/-- The bisection invariant: `[i, j)` lies in `[0, n)`, `f` fails below `i` and holds from `j`
on. -/
def SearchInv (n : Nat) (f : Nat → Bool) (i j : Nat) : Prop :=
  i ≤ j ∧ j ≤ n ∧ (∀ k < i, f k = false) ∧ ∀ k, j ≤ k → k < n → f k = true

/-- `r` is the first index of `[0, n)` where `f` holds, or `n` when there is none. -/
def IsFirst (n : Nat) (f : Nat → Bool) (r : Nat) : Prop :=
  r ≤ n ∧ (∀ k < r, f k = false) ∧ ∀ k, r ≤ k → k < n → f k = true

theorem searchLoop_spec {n : Nat} {f : Nat → Bool} (hf : MonotoneOn n f) {fuel i j : Nat}
    (hfuel : j - i ≤ fuel) (hinv : SearchInv n f i j) : IsFirst n f (searchLoop f fuel i j) := by
  obtain ⟨h1, h2, h3, h4⟩ := hinv
  induction fuel generalizing i j with
  | zero =>
    show IsFirst n f i
    exact ⟨by omega, h3, fun k hk => h4 k (by omega)⟩
  | succ fuel ih =>
    rw [searchLoop]
    by_cases hij : i < j
    · rw [if_pos hij]
      by_cases hm : f ((i + j) / 2) = true
      · rw [if_pos hm]
        exact ih (by omega) (by omega) (by omega) h3 fun k hk hkn => hf _ k hk hkn hm
      · rw [if_neg hm]
        refine ih (by omega) (by omega) h2 (fun k hk => ?_) h4
        rcases Nat.lt_or_ge k i with hki | hki
        · exact h3 k hki
        · exact Bool.eq_false_iff.2 fun hfk => hm (hf k _ (by omega) (by omega) hfk)
    · rw [if_neg hij]
      exact ⟨by omega, h3, fun k hk => h4 k (by omega)⟩

/-- **`sort.Search` finds the first index where a monotone predicate holds.** -/
theorem search_spec {n : Nat} {f : Nat → Bool} (hf : MonotoneOn n f) : IsFirst n f (search n f) :=
  searchLoop_spec hf (by omega) ⟨Nat.zero_le n, le_rfl, fun _ hk => absurd hk (by omega),
    fun _ _ hk => absurd hk (by omega)⟩

theorem goLE_getD_of_sorted {a : List String} (hs : a.Sorted GoLE) {i j : Nat} (hij : i ≤ j)
    (hj : j < a.length) : GoLE (a.getD i "") (a.getD j "") := by
  rcases Nat.lt_or_eq_of_le hij with hij | rfl
  · rw [List.getD_eq_getElem _ _ (by omega), List.getD_eq_getElem _ _ hj]
    exact List.pairwise_iff_getElem.1 hs i j (by omega) hj hij
  · exact goLE_iff.2 (.inl rfl)

/-- **On an ascending slice the plugin's search test is membership.** -/
theorem searchHit_iff_mem {a : List String} (hs : a.Sorted GoLE) (k : String) :
    searchHit a k = true ↔ k ∈ a := by
  have hf : MonotoneOn a.length (fun i => !goLess (a.getD i "") k) := by
    intro i j hij hj hi
    dsimp only at hi ⊢
    cases h : goLess (a.getD j "") k
    · rfl
    · rw [goLess_of_goLE_of_goLess (goLE_getD_of_sorted hs hij hj) h] at hi
      exact absurd hi (by decide)
  obtain ⟨-, hbelow, habove⟩ := search_spec hf
  dsimp only at hbelow habove
  unfold searchHit searchStrings
  generalize search a.length (fun i => !goLess (a.getD i "") k) = r at hbelow habove ⊢
  rw [Bool.and_eq_true, decide_eq_true_iff, beq_iff_eq]
  constructor
  · rintro ⟨hlt, rfl⟩
    rw [List.getD_eq_getElem _ _ hlt]
    exact List.getElem_mem hlt
  · intro hk
    obtain ⟨m, hm, hmk⟩ := List.getElem_of_mem hk
    have hgm : a.getD m "" = k := (List.getD_eq_getElem _ _ hm).trans hmk
    have hrm : r ≤ m := by
      by_contra hlt
      have := hbelow m (by omega)
      rw [hgm, goLess_irrefl] at this
      exact absurd this (by decide)
    have hnot := habove r le_rfl (by omega)
    refine ⟨by omega, ?_⟩
    rcases goLE_iff.1 (hgm ▸ goLE_getD_of_sorted hs hrm hm) with h | h
    · exact h
    · rw [h] at hnot
      exact absurd hnot (by decide)

end Shield.Go
