import Shield.Fs.Ops

/-!
# `filepath.Match` and the pattern helpers of `filepath.Glob`

Go 1.7's `path/filepath/match.go` (the release `ci/settings.yml` builds with), on the
characters of the strings.  A pattern is cut into chunks, each a run of single-character
operators (a literal, `\\c`, `?`, a class `[...]` or `[^...]`) after an optional run of stars:

* `scanChunk` cuts the next chunk;
* `getEsc` reads one character of a class, `matchChunk` matches a chunk at the start of a
  name, and `classLoop` reads the ranges of a class;
* `matchPattern` is `Match(pattern, name)`: a star never crosses `/`, and a malformed pattern
  gives `ErrBadPattern`, but only once the matcher reaches the malformed part.

`hasMeta`, `splitPath` and `cleanGlobPath` are the helpers `Glob` cuts a pattern with.  The
loops that consume a chunk are written with fuel; `matchPattern` gives each the length of
what it consumes, which is always enough.
-/

namespace Shield.Go

/-- `filepath.ErrBadPattern`. -/
def errBadPattern : GoError := .msg "syntax error in pattern"

/-- The loop of `scanChunk` after the stars: the chunk ends at a star outside a class. -/
def scanBody : Bool → List Char → List Char × List Char
  | _, [] => ([], [])
  | inrange, '\\' :: c :: cs => let r := scanBody inrange cs; ('\\' :: c :: r.1, r.2)
  | _, '[' :: cs => let r := scanBody true cs; ('[' :: r.1, r.2)
  | _, ']' :: cs => let r := scanBody false cs; (']' :: r.1, r.2)
  | inrange, '*' :: cs =>
    if inrange then let r := scanBody true cs; ('*' :: r.1, r.2) else ([], '*' :: cs)
  | inrange, c :: cs => let r := scanBody inrange cs; (c :: r.1, r.2)

/-- `scanChunk(pattern)`: whether stars lead, the next chunk, and the rest of the pattern. -/
def scanChunk (pattern : List Char) : Bool × List Char × List Char :=
  let p := pattern.dropWhile (· = '*')
  (decide (p.length < pattern.length), scanBody false p)

/-- `getEsc(chunk)`: one character of a class, unescaped, and what follows it, which must not
be empty. -/
def getEsc : List Char → Option (Char × List Char)
  | [] | '-' :: _ | ']' :: _ | ['\\'] => none
  | '\\' :: c :: rest => if rest = [] then none else some (c, rest)
  | c :: rest => if rest = [] then none else some (c, rest)

/-- The ranges of a class, after `[` and `^`, up to the closing `]`: whether `r` is in one of
them, and the chunk after the class; `none` for a malformed class. -/
def classLoop (r : Char) : Nat → Bool → Nat → List Char → Option (Bool × List Char)
  | 0, _, _, _ => none
  | fuel + 1, found, nrange, chunk =>
    if chunk.head? = some ']' ∧ 0 < nrange then some (found, chunk.tail)
    else
      match getEsc chunk with
      | none => none
      | some (lo, c1) =>
        if c1.head? = some '-' then
          match getEsc c1.tail with
          | none => none
          | some (hi, c2) =>
            classLoop r fuel (found || decide (lo.toNat ≤ r.toNat ∧ r.toNat ≤ hi.toNat)) (nrange + 1) c2
        else classLoop r fuel (found || decide (lo = r)) (nrange + 1) c1

/-- `matchChunk(chunk, s)`: `ok (some rest)` when the chunk matches the start of `s`, `ok none`
when it does not, and `ErrBadPattern` when the matcher meets a malformed part. -/
def matchChunk : Nat → List Char → List Char → Except GoError (Option (List Char))
  | 0, _, _ => .ok none
  | _, [], s => .ok (some s)
  | _, _ :: _, [] => .ok none
  | fuel + 1, '[' :: chunk, r :: s =>
    if chunk = [] then .error errBadPattern
    else
      let negated := decide (chunk.head? = some '^')
      let body := if negated then chunk.tail else chunk
      match classLoop r body.length false 0 body with
      | none => .error errBadPattern
      | some (found, rest) => if found = negated then .ok none else matchChunk fuel rest s
  | fuel + 1, '?' :: chunk, c :: s => if c = '/' then .ok none else matchChunk fuel chunk s
  | fuel + 1, '\\' :: chunk, c :: s =>
    match chunk with
    | [] => .error errBadPattern
    | d :: chunk => if d = c then matchChunk fuel chunk s else .ok none
  | fuel + 1, d :: chunk, c :: s => if d = c then matchChunk fuel chunk s else .ok none

/-- The retries of a star: match the chunk after skipping one more character of the name,
never a `/`; `last` says the chunk ends the pattern, so its match must use up the name. -/
def skipLoop (chunk : List Char) (last : Bool) (k : List Char → Except GoError Bool) :
    List Char → Except GoError Bool
  | [] => .ok false
  | c :: cs =>
    if c = '/' then .ok false
    else
      match matchChunk (chunk.length + 1) chunk cs with
      | .ok (some t) => if last ∧ t ≠ [] then skipLoop chunk last k cs else k t
      | .ok none => skipLoop chunk last k cs
      | .error e => .error e

/-- The loop of `Match` over the chunks of the pattern. -/
def matchLoop : Nat → List Char → List Char → Except GoError Bool
  | 0, _, name => .ok (name = [])
  | fuel + 1, pattern, name =>
    if pattern = [] then .ok (name = [])
    else
      let (star, chunk, rest) := scanChunk pattern
      if star ∧ chunk = [] then .ok ('/' ∉ name)
      else
        let retry : Except GoError Bool :=
          if star then skipLoop chunk (rest = []) (matchLoop fuel rest) name else .ok false
        match matchChunk (chunk.length + 1) chunk name with
        | .ok (some t) => if t = [] ∨ rest ≠ [] then matchLoop fuel rest t else retry
        | .ok none => retry
        | .error e => .error e

/-- `filepath.Match(pattern, name)`. -/
def matchPattern (pattern name : List Char) : Except GoError Bool :=
  matchLoop (pattern.length + 1) pattern name

/-- A lone star matches every name without a slash. -/
theorem matchPattern_star (name : List Char) : matchPattern ['*'] name = .ok (decide ('/' ∉ name)) := by
  simp [matchPattern, matchLoop, scanChunk, scanBody]

/-! ## The helpers of `Glob` -/

/-- `hasMeta(path)`: whether the path has one of the characters `*?[`. -/
def hasMeta (s : List Char) : Bool := s.any fun c => c = '*' || c = '?' || c = '['

/-- `filepath.Split(path)`: everything up to the last `/`, and the rest. -/
def splitPath (s : List Char) : List Char × List Char :=
  let file := (s.reverse.takeWhile (· ≠ '/')).reverse
  (s.take (s.length - file.length), file)

/-- `cleanGlobPath(path)`: `.` for the empty path, `/` as it is, otherwise the trailing `/`
dropped. -/
def cleanGlobPath (s : List Char) : List Char :=
  if s = [] then ['.'] else if s = ['/'] then s else s.dropLast

/-- A pattern whose last component is one character other than `/` splits after the last `/`. -/
theorem splitPath_append_slash (s : List Char) {c : Char} (hc : c ≠ '/') :
    splitPath (s ++ ['/', c]) = (s ++ ['/'], [c]) := by
  have ht : ((s ++ ['/', c]).reverse.takeWhile (· ≠ '/')).reverse = [c] := by
    simp [List.takeWhile, hc]
  simp only [splitPath, ht, List.length_singleton]
  rw [show s ++ ['/', c] = (s ++ ['/']) ++ [c] by simp, List.take_left' (by simp)]

theorem cleanGlobPath_append_slash {s : List Char} (hs : s ≠ []) : cleanGlobPath (s ++ ['/']) = s := by
  simp [cleanGlobPath, hs]

end Shield.Go
