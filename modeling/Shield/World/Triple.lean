import Shield.World.Frame

/-!
# Reasoning along the runs of a program

`Triple P p Q` says that every run of `p` from a machine satisfying `P`, consistent with the
machine whatever each step answers, ends with a result and a machine satisfying `Q`.  The
rules follow the combinators of `Shield.Prog`: `Triple.bind`, `Triple.seqErr`,
`Triple.bindErr`, `Triple.deferring`, and `Triple.forEach` with a loop invariant indexed by
the elements already handled; `Triple.frame` carries a property of the file system over a
program that only reads and adds entries, and `Triple.confined` a change confined to a scope
over a program that acts within it.  `Triple.seqOk` and `Triple.execOk` chain steps run for
their success, whose postconditions say only what holds when they return nil.  For an
operation other than a command the machine's answer is `World.perform`'s, and each has its
rule in weakest-precondition form (`Triple.mkdir`, …); those of `os.Remove` and `os.RemoveAll`
also cover their failures (`Triple.removeAll`, with `Triple.removeAllOk` for a step run for its
success and `Triple.removeAll_partly` for one whose answer does not matter).

The rules rest on `Consistent.append_iff`: a consistent run of `t₁ ++ t₂` passes through a
machine between the two.

`TraceTriple P p Q` lets the postcondition also read the run's trace, so that what a program
issued (which commands, in which order) is stated alongside the machine it leaves; it has the
same rules, and `TraceTriple.forEach` knows the position of each element in the list.
-/

namespace Shield

namespace World

theorem Consistent.append_iff {w w' : World} {t₁ t₂ : List Event} :
    Consistent w (t₁ ++ t₂) w' ↔ ∃ w₁, Consistent w t₁ w₁ ∧ Consistent w₁ t₂ w' := by
  induction t₁ generalizing w with
  | nil => exact ⟨fun h => ⟨w, .nil w, h⟩, fun ⟨_, h₁, h₂⟩ => by cases h₁; exact h₂⟩
  | cons ev t₁ ih =>
    constructor
    · intro h
      cases h with
      | cons hs hc =>
        obtain ⟨w₁, h₁, h₂⟩ := ih.1 hc
        exact ⟨w₁, .cons hs h₁, h₂⟩
    · rintro ⟨w₁, h₁, h₂⟩
      cases h₁ with
      | cons hs hc => exact .cons hs (ih.2 ⟨w₁, hc, h₂⟩)

/-- A one-event trace is one step. -/
theorem Consistent.single {w w' : World} {ev : Event} (h : Consistent w [ev] w') :
    w.Step ev.op ev.resp w' := by
  cases h with
  | cons hs hc => cases hc; exact hs

theorem Consistent.stable {S : World → Prop} (hS : ∀ w o r w', S w → w.Step o r w' → S w')
    {w w' : World} {t : List Event} (hc : Consistent w t w') (hw : S w) : S w' := by
  induction hc with
  | nil => exact hw
  | cons hs _ ih => exact ih (hS _ _ _ _ hw hs)

end World

open World

/-- Every run of `p` from a machine satisfying `P` ends with a result and a machine satisfying
`Q`, whatever each step answers. -/
def Triple {α : Type} (P : World → Prop) (p : Prog α) (Q : α → World → Prop) : Prop :=
  ∀ ⦃w t a w'⦄, P w → Runs p t a → Consistent w t w' → Q a w'

namespace Triple

variable {α β : Type} {P P' : World → Prop} {Q Q' : α → World → Prop}

theorem pure {a : α} (h : ∀ w, P w → Q a w) : Triple P (.pure a) Q := by
  intro w t b w' hP hr hc
  obtain ⟨rfl, rfl⟩ := Runs.pure_iff.1 hr
  cases hc
  exact h w hP

theorem op {o : Op} {Q : o.Resp → World → Prop} (h : ∀ w r w', P w → w.Step o r w' → Q r w') :
    Triple P (.call o .pure) Q := by
  intro w t r w' hP hr hc
  rw [Runs.op_iff.1 hr] at hc
  cases hc with
  | cons hs hc => cases hc; exact h _ _ _ hP hs

theorem bind {p : Prog α} {f : α → Prog β} {R : α → World → Prop} {Q : β → World → Prop}
    (hp : Triple P p R) (hf : ∀ a, Triple (R a) (f a) Q) : Triple P (p.bind f) Q := by
  intro w t b w' hP hr hc
  obtain ⟨t₁, t₂, a, rfl, h₁, h₂⟩ := Runs.bind_iff.1 hr
  obtain ⟨w₁, hc₁, hc₂⟩ := Consistent.append_iff.1 hc
  exact hf a (hp hP h₁ hc₁) h₂ hc₂

theorem mono {p : Prog α} (h : Triple P p Q) (hP : ∀ w, P' w → P w) (hQ : ∀ a w, Q a w → Q' a w) :
    Triple P' p Q' :=
  fun _ _ _ _ hP' hr hc => hQ _ _ (h (hP _ hP') hr hc)

theorem ite {c : Prop} [Decidable c] {x y : Prog α} (hx : c → Triple P x Q) (hy : ¬c → Triple P y Q) :
    Triple P (if c then x else y) Q := by
  split
  · exact hx ‹_›
  · exact hy ‹_›

theorem seqErr {x k : Prog (Option GoError)} {R Q : Option GoError → World → Prop}
    (hx : Triple P x R) (hk : Triple (R none) k Q) (he : ∀ e w, R (some e) w → Q (some e) w) :
    Triple P (Prog.seqErr x k) Q :=
  hx.bind fun
    | some e => .pure (he e)
    | none => hk

theorem bindErr {x : Prog (Except GoError β)} {k : β → Prog (Option GoError)}
    {R : Except GoError β → World → Prop} {Q : Option GoError → World → Prop} (hx : Triple P x R)
    (hk : ∀ v, Triple (R (.ok v)) (k v) Q) (he : ∀ e w, R (.error e) w → Q (some e) w) :
    Triple P (Prog.bindErr x k) Q :=
  hx.bind fun
    | .error e => .pure (he e)
    | .ok v => hk v

theorem deferring {body : Prog α} {cleanup : Prog β} {R : α → World → Prop} (hb : Triple P body R)
    (hc : ∀ a, Triple (R a) cleanup fun _ => Q a) : Triple P (Prog.deferring body cleanup) Q :=
  hb.bind fun a => (hc a).bind fun _ => .pure fun _ h => h

/-- A precondition that does not depend on the machine can be assumed. -/
theorem of_pure {A : Prop} {p : Prog α} (h : A → Triple P p Q) : Triple (fun w => A ∧ P w) p Q :=
  fun _ _ _ _ hP => h hP.1 hP.2

/-- Every program ends somewhere: the postcondition that says nothing. -/
theorem trivial (p : Prog α) : Triple P p fun _ _ => True :=
  fun _ _ _ _ _ _ _ => True.intro

/-- A step of which nothing is known, then `k`: the postcondition has to hold of every error. -/
theorem seqErr_any {x k : Prog (Option GoError)} {Q : Option GoError → World → Prop}
    (hk : Triple (fun _ => True) k Q) (he : ∀ e w, Q (some e) w) : Triple P (Prog.seqErr x k) Q :=
  .seqErr (trivial x) hk fun e w _ => he e w

/-- **The frame rule** for a program that only reads and adds entries: a property of the file
system that every growth keeps still holds after it. -/
theorem frame {p : Prog α} (hp : OnlyOps Op.Additive p) {F : FS → Prop}
    (hF : ∀ fs fs', F fs → Confined (fun _ => False) none fs fs' → F fs') (h : Triple P p Q) :
    Triple (fun w => P w ∧ F w.fs) p fun a w => Q a w ∧ F w.fs :=
  fun w _ _ _ hP hr hc =>
    ⟨h hP.1 hr hc, hF _ _ hP.2 (within_of_runs (hp.mono fun _ ho => ho.covers (fun _ => False, none) w) hr hc).1⟩

/-- A change confined to a scope stays confined to it over a program whose every operation
acts within the scope. -/
theorem confined {p : Prog α} {S : (Path → Prop) × Option (Nat × Nat)} {fs₀ : FS}
    (hp : ∀ w, OnlyOps (fun o => Covers S (o.scope w)) p) :
    Triple (fun w => Confined S.1 S.2 fs₀ w.fs) p fun _ w => Confined S.1 S.2 fs₀ w.fs :=
  fun w _ _ _ hP hr hc => hP.trans (within_of_runs (hp w) hr hc).1

/-- **The loop rule.**  If each element's body, from the invariant over the elements handled,
either fails or establishes it with the element added, a loop that ends without error ends
with the invariant over all elements. -/
theorem forEach {body : β → Prog (Option GoError)} {I : List β → World → Prop}
    (hb : ∀ pre x, Triple (I pre) (body x) fun r w => r = none → I (pre ++ [x]) w) (xs pre : List β) :
    Triple (I pre) (Prog.forEach xs body) fun r w => r = none → I (pre ++ xs) w := by
  induction xs generalizing pre with
  | nil => exact .pure fun w h _ => by simpa using h
  | cons x xs ih =>
    refine .seqErr (hb pre x) ((ih (pre ++ [x])).mono (fun w h => h rfl) ?_) fun e w _ h => nomatch h
    intro r w h hr
    simpa using h hr

/-- **The loop rule for an invariant each body keeps**, whatever it returns. -/
theorem forEach_inv {body : β → Prog (Option GoError)} {I : World → Prop} {xs : List β}
    (hb : ∀ x ∈ xs, Triple I (body x) fun _ => I) : Triple I (Prog.forEach xs body) fun _ => I := by
  induction xs with
  | nil => exact .pure fun _ h => h
  | cons x xs ih => exact .seqErr (hb x (.head _)) (ih fun y hy => hb y (.tail _ hy)) fun _ _ h => h

/-- Two triples of one program combine. -/
theorem conj {p : Prog α} {Q₁ Q₂ : α → World → Prop} {P₁ P₂ : World → Prop} (h₁ : Triple P₁ p Q₁)
    (h₂ : Triple P₂ p Q₂) : Triple (fun w => P₁ w ∧ P₂ w) p fun a w => Q₁ a w ∧ Q₂ a w :=
  fun _ _ _ _ hP hr hc => ⟨h₁ hP.1 hr hc, h₂ hP.2 hr hc⟩

/-- No step changes standard input. -/
theorem stdin (A : Archive) (p : Prog α) : Triple (fun w => w.stdin = A) p fun _ w => w.stdin = A :=
  fun _ _ _ _ hS _ hc => hc.stable (fun _ _ _ _ hS h => (step_within h).2.2.2.2.1.trans hS) hS

/-- A precondition can name the machine the run starts from. -/
theorem ghost {p : Prog α} (h : ∀ w₁, P w₁ → Triple (fun w => w = w₁) p Q) : Triple P p Q :=
  fun w _ _ _ hP => h w hP rfl

/-- A property of the machine that every step keeps holds after any program. -/
theorem stable {p : Prog α} {S : World → Prop} (hS : ∀ w o r w', S w → w.Step o r w' → S w') :
    Triple S p fun _ => S :=
  fun _ _ _ _ hw _ hc => hc.stable hS hw

/-- Two steps run for their success: when the whole returns nil, so did each step. -/
theorem seqOk {x k : Prog (Option GoError)} {R Q : World → Prop}
    (hx : Triple P x fun r w => r = none → R w) (hk : Triple R k fun r w => r = none → Q w) :
    Triple P (Prog.seqErr x k) fun r w => r = none → Q w :=
  .seqErr hx (hk.mono (fun _ h => h rfl) fun _ _ h => h) fun _ _ _ h => nomatch h

/-- A command succeeds as `Cmd.run` says, or fails having acted within its scope. -/
theorem exec (c : Cmd) (pipe : Pipe) (Q : Option GoError → World → Prop) :
    Triple (fun w => (∀ w', c.run w = some w' → Q none w') ∧
      ∀ e w', w.Within (c.scope w) w' → Q (some e) w') (Shield.exec c pipe) Q :=
  .op fun _ _ _ hP h => by
    rcases h with ⟨rfl, h⟩ | ⟨hr, h⟩
    · exact hP.1 _ h
    · obtain ⟨e, rfl⟩ := Option.isSome_iff_exists.1 hr
      exact hP.2 e _ h

/-- A command run for its success: a successful run from `P` establishes `Q`. -/
theorem execOk (c : Cmd) (pipe : Pipe) {Q : World → Prop}
    (h : ∀ w w', P w → c.run w = some w' → Q w') :
    Triple P (Shield.exec c pipe) fun r w => r = none → Q w :=
  (exec c pipe _).mono (fun w hw => ⟨fun w' h' _ => h w w' hw h', fun _ _ _ h => nomatch h⟩)
    fun _ _ h => h

/-! ## The operations other than commands -/

theorem lstat (p : Path) (Q : Except GoError FileInfo → World → Prop) :
    Triple (fun w => Q (w.fs.lstat p) w) (Shield.lstat p) Q :=
  .op fun _ _ _ hP h => by cases h; exact hP

theorem openFile (p : Path) (Q : Except GoError Path → World → Prop) :
    Triple (fun w => Q (w.fs.openFile p) w) (Shield.openFile p) Q :=
  .op fun _ _ _ hP h => by cases h; exact hP

theorem readdir (d : Path) (Q : Except GoError (List Dirent) → World → Prop) :
    Triple (fun w => Q (w.fs.readdir d) w) (Shield.readdir d) Q :=
  .op fun _ _ _ hP h => by cases h; exact hP

theorem close (d : Path) (Q : Option GoError → World → Prop) :
    Triple (fun w => Q none w) (Shield.close d) Q :=
  .op fun _ _ _ hP h => by cases h; exact hP

theorem mkdir (p : Path) (Q : Option GoError → World → Prop) :
    Triple (fun w => Q (w.fs.mkdir p).1 (w.withFs (w.fs.mkdir p).2)) (Shield.mkdir p) Q :=
  .op fun _ _ _ hP h => by cases h; exact hP

theorem mkdirAll (p : Path) (Q : Option GoError → World → Prop) :
    Triple (fun w => Q (w.fs.mkdirAll p).1 (w.withFs (w.fs.mkdirAll p).2)) (Shield.mkdirAll p) Q :=
  .op fun _ _ _ hP h => by cases h; exact hP

theorem link (src dst : Path) (Q : Option GoError → World → Prop) :
    Triple (fun w => Q (w.fs.link src dst).1 (w.withFs (w.fs.link src dst).2)) (Shield.link src dst) Q :=
  .op fun _ _ _ hP h => by cases h; exact hP

/-- `os.Remove` answers as the model does, or fails having removed part of what it would. -/
theorem remove (p : Path) (Q : Option GoError → World → Prop) :
    Triple (fun w => Q (w.fs.remove p).1 (w.withFs (w.fs.remove p).2) ∧
      ∀ e fs, w.fs.PartlyRemoved p fs → Q (some e) (w.withFs fs)) (Shield.remove p) Q :=
  .op fun _ _ _ hP h => by
    rcases h with h | ⟨hr, fs, hfs, rfl⟩
    · cases h; exact hP.1
    · obtain ⟨e, rfl⟩ := Option.isSome_iff_exists.1 hr
      exact hP.2 e fs hfs

theorem glob (pattern : String) (Q : Except GoError (List String) → World → Prop) :
    Triple (fun w => Q (w.fs.glob pattern) w) (Shield.glob pattern) Q :=
  .op fun _ _ _ hP h => by cases h; exact hP

theorem walkChown (root : Path) (uid gid : Nat) (Q : Option GoError → World → Prop) :
    Triple (fun w => Q (w.fs.walkChown root uid gid).1 (w.withFs (w.fs.walkChown root uid gid).2))
      (Shield.walkChown root uid gid) Q :=
  .op fun _ _ _ hP h => by cases h; exact hP

/-- Whatever `os.Remove(p)` answers, it has removed part of what is at or below `p`. -/
theorem remove_partly (p : Path) (Q : World → Prop) :
    Triple (fun w => ∀ fs, w.fs.PartlyRemoved p fs → Q (w.withFs fs)) (Shield.remove p) fun _ => Q :=
  (remove p _).mono (fun _ hw => ⟨hw _ (FS.partlyRemoved_remove p), fun _ => hw⟩) fun _ _ h => h

/-- `os.RemoveAll` answers as the model does, or fails having removed part of what it would. -/
theorem removeAll (p : Path) (Q : Option GoError → World → Prop) :
    Triple (fun w => Q (w.fs.removeAll p).1 (w.withFs (w.fs.removeAll p).2) ∧
      ∀ e fs, w.fs.PartlyRemoved p fs → Q (some e) (w.withFs fs)) (Shield.removeAll p) Q :=
  .op fun _ _ _ hP h => by
    rcases h with h | ⟨hr, fs, hfs, rfl⟩
    · cases h; exact hP.1
    · obtain ⟨e, rfl⟩ := Option.isSome_iff_exists.1 hr
      exact hP.2 e fs hfs

/-- `os.RemoveAll` run for its success: its failures establish nothing. -/
theorem removeAllOk (p : Path) {Q : World → Prop} :
    Triple (fun w => (w.fs.removeAll p).1 = none → Q (w.withFs (w.fs.removeAll p).2)) (Shield.removeAll p)
      fun r w => r = none → Q w :=
  (removeAll p _).mono (fun _ hw => ⟨hw, fun _ _ _ h => nomatch h⟩) fun _ _ h => h

/-- Whatever `os.RemoveAll(p)` answers, it has removed part of what is at or below `p`. -/
theorem removeAll_partly (p : Path) (Q : World → Prop) :
    Triple (fun w => ∀ fs, w.fs.PartlyRemoved p fs → Q (w.withFs fs)) (Shield.removeAll p) fun _ => Q :=
  (removeAll p _).mono (fun _ hw => ⟨hw _ (FS.partlyRemoved_removeAll p), fun _ => hw⟩) fun _ _ h => h

end Triple

/-! ## Along with the trace -/

/-- `TraceTriple P p Q`: every run of `p` from a machine satisfying `P`, consistent with the
machine, ends with a result, a trace and a machine satisfying `Q`; `Triple` is the case where
`Q` does not read the trace. -/
def TraceTriple {α : Type} (P : World → Prop) (p : Prog α) (Q : α → List Event → World → Prop) :
    Prop :=
  ∀ ⦃w t a w'⦄, P w → Runs p t a → Consistent w t w' → Q a t w'

namespace TraceTriple

variable {α β : Type} {P P' : World → Prop} {Q Q' : α → List Event → World → Prop}

theorem pure {a : α} (h : ∀ w, P w → Q a [] w) : TraceTriple P (.pure a) Q := by
  intro w t b w' hP hr hc
  obtain ⟨rfl, rfl⟩ := Runs.pure_iff.1 hr
  cases hc
  exact h w hP

theorem op {o : Op} {Q : o.Resp → List Event → World → Prop}
    (h : ∀ w r w', P w → w.Step o r w' → Q r [⟨o, r⟩] w') : TraceTriple P (.call o .pure) Q := by
  intro w t r w' hP hr hc
  rw [Runs.op_iff.1 hr] at hc ⊢
  cases hc with
  | cons hs hc => cases hc; exact h _ _ _ hP hs

theorem bind {p : Prog α} {f : α → Prog β} {R : α → List Event → World → Prop}
    {Q : β → List Event → World → Prop} (hp : TraceTriple P p R)
    (hf : ∀ a t₁, TraceTriple (R a t₁) (f a) fun b t₂ => Q b (t₁ ++ t₂)) :
    TraceTriple P (p.bind f) Q := by
  intro w t b w' hP hr hc
  obtain ⟨t₁, t₂, a, rfl, h₁, h₂⟩ := Runs.bind_iff.1 hr
  obtain ⟨w₁, hc₁, hc₂⟩ := Consistent.append_iff.1 hc
  exact hf a t₁ (hp hP h₁ hc₁) h₂ hc₂

theorem mono {p : Prog α} (h : TraceTriple P p Q) (hP : ∀ w, P' w → P w)
    (hQ : ∀ a t w, Q a t w → Q' a t w) : TraceTriple P' p Q' :=
  fun _ _ _ _ hP' hr hc => hQ _ _ _ (h (hP _ hP') hr hc)

theorem ite {c : Prop} [Decidable c] {x y : Prog α} (hx : c → TraceTriple P x Q)
    (hy : ¬c → TraceTriple P y Q) : TraceTriple P (if c then x else y) Q := by
  split
  · exact hx ‹_›
  · exact hy ‹_›

theorem seqErr {x k : Prog (Option GoError)} {R Q : Option GoError → List Event → World → Prop}
    (hx : TraceTriple P x R) (hk : ∀ t₁, TraceTriple (R none t₁) k fun r t₂ => Q r (t₁ ++ t₂))
    (he : ∀ e t w, R (some e) t w → Q (some e) t w) : TraceTriple P (Prog.seqErr x k) Q :=
  hx.bind fun
    | some e, _ => .pure fun w h => by simpa using he e _ w h
    | none, t₁ => hk t₁

theorem bindErr {x : Prog (Except GoError β)} {k : β → Prog (Option GoError)}
    {R : Except GoError β → List Event → World → Prop} {Q : Option GoError → List Event → World → Prop}
    (hx : TraceTriple P x R) (hk : ∀ v t₁, TraceTriple (R (.ok v) t₁) (k v) fun r t₂ => Q r (t₁ ++ t₂))
    (he : ∀ e t w, R (.error e) t w → Q (some e) t w) : TraceTriple P (Prog.bindErr x k) Q :=
  hx.bind fun
    | .error e, _ => .pure fun w h => by simpa using he e _ w h
    | .ok v, t₁ => hk v t₁

theorem deferring {body : Prog α} {cleanup : Prog β} {R : α → List Event → World → Prop}
    (hb : TraceTriple P body R) (hc : ∀ a t₁, TraceTriple (R a t₁) cleanup fun _ t₂ => Q a (t₁ ++ t₂)) :
    TraceTriple P (Prog.deferring body cleanup) Q :=
  hb.bind fun a t₁ => (hc a t₁).bind fun _ t₂ => .pure fun _ h => by simpa using h

theorem ghost {p : Prog α} (h : ∀ w₁, P w₁ → TraceTriple (fun w => w = w₁) p Q) :
    TraceTriple P p Q :=
  fun w _ _ _ hP => h w hP rfl

/-- A precondition that does not depend on the machine can be assumed. -/
theorem of_pure {A : Prop} {p : Prog α} (h : A → TraceTriple P p Q) :
    TraceTriple (fun w => A ∧ P w) p Q :=
  fun _ _ _ _ hP => h hP.1 hP.2

theorem exec (c : Cmd) (pipe : Pipe) (Q : Option GoError → List Event → World → Prop) :
    TraceTriple (fun w => (∀ w', c.run w = some w' → Q none [⟨.exec c pipe, none⟩] w') ∧
      ∀ e w', w.Within (c.scope w) w' → Q (some e) [⟨.exec c pipe, some e⟩] w')
      (Shield.exec c pipe) Q :=
  .op fun _ _ _ hP h => by
    rcases h with ⟨rfl, h⟩ | ⟨hr, h⟩
    · exact hP.1 _ h
    · obtain ⟨e, rfl⟩ := Option.isSome_iff_exists.1 hr
      exact hP.2 e _ h

theorem openFile (p : Path) (Q : Except GoError Path → List Event → World → Prop) :
    TraceTriple (fun w => Q (w.fs.openFile p) [⟨.openFile p, w.fs.openFile p⟩] w) (Shield.openFile p) Q :=
  .op fun _ _ _ hP h => by cases h; exact hP

theorem readdir (d : Path) (Q : Except GoError (List Dirent) → List Event → World → Prop) :
    TraceTriple (fun w => Q (w.fs.readdir d) [⟨.readdir d, w.fs.readdir d⟩] w) (Shield.readdir d) Q :=
  .op fun _ _ _ hP h => by cases h; exact hP

theorem close (d : Path) (Q : Option GoError → List Event → World → Prop) :
    TraceTriple (fun w => Q none [⟨.close d, none⟩] w) (Shield.close d) Q :=
  .op fun _ _ _ hP h => by cases h; exact hP

theorem mkdirAll (p : Path) (Q : Option GoError → List Event → World → Prop) :
    TraceTriple (fun w => Q (w.fs.mkdirAll p).1 [⟨.mkdirAll p, (w.fs.mkdirAll p).1⟩]
      (w.withFs (w.fs.mkdirAll p).2)) (Shield.mkdirAll p) Q :=
  .op fun _ _ _ hP h => by cases h; exact hP

/-- **The loop rule, along with the trace.**  `I pre tp` is the invariant once the elements
`pre` are handled, by the events `tp`; a failing element gives `E` of the events so far.  Each
element's body knows where the element stands in the list. -/
theorem forEach {xs : List β} {body : β → Prog (Option GoError)}
    {I : List β → List Event → World → Prop} {E : GoError → List Event → World → Prop}
    (hb : ∀ pre x post tp, pre ++ x :: post = xs → TraceTriple (I pre tp) (body x)
      fun r t w => (r = none → I (pre ++ [x]) (tp ++ t) w) ∧ ∀ e, r = some e → E e (tp ++ t) w) :
    TraceTriple (I [] []) (Prog.forEach xs body)
      fun r t w => (r = none → I xs t w) ∧ ∀ e, r = some e → E e t w := by
  suffices ∀ suf pre, pre ++ suf = xs → ∀ tp, TraceTriple (I pre tp) (Prog.forEach suf body)
      fun r t w => (r = none → I xs (tp ++ t) w) ∧ ∀ e, r = some e → E e (tp ++ t) w from
    this xs [] rfl []
  intro suf
  induction suf with
  | nil => exact fun pre h tp => .pure fun w hI => ⟨fun _ => by simpa [← h] using hI, nofun⟩
  | cons x suf ih =>
    intro pre h tp
    refine .seqErr (hb pre x suf tp h) (fun t₁ => ?_) fun e t w hw => ⟨nofun, fun e' he => ?_⟩
    · refine (ih (pre ++ [x]) (by simpa using h) (tp ++ t₁)).mono (fun w hw => hw.1 rfl) ?_
      intro r t w hw
      simpa using hw
    · cases he; exact hw.2 e rfl

end TraceTriple

end Shield
