import Shield.Prog

/-!
# Early return and deferred calls

The plugins handle errors the Go way: each step's error is checked at once and returned,
and the resources taken on the way are released by `defer`red calls, which run after the
`return` and whose own errors are dropped.  This module states what that discipline gives
for a whole run and proves it once per combinator of `Shield.Prog`.

`F ev` is the error with which the event `ev` makes the code give up (`none` for an answer it
goes on after).  `StopsAt F fwd r` says the result `r` is the first failure among the forward
steps `fwd`, and that this failure is the last forward step.  `EarlyExit F P C p` says that
every run of `p` is forward steps with `StopsAt`, followed by deferred calls, all in `C`,
and that `p` only issues operations in `P`.

* `EarlyExit.bind` is the step lemma: one operation (`Single`), then a continuation that
  returns its error or goes on;
* `EarlyExit.seqErr`, `EarlyExit.deferring` and `EarlyExit.forEach` lift the property
  through `if err != nil { return err }`, `defer` and loops; `forEach` is the run lemma, over
  any number of iterations and a failure at any of them.
-/

namespace Shield

open Prog

/-- The result `r` is the first failure among the forward steps `fwd`, and that one is the
last forward step: nil when no forward step failed. -/
def StopsAt (F : Event → Option GoError) (fwd : List Event) : Option GoError → Prop
  | none => ∀ ev ∈ fwd, F ev = none
  | some e => ∃ pre ev, fwd = pre ++ [ev] ∧ (∀ x ∈ pre, F x = none) ∧ F ev = some e

/-- Every run of `p` is forward steps that stop at their first failure, then deferred calls
in `C`; and `p` only issues operations in `P`. -/
structure EarlyExit (F : Event → Option GoError) (P C : Op → Prop) (p : Prog (Option GoError)) :
    Prop where
  ops : OnlyOps P p
  stops : ∀ {t r}, Runs p t r → ∃ fwd cl, t = fwd ++ cl ∧ (∀ ev ∈ cl, C ev.op) ∧ StopsAt F fwd r

variable {F : Event → Option GoError} {P C : Op → Prop}

namespace StopsAt

/-- Forward steps that all succeeded, put before a run, keep its result. -/
theorem append {pre fwd : List Event} {r : Option GoError} (hpre : ∀ ev ∈ pre, F ev = none)
    (h : StopsAt F fwd r) : StopsAt F (pre ++ fwd) r := by
  cases r with
  | none => simpa [StopsAt, or_imp, forall_and] using ⟨hpre, h⟩
  | some e =>
    obtain ⟨pre', ev, rfl, hpre', hev⟩ := h
    exact ⟨pre ++ pre', ev, by simp, by simpa [or_imp, forall_and] using ⟨hpre, hpre'⟩, hev⟩

theorem cons {ev : Event} {fwd : List Event} {r : Option GoError} (hev : F ev = none)
    (h : StopsAt F fwd r) : StopsAt F (ev :: fwd) r :=
  @append F [ev] fwd r (by simpa using hev) h

end StopsAt

/-- The error of a Go call that returns a value and an error. -/
def errOf {β : Type} : Except GoError β → Option GoError
  | .error e => some e
  | .ok _ => none

/-- `x` is one operation in `P`, and `g` reads its answer as `F` reads the event. -/
structure Single (F : Event → Option GoError) (P : Op → Prop) {β : Type} (g : β → Option GoError)
    (x : Prog β) : Prop where
  ops : OnlyOps P x
  runs : ∀ {t v}, Runs x t v → ∃ ev, t = [ev] ∧ F ev = g v

theorem Single.call (o : Op) {g : o.Resp → Option GoError} (ho : P o) (hF : ∀ v, F ⟨o, v⟩ = g v) :
    Single F P g (.call o .pure) where
  ops := .op ho
  runs h := ⟨_, Runs.op_iff.1 h, hF _⟩

namespace EarlyExit

theorem done : EarlyExit F P C (.pure none) where
  ops := .pure _
  stops h := by
    obtain ⟨rfl, rfl⟩ := Runs.pure_iff.1 h
    exact ⟨[], [], rfl, by simp, by simp [StopsAt]⟩

/-- One operation, whose answer fails the step as `g` reads it and is then returned as it
is, or lets the continuation go on. -/
theorem bind {β : Type} {g : β → Option GoError} {x : Prog β} {k : β → Prog (Option GoError)}
    (hx : Single F P g x) (hk : ∀ v, g v = none → EarlyExit F P C (k v))
    (hfail : ∀ v e, g v = some e → k v = .pure (some e)) : EarlyExit F P C (x.bind k) where
  ops := hx.ops.bind fun v => by
    cases hv : g v with
    | none => exact (hk v hv).ops
    | some e => rw [hfail v e hv]; exact .pure _
  stops h := by
    obtain ⟨t₁, t₂, v, rfl, h₁, h₂⟩ := Runs.bind_iff.1 h
    obtain ⟨ev, rfl, hev⟩ := hx.runs h₁
    cases hv : g v with
    | none =>
      obtain ⟨fwd, cl, rfl, hcl, hs⟩ := (hk v hv).stops h₂
      exact ⟨ev :: fwd, cl, rfl, hcl, .cons (hev.trans hv) hs⟩
    | some e =>
      rw [hfail v e hv] at h₂
      obtain ⟨rfl, rfl⟩ := Runs.pure_iff.1 h₂
      exact ⟨[ev], [], rfl, by simp, [], ev, rfl, by simp, hev.trans hv⟩

/-- `v, err := x(); if err != nil { return err }; k v`. -/
theorem bindErr {β : Type} {x : Prog (Except GoError β)} {k : β → Prog (Option GoError)}
    (hx : Single F P errOf x) (hk : ∀ v, EarlyExit F P C (k v)) :
    EarlyExit F P C (Prog.bindErr x k) :=
  bind hx (fun v _ => match v with | .ok v => hk v) fun v e hv => match v, hv with | .error _, rfl => rfl

/-- A single operation whose answer is the error it fails with. -/
theorem single {x : Prog (Option GoError)} (hx : Single F P id x) : EarlyExit F P C x where
  ops := hx.ops
  stops {_ r} h := by
    obtain ⟨ev, rfl, hev⟩ := hx.runs h
    refine ⟨[ev], [], rfl, by simp, ?_⟩
    cases r with
    | none => simpa [StopsAt] using hev
    | some e => exact ⟨[], ev, rfl, by simp, hev⟩

/-- `err := x(); if err != nil { return err }; k`: the deferred calls of `x`, run before `k`,
become forward steps, which cannot fail. -/
theorem seqErr {x k : Prog (Option GoError)} (hC : ∀ ev : Event, C ev.op → F ev = none)
    (hx : EarlyExit F P C x) (hk : EarlyExit F P C k) : EarlyExit F P C (Prog.seqErr x k) where
  ops := hx.ops.seqErr hk.ops
  stops h := by
    rcases Runs.seqErr_iff.1 h with ⟨e, hx', rfl⟩ | ⟨t₁, t₂, rfl, h₁, h₂⟩
    · exact hx.stops hx'
    · obtain ⟨fwd₁, cl₁, rfl, hcl₁, hs₁⟩ := hx.stops h₁
      obtain ⟨fwd₂, cl₂, rfl, hcl₂, hs₂⟩ := hk.stops h₂
      refine ⟨fwd₁ ++ cl₁ ++ fwd₂, cl₂, by simp, hcl₂, StopsAt.append ?_ hs₂⟩
      simpa [or_imp, forall_and] using ⟨hs₁, fun ev hev => hC ev (hcl₁ ev hev)⟩

/-- `defer cleanup()` with a cleanup that only issues deferred calls. -/
theorem deferring {body : Prog (Option GoError)} {β : Type} {cleanup : Prog β}
    (hb : EarlyExit F P C body) (hP : OnlyOps P cleanup) (hC : OnlyOps C cleanup) :
    EarlyExit F P C (Prog.deferring body cleanup) where
  ops := hb.ops.deferring hP
  stops h := by
    obtain ⟨t₁, t₂, b, rfl, h₁, h₂⟩ := Runs.deferring_iff.1 h
    obtain ⟨fwd, cl, rfl, hcl, hs⟩ := hb.stops h₁
    exact ⟨fwd, cl ++ t₂, by simp, by simpa [or_imp, forall_and] using ⟨hcl, hC.events h₂⟩, hs⟩

/-- A loop whose body may `return err`, over any list. -/
theorem forEach {β : Type} {xs : List β} {body : β → Prog (Option GoError)}
    (hC : ∀ ev : Event, C ev.op → F ev = none) (hb : ∀ x, EarlyExit F P C (body x)) :
    EarlyExit F P C (Prog.forEach xs body) := by
  induction xs with
  | nil => exact done
  | cons x xs ih => exact seqErr hC (hb x) ih

end EarlyExit

end Shield
