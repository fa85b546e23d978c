import Mathlib.Control.Basic

/-!
# Programs over an interface of calls

A `Program` is a sequential computation that may stop with an error and that
reaches the outside world only through calls. The response of a call decides
how the program goes on, so a program is a tree: it can be run to its end
against a store (`run`), and it can also be stopped between any two calls and
resumed later, which is what the interleavings of several programs need.

Nothing in this file depends on what the calls mean. An interface is a type
of calls `C` with a type of responses `R c` for each call.
-/

namespace Process

/-- A computation with result in `α`, errors in `ε` and calls in `C`. -/
inductive Program {C : Type} (R : C → Type) (ε α : Type) : Type where
  | pure (a : α)
  | fail (e : ε)
  | call (c : C) (k : R c → Program R ε α)

/-- What the calls do to a state: the response and the state after the call. -/
abbrev Interp {C : Type} (R : C → Type) (σ : Type) := (c : C) → σ → R c × σ

/-- A mapped result comes from a result. -/
theorem ok_of_map {ε α β : Type} {result : Except ε α} {f : α → β} {y : β}
    (hMap : result.map f = .ok y) : ∃ a, result = .ok a ∧ f a = y := by
  cases result with
  | error e => cases hMap
  | ok a => exact ⟨a, rfl, Except.ok.inj hMap⟩

namespace Program

variable {C : Type} {R : C → Type} {ε ε' α β γ σ : Type}

def bind : Program R ε α → (α → Program R ε β) → Program R ε β
  | .pure a, f => f a
  | .fail e, _ => .fail e
  | .call c k, f => .call c fun r => (k r).bind f

instance : Monad (Program R ε) where
  pure := Program.pure
  bind := Program.bind

/-- One call, answered by its response. -/
def request (c : C) : Program R ε (R c) := .call c .pure

/-- Turns the error of a program into a value, except for the errors that
`escapes` lets through. -/
def attempt (escapes : ε → Bool) : Program R ε α → Program R ε (Except ε α)
  | .pure a => .pure (.ok a)
  | .fail e => if escapes e then .fail e else .pure (.error e)
  | .call c k => .call c fun r => (k r).attempt escapes

/-- Runs `cleanup` when the program ends, by a result or by an error. -/
def ensure : Program R ε α → Program R ε Unit → Program R ε α
  | .pure a, cleanup => cleanup.bind fun _ => .pure a
  | .fail e, cleanup => cleanup.bind fun _ => .fail e
  | .call c k, cleanup => .call c fun r => (k r).ensure cleanup

@[simp] theorem pure_eq (a : α) : (Pure.pure a : Program R ε α) = .pure a := rfl

@[simp] theorem bind_eq (p : Program R ε α) (f : α → Program R ε β) : p >>= f = p.bind f := rfl

@[simp] theorem pure_bind (a : α) (f : α → Program R ε β) : (Program.pure a).bind f = f a := rfl

@[simp] theorem fail_bind (e : ε) (f : α → Program R ε β) :
    (Program.fail e : Program R ε α).bind f = .fail e := rfl

@[simp] theorem call_bind (c : C) (k : R c → Program R ε α) (f : α → Program R ε β) :
    (Program.call c k).bind f = .call c fun r => (k r).bind f := rfl

@[simp] theorem request_bind (c : C) (f : R c → Program R ε β) :
    (request c : Program R ε (R c)).bind f = .call c f := rfl

/-! ## Running a program to its end -/

/-- The result of a program and the state it leaves. -/
def run (h : Interp R σ) : Program R ε α → σ → Except ε α × σ
  | .pure a, s => (.ok a, s)
  | .fail e, s => (.error e, s)
  | .call c k, s => (k (h c s).1).run h (h c s).2

/-- The calls of a run with their responses, in order. -/
def trace (h : Interp R σ) : Program R ε α → σ → List ((c : C) × R c)
  | .pure _, _ => []
  | .fail _, _ => []
  | .call c k, s => ⟨c, (h c s).1⟩ :: (k (h c s).1).trace h (h c s).2

variable {h : Interp R σ}

@[simp] theorem run_pure (a : α) (s : σ) : (Program.pure a : Program R ε α).run h s = (.ok a, s) :=
  rfl

@[simp] theorem run_fail (e : ε) (s : σ) :
    (Program.fail e : Program R ε α).run h s = (.error e, s) := rfl

@[simp] theorem run_call (c : C) (k : R c → Program R ε α) (s : σ) :
    (Program.call c k).run h s = (k (h c s).1).run h (h c s).2 := rfl

@[simp] theorem trace_pure (a : α) (s : σ) : (Program.pure a : Program R ε α).trace h s = [] := rfl

@[simp] theorem trace_fail (e : ε) (s : σ) :
    (Program.fail e : Program R ε α).trace h s = [] := rfl

@[simp] theorem trace_call (c : C) (k : R c → Program R ε α) (s : σ) :
    (Program.call c k).trace h s = ⟨c, (h c s).1⟩ :: (k (h c s).1).trace h (h c s).2 := rfl

/-- A run is given by its result and the state it leaves. -/
theorem run_eq {run : Except ε α × σ} {result : Except ε α} (hResult : run.1 = result) :
    run = (result, run.2) := by
  rw [← hResult]

theorem run_bind (p : Program R ε α) (f : α → Program R ε β) (s : σ) :
    (p.bind f).run h s =
      match (p.run h s).1 with
      | .ok a => (f a).run h (p.run h s).2
      | .error e => (.error e, (p.run h s).2) := by
  induction p generalizing s with
  | pure a => rfl
  | fail e => rfl
  | call c k ih => exact ih _ _

theorem run_bind_ok {p : Program R ε α} {f : α → Program R ε β} {s t : σ} {a : α}
    (hp : p.run h s = (.ok a, t)) : (p.bind f).run h s = (f a).run h t := by
  rw [run_bind, hp]

theorem run_bind_error {p : Program R ε α} {f : α → Program R ε β} {s t : σ} {e : ε}
    (hp : p.run h s = (.error e, t)) : (p.bind f).run h s = (.error e, t) := by
  rw [run_bind, hp]

/-- A sequence that succeeds has a first part that succeeds. -/
theorem run_bind_eq_ok {p : Program R ε α} {f : α → Program R ε β} {s t : σ} {b : β}
    (hb : (p.bind f).run h s = (.ok b, t)) :
    ∃ a u, p.run h s = (.ok a, u) ∧ (f a).run h u = (.ok b, t) := by
  rw [run_bind] at hb
  rcases hp : p.run h s with ⟨_ | a, u⟩
  · rw [hp] at hb
    cases hb
  · exact ⟨a, u, rfl, by simpa only [hp] using hb⟩

theorem run_attempt (escapes : ε → Bool) (p : Program R ε α) (s : σ) :
    (p.attempt escapes).run h s =
      match (p.run h s).1 with
      | .ok a => (.ok (.ok a), (p.run h s).2)
      | .error e =>
        if escapes e then (.error e, (p.run h s).2) else (.ok (.error e), (p.run h s).2) := by
  induction p generalizing s with
  | pure a => rfl
  | fail e =>
    simp only [attempt, run_fail]
    split <;> rfl
  | call c k ih => exact ih _ _

/-- How a program goes on after an attempt. -/
theorem run_attempt_bind (escapes : ε → Bool) (p : Program R ε α)
    (f : Except ε α → Program R ε β) (s : σ) :
    ((p.attempt escapes).bind f).run h s =
      match p.run h s with
      | (.ok a, t) => (f (.ok a)).run h t
      | (.error e, t) => if escapes e then (.error e, t) else (f (.error e)).run h t := by
  rw [run_bind, run_attempt]
  rcases p.run h s with ⟨e | a, t⟩
  · cases hEscapes : escapes e <;> simp [hEscapes]
  · rfl

theorem run_ensure (p : Program R ε α) (cleanup : Program R ε Unit) (s : σ) :
    (p.ensure cleanup).run h s =
      match (cleanup.run h (p.run h s).2).1 with
      | .ok _ => ((p.run h s).1, (cleanup.run h (p.run h s).2).2)
      | .error e => (.error e, (cleanup.run h (p.run h s).2).2) := by
  induction p generalizing s with
  | pure a =>
    simp only [ensure, run_bind, run_pure]
    cases (cleanup.run h s).1 <;> rfl
  | fail e =>
    simp only [ensure, run_bind, run_fail]
    cases (cleanup.run h s).1 <;> rfl
  | call c k ih => exact ih _ _

/-! ## What a program leaves alone -/

/-- No run of the program changes the `view` of the state. -/
def Keeps {τ : Type} (h : Interp R σ) (view : σ → τ) (p : Program R ε α) : Prop :=
  ∀ s, view (p.run h s).2 = view s

namespace Keeps

variable {τ : Type} {view : σ → τ}

/-- What changes nothing changes no view. -/
theorem of_id {p : Program R ε α} (hKeeps : Keeps h id p) (view : σ → τ) : Keeps h view p :=
  fun s => congrArg view (hKeeps s)

theorem pure (a : α) : Keeps h view (.pure a : Program R ε α) := fun _ => rfl

theorem fail (e : ε) : Keeps h view (.fail e : Program R ε α) := fun _ => rfl

theorem bind {p : Program R ε α} {f : α → Program R ε β} (hFirst : Keeps h view p)
    (hSecond : ∀ a, Keeps h view (f a)) : Keeps h view (p.bind f) := by
  intro s
  rw [run_bind]
  cases (p.run h s).1 with
  | ok a => exact (hSecond a _).trans (hFirst s)
  | error e => exact hFirst s

end Keeps

/-- After a first part that keeps the view, a sequence changes it as its second
part does, if that is reached. -/
theorem view_run_bind {τ : Type} (view : σ → τ) {p : Program R ε α} {f : α → Program R ε β}
    (hSecond : ∀ a, Keeps h view (f a)) (s : σ) :
    view ((p.bind f).run h s).2 = view (p.run h s).2 := by
  rw [run_bind]
  cases (p.run h s).1 with
  | ok a => exact hSecond a _
  | error e => rfl

end Program

end Process
