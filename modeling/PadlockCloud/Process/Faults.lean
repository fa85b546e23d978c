import PadlockCloud.Process.Program

/-!
# Failing calls and retries

A call that fails answers with an error and has no effect. Which of the calls of
a run fail is given by their numbers, so that a statement about every choice of
failing calls is one about every function from numbers to truth values.

An attempt that fails may be repeated, with other failing calls each time, until
one succeeds.
-/

namespace Process

variable {C : Type} {R : C → Type} {ε α A σ : Type}

/-- What the calls do when some of them fail. The state counts the calls that can
fail; `failure` is what such a call answers. -/
def faulty (h : Interp R σ) (failure : (c : C) → Option (R c)) (fails : Nat → Bool) :
    Interp R (σ × Nat) := fun c s =>
  match failure c with
  | none => ((h c s.1).1, (h c s.1).2, s.2)
  | some r => if fails s.2 then (r, s.1, s.2 + 1) else ((h c s.1).1, (h c s.1).2, s.2 + 1)

variable {h : Interp R σ} {failure : (c : C) → Option (R c)} {fails : Nat → Bool} {c : C}
  {r : R c}

theorem faulty_fails (hFailure : failure c = some r) (s : σ) {n : Nat} (hFails : fails n = true) :
    faulty h failure fails c (s, n) = (r, s, n + 1) := by
  simp [faulty, hFailure, hFails]

theorem faulty_works (hFailure : failure c = some r) (s : σ) {n : Nat}
    (hWorks : fails n = false) :
    faulty h failure fails c (s, n) = ((h c s).1, (h c s).2, n + 1) := by
  simp [faulty, hFailure, hWorks]

/-- An attempt is repeated until it succeeds. The list has one entry for each time. -/
inductive Retried (attempt : A → σ → Except ε α × σ) : List A → σ → σ → Prop where
  | succeeded {a : A} {s t : σ} {result : α} (hOk : attempt a s = (.ok result, t)) :
      Retried attempt [a] s t
  | failed {a : A} {rest : List A} {s t u : σ} {e : ε} (hError : attempt a s = (.error e, t))
      (hRest : Retried attempt rest t u) : Retried attempt (a :: rest) s u

end Process
