import Mathlib.Data.List.Basic

/-!
# Runs with a history

A run performs one action after the other. Which actions are allowed may depend
on the history, that is the list of the actions performed so far, the latest
one first: this is how assumptions such as a clock that does not go back or
fresh random values are stated.
-/

namespace Process

variable {A σ : Type} {perform : A → σ → σ} {allowed : List A → A → Prop}

/-- From one history and state to a later history and state. -/
inductive Run (perform : A → σ → σ) (allowed : List A → A → Prop) (past : List A) (s : σ) :
    List A → σ → Prop where
  | refl : Run perform allowed past s past s
  | step {history : List A} {t : σ} {a : A} (hRun : Run perform allowed past s history t)
      (hAllowed : allowed history a) : Run perform allowed past s (a :: history) (perform a t)

namespace Run

variable {past history future : List A} {s t u : σ}

theorem trans (hFirst : Run perform allowed past s history t)
    (hSecond : Run perform allowed history t future u) :
    Run perform allowed past s future u := by
  induction hSecond with
  | refl => exact hFirst
  | step _ hAllowed ih => exact .step ih hAllowed

/-- A history only grows. -/
theorem suffix (hRun : Run perform allowed past s history t) : past <:+ history := by
  induction hRun with
  | refl => exact List.suffix_refl past
  | step _ _ ih => exact ih.trans (List.suffix_cons _ _)

/-- Fewer actions are allowed, fewer runs there are. -/
theorem mono {allowed' : List A → A → Prop} (hMono : ∀ history a, allowed history a →
    allowed' history a) (hRun : Run perform allowed past s history t) :
    Run perform allowed' past s history t := by
  induction hRun with
  | refl => exact .refl
  | step _ hAllowed ih => exact .step ih (hMono _ _ hAllowed)

/-- What holds at the start and is preserved by every allowed action holds at
the end. -/
theorem invariant {I : List A → σ → Prop} (hRun : Run perform allowed past s history t)
    (hStart : I past s)
    (hStep : ∀ history t a, I history t → allowed history a → I (a :: history) (perform a t)) :
    I history t := by
  induction hRun with
  | refl => exact hStart
  | step _ hAllowed ih => exact hStep _ _ _ ih hAllowed

/-- The state that a history leads to. -/
def after (perform : A → σ → σ) (s : σ) (history : List A) : σ := history.foldr perform s

theorem eq_after (hRun : Run perform allowed [] s history t) : t = after perform s history := by
  induction hRun with
  | refl => rfl
  | step _ _ ih => rw [ih, after, after, List.foldr_cons]

/-- Where everything is allowed, every history has a run. -/
theorem to_after (hAll : ∀ history a, allowed history a) (s : σ) (history : List A) :
    Run perform allowed [] s history (after perform s history) := by
  induction history with
  | nil => exact .refl
  | cons a history ih => exact .step ih (hAll history a)

end Run

end Process
