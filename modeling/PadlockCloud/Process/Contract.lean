import PadlockCloud.Process.Program

/-!
# Contracts

A contract says which calls a program may make and what it may rely on in the
responses, both depending on the calls that it has made so far. Whether a program
meets a contract is a property of the program alone: nothing is said about the
state or about what other programs do in between. That the responses are as the
contract says is shown for the pool in which the program runs.
-/

namespace Process

variable {C : Type} {R : C → Type} {ε α β : Type}

/-- A call together with its response. -/
abbrev Event (R : C → Type) := (c : C) × R c

/-- What is asked of a call and promised of its response, after the events of a
log, the latest one first. -/
structure Contract (R : C → Type) where
  call : List (Event R) → C → Prop
  response : List (Event R) → (c : C) → R c → Prop

namespace Program

/-- As long as the responses are as promised, the calls are as asked, and a result
satisfies `post`. -/
def Meets (K : Contract R) (post : List (Event R) → α → Prop) :
    List (Event R) → Program R ε α → Prop
  | log, .pure a => post log a
  | _, .fail _ => True
  | log, .call c k => K.call log c ∧ ∀ r, K.response log c r → Meets K post (⟨c, r⟩ :: log) (k r)

namespace Meets

variable {K : Contract R} {post : List (Event R) → α → Prop} {post' : List (Event R) → β → Prop}
  {log : List (Event R)} {p : Program R ε α}

theorem call {c : C} {k : R c → Program R ε α} (hCall : K.call log c)
    (hRest : ∀ r, K.response log c r → (k r).Meets K post (⟨c, r⟩ :: log)) :
    (Program.call c k).Meets K post log := ⟨hCall, hRest⟩

theorem mono {weaker : List (Event R) → α → Prop} (hMeets : p.Meets K post log)
    (hMono : ∀ log a, post log a → weaker log a) : p.Meets K weaker log := by
  induction p generalizing log with
  | pure a => exact hMono _ _ hMeets
  | fail e => trivial
  | call c k ih => exact ⟨hMeets.1, fun r hResponse => ih r (hMeets.2 r hResponse)⟩

theorem bind {f : α → Program R ε β} (hFirst : p.Meets K post log)
    (hSecond : ∀ log a, post log a → (f a).Meets K post' log) : (p.bind f).Meets K post' log := by
  induction p generalizing log with
  | pure a => exact hSecond _ _ hFirst
  | fail e => trivial
  | call c k ih => exact ⟨hFirst.1, fun r hResponse => ih r (hFirst.2 r hResponse)⟩

/-- An attempt has a result or an error. -/
theorem attempt (escapes : ε → Bool) (hMeets : p.Meets K post log) :
    (p.attempt escapes).Meets K (fun log result => ∀ a, result = .ok a → post log a) log := by
  induction p generalizing log with
  | pure a =>
    intro a' hResult
    obtain rfl := Except.ok.inj hResult
    exact hMeets
  | fail e =>
    rw [Program.attempt]
    split
    · trivial
    · intro _ hResult
      cases hResult
  | call c k ih => exact ⟨hMeets.1, fun r hResponse => ih r (hMeets.2 r hResponse)⟩

/-- A failed attempt has the error, unless it escapes. -/
theorem attempt_fail {weaker : List (Event R) → Except ε α → Prop} {escapes : ε → Bool} {e : ε}
    (hError : weaker log (.error e)) :
    ((Program.fail e : Program R ε α).attempt escapes).Meets K weaker log := by
  rw [Program.attempt]
  split
  · trivial
  · exact hError

theorem ensure {cleanup : Program R ε Unit} (hMeets : p.Meets K (fun _ _ => True) log)
    (hCleanup : ∀ log, cleanup.Meets K (fun _ _ => True) log) :
    (p.ensure cleanup).Meets K (fun _ _ => True) log := by
  induction p generalizing log with
  | pure a => exact (hCleanup log).bind fun _ _ _ => trivial
  | fail e => exact (hCleanup log).bind fun _ _ _ => trivial
  | call c k ih => exact ⟨hMeets.1, fun r hResponse => ih r (hMeets.2 r hResponse)⟩

end Meets

end Program

end Process
