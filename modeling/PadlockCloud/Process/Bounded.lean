import PadlockCloud.Process.Program

/-!
# Bounded programs

How many calls a program makes at most, and which ones. A bound may rely on what
the responses are known to be: a program that walks a list that it gets has a bound
only where there is one on the length of the list.

A program that *answers* ends with a result and not with an error, and one that *ends* in
some results and errors ends with one of these. A program that *stays* among some calls
makes any number of them, and one that is *sparing* makes few of a marked kind.
-/

namespace Process

variable {C : Type} {R : C → Type} {ε α β : Type}

namespace Program

/-- At most `n` calls, all of them allowed, as long as the responses are as known. -/
def Bounded (known : (c : C) → R c → Prop) (allowed : C → Prop) : Nat → Program R ε α → Prop
  | _, .pure _ => True
  | _, .fail _ => True
  | 0, .call _ _ => False
  | n + 1, .call c k => allowed c ∧ ∀ r, known c r → (k r).Bounded known allowed n

/-- The program has no call left. -/
def Ended : Program R ε α → Prop
  | .pure _ | .fail _ => True
  | .call _ _ => False

/-- A result satisfies `post`, and an error is one of `errors`. -/
def Ends (post : α → Prop) (errors : ε → Prop) : Program R ε α → Prop
  | .pure a => post a
  | .fail e => errors e
  | .call _ k => ∀ r, (k r).Ends post errors

/-- The program ends with a result that satisfies `post`. -/
abbrev Answers (post : α → Prop) (p : Program R ε α) : Prop := p.Ends post fun _ => False

/-- All calls are allowed, and a result satisfies `post`, as long as the responses are
as known. -/
def Stays (known : (c : C) → R c → Prop) (allowed : C → Prop) (post : α → Prop) :
    Program R ε α → Prop
  | .pure a => post a
  | .fail _ => True
  | .call c k => allowed c ∧ ∀ r, known c r → (k r).Stays known allowed post

/-- At most `n` of the calls are marked, and these are allowed. -/
inductive Sparing (marked : C → Bool) (allowed : C → Prop) : Nat → Program R ε α → Prop where
  | pure (n : Nat) (a : α) : Sparing marked allowed n (.pure a)
  | fail (n : Nat) (e : ε) : Sparing marked allowed n (.fail e)
  | call {n : Nat} {c : C} {k : R c → Program R ε α} (hCall : marked c = false)
      (hRest : ∀ r, Sparing marked allowed n (k r)) : Sparing marked allowed n (.call c k)
  | spend {n : Nat} {c : C} {k : R c → Program R ε α} (hCall : allowed c)
      (hRest : ∀ r, Sparing marked allowed n (k r)) : Sparing marked allowed (n + 1) (.call c k)

variable {known : (c : C) → R c → Prop} {allowed : C → Prop} {m n : Nat} {p : Program R ε α}

namespace Bounded

theorem pure (a : α) : (Program.pure a : Program R ε α).Bounded known allowed n := by
  cases n <;> trivial

theorem fail (e : ε) : (Program.fail e : Program R ε α).Bounded known allowed n := by
  cases n <;> trivial

theorem call {c : C} {k : R c → Program R ε α} (hCall : allowed c)
    (hRest : ∀ r, known c r → (k r).Bounded known allowed n) :
    (Program.call c k).Bounded known allowed (n + 1) := ⟨hCall, hRest⟩

theorem request {c : C} (hCall : allowed c) :
    (Program.request c : Program R ε (R c)).Bounded known allowed 1 :=
  .call hCall fun r _ => .pure r

theorem mono (hBounded : p.Bounded known allowed m) (hLe : m ≤ n) :
    p.Bounded known allowed n := by
  induction p generalizing m n with
  | pure a => exact .pure a
  | fail e => exact .fail e
  | call c k ih =>
    cases m with
    | zero => exact hBounded.elim
    | succ m =>
      obtain ⟨n, rfl⟩ := Nat.exists_eq_succ_of_ne_zero (show n ≠ 0 by omega)
      apply Bounded.call hBounded.1
      intro r hr
      exact ih r (hBounded.2 r hr) (by omega)

theorem weaken {wider : C → Prop} (hBounded : p.Bounded known allowed n)
    (hWider : ∀ c, allowed c → wider c) : p.Bounded known wider n := by
  induction p generalizing n with
  | pure a => exact .pure a
  | fail e => exact .fail e
  | call c k ih =>
    cases n with
    | zero => exact hBounded.elim
    | succ n =>
      apply Bounded.call (hWider c hBounded.1)
      intro r hr
      exact ih r (hBounded.2 r hr)

/-- The calls of a sequence are those of both parts. -/
theorem bind {f : α → Program R ε β} (hFirst : p.Bounded known allowed m)
    (hSecond : ∀ a, (f a).Bounded known allowed n) :
    (p.bind f).Bounded known allowed (m + n) := by
  induction p generalizing m with
  | pure a => exact (hSecond a).mono (by omega)
  | fail e => exact .fail e
  | call c k ih =>
    cases m with
    | zero => exact hFirst.elim
    | succ m =>
      rw [Nat.succ_add_eq_add_succ]
      apply Bounded.call hFirst.1
      intro r hr
      exact ih r (hFirst.2 r hr)

/-- What comes after the first part may make no further call. -/
theorem bind_ended {f : α → Program R ε β} (hFirst : p.Bounded known allowed n)
    (hSecond : ∀ a, (f a).Bounded known allowed 0) : (p.bind f).Bounded known allowed n :=
  hFirst.bind hSecond

theorem attempt (escapes : ε → Bool) (hBounded : p.Bounded known allowed n) :
    (p.attempt escapes).Bounded known allowed n := by
  induction p generalizing n with
  | pure a => exact .pure _
  | fail e =>
    rw [Program.attempt]
    split
    · exact .fail _
    · exact .pure _
  | call c k ih =>
    cases n with
    | zero => exact hBounded.elim
    | succ n =>
      apply Bounded.call hBounded.1
      intro r hr
      exact ih r (hBounded.2 r hr)

theorem ensure {cleanup : Program R ε Unit} (hBounded : p.Bounded known allowed m)
    (hCleanup : cleanup.Bounded known allowed n) :
    (p.ensure cleanup).Bounded known allowed (m + n) := by
  induction p generalizing m with
  | pure a => exact (hCleanup.bind_ended fun _ => .pure a).mono (by omega)
  | fail e => exact (hCleanup.bind_ended fun _ => .fail e).mono (by omega)
  | call c k ih =>
    cases m with
    | zero => exact hBounded.elim
    | succ m =>
      rw [Nat.succ_add_eq_add_succ]
      apply Bounded.call hBounded.1
      intro r hr
      exact ih r (hBounded.2 r hr)

end Bounded

namespace Ended

theorem pure (a : α) : (Program.pure a : Program R ε α).Ended := trivial

theorem fail (e : ε) : (Program.fail e : Program R ε α).Ended := trivial

/-- A program has ended, or it has a next call. -/
theorem or_call (p : Program R ε α) : p.Ended ∨ ∃ c k, p = .call c k := by
  cases p with
  | pure a => exact .inl trivial
  | fail e => exact .inl trivial
  | call c k => exact .inr ⟨c, k, rfl⟩

theorem not_call {c : C} {k : R c → Program R ε α} : ¬(Program.call c k).Ended := id

theorem bounded (hEnded : p.Ended) : p.Bounded known allowed n := by
  cases p with
  | pure a => exact .pure a
  | fail e => exact .fail e
  | call c k => exact (not_call hEnded).elim

theorem bind {f : α → Program R ε β} (hEnded : p.Ended) (hSecond : ∀ a, (f a).Ended) :
    (p.bind f).Ended := by
  cases p with
  | pure a => exact hSecond a
  | fail e => exact .fail e
  | call c k => exact (not_call hEnded).elim

theorem attempt (escapes : ε → Bool) (hEnded : p.Ended) : (p.attempt escapes).Ended := by
  cases p with
  | pure a => exact .pure _
  | fail e =>
    rw [Program.attempt]
    split
    · exact .fail _
    · exact .pure _
  | call c k => exact (not_call hEnded).elim

end Ended

namespace Ends

variable {post : α → Prop} {post' : β → Prop} {errors : ε → Prop}

theorem mono {weaker : α → Prop} {wider : ε → Prop} (hEnds : p.Ends post errors)
    (hPost : ∀ a, post a → weaker a) (hErrors : ∀ e, errors e → wider e) : p.Ends weaker wider := by
  induction p with
  | pure a => exact hPost a hEnds
  | fail e => exact hErrors e hEnds
  | call c k ih => exact fun r => ih r (hEnds r)

theorem bind {f : α → Program R ε β} (hFirst : p.Ends post errors)
    (hSecond : ∀ a, post a → (f a).Ends post' errors) : (p.bind f).Ends post' errors := by
  induction p with
  | pure a => exact hSecond a hFirst
  | fail e => exact hFirst
  | call c k ih => exact fun r => ih r (hFirst r)

/-- An attempt goes on with a result, or with an error that does not escape. -/
theorem attempt_bind {escapes : ε → Bool} {f : Except ε α → Program R ε β} {wider : ε → Prop}
    (hFirst : p.Ends post errors) (hOk : ∀ a, post a → (f (.ok a)).Ends post' wider)
    (hError : ∀ e, errors e → escapes e = false → (f (.error e)).Ends post' wider)
    (hEscapes : ∀ e, errors e → escapes e = true → wider e) :
    ((p.attempt escapes).bind f).Ends post' wider := by
  induction p with
  | pure a => exact hOk a hFirst
  | fail e =>
    rw [Program.attempt]
    split
    · rename_i hEscape
      exact hEscapes e hFirst hEscape
    · rename_i hCaught
      exact hError e hFirst (Bool.eq_false_iff.mpr hCaught)
  | call c k ih => exact fun r => ih r (hFirst r)

theorem ensure {cleanup : Program R ε Unit} (hEnds : p.Ends post errors)
    (hCleanup : cleanup.Ends (fun _ => True) errors) : (p.ensure cleanup).Ends post errors := by
  induction p with
  | pure a => exact hCleanup.bind fun _ _ => hEnds
  | fail e => exact hCleanup.bind fun _ _ => hEnds
  | call c k ih => exact fun r => ih r (hEnds r)

end Ends

namespace Answers

variable {post : α → Prop}

/-- What lets no error escape answers. -/
theorem attempt (p : Program R ε α) : (p.attempt fun _ => false).Answers fun _ => True := by
  induction p with
  | pure a => trivial
  | fail e => trivial
  | call c k ih => exact fun r => ih r

/-- Where a program that answers has ended, it has a result. -/
theorem result (hAnswers : p.Answers post) (hEnded : p.Ended) : ∃ a, p = .pure a ∧ post a := by
  cases p with
  | pure a => exact ⟨a, rfl, hAnswers⟩
  | fail e => exact hAnswers.elim
  | call c k => exact (Ended.not_call hEnded).elim

theorem run {σ : Type} {h : Interp R σ} (hAnswers : p.Answers post) (s : σ) :
    ∃ a, p.run h s = (.ok a, (p.run h s).2) ∧ post a := by
  induction p generalizing s with
  | pure a => exact ⟨a, rfl, hAnswers⟩
  | fail e => exact hAnswers.elim
  | call c k ih => exact ih _ (hAnswers _) _

end Answers

theorem Stays.any (p : Program R ε α) :
    p.Stays (fun _ _ => True) (fun _ => True) fun _ => True := by
  induction p with
  | pure a => trivial
  | fail e => trivial
  | call c k ih => exact ⟨trivial, fun r _ => ih r⟩

/-- What has ended makes no call. -/
theorem Ended.stays (hEnded : p.Ended) : p.Stays known allowed fun _ => True := by
  cases p with
  | pure a => trivial
  | fail e => trivial
  | call c k => exact (Ended.not_call hEnded).elim

namespace Stays

variable {post : α → Prop} {post' : β → Prop}

theorem mono {weaker : α → Prop} (hStays : p.Stays known allowed post)
    (hMono : ∀ a, post a → weaker a) : p.Stays known allowed weaker := by
  induction p with
  | pure a => exact hMono a hStays
  | fail e => trivial
  | call c k ih => exact ⟨hStays.1, fun r hr => ih r (hStays.2 r hr)⟩

theorem bind {f : α → Program R ε β} (hFirst : p.Stays known allowed post)
    (hSecond : ∀ a, post a → (f a).Stays known allowed post') :
    (p.bind f).Stays known allowed post' := by
  induction p with
  | pure a => exact hSecond a hFirst
  | fail e => trivial
  | call c k ih => exact ⟨hFirst.1, fun r hr => ih r (hFirst.2 r hr)⟩

theorem attempt (escapes : ε → Bool) (hStays : p.Stays known allowed post) :
    (p.attempt escapes).Stays known allowed fun result => ∀ a, result = .ok a → post a := by
  induction p with
  | pure a =>
    intro a' hResult
    rw [← Except.ok.inj hResult]
    exact hStays
  | fail e =>
    rw [Program.attempt]
    split
    · trivial
    · intro a hResult
      cases hResult
  | call c k ih => exact ⟨hStays.1, fun r hr => ih r (hStays.2 r hr)⟩

theorem ensure {cleanup : Program R ε Unit} (hStays : p.Stays known allowed post)
    (hCleanup : cleanup.Stays known allowed fun _ => True) :
    (p.ensure cleanup).Stays known allowed post := by
  induction p with
  | pure a => exact hCleanup.bind fun _ _ => hStays
  | fail e => exact hCleanup.bind fun _ _ => trivial
  | call c k ih => exact ⟨hStays.1, fun r hr => ih r (hStays.2 r hr)⟩

end Stays

namespace Sparing

variable {marked : C → Bool}

theorem mono (hSparing : p.Sparing marked allowed m) (hLe : m ≤ n) :
    p.Sparing marked allowed n := by
  induction hSparing generalizing n with
  | pure m a => exact .pure n a
  | fail m e => exact .fail n e
  | call hCall _ ih => exact .call hCall fun r => ih r hLe
  | spend hCall _ ih =>
    obtain ⟨n, rfl⟩ := Nat.exists_eq_succ_of_ne_zero (show n ≠ 0 by omega)
    exact .spend hCall fun r => ih r (by omega)

theorem bind {f : α → Program R ε β} (hFirst : p.Sparing marked allowed m)
    (hSecond : ∀ a, (f a).Sparing marked allowed n) :
    (p.bind f).Sparing marked allowed (m + n) := by
  induction hFirst with
  | pure m a => exact (hSecond a).mono (by omega)
  | fail m e => exact .fail _ e
  | call hCall _ ih => exact .call hCall ih
  | @spend m c k hCall _ ih =>
    rw [Nat.succ_add]
    exact .spend hCall ih

/-- A first part without marked calls. -/
theorem quiet_bind {f : α → Program R ε β} (hFirst : p.Sparing marked allowed 0)
    (hSecond : ∀ a, (f a).Sparing marked allowed n) : (p.bind f).Sparing marked allowed n :=
  (hFirst.bind hSecond).mono (by omega)

theorem attempt (escapes : ε → Bool) (hSparing : p.Sparing marked allowed n) :
    (p.attempt escapes).Sparing marked allowed n := by
  induction hSparing with
  | pure n a => exact .pure n _
  | fail n e =>
    rw [Program.attempt]
    split
    · exact .fail n e
    · exact .pure n _
  | call hCall _ ih => exact .call hCall ih
  | spend hCall _ ih => exact .spend hCall ih

theorem ensure {cleanup : Program R ε Unit} (hSparing : p.Sparing marked allowed n)
    (hCleanup : cleanup.Sparing marked allowed 0) :
    (p.ensure cleanup).Sparing marked allowed n := by
  induction hSparing with
  | pure n a => exact hCleanup.quiet_bind fun _ => .pure n a
  | fail n e => exact hCleanup.quiet_bind fun _ => .fail n e
  | call hCall _ ih => exact .call hCall ih
  | spend hCall _ ih => exact .spend hCall ih

/-- What is left after the next call. -/
theorem next {c : C} {k : R c → Program R ε α}
    (hSparing : (Program.call c k).Sparing marked allowed n) :
    (marked c = false ∧ ∀ r, (k r).Sparing marked allowed n) ∨
      allowed c ∧ ∃ m, n = m + 1 ∧ ∀ r, (k r).Sparing marked allowed m := by
  cases hSparing with
  | call hCall hRest => exact .inl ⟨hCall, hRest⟩
  | spend hCall hRest => exact .inr ⟨hCall, _, rfl, hRest⟩

end Sparing

theorem Ended.sparing {marked : C → Bool} (hEnded : p.Ended) : p.Sparing marked allowed n := by
  cases p with
  | pure a => exact .pure n a
  | fail e => exact .fail n e
  | call c k => exact (not_call hEnded).elim

end Program

end Process
