import PadlockCloud.Process.Pool

/-!
# Implementing an interface

The calls of an interface are implemented by programs over another one, each of which may
take many steps. A thread that is in the middle of a call has what is left of its
implementation before it, and something may have to hold of the state until it gets to the
end (`within`).

`Pool.Refines.steps` is the rule for refinements: where each step of an implementation
either is not seen or completes its call, every run of the implemented programs has a run of
the programs themselves above it.
-/

namespace Process

namespace Program

variable {C D : Type} {R : C → Type} {S : D → Type} {ε α : Type}

/-- The program with its calls implemented. -/
def implement (impl : (c : C) → Program S ε (R c)) : Program R ε α → Program S ε α
  | .pure a => .pure a
  | .fail e => .fail e
  | .call c k => (impl c).bind fun r => (k r).implement impl

theorem Bounded.implement {impl : (c : C) → Program S ε (R c)} {known : (c : C) → R c → Prop}
    {known' : (d : D) → S d → Prop} {m n : Nat} {p : Program R ε α}
    (hImpl : ∀ c {β : Type} (f : R c → Program S ε β) (n : Nat),
      (∀ r, known c r → (f r).Bounded known' (fun _ => True) n) →
        ((impl c).bind f).Bounded known' (fun _ => True) (m + n))
    (hBounded : p.Bounded known (fun _ => True) n) :
    (p.implement impl).Bounded known' (fun _ => True) (m * n) := by
  induction p generalizing n with
  | pure a => exact .pure a
  | fail e => exact .fail e
  | call c k ih =>
    cases n with
    | zero => exact hBounded.elim
    | succ n =>
      rw [Nat.mul_succ, Nat.add_comm]
      exact hImpl c _ _ fun r hr => ih r (hBounded.2 r hr)

end Program

variable {C D L ε α σ τ : Type} {R : C → Type} {S : D → Type}

/-- The calls and the states of one interface, in terms of another one. -/
structure Implementation (ε : Type) (h : Interp R σ) (h' : Interp S τ) where
  impl : (c : C) → Program S ε (R c)
  /-- The event of a call, once it is complete. -/
  shows : Event S → Option (Event R)
  sim : σ → τ → Prop
  /-- The log of a thread that is between two calls. -/
  between : List (Event S) → Prop
  /-- What holds while a thread with this log has `q` before it to complete a call. -/
  within : τ → List (Event S) → (c : C) → (q : Program S ε (R c)) → Prop
  first : ∀ c, ∃ d k, impl c = .call d k
  next : ∀ {s log c q}, within s log c q → ∃ d k, q = .call d k

namespace Implementation

variable {h : Interp R σ} {h' : Interp S τ} (M : Implementation ε h h')

/-- What is left of a program, over what is left of its implementation. -/
inductive Beneath (s : τ) (log : List (Event S)) : Program R ε α → Program S ε α → Prop where
  | between (p : Program R ε α) (hBetween : M.between log) : Beneath s log p (p.implement M.impl)
  | within {c : C} {q : Program S ε (R c)} (k : R c → Program R ε α)
      (hWithin : M.within s log c q) :
      Beneath s log (.call c k) (q.bind fun r => (k r).implement M.impl)

/-- The thread `u` implements the thread `t`. -/
structure Beside (s : τ) (t : Thread L R ε α) (u : Thread L S ε α) : Prop where
  label : u.label = t.label
  log : t.log = u.log.filterMap M.shows
  rest : M.Beneath s u.log t.rest u.rest

variable {M} in
/-- A thread goes on implementing what it does while its call is not disturbed. -/
theorem Beside.mono {s s' : τ} {t : Thread L R ε α} {u : Thread L S ε α}
    (hBeside : M.Beside s t u)
    (hWithin : ∀ c q, M.within s u.log c q → M.within s' u.log c q) : M.Beside s' t u := by
  refine ⟨hBeside.label, hBeside.log, ?_⟩
  have hBeneath := hBeside.rest
  generalize t.rest = p at hBeneath ⊢
  generalize u.rest = q at hBeneath ⊢
  cases hBeneath with
  | between p hBetween => exact .between p hBetween
  | within k hInside => exact .within k (hWithin _ _ hInside)

/-- The next step of a call: it is not seen, or it completes the call. -/
inductive Progress (enabled : σ → C → Prop) (s : σ) (s' : τ) (log : List (Event S)) (c : C) (d : D)
    (k : S d → Program S ε (R c)) : Prop where
  | inner (hSim : M.sim s (h' d s').2) (hShows : M.shows ⟨d, (h' d s').1⟩ = none)
      (hWithin : M.within (h' d s').2 (⟨d, (h' d s').1⟩ :: log) c (k (h' d s').1))
  | last (hEnabled : enabled s c) (hSim : M.sim (h c s).2 (h' d s').2)
      (hShows : M.shows ⟨d, (h' d s').1⟩ = some ⟨c, (h c s).1⟩)
      (hDone : k (h' d s').1 = .pure (h c s).1)
      (hBetween : M.between (⟨d, (h' d s').1⟩ :: log))

variable {M} {s : τ} {log : List (Event S)} {p : Program R ε α} {d : D}

theorem Beneath.ended_iff {q : Program S ε α} (hBeneath : M.Beneath s log p q) :
    q.Ended ↔ p.Ended := by
  cases hBeneath with
  | between p hBetween =>
    cases p with
    | pure a => exact Iff.rfl
    | fail e => exact Iff.rfl
    | call c k =>
      obtain ⟨d, k', hFirst⟩ := M.first c
      rw [Program.implement, hFirst]
      exact Iff.rfl
  | within k hWithin =>
    obtain ⟨d, k', rfl⟩ := M.next hWithin
    exact Iff.rfl

/-- What implements something that has ended has ended like it. -/
theorem Beneath.pure_left {a : α} {q : Program S ε α} (hBeneath : M.Beneath s log (.pure a) q) :
    q = .pure a := by
  generalize hProgram : Program.pure a = p at hBeneath
  cases hBeneath with
  | between p hBetween =>
    subst hProgram
    rfl
  | within k hWithin => cases hProgram

/-- Who makes a call is at the beginning of an implementation or within it. -/
theorem Beneath.of_call {f : S d → Program S ε α} (hBeneath : M.Beneath s log p (.call d f)) :
    ∃ c k k', p = .call c k ∧ f = (fun x => (k' x).bind fun r => (k r).implement M.impl) ∧
      (M.impl c = .call d k' ∨ M.within s log c (.call d k')) := by
  generalize hRest : Program.call d f = q at hBeneath
  cases hBeneath with
  | between p hBetween =>
    cases p with
    | pure a => cases hRest
    | fail e => cases hRest
    | call c k =>
      obtain ⟨d', k', hFirst⟩ := M.first c
      rw [Program.implement, hFirst] at hRest
      cases hRest
      exact ⟨c, k, k', rfl, rfl, .inl hFirst⟩
  | @within c q k hWithin =>
    obtain ⟨d', k', rfl⟩ := M.next hWithin
    cases hRest
    exact ⟨c, k, k', rfl, rfl, .inr hWithin⟩

end Implementation

namespace Pool

variable {h : Interp R σ} {h' : Interp S τ}

/-- The pool `F` of implemented programs, under the pool `P` of the programs. -/
structure Refines (M : Implementation ε h h') (P : Pool L R ε α σ) (F : Pool L S ε α τ) :
    Prop where
  state : M.sim P.state F.state
  threads : ∀ i : Nat, Option.Rel (M.Beside F.state) P.threads[i]? F.threads[i]?

namespace Refines

variable {M : Implementation ε h h'} {P : Pool L R ε α σ} {F G : Pool L S ε α τ}
  {program : L → Program R ε α} {i : Nat} {t : Thread L R ε α} {u : Thread L S ε α}

theorem above (hRefines : Refines M P F) (hAt : F.threads[i]? = some u) :
    ∃ t, P.threads[i]? = some t ∧ M.Beside F.state t u := by
  have hBoth := hRefines.threads i
  rw [hAt] at hBoth
  cases hThread : P.threads[i]? with
  | none =>
    rw [hThread] at hBoth
    cases hBoth
  | some t =>
    rw [hThread] at hBoth
    cases hBoth with
    | some hBeside => exact ⟨t, rfl, hBeside⟩

theorem below (hRefines : Refines M P F) (hAt : P.threads[i]? = some t) :
    ∃ u, F.threads[i]? = some u ∧ M.Beside F.state t u := by
  have hBoth := hRefines.threads i
  rw [hAt] at hBoth
  cases hThread : F.threads[i]? with
  | none =>
    rw [hThread] at hBoth
    cases hBoth
  | some u =>
    rw [hThread] at hBoth
    cases hBoth with
    | some hBeside => exact ⟨u, rfl, hBeside⟩

theorem empty {s : σ} {s' : τ} (hSim : M.sim s s') :
    Refines M ({ state := s } : Pool L R ε α σ) ({ state := s' } : Pool L S ε α τ) :=
  ⟨hSim, fun _ => .none⟩

theorem labels (hRefines : Refines M P F) :
    F.threads.map Thread.label = P.threads.map Thread.label := by
  apply List.ext_getElem?
  intro i
  have hBoth := hRefines.threads i
  rw [List.getElem?_map, List.getElem?_map]
  cases hAt : P.threads[i]? <;> cases hAt' : F.threads[i]? <;> rw [hAt, hAt'] at hBoth <;>
    cases hBoth
  · rfl
  · rename_i hBeside
    exact congrArg some hBeside.label

theorem length_eq (hRefines : Refines M P F) : F.threads.length = P.threads.length := by
  have hLengths := congrArg List.length hRefines.labels
  rwa [List.length_map, List.length_map] at hLengths

theorem start (hRefines : Refines M P F) (hFresh : M.between []) (l : L) :
    Refines M (P.start program l) (F.start (fun l => (program l).implement M.impl) l) := by
  refine ⟨hRefines.state, fun i => ?_⟩
  unfold Pool.start
  rcases Nat.lt_or_ge i P.threads.length with hOld | hNew
  · rw [List.getElem?_append_left hOld,
      List.getElem?_append_left (hRefines.length_eq ▸ hOld)]
    exact hRefines.threads i
  · rw [List.getElem?_append_right hNew, List.getElem?_append_right (hRefines.length_eq ▸ hNew),
      hRefines.length_eq]
    cases i - P.threads.length with
    | zero => exact .some ⟨rfl, rfl, .between _ hFresh⟩
    | succ n => exact .none

variable {enabled : σ → C → Prop} {d : D} {f : S d → Program S ε α}

/-- The next call of a thread begins the implementation of a call or goes on with it. -/
theorem doing (hRefines : Refines M P F) (hAt : F.threads[i]? = some u)
    (hRest : u.rest = .call d f) :
    ∃ c k, M.impl c = .call d k ∨ M.within F.state u.log c (.call d k) := by
  obtain ⟨t, -, hBeside⟩ := hRefines.above hAt
  have hBeneath := hBeside.rest
  rw [hRest] at hBeneath
  obtain ⟨c, -, k, -, -, hWhere⟩ := hBeneath.of_call
  exact ⟨c, k, hWhere⟩

/-- A step that disturbs no other thread leaves it beside what it implements. -/
theorem other {s : τ} {j : Nat} (hRefines : Refines M P F)
    (hWithin : ∀ v, F.threads[j]? = some v → ∀ c q,
      M.within F.state v.log c q → M.within s v.log c q) :
    Option.Rel (M.Beside s) P.threads[j]? F.threads[j]? := by
  have hBoth := hRefines.threads j
  cases hHigh : P.threads[j]? <;> cases hLow : F.threads[j]? <;> rw [hHigh, hLow] at hBoth <;>
    cases hBoth
  · exact .none
  · rename_i v hBeside
    exact .some (hBeside.mono (hWithin v hLow))

/-- One call is one call above it, or none. -/
theorem advance (hRefines : Refines M P F) (hAt : F.threads[i]? = some u)
    (hRest : u.rest = .call d f)
    (hLaw : ∀ c k, M.impl c = .call d k ∨ M.within F.state u.log c (.call d k) →
      M.Progress enabled P.state F.state u.log c d k ∧
      ∀ j v, j ≠ i → F.threads[j]? = some v → ∀ c q,
        M.within F.state v.log c q → M.within (h' d F.state).2 v.log c q) :
    Refines M P (F.advance h' i u d f) ∨
      ∃ t c k, P.threads[i]? = some t ∧ t.rest = .call c k ∧ enabled P.state c ∧
        Refines M (P.advance h i t c k) (F.advance h' i u d f) := by
  obtain ⟨t, hAt', hBeside⟩ := hRefines.above hAt
  have hBeneath := hBeside.rest
  rw [hRest] at hBeneath
  obtain ⟨c, k, k', hCall, rfl, hWhere⟩ := hBeneath.of_call
  obtain ⟨hProgress, hOthers⟩ := hLaw c k' hWhere
  have hLength := (List.getElem?_eq_some_iff.mp hAt).1
  have hLength' := (List.getElem?_eq_some_iff.mp hAt').1
  have hStill (j : Nat) (hOther : j ≠ i) :
      Option.Rel (M.Beside (h' d F.state).2) P.threads[j]? F.threads[j]? :=
    hRefines.other fun v => hOthers j v hOther
  cases hProgress with
  | inner hSim hShows hWithin =>
    left
    refine ⟨hSim, fun j => ?_⟩
    by_cases hSame : j = i
    · subst hSame
      rw [Pool.advance, List.getElem?_set_self hLength, hAt']
      refine .some ⟨hBeside.label, ?_, ?_⟩
      · rw [List.filterMap_cons_none hShows]
        exact hBeside.log
      · rw [hCall]
        exact .within k hWithin
    · rw [Pool.advance, List.getElem?_set_ne (Ne.symm hSame)]
      exact hStill j hSame
  | last hEnabled hSim hShows hDone hBetween =>
    right
    refine ⟨t, c, k, hAt', hCall, hEnabled, hSim, fun j => ?_⟩
    by_cases hSame : j = i
    · subst hSame
      simp only [Pool.advance, List.getElem?_set_self hLength, List.getElem?_set_self hLength']
      refine .some ⟨hBeside.label, ?_, ?_⟩
      · rw [List.filterMap_cons_some hShows, ← hBeside.log]
      · dsimp only
        rw [hDone]
        exact .between _ hBetween
    · simp only [Pool.advance, List.getElem?_set_ne (Ne.symm hSame)]
      exact hStill j hSame

/-- Every run of the implemented programs has one of the programs themselves above it. The law
may rely on an invariant `J` of the implemented programs. -/
theorem steps {starts : Pool L R ε α σ → L → Prop} {starts' : Pool L S ε α τ → L → Prop}
    {enabled' : Pool L S ε α τ → Nat → D → Prop} {J : Pool L S ε α τ → Prop}
    (hRefines : Refines M P F) (hJ : J F)
    (hSteps : Steps h' (fun l => (program l).implement M.impl) starts' enabled' F G)
    (hFresh : M.between []) (hStarts : ∀ P F l, Refines M P F → starts' F l → starts P l)
    (hStart : ∀ F l, J F → J (F.start (fun l => (program l).implement M.impl) l))
    (hLaw : ∀ P F i u d f, Refines M P F → J F → F.threads[i]? = some u → enabled' F i d →
      ∀ c k, M.impl c = .call d k ∨ M.within F.state u.log c (.call d k) →
        (M.Progress enabled P.state F.state u.log c d k ∧
          ∀ j v, j ≠ i → F.threads[j]? = some v → ∀ c q,
            M.within F.state v.log c q → M.within (h' d F.state).2 v.log c q) ∧
        J (F.advance h' i u d f)) :
    ∃ Q, Steps h program starts (fun P _ c => enabled P.state c) P Q ∧ Refines M Q G ∧ J G := by
  induction hSteps with
  | refl => exact ⟨P, .refl, hRefines, hJ⟩
  | tail _ hStep ih =>
    obtain ⟨Q, hAbove, hRefines, hJ⟩ := ih
    cases hStep with
    | start l hMay =>
      exact ⟨_, hAbove.tail (.start l (hStarts _ _ l hRefines hMay)), hRefines.start hFresh l,
        hStart _ l hJ⟩
    | call i u d f hAt hRest hMay =>
      have hStep := hLaw _ _ i u d f hRefines hJ hAt hMay
      obtain ⟨c, k, hWhere⟩ := hRefines.doing hAt hRest
      have hNext := (hStep c k hWhere).2
      rcases hRefines.advance hAt hRest fun c k hWhere => (hStep c k hWhere).1 with
        hUnseen | ⟨t, c, k, hAt', hRest', hEnabled, hSeen⟩
      · exact ⟨Q, hAbove, hUnseen, hNext⟩
      · exact ⟨_, hAbove.tail (.call i t c k hAt' hRest' hEnabled), hSeen, hNext⟩

end Refines

end Pool

end Process
