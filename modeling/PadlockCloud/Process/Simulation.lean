import PadlockCloud.Process.Pool

/-!
# Simulation

Two meanings of the same calls. If related states answer a call alike and stay
related, then a program cannot tell them apart: it makes the same calls, gets the
same responses and has the same result. The calls for which this holds may be
restricted by a condition on the call and the state before it.

Where it holds for all calls, any number of programs can be interleaved: what a pool
can do in the one meaning it can do in the other.
-/

namespace Process

variable {C : Type} {R : C → Type} {ε α σ τ : Type}

namespace Program

/-- Every call of the run satisfies the condition in the state before it. -/
def Always (h : Interp R σ) (condition : C → σ → Prop) : Program R ε α → σ → Prop
  | .pure _, _ => True
  | .fail _, _ => True
  | .call c k, s => condition c s ∧ (k (h c s).1).Always h condition (h c s).2

/-- What a contract asks of every call holds in every run where the responses are as
it promises. -/
theorem Meets.always {K : Contract R} {post : List (Event R) → α → Prop} {log : List (Event R)}
    {p : Program R ε α} {h : Interp R σ} {condition : C → σ → Prop} {s : σ}
    (hMeets : p.Meets K post log) (hResponse : ∀ log c s, K.response log c (h c s).1)
    (hCall : ∀ log c s, K.call log c → condition c s) : p.Always h condition s := by
  induction p generalizing log s with
  | pure a => trivial
  | fail e => trivial
  | call c k ih => exact ⟨hCall log c s hMeets.1, ih _ (hMeets.2 _ (hResponse log c s))⟩

/-- What holds of every call holds in every run. -/
theorem always_of_forall {h : Interp R σ} {condition : C → σ → Prop} (p : Program R ε α)
    (hAll : ∀ c s, condition c s) (s : σ) : p.Always h condition s := by
  induction p generalizing s with
  | pure a => trivial
  | fail e => trivial
  | call c k ih => exact ⟨hAll c s, ih _ _⟩

end Program

/-- Related states answer alike and stay related. -/
def Simulates (h : Interp R σ) (h' : Interp R τ) (condition : C → τ → Prop)
    (related : σ → τ → Prop) : Prop :=
  ∀ c s t, related s t → condition c t → (h c s).1 = (h' c t).1 ∧ related (h c s).2 (h' c t).2

namespace Simulates

variable {h : Interp R σ} {h' : Interp R τ} {condition : C → τ → Prop} {related : σ → τ → Prop}
  {s : σ} {t : τ}

/-- A program does the same in both states. -/
theorem run (hSimulates : Simulates h h' condition related) (p : Program R ε α)
    (hRelated : related s t) (hAlways : p.Always h' condition t) :
    (p.run h s).1 = (p.run h' t).1 ∧ p.trace h s = p.trace h' t ∧
      related (p.run h s).2 (p.run h' t).2 := by
  induction p generalizing s t with
  | pure a => exact ⟨rfl, rfl, hRelated⟩
  | fail e => exact ⟨rfl, rfl, hRelated⟩
  | call c k ih =>
    obtain ⟨hCondition, hRest⟩ := hAlways
    obtain ⟨hSame, hNext⟩ := hSimulates c s t hRelated hCondition
    simp only [Program.run_call, Program.trace_call]
    rw [hSame]
    obtain ⟨hResult, hTrace, hEnd⟩ := ih _ hNext hRest
    exact ⟨hResult, by rw [hTrace], hEnd⟩

/-- A pool does the same in both states. -/
theorem steps {L : Type} {program : L → Program R ε α}
    {starts : Pool L R ε α σ → L → Prop} {starts' : Pool L R ε α τ → L → Prop}
    {enabled : Pool L R ε α σ → Nat → C → Prop} {enabled' : Pool L R ε α τ → Nat → C → Prop}
    {P Q : Pool L R ε α σ} {P' : Pool L R ε α τ}
    (hSimulates : Simulates h h' (fun _ _ => True) related)
    (hStarts : ∀ P P' l, related P.state P'.state → P'.threads = P.threads → starts P l →
      starts' P' l)
    (hEnabled : ∀ P P' i c, related P.state P'.state → P'.threads = P.threads → enabled P i c →
      enabled' P' i c)
    (hSteps : Pool.Steps h program starts enabled P Q) (hRelated : related P.state P'.state)
    (hThreads : P'.threads = P.threads) :
    ∃ Q', Pool.Steps h' program starts' enabled' P' Q' ∧ related Q.state Q'.state ∧
      Q'.threads = Q.threads := by
  induction hSteps with
  | refl => exact ⟨P', .refl, hRelated, hThreads⟩
  | tail _ hStep ih =>
    obtain ⟨Q', hBefore, hRelated', hThreads'⟩ := ih
    cases hStep with
    | start l hMay =>
      refine ⟨Q'.start program l, hBefore.tail (.start l ?_), hRelated', ?_⟩
      · exact hStarts _ _ l hRelated' hThreads' hMay
      · simp only [Pool.start, hThreads']
    | call i t c k hAt hRest hMay =>
      obtain ⟨hSame, hNext⟩ := hSimulates c _ _ hRelated' trivial
      refine ⟨Q'.advance h' i t c k, hBefore.tail (.call i t c k ?_ hRest ?_), hNext, ?_⟩
      · rw [hThreads', hAt]
      · exact hEnabled _ _ i c hRelated' hThreads' hMay
      · simp only [Pool.advance, hThreads', hSame]

end Simulates

end Process
