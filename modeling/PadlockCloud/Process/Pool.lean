import Mathlib.Logic.Relation
import PadlockCloud.Process.Bounded
import PadlockCloud.Process.Contract

/-!
# Pools of programs

Any number of programs run against one state. A step starts a program or lets one
of those that are under way perform its next call, so every interleaving of the
calls is a sequence of steps. Each program keeps its label and the log of its
calls.

`Pool.meets` is the rule for invariants: where each program meets the contract of
its label, a step has to be looked at only for a call that the contract allows.
-/

namespace Process

/-- A program under way: its label, what is left of it, and the events so far, the
latest one first. -/
structure Thread (L : Type) {C : Type} (R : C → Type) (ε α : Type) where
  label : L
  rest : Program R ε α
  log : List (Event R) := []

structure Pool (L : Type) {C : Type} (R : C → Type) (ε α σ : Type) where
  state : σ
  threads : List (Thread L R ε α) := []

variable {L C ε α σ : Type} {R : C → Type}

namespace Pool

/-- The program of the label starts. -/
def start (program : L → Program R ε α) (P : Pool L R ε α σ) (l : L) : Pool L R ε α σ :=
  { P with threads := P.threads ++ [{ label := l, rest := program l }] }

/-- The thread in slot `i` performs the call `c` and goes on with `k`. -/
def advance (h : Interp R σ) (P : Pool L R ε α σ) (i : Nat) (t : Thread L R ε α) (c : C)
    (k : R c → Program R ε α) : Pool L R ε α σ :=
  { state := (h c P.state).2
    threads := P.threads.set i
      { t with rest := k (h c P.state).1, log := ⟨c, (h c P.state).1⟩ :: t.log } }

/-- One step of the pool. Which programs may start and which calls may be performed
can depend on everything that there is. -/
inductive Step (h : Interp R σ) (program : L → Program R ε α)
    (starts : Pool L R ε α σ → L → Prop) (enabled : Pool L R ε α σ → Nat → C → Prop)
    (P : Pool L R ε α σ) : Pool L R ε α σ → Prop where
  | start (l : L) (hStarts : starts P l) : Step h program starts enabled P (P.start program l)
  | call (i : Nat) (t : Thread L R ε α) (c : C) (k : R c → Program R ε α)
      (hAt : P.threads[i]? = some t) (hRest : t.rest = .call c k) (hEnabled : enabled P i c) :
      Step h program starts enabled P (P.advance h i t c k)

/-- Any number of steps. -/
abbrev Steps (h : Interp R σ) (program : L → Program R ε α)
    (starts : Pool L R ε α σ → L → Prop) (enabled : Pool L R ε α σ → Nat → C → Prop) :=
  Relation.ReflTransGen (Step h program starts enabled)

/-- What is left of each program meets the contract of its label. -/
def Meeting (K : L → Contract R) (post : List (Event R) → α → Prop) (P : Pool L R ε α σ) : Prop :=
  ∀ t ∈ P.threads, t.rest.Meets (K t.label) post t.log

variable {h : Interp R σ} {program : L → Program R ε α} {starts : Pool L R ε α σ → L → Prop}
  {enabled : Pool L R ε α σ → Nat → C → Prop} {K : L → Contract R}
  {post : List (Event R) → α → Prop} {I : Pool L R ε α σ → Prop} {P Q : Pool L R ε α σ}

/-- What every start and every call keeps holds throughout. -/
theorem invariant (hSteps : Steps h program starts enabled P Q) (hI : I P)
    (hStart : ∀ P l, I P → starts P l → I (P.start program l))
    (hCall : ∀ P i t c k, I P → P.threads[i]? = some t → t.rest = .call c k → enabled P i c →
      I (P.advance h i t c k)) : I Q := by
  induction hSteps with
  | refl => exact hI
  | tail _ hStep ih =>
    cases hStep with
    | start l hStarts => exact hStart _ l ih hStarts
    | call i t c k hAt hRest hEnabled => exact hCall _ i t c k ih hAt hRest hEnabled

theorem labels_advance {i : Nat} {t : Thread L R ε α} {c : C} {k : R c → Program R ε α}
    (hAt : P.threads[i]? = some t) :
    (P.advance h i t c k).threads.map Thread.label = P.threads.map Thread.label := by
  obtain ⟨hBound, rfl⟩ := List.getElem?_eq_some_iff.mp hAt
  unfold advance
  rw [List.map_set]
  dsimp only
  have hLabels : i < (P.threads.map Thread.label).length := by rwa [List.length_map]
  rw [← List.getElem_map Thread.label (h := hLabels), List.set_getElem_self]

/-- No thread goes, and each keeps its label. -/
theorem labels_mono (hSteps : Steps h program starts enabled P Q) :
    P.threads.map Thread.label <+: Q.threads.map Thread.label := by
  induction hSteps with
  | refl => exact List.prefix_refl _
  | tail _ hStep ih =>
    cases hStep with
    | start l hStarts =>
      refine ih.trans ?_
      rw [start, List.map_append]
      exact List.prefix_append _ _
    | call i t c k hAt hRest hEnabled => rwa [labels_advance hAt]

/-- What has been started on the way to a pool is in it. -/
theorem steps_labelled (hSteps : Steps h program starts enabled P Q) :
    Steps h program (fun P l => starts P l ∧ ∃ t ∈ Q.threads, t.label = l) enabled P Q := by
  induction hSteps using Relation.ReflTransGen.head_induction_on with
  | refl => exact .refl
  | head hStep hLater ih =>
    refine .head ?_ ih
    cases hStep with
    | start l hStarts =>
      refine .start l ⟨hStarts, ?_⟩
      apply List.mem_map.mp
      apply (labels_mono hLater).subset
      exact List.mem_map_of_mem (List.mem_append_right _ (List.mem_singleton_self _))
    | call i t c k hAt hRest hEnabled => exact .call i t c k hAt hRest hEnabled

/-- A thread has been there before the start, or it is the one that starts. -/
theorem at_start {l : L} {i : Nat} {t : Thread L R ε α}
    (hAt : (P.start program l).threads[i]? = some t) :
    P.threads[i]? = some t ∨ t = { label := l, rest := program l } := by
  rcases Nat.lt_or_ge i P.threads.length with hOld | hNew
  · rw [start, List.getElem?_append_left hOld] at hAt
    exact .inl hAt
  · rw [start, List.getElem?_append_right hNew] at hAt
    exact .inr (List.mem_singleton.mp (List.mem_of_getElem? hAt))

/-- The threads after a call: the one that makes it, and the others as they are. -/
theorem at_advance {i j : Nat} {t u : Thread L R ε α} {c : C} {k : R c → Program R ε α}
    (hAt : P.threads[i]? = some t) :
    (P.advance h i t c k).threads[j]? = some u ↔
      j ≠ i ∧ P.threads[j]? = some u ∨ j = i ∧
        u = { t with rest := k (h c P.state).1, log := ⟨c, (h c P.state).1⟩ :: t.log } := by
  unfold advance
  by_cases hSame : j = i
  · subst hSame
    rw [List.getElem?_set_self (List.getElem?_eq_some_iff.mp hAt).1]
    simp [eq_comm]
  · rw [List.getElem?_set_ne (Ne.symm hSame)]
    simp [hSame]

/-- A call keeps the others as they are. -/
theorem Meeting.advance {i : Nat} {t : Thread L R ε α} {c : C} {k : R c → Program R ε α}
    (hMeeting : P.Meeting K post) (hAt : P.threads[i]? = some t) (hRest : t.rest = .call c k)
    (hResponse : (K t.label).response t.log c (h c P.state).1) :
    (P.advance h i t c k).Meeting K post := by
  have hOwn := hMeeting t (List.mem_of_getElem? hAt)
  rw [hRest] at hOwn
  intro u hu
  rcases List.mem_or_eq_of_mem_set hu with hOld | rfl
  · exact hMeeting u hOld
  · exact hOwn.2 _ hResponse

/-- An invariant holds throughout if every call that a contract allows keeps it and
gets the response that is promised. -/
theorem meets (hSteps : Steps h program starts enabled P Q) (hI : I P)
    (hMeeting : P.Meeting K post) (hProgram : ∀ l, (program l).Meets (K l) post [])
    (hStart : ∀ P l, I P → starts P l → I (P.start program l))
    (hCall : ∀ P i t c k, I P → P.threads[i]? = some t → t.rest = .call c k → enabled P i c →
      (K t.label).call t.log c →
        (K t.label).response t.log c (h c P.state).1 ∧ I (P.advance h i t c k)) :
    I Q ∧ Q.Meeting K post := by
  induction hSteps with
  | refl => exact ⟨hI, hMeeting⟩
  | tail _ hStep ih =>
    obtain ⟨hI, hMeeting⟩ := ih
    cases hStep with
    | start l hStarts =>
      refine ⟨hStart _ l hI hStarts, fun t ht => ?_⟩
      rcases List.mem_append.mp ht with hOld | hNew
      · exact hMeeting t hOld
      · obtain rfl := List.mem_singleton.mp hNew
        exact hProgram l
    | call i t c k hAt hRest hEnabled =>
      have hOwn := hMeeting t (List.mem_of_getElem? hAt)
      rw [hRest] at hOwn
      obtain ⟨hResponse, hNext⟩ := hCall _ i t c k hI hAt hRest hEnabled hOwn.1
      exact ⟨hNext, hMeeting.advance hAt hRest hResponse⟩

/-- What holds of each program, and of what is left of it after a call whatever the response,
holds of all threads. -/
theorem rests {Good : L → Program R ε α → Prop} (hSteps : Steps h program starts enabled P Q)
    (hFresh : P.threads = []) (hProgram : ∀ l, Good l (program l))
    (hCall : ∀ l (c : C) (k : R c → Program R ε α) r, Good l (.call c k) → Good l (k r)) :
    ∀ t ∈ Q.threads, Good t.label t.rest := by
  refine invariant (I := fun Q => ∀ t ∈ Q.threads, Good t.label t.rest) hSteps ?_ ?_ ?_
  · rw [hFresh]
    exact fun _ hMem => by cases hMem
  · intro P l hGood _ t ht
    rcases List.mem_append.mp ht with hOld | hNew
    · exact hGood t hOld
    · rw [List.mem_singleton.mp hNew]
      exact hProgram l
  · intro P i t c k hGood hAt hRest _ u hu
    have hOwn := hGood t (List.mem_of_getElem? hAt)
    rw [hRest] at hOwn
    rcases List.mem_or_eq_of_mem_set hu with hOld | rfl
    · exact hGood u hOld
    · exact hCall t.label c k _ hOwn

/-- An invariant of the state holds throughout if all programs stay among calls that keep it
and whose responses are as known. -/
theorem stays {J : σ → Prop} {known : (c : C) → R c → Prop} {allowed : C → Prop}
    (hSteps : Steps h program starts enabled P Q) (hFresh : P.threads = []) (hJ : J P.state)
    (hProgram : ∀ l, (program l).Stays known allowed fun _ => True)
    (hCall : ∀ s c, J s → allowed c → known c (h c s).1 ∧ J (h c s).2) : J Q.state := by
  have hHeld : J Q.state ∧ ∀ t ∈ Q.threads, t.rest.Stays known allowed fun _ => True := by
    refine invariant (I := fun Q => J Q.state ∧
      ∀ t ∈ Q.threads, t.rest.Stays known allowed fun _ => True) hSteps ⟨hJ, ?_⟩ ?_ ?_
    · rw [hFresh]
      exact fun _ hMem => by cases hMem
    · rintro P l ⟨hJ, hStays⟩ -
      refine ⟨hJ, fun t ht => ?_⟩
      rcases List.mem_append.mp ht with hOld | hNew
      · exact hStays t hOld
      · rw [List.mem_singleton.mp hNew]
        exact hProgram l
    · rintro P i t c k ⟨hJ, hStays⟩ hAt hRest -
      have hOwn := hStays t (List.mem_of_getElem? hAt)
      rw [hRest] at hOwn
      obtain ⟨hKnown, hNext⟩ := hCall P.state c hJ hOwn.1
      refine ⟨hNext, fun u hu => ?_⟩
      rcases List.mem_or_eq_of_mem_set hu with hOld | rfl
      · exact hStays u hOld
      · exact hOwn.2 _ hKnown
  exact hHeld.1

/-! ## Schedules

A schedule can be played, so that a pool can be run on a concrete input. -/

/-- What happens next. -/
inductive Move (L : Type) where
  | start (l : L)
  | call (i : Nat)

/-- Plays a schedule, unless it starts something that may not start, or picks a thread
that has no call or a call that may not be performed. -/
def play (h : Interp R σ) (program : L → Program R ε α) (mayStart : Pool L R ε α σ → L → Bool)
    (mayCall : Pool L R ε α σ → C → Bool) :
    List (Move L) → Pool L R ε α σ → Option (Pool L R ε α σ)
  | [], P => some P
  | .start l :: moves, P =>
    if mayStart P l then play h program mayStart mayCall moves (P.start program l) else none
  | .call i :: moves, P =>
    match P.threads[i]? with
    | none => none
    | some t =>
      match t.rest with
      | .call c k =>
        if mayCall P c then play h program mayStart mayCall moves (P.advance h i t c k) else none
      | _ => none

theorem steps_of_play {mayStart : Pool L R ε α σ → L → Bool} {mayCall : Pool L R ε α σ → C → Bool}
    {moves : List (Move L)} (hStarts : ∀ P l, mayStart P l = true → starts P l)
    (hCalls : ∀ P i c, mayCall P c = true → enabled P i c)
    (hPlay : play h program mayStart mayCall moves P = some Q) :
    Steps h program starts enabled P Q := by
  induction moves generalizing P with
  | nil =>
    obtain rfl := Option.some.inj hPlay
    exact .refl
  | cons move moves ih =>
    cases move with
    | start l =>
      rw [play, Option.ite_none_right_eq_some] at hPlay
      exact .head (.start l (hStarts P l hPlay.1)) (ih hPlay.2)
    | call i =>
      rw [play] at hPlay
      cases hAt : P.threads[i]? with
      | none => simp [hAt] at hPlay
      | some t =>
        simp only [hAt] at hPlay
        cases hRest : t.rest with
        | pure a => simp [hRest] at hPlay
        | fail e => simp [hRest] at hPlay
        | call c k =>
          simp only [hRest, Option.ite_none_right_eq_some] at hPlay
          exact .head (.call i t c k hAt hRest (hCalls P i c hPlay.1)) (ih hPlay.2)

/-- What a move starts. -/
def Move.started : Move L → Option L
  | .start l => some l
  | .call _ => none

/-- The threads after a schedule are those that it has started. -/
theorem labels_of_play {mayStart : Pool L R ε α σ → L → Bool}
    {mayCall : Pool L R ε α σ → C → Bool} {moves : List (Move L)}
    (hPlay : play h program mayStart mayCall moves P = some Q) :
    Q.threads.map Thread.label = P.threads.map Thread.label ++ moves.filterMap Move.started := by
  induction moves generalizing P with
  | nil =>
    obtain rfl := Option.some.inj hPlay
    simp
  | cons move moves ih =>
    cases move with
    | start l =>
      rw [play, Option.ite_none_right_eq_some] at hPlay
      rw [ih hPlay.2]
      simp [Pool.start, Move.started]
    | call i =>
      rw [play] at hPlay
      cases hAt : P.threads[i]? with
      | none => simp [hAt] at hPlay
      | some t =>
        simp only [hAt] at hPlay
        cases hRest : t.rest with
        | pure a => simp [hRest] at hPlay
        | fail e => simp [hRest] at hPlay
        | call c k =>
          simp only [hRest, Option.ite_none_right_eq_some] at hPlay
          rw [ih hPlay.2, labels_advance hAt, List.filterMap_cons_none rfl]

end Pool

end Process
