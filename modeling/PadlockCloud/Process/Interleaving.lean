import PadlockCloud.Process.Program

/-!
# Interleavings of two programs

Two programs run against one state, and a schedule says which of them performs
its next call. A call may be blocked in some states (a mutex that is held), and
a schedule that picks a blocked or a finished program is not a run.

The result is the classical one on conflicts. Two calls are independent when
neither changes the response of the other and their order does not matter for
the state. If every call of the right program that was performed before a call
of the left program is independent of it, the run ends exactly like the left
program run to its end followed by the right one (`weave_eq_serial_left`), and
the mirrored statement holds as well (`weave_eq_serial_right`).
-/

namespace Process

variable {C : Type} {R : C → Type} {ε α β σ : Type}

/-- The two programs of an interleaving. -/
inductive Side where
  | left
  | right
  deriving DecidableEq

/-- Exchanging the calls `c` and `d` changes neither response and leaves the
same state. -/
def Independent (h : Interp R σ) (c d : C) : Prop :=
  ∀ s, (h c (h d s).2).1 = (h c s).1 ∧ (h d (h c s).2).1 = (h d s).1 ∧
    (h c (h d s).2).2 = (h d (h c s).2).2

theorem Independent.symm {h : Interp R σ} {c d : C} (hcd : Independent h c d) :
    Independent h d c :=
  fun s => ⟨(hcd s).2.1, (hcd s).1, (hcd s).2.2.symm⟩

namespace Program

/-- The result of a program that has no call left. -/
def result : Program R ε α → Option (Except ε α)
  | .pure a => some (.ok a)
  | .fail e => some (.error e)
  | .call _ _ => none

/-- What a complete interleaving leaves: both results, the state, and the calls
in the order in which they were performed. -/
structure Woven (C ε α β σ : Type) where
  left : Except ε α
  right : Except ε β
  state : σ
  log : List (Side × C)

/-- Runs two programs by a schedule to the end of both. -/
def weave (h : Interp R σ) (enabled : C → σ → Bool) :
    List Side → Program R ε α → Program R ε β → σ → Option (Woven C ε α β σ)
  | [], p, q, s => do
      let a ← p.result
      let b ← q.result
      some ⟨a, b, s, []⟩
  | .left :: sched, .call c k, q, s =>
      if enabled c s then
        (weave h enabled sched (k (h c s).1) q (h c s).2).map fun w =>
          { w with log := (.left, c) :: w.log }
      else none
  | .right :: sched, p, .call c k, s =>
      if enabled c s then
        (weave h enabled sched p (k (h c s).1) (h c s).2).map fun w =>
          { w with log := (.right, c) :: w.log }
      else none
  | .left :: _, .pure _, _, _ => none
  | .left :: _, .fail _, _, _ => none
  | .right :: _, _, .pure _, _ => none
  | .right :: _, _, .fail _, _ => none

/-- Every performed call of `late` that precedes a call of `early` is independent of it. -/
def Ordered (h : Interp R σ) (early late : Side) (log : List (Side × C)) : Prop :=
  log.Pairwise fun x y => x.1 = late → y.1 = early → Independent h x.2 y.2

variable {h : Interp R σ}

/-- The first move of a schedule: the side that it picks performs its next call. -/
theorem weave_cons {enabled : C → σ → Bool} {x : Side} {sched : List Side} {p : Program R ε α}
    {q : Program R ε β} {s : σ} {w : Woven C ε α β σ}
    (hWeave : weave h enabled (x :: sched) p q s = some w) :
    (∃ c k v, x = .left ∧ p = .call c k ∧ enabled c s = true ∧
      weave h enabled sched (k (h c s).1) q (h c s).2 = some v ∧
        w = { v with log := (.left, c) :: v.log }) ∨
    ∃ c k v, x = .right ∧ q = .call c k ∧ enabled c s = true ∧
      weave h enabled sched p (k (h c s).1) (h c s).2 = some v ∧
        w = { v with log := (.right, c) :: v.log } := by
  cases x with
  | left =>
    cases p with
    | pure a => cases hWeave
    | fail e => cases hWeave
    | call c k =>
      simp only [weave, Option.ite_none_right_eq_some, Option.map_eq_some_iff] at hWeave
      obtain ⟨hEnabled, v, hRest, rfl⟩ := hWeave
      exact .inl ⟨c, k, v, rfl, rfl, hEnabled, hRest, rfl⟩
  | right =>
    cases q with
    | pure a => cases p <;> cases hWeave
    | fail e => cases p <;> cases hWeave
    | call c k =>
      cases p <;>
        simp only [weave, Option.ite_none_right_eq_some, Option.map_eq_some_iff] at hWeave <;>
        obtain ⟨hEnabled, v, hRest, rfl⟩ := hWeave <;>
        exact .inr ⟨c, k, v, rfl, rfl, hEnabled, hRest, rfl⟩

/-- A call that may be performed is performed by the side that a schedule picks. -/
theorem weave_left {enabled : C → σ → Bool} {sched : List Side} {c : C} {k : R c → Program R ε α}
    {q : Program R ε β} {s : σ} {v : Woven C ε α β σ} (hEnabled : enabled c s = true)
    (hRest : weave h enabled sched (k (h c s).1) q (h c s).2 = some v) :
    weave h enabled (.left :: sched) (.call c k) q s =
      some { v with log := (.left, c) :: v.log } := by
  cases q <;> simp only [weave, if_pos hEnabled, hRest, Option.map_some]

theorem weave_right {enabled : C → σ → Bool} {sched : List Side} {c : C} {k : R c → Program R ε β}
    {p : Program R ε α} {s : σ} {v : Woven C ε α β σ} (hEnabled : enabled c s = true)
    (hRest : weave h enabled sched p (k (h c s).1) (h c s).2 = some v) :
    weave h enabled (.right :: sched) p (.call c k) s =
      some { v with log := (.right, c) :: v.log } := by
  cases p <;> simp only [weave, if_pos hEnabled, hRest, Option.map_some]

/-- The calls that a run performs. -/
def calls (h : Interp R σ) (p : Program R ε α) (s : σ) : List C := (p.trace h s).map Sigma.fst

@[simp] theorem calls_call (c : C) (k : R c → Program R ε α) (s : σ) :
    (Program.call c k).calls h s = c :: (k (h c s).1).calls h (h c s).2 := rfl

/-- A call that is independent of all calls of a run can be postponed after it. -/
theorem run_postpone {p : Program R ε α} {c : C} {s : σ}
    (hInd : ∀ d ∈ p.calls h (h c s).2, Independent h c d) :
    (p.run h (h c s).2).1 = (p.run h s).1 ∧
      (h c s).1 = (h c (p.run h s).2).1 ∧
      (p.run h (h c s).2).2 = (h c (p.run h s).2).2 ∧
      p.calls h (h c s).2 = p.calls h s := by
  induction p generalizing s with
  | pure a => exact ⟨rfl, rfl, rfl, rfl⟩
  | fail e => exact ⟨rfl, rfl, rfl, rfl⟩
  | call d k ih =>
    obtain ⟨hc, hd, hState⟩ := hInd d (by simp) s
    have hRest : ∀ e ∈ (k (h d s).1).calls h (h c (h d s).2).2, Independent h c e := by
      intro e he
      apply hInd e
      rw [calls_call, List.mem_cons]
      right
      rw [hd, ← hState]
      exact he
    obtain ⟨hResult, hResponse, hEnd, hCalls⟩ := ih (h d s).1 hRest
    simp only [run_call, calls_call]
    rw [hd, ← hState]
    exact ⟨hResult, hc.symm.trans hResponse, hEnd, by rw [hCalls]⟩

/-- The calls of one side of a log. -/
def side (x : Side) (log : List (Side × C)) : List C :=
  (log.filter fun e => e.1 = x).map Prod.snd

theorem mem_side {x : Side} {log : List (Side × C)} {c : C} :
    c ∈ side x log ↔ (x, c) ∈ log := by
  simp only [side, List.mem_map, List.mem_filter, decide_eq_true_eq]
  constructor
  · rintro ⟨⟨y, d⟩, ⟨hMem, rfl⟩, rfl⟩
    exact hMem
  · intro hMem
    exact ⟨(x, c), ⟨hMem, rfl⟩, rfl⟩

/-- A schedule in which no call of the right program comes before a call of the
left one that it conflicts with ends like the left program followed by the
right one. The left calls are those of the left program run alone. -/
theorem weave_eq_serial {enabled : C → σ → Bool} {sched : List Side} {p : Program R ε α}
    {q : Program R ε β} {s : σ} {w : Woven C ε α β σ}
    (hWeave : weave h enabled sched p q s = some w) (hOrder : Ordered h .left .right w.log) :
    w.left = (p.run h s).1 ∧ (w.right, w.state) = q.run h (p.run h s).2 ∧
      side .left w.log = p.calls h s := by
  induction sched generalizing p q s w with
  | nil =>
    cases p <;> cases q <;> simp [weave, result] at hWeave <;> subst hWeave <;>
      exact ⟨rfl, rfl, rfl⟩
  | cons x sched ih =>
    rcases weave_cons hWeave with
      ⟨c, k, v, rfl, rfl, -, hRest, rfl⟩ | ⟨c, k, v, rfl, rfl, -, hRest, rfl⟩
    · obtain ⟨hLeft, hRight, hCalls⟩ := ih hRest (List.pairwise_cons.mp hOrder).2
      refine ⟨hLeft, hRight, ?_⟩
      rw [calls_call, ← hCalls]
      rfl
    · obtain ⟨hFirst, hOrder⟩ := List.pairwise_cons.mp hOrder
      obtain ⟨hLeft, hRight, hCalls⟩ := ih hRest hOrder
      -- The right call moves behind all of the left run: it conflicts with none of it.
      have hInd : ∀ d ∈ p.calls h (h c s).2, Independent h c d := by
        intro d hd
        rw [← hCalls] at hd
        exact hFirst _ (mem_side.mp hd) rfl rfl
      obtain ⟨hResult, hResponse, hEnd, hSame⟩ := run_postpone hInd
      refine ⟨hLeft.trans hResult, ?_, ?_⟩
      · rw [run_call, ← hResponse, ← hEnd]
        exact hRight
      · rw [← hSame, ← hCalls]
        rfl

end Program

/-! ## The mirrored statement -/

def Side.swap : Side → Side
  | .left => .right
  | .right => .left

namespace Program

variable {h : Interp R σ}

def Woven.swap (w : Woven C ε α β σ) : Woven C ε β α σ :=
  ⟨w.right, w.left, w.state, w.log.map fun e => (e.1.swap, e.2)⟩

theorem weave_swap {enabled : C → σ → Bool} {sched : List Side} {p : Program R ε α}
    {q : Program R ε β} {s : σ} {w : Woven C ε α β σ}
    (hWeave : weave h enabled sched p q s = some w) :
    weave h enabled (sched.map Side.swap) q p s = some w.swap := by
  induction sched generalizing p q s w with
  | nil =>
    cases p <;> cases q <;> simp [weave, result] at hWeave <;> subst hWeave <;> rfl
  | cons x sched ih =>
    rcases weave_cons hWeave with
      ⟨c, k, v, rfl, rfl, hEnabled, hRest, rfl⟩ | ⟨c, k, v, rfl, rfl, hEnabled, hRest, rfl⟩
    · exact weave_right hEnabled (ih hRest)
    · exact weave_left hEnabled (ih hRest)

theorem ordered_swap {log : List (Side × C)} (hOrder : Ordered h .right .left log) :
    Ordered h .left .right (log.map fun e => (e.1.swap, e.2)) := by
  rw [Ordered, List.pairwise_map]
  refine hOrder.imp ?_
  rintro ⟨x, c⟩ ⟨y, d⟩ hInd hx hy
  cases x <;> cases y <;> simp [Side.swap] at hx hy
  exact hInd rfl rfl

/-- The mirror image of `weave_eq_serial`: the right program comes first. -/
theorem weave_eq_serial_swap {enabled : C → σ → Bool} {sched : List Side} {p : Program R ε α}
    {q : Program R ε β} {s : σ} {w : Woven C ε α β σ}
    (hWeave : weave h enabled sched p q s = some w) (hOrder : Ordered h .right .left w.log) :
    w.right = (q.run h s).1 ∧ (w.left, w.state) = p.run h (q.run h s).2 := by
  obtain ⟨hRight, hLeft, -⟩ := weave_eq_serial (weave_swap hWeave) (ordered_swap hOrder)
  exact ⟨hRight, hLeft⟩

end Program

end Process
