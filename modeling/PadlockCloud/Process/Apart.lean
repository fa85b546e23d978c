import PadlockCloud.Process.Bounded
import PadlockCloud.Process.Footprint
import PadlockCloud.Process.Simulation

/-!
# Calls kept apart

A condition on the steps of an interleaving is about the call that is to be made, the
calls that have been made, and those that the programs can still make (`StepsMeet`).

A side is amid some calls when it has made one of them and can still make one. Where
neither side makes such a call while the other one is amid, those of one side all come
before those of the other one. If these are the only calls that conflict, the run ends as
a serial one (`weave_apart`).
-/

namespace Process

variable {C : Type} {R : C → Type} {ε α β σ τ : Type}

/-- The program can still make the call. -/
inductive Program.Reaches (d : C) : Program R ε α → Prop where
  | here (k : R d → Program R ε α) : Reaches d (.call d k)
  | later {c : C} {k : R c → Program R ε α} (r : R c) (hRest : Reaches d (k r)) :
    Reaches d (.call c k)

/-- A place in an interleaving: the calls that have been made, the latest one first, and
those that each side can still make. -/
structure Place (C : Type) where
  past : List (Side × C)
  ahead : Side → C → Prop

namespace Place

/-- The side has made a call of the kind and can still make one. -/
def Amid (kind : C → Prop) (place : Place C) (x : Side) : Prop :=
  (∃ c, (x, c) ∈ place.past ∧ kind c) ∧ ∃ c, place.ahead x c ∧ kind c

end Place

namespace Program

/-- Where two programs stand after the calls. -/
def place (past : List (Side × C)) (p : Program R ε α) (q : Program R ε β) : Place C where
  past := past
  ahead
    | .left, c => p.Reaches c
    | .right, c => q.Reaches c

/-- Every step of a run meets the condition where it is made. -/
def StepsMeet (h : Interp R σ) (condition : Place C → Side → C → Prop) :
    List Side → List (Side × C) → Program R ε α → Program R ε β → σ → Prop
  | .left :: sched, past, .call c k, q, s =>
    condition (place past (.call c k) q) .left c ∧
      StepsMeet h condition sched ((.left, c) :: past) (k (h c s).1) q (h c s).2
  | .right :: sched, past, p, .call c k, s =>
    condition (place past p (.call c k)) .right c ∧
      StepsMeet h condition sched ((.right, c) :: past) p (k (h c s).1) (h c s).2
  | [], _, _, _, _ => True
  | .left :: _, _, .pure _, _, _ => True
  | .left :: _, _, .fail _, _, _ => True
  | .right :: _, _, _, .pure _, _ => True
  | .right :: _, _, _, .fail _, _ => True

variable {h : Interp R σ} {enabled : C → σ → Bool} {condition : Place C → Side → C → Prop}
  {sched : List Side} {past : List (Side × C)} {p : Program R ε α} {q : Program R ε β} {s : σ}
  {w : Woven C ε α β σ} {kind : C → Prop} {x y : Side} {c d : C}

theorem stepsMeet_left {k : R c → Program R ε α} :
    StepsMeet h condition (.left :: sched) past (.call c k) q s ↔
      condition (place past (.call c k) q) .left c ∧
        StepsMeet h condition sched ((.left, c) :: past) (k (h c s).1) q (h c s).2 := by
  cases q <;> rfl

theorem stepsMeet_right {k : R c → Program R ε β} :
    StepsMeet h condition (.right :: sched) past p (.call c k) s ↔
      condition (place past p (.call c k)) .right c ∧
        StepsMeet h condition sched ((.right, c) :: past) p (k (h c s).1) (h c s).2 := by
  cases p <;> rfl

/-! ## What a run tells of its places -/

/-- A side can make the calls that it will make. -/
theorem ahead_of_weave (hWeave : weave h enabled sched p q s = some w) (hMem : (x, c) ∈ w.log) :
    (place past p q).ahead x c := by
  induction sched generalizing past p q s w with
  | nil =>
    cases p <;> cases q <;> simp [weave, result] at hWeave <;> subst hWeave <;> cases hMem
  | cons z sched ih =>
    rcases weave_cons hWeave with
      ⟨d, k, v, rfl, rfl, -, hRest, rfl⟩ | ⟨d, k, v, rfl, rfl, -, hRest, rfl⟩
    · rcases List.mem_cons.mp hMem with hHead | hLater
      · obtain ⟨rfl, rfl⟩ := Prod.mk.inj hHead
        exact .here k
      · have hAhead : (place past (k (h d s).1) q).ahead x c := ih hRest hLater
        cases x with
        | left => exact .later _ hAhead
        | right => exact hAhead
    · rcases List.mem_cons.mp hMem with hHead | hLater
      · obtain ⟨rfl, rfl⟩ := Prod.mk.inj hHead
        exact .here k
      · have hAhead : (place past p (k (h d s).1)).ahead x c := ih hRest hLater
        cases x with
        | left => exact hAhead
        | right => exact .later _ hAhead

/-- The calls of a log have met the condition, each at a place where the calls before it had
been made and those after it could still be made. -/
inductive Placed (condition : Place C → Side → C → Prop) :
    List (Side × C) → List (Side × C) → Prop where
  | nil (past : List (Side × C)) : Placed condition past []
  | cons (place : Place C) {x : Side} {c : C} {log : List (Side × C)}
      (hHere : condition place x c) (hAhead : ∀ y d, (y, d) ∈ log → place.ahead y d)
      (hLater : Placed condition ((x, c) :: place.past) log) :
      Placed condition place.past ((x, c) :: log)

theorem StepsMeet.placed (hWeave : weave h enabled sched p q s = some w)
    (hMeets : StepsMeet h condition sched past p q s) : Placed condition past w.log := by
  induction sched generalizing past p q s w with
  | nil =>
    cases p <;> cases q <;> simp [weave, result] at hWeave <;> subst hWeave <;> exact .nil past
  | cons z sched ih =>
    rcases weave_cons hWeave with
      ⟨c, k, v, rfl, rfl, -, hRest, rfl⟩ | ⟨c, k, v, rfl, rfl, -, hRest, rfl⟩
    · obtain ⟨hHere, hLater⟩ := stepsMeet_left.mp hMeets
      refine .cons (place past (.call c k) q) hHere (fun y d hMem => ?_) (ih hRest hLater)
      exact ahead_of_weave hWeave (List.mem_cons_of_mem _ hMem)
    · obtain ⟨hHere, hLater⟩ := stepsMeet_right.mp hMeets
      refine .cons (place past p (.call c k)) hHere (fun y d hMem => ?_) (ih hRest hLater)
      exact ahead_of_weave hWeave (List.mem_cons_of_mem _ hMem)

namespace Placed

variable {log : List (Side × C)} {c' : C}

theorem of_mem (hPlaced : Placed condition past log) (hMem : (x, c) ∈ log) :
    ∃ place, condition place x c := by
  induction hPlaced with
  | nil past => cases hMem
  | cons place hHere hAhead hLater ih =>
    rcases List.mem_cons.mp hMem with hHead | hLast
    · obtain ⟨rfl, rfl⟩ := Prod.mk.inj hHead
      exact ⟨_, hHere⟩
    · exact ih hLast

/-- A call before another one: the second can still be made where the first is. -/
theorem of_pair (hPlaced : Placed condition past log) (hPair : [(x, c), (y, d)].Sublist log) :
    ∃ place, condition place x c ∧ past ⊆ place.past ∧ place.ahead y d := by
  induction hPlaced with
  | nil past => cases hPair
  | cons place hHere hAhead hLater ih =>
    cases hPair with
    | cons _ hSkip =>
      obtain ⟨place, hMeets, hPast, hNext⟩ := ih hSkip
      exact ⟨place, hMeets, fun e he => hPast (List.mem_cons_of_mem _ he), hNext⟩
    | cons_cons _ hTake =>
      exact ⟨_, hHere, List.Subset.refl _, hAhead y d (List.singleton_sublist.mp hTake)⟩

/-- A call between two others. -/
theorem of_triple (hPlaced : Placed condition past log)
    (hTriple : [(y, c), (x, d), (y, c')].Sublist log) :
    ∃ place, condition place x d ∧ (y, c) ∈ place.past ∧ place.ahead y c' := by
  induction hPlaced with
  | nil past => cases hTriple
  | cons place hHere hAhead hLater ih =>
    cases hTriple with
    | cons _ hSkip => exact ih hSkip
    | cons_cons _ hTake =>
      obtain ⟨place, hMeets, hPast, hNext⟩ := hLater.of_pair hTake
      exact ⟨place, hMeets, hPast (List.mem_cons_self ..), hNext⟩

end Placed

/-! ## The order of the calls -/

/-- The condition lets neither side make a call of the kind while the other one is amid. -/
def KeepsApart (kind : C → Prop) (condition : Place C → Side → C → Prop) : Prop :=
  ∀ place x c, condition place x c → kind c → ¬place.Amid kind x.swap

/-- No call of the kind of the side `y` comes before one of the side `x`. -/
def First (kind : C → Prop) (x y : Side) (log : List (Side × C)) : Prop :=
  log.Pairwise fun e f => e.1 = y → f.1 = x → ¬(kind e.2 ∧ kind f.2)

/-- The calls of the kind come first on one side. -/
theorem Placed.first {log : List (Side × C)} (hPlaced : Placed condition past log)
    (hApart : KeepsApart kind condition) :
    First kind .left .right log ∨ First kind .right .left log := by
  have hTriples : ∀ x c d c', [(x.swap, c), (x, d), (x.swap, c')].Sublist log →
      kind c → kind d → ¬kind c' := by
    intro x c d c' hTriple hc hd hc'
    obtain ⟨place, hMeets, hPast, hAhead⟩ := hPlaced.of_triple hTriple
    exact hApart place x d hMeets hd ⟨⟨c, hPast, hc⟩, c', hAhead, hc'⟩
  clear hPlaced
  induction log with
  | nil => exact .inl .nil
  | cons e log ih =>
    have hRest := ih fun x c d c' hTriple => hTriples x c d c' (hTriple.cons e)
    obtain ⟨x, c⟩ := e
    by_cases hKind : kind c
    · -- Whatever comes later, the side of this call comes first.
      have hOwn (y : Side) (hy : y.swap = x) : First kind x y ((x, c) :: log) := by
        subst hy
        refine List.pairwise_cons.mpr ⟨fun f _ hSide => ?_, ?_⟩
        · cases y <;> cases hSide
        · rw [List.pairwise_iff_forall_sublist]
          rintro ⟨z, d⟩ ⟨z', d'⟩ hPair rfl rfl ⟨hd, hd'⟩
          exact hTriples z c d d' (hPair.cons_cons _) hKind hd hd'
      cases x with
      | left => exact .inl (hOwn .right rfl)
      | right => exact .inr (hOwn .left rfl)
    · have hOther {x' y' : Side} (hFirst : First kind x' y' log) :
          First kind x' y' ((x, c) :: log) :=
        List.pairwise_cons.mpr ⟨fun f _ _ _ hBoth => hKind hBoth.1, hFirst⟩
      exact hRest.imp hOther hOther

theorem First.ordered {log : List (Side × C)} (hFirst : First kind x y log)
    (hInd : ∀ c d, (x, c) ∈ log → (y, d) ∈ log → ¬(kind c ∧ kind d) → Independent h c d) :
    Ordered h x y log := by
  refine hFirst.imp_of_mem ?_
  rintro ⟨z, d⟩ ⟨z', c⟩ hd hc hKind rfl rfl
  have hNot : ¬(kind c ∧ kind d) := fun hBoth => hKind rfl rfl ⟨hBoth.2, hBoth.1⟩
  exact (hInd c d hc hd hNot).symm

/-- Calls of the kind that are kept apart, and are all that conflicts: the run is a serial
one. -/
theorem weave_apart (hWeave : weave h enabled sched p q s = some w)
    (hPlaced : Placed condition past w.log) (hApart : KeepsApart kind condition)
    (hInd : ∀ c d, (.left, c) ∈ w.log → (.right, d) ∈ w.log → ¬(kind c ∧ kind d) →
      Independent h c d) :
    (w.left = (p.run h s).1 ∧ (w.right, w.state) = q.run h (p.run h s).2) ∨
      w.right = (q.run h s).1 ∧ (w.left, w.state) = p.run h (q.run h s).2 := by
  rcases hPlaced.first hApart with hFirst | hFirst
  · obtain ⟨hLeft, hRight, -⟩ := weave_eq_serial hWeave (hFirst.ordered hInd)
    exact .inl ⟨hLeft, hRight⟩
  · refine .inr (weave_eq_serial_swap hWeave (hFirst.ordered fun d c hd hc hNot => ?_))
    exact (hInd c d hc hd fun hBoth => hNot hBoth.symm).symm

/-! ## Checking a run -/

/-- A program with no call left can make none. -/
theorem Reaches.not_ended (hEnded : p.Ended) : ¬p.Reaches d := by
  intro hReaches
  cases hReaches with
  | here k => exact Ended.not_call hEnded
  | later r hRest => exact Ended.not_call hEnded

/-- Checks every step of a run, given the calls so far and who has ended. -/
def checkSteps (h : Interp R σ) (check : List (Side × C) → (Side → Bool) → Side → C → Bool) :
    List Side → List (Side × C) → Program R ε α → Program R ε β → σ → Bool
  | .left :: sched, past, .call c k, q, s =>
    check past (fun x => x = .right && q.result.isSome) .left c &&
      checkSteps h check sched ((.left, c) :: past) (k (h c s).1) q (h c s).2
  | .right :: sched, past, p, .call c k, s =>
    check past (fun x => x = .left && p.result.isSome) .right c &&
      checkSteps h check sched ((.right, c) :: past) p (k (h c s).1) (h c s).2
  | [], _, _, _, _ => true
  | .left :: _, _, .pure _, _, _ => true
  | .left :: _, _, .fail _, _, _ => true
  | .right :: _, _, _, .pure _, _ => true
  | .right :: _, _, _, .fail _, _ => true

theorem ended_of_result (hResult : p.result.isSome = true) : p.Ended := by
  cases p with
  | pure a => trivial
  | fail e => trivial
  | call c k => cases hResult

theorem StepsMeet.of_check {check : List (Side × C) → (Side → Bool) → Side → C → Bool}
    (hCondition : ∀ place ended x c, check place.past ended x c = true →
      (∀ y, ended y = true → ∀ d, ¬place.ahead y d) → condition place x c)
    (hCheck : checkSteps h check sched past p q s = true) :
    StepsMeet h condition sched past p q s := by
  induction sched generalizing past p q s with
  | nil => cases p <;> cases q <;> trivial
  | cons z sched ih =>
    cases z with
    | left =>
      cases p with
      | pure a => cases q <;> trivial
      | fail e => cases q <;> trivial
      | call c k =>
        have hBoth : check past (fun x => x = .right && q.result.isSome) .left c = true ∧
            checkSteps h check sched ((.left, c) :: past) (k (h c s).1) q (h c s).2 = true := by
          cases q <;> exact Bool.and_eq_true_iff.mp hCheck
        refine stepsMeet_left.mpr ⟨hCondition _ _ _ _ hBoth.1 fun y hy d => ?_, ih hBoth.2⟩
        obtain ⟨hRight, hResult⟩ := Bool.and_eq_true_iff.mp hy
        obtain rfl := of_decide_eq_true hRight
        exact Reaches.not_ended (ended_of_result hResult)
    | right =>
      cases q with
      | pure a => cases p <;> trivial
      | fail e => cases p <;> trivial
      | call c k =>
        have hBoth : check past (fun x => x = .left && p.result.isSome) .right c = true ∧
            checkSteps h check sched ((.right, c) :: past) p (k (h c s).1) (h c s).2 = true := by
          cases p <;> exact Bool.and_eq_true_iff.mp hCheck
        refine stepsMeet_right.mpr ⟨hCondition _ _ _ _ hBoth.1 fun y hy d => ?_, ih hBoth.2⟩
        obtain ⟨hLeft, hResult⟩ := Bool.and_eq_true_iff.mp hy
        obtain rfl := of_decide_eq_true hLeft
        exact Reaches.not_ended (ended_of_result hResult)

/-! ## What the left program stays among -/

/-- The left program stays among its calls as long as all calls keep what makes its responses
known. -/
theorem Stays.weave {known : (c : C) → R c → Prop} {allowed : C → Prop} {post : α → Prop}
    {inv : σ → Prop} (hStays : p.Stays known allowed post)
    (hWeave : weave h enabled sched p q s = some w)
    (hMeets : StepsMeet h condition sched past p q s) (hInv : inv s)
    (hKnown : ∀ c s, inv s → known c (h c s).1)
    (hLeft : ∀ c s, inv s → allowed c → inv (h c s).2)
    (hRight : ∀ place c s, condition place .right c → inv s → inv (h c s).2) :
    ∀ c, (.left, c) ∈ w.log → allowed c := by
  induction sched generalizing past p q s w with
  | nil =>
    cases p <;> cases q <;> simp [Program.weave, result] at hWeave <;> subst hWeave <;>
      exact fun c hMem => by cases hMem
  | cons z sched ih =>
    rcases weave_cons hWeave with
      ⟨d, k, v, rfl, rfl, -, hRest, rfl⟩ | ⟨d, k, v, rfl, rfl, -, hRest, rfl⟩
    · obtain ⟨-, hLater⟩ := stepsMeet_left.mp hMeets
      have hNext := ih (hStays.2 _ (hKnown d s hInv)) hRest hLater (hLeft d s hInv hStays.1)
      intro c hMem
      rcases List.mem_cons.mp hMem with hHead | hLast
      · obtain ⟨-, rfl⟩ := Prod.mk.inj hHead
        exact hStays.1
      · exact hNext c hLast
    · obtain ⟨hHere, hLater⟩ := stepsMeet_right.mp hMeets
      have hNext := ih hStays hRest hLater (hRight _ d s hHere hInv)
      intro c hMem
      rcases List.mem_cons.mp hMem with hHead | hLast
      · cases hHead
      · exact hNext c hLast

end Program

/-! ## Another meaning of the calls -/

/-- Two programs interleave alike in related states. -/
theorem Simulates.weave {h : Interp R σ} {h' : Interp R τ} {related : σ → τ → Prop}
    {enabled : C → σ → Bool} {enabled' : C → τ → Bool} {sched : List Side} {p : Program R ε α}
    {q : Program R ε β} {s : σ} {t : τ} {w : Program.Woven C ε α β σ}
    (hSimulates : Simulates h h' (fun _ _ => True) related)
    (hEnabled : ∀ c s t, related s t → enabled c s = true → enabled' c t = true)
    (hWeave : Program.weave h enabled sched p q s = some w) (hRelated : related s t) :
    ∃ v, Program.weave h' enabled' sched p q t = some v ∧ v.left = w.left ∧ v.right = w.right ∧
      v.log = w.log ∧ related w.state v.state := by
  induction sched generalizing p q s t w with
  | nil =>
    cases p <;> cases q <;> simp [Program.weave, Program.result] at hWeave <;> subst hWeave <;>
      exact ⟨_, rfl, rfl, rfl, rfl, hRelated⟩
  | cons z sched ih =>
    rcases Program.weave_cons hWeave with
      ⟨c, k, u, rfl, rfl, hMay, hRest, rfl⟩ | ⟨c, k, u, rfl, rfl, hMay, hRest, rfl⟩
    · obtain ⟨hSame, hNext⟩ := hSimulates c s t hRelated trivial
      obtain ⟨v, hOther, hLeft, hRight, hLog, hEnd⟩ := ih hRest hNext
      rw [hSame] at hOther
      refine ⟨_, Program.weave_left (hEnabled c s t hRelated hMay) hOther, hLeft, hRight, ?_, hEnd⟩
      rw [hLog]
    · obtain ⟨hSame, hNext⟩ := hSimulates c s t hRelated trivial
      obtain ⟨v, hOther, hLeft, hRight, hLog, hEnd⟩ := ih hRest hNext
      rw [hSame] at hOther
      refine ⟨_, Program.weave_right (hEnabled c s t hRelated hMay) hOther, hLeft, hRight, ?_, hEnd⟩
      rw [hLog]

end Process
