import Mathlib.Tactic.Ring
import PadlockCloud.Throttling.Limiter

/-!
# The generic cell rate algorithm

The state of a key is the theoretical arrival time: when the next call would be due if
the calls came at the rate of the quota. A call that comes too long before it is limited.
-/

namespace Throttling

/-- One call in each period, and a burst on top of it. -/
structure Quota where
  period : Int
  maxBurst : Int
  deriving DecidableEq

namespace Quota

/-- How far the arrival time may lie ahead. -/
def tolerance (q : Quota) : Int := q.period * (q.maxBurst + 1)

def isValid (q : Quota) : Bool := 0 ≤ q.maxBurst && 0 < q.period

def burst (q : Quota) : Nat := q.maxBurst.toNat

end Quota

/-- The arrival time after a call. -/
def arrival (q : Quota) (now : Int) (state : Option Int) : Int :=
  let tat := state.getD now
  (if tat < now then now else tat) + q.period

def gcra : Limiter Quota Int where
  accepts := Quota.isValid
  charge q now state :=
    if now < arrival q now state - q.tolerance then (true, state)
    else (false, some (arrival q now state))
  limited_unchanged q now state hLimited := by
    split
    · rfl
    · rename_i hFree
      rw [if_neg hFree] at hLimited
      cases hLimited

theorem gcra_limited_iff {q : Quota} {now : Int} {state : Option Int} :
    (gcra.charge q now state).1 = true ↔ now < arrival q now state - q.tolerance := by
  unfold gcra
  dsimp only
  split
  · rename_i hLimited
    exact iff_of_true rfl hLimited
  · rename_i hFree
    exact iff_of_false Bool.false_ne_true hFree

theorem gcra_free {q : Quota} {now : Int} {state : Option Int}
    (hFree : ¬now < arrival q now state - q.tolerance) :
    (gcra.charge q now state).2 = some (arrival q now state) := by
  unfold gcra
  dsimp only
  rw [if_neg hFree]

theorem gcra_kept {q : Quota} {now : Int} {state : Option Int}
    (hLimited : now < arrival q now state - q.tolerance) : (gcra.charge q now state).2 = state := by
  unfold gcra
  dsimp only
  rw [if_pos hLimited]

/-- After some calls at one instant, the arrival time is one period ahead for each call
that was admitted. -/
theorem gcra_arrival {q : Quota} (hValid : q.isValid = true) (now : Int) (n : Nat) :
    arrival q now (gcra.times q now n) =
      now + q.period * ((min n (q.burst + 1) : Nat) + 1 : Int) := by
  simp only [Quota.isValid, Bool.and_eq_true, decide_eq_true_eq] at hValid
  obtain ⟨hBurst, hPeriod⟩ := hValid
  have hToNat : (q.burst : Int) = q.maxBurst := Int.toNat_of_nonneg hBurst
  induction n with
  | zero => simp [Limiter.times, arrival]
  | succ n ih =>
    have hTolerance : q.tolerance = q.period * ((q.burst : Int) + 1) := by
      rw [hToNat]
      rfl
    by_cases hLimited : now < arrival q now (gcra.times q now n) - q.tolerance
    · rw [Limiter.times, gcra_kept hLimited, ih]
      rw [ih, hTolerance] at hLimited
      have hMore : (q.burst : Int) + 1 < (min n (q.burst + 1) : Nat) + 1 := by
        by_contra hLess
        have hMul := Int.mul_le_mul_of_nonneg_left (Int.not_lt.mp hLess) (Int.le_of_lt hPeriod)
        omega
      congr 3
      omega
    · rw [Limiter.times, gcra_free hLimited]
      rw [ih, hTolerance] at hLimited
      have hLess : ((min n (q.burst + 1) : Nat) : Int) + 1 ≤ (q.burst : Int) + 1 := by
        by_contra hMore
        have hMul := Int.mul_lt_mul_of_pos_left (Int.not_le.mp hMore) hPeriod
        omega
      have hAhead : 0 < q.period * ((min n (q.burst + 1) : Nat) + 1 : Int) :=
        Int.mul_pos hPeriod (by omega)
      have hCount : ((min (n + 1) (q.burst + 1) : Nat) : Int) = (min n (q.burst + 1) : Nat) + 1 := by
        omega
      rw [arrival, Option.getD_some, if_neg (by rw [ih]; omega), ih, hCount]
      ring

/-- It admits one call more than the burst at one instant. -/
theorem gcra_admitsAtOnce : gcra.AdmitsAtOnce Quota.burst := by
  intro q now n hValid
  rw [gcra_limited_iff, gcra_arrival hValid]
  simp only [gcra, Quota.isValid, Bool.and_eq_true, decide_eq_true_eq] at hValid
  obtain ⟨hBurst, hPeriod⟩ := hValid
  have hToNat : (q.burst : Int) = q.maxBurst := Int.toNat_of_nonneg hBurst
  have hTolerance : q.tolerance = q.period * ((q.burst : Int) + 1) := by
    rw [hToNat]
    rfl
  rw [hTolerance]
  constructor
  · intro hLimited
    by_contra hFew
    have hLess : ((min n (q.burst + 1) : Nat) : Int) + 1 ≤ (q.burst : Int) + 1 := by omega
    have hMul := Int.mul_le_mul_of_nonneg_left hLess (Int.le_of_lt hPeriod)
    omega
  · intro hMany
    have hMore : (q.burst : Int) + 1 < (min n (q.burst + 1) : Nat) + 1 := by omega
    have hMul := Int.mul_lt_mul_of_pos_left hMore hPeriod
    omega

/-! ## The pace

Whatever the clock does, each call that is admitted puts the arrival time off by a
period, and leaves it within the tolerance. -/

/-- The arrival time is `level` at least, unless that is no later than `lo`. -/
def Reaches (lo level : Int) (state : Option Int) : Prop :=
  level ≤ lo ∨ ∃ tat, state = some tat ∧ level ≤ tat

section Pace

variable {q : Quota} {lo now level : Int}

theorem le_arrival {state : Option Int} (hReaches : Reaches lo level state) (hLater : lo ≤ now) :
    level + q.period ≤ arrival q now state := by
  unfold arrival
  dsimp only
  rcases hReaches with hLow | ⟨tat, rfl, hLevel⟩
  · split <;> omega
  · rw [Option.getD_some]
    split <;> omega

variable {K : Type} [DecidableEq K] {key k : K} {s : Store K Int}

/-- No call brings the arrival time of a key back. -/
theorem reaches_call (hValid : q.isValid = true) (hReaches : Reaches lo level (s key)) :
    Reaches lo level ((gcra.call q now k s).2 key) := by
  simp only [Quota.isValid, Bool.and_eq_true, decide_eq_true_eq] at hValid
  by_cases hOwn : key = k
  · subst hOwn
    rw [Limiter.call_self]
    by_cases hLimited : now < arrival q now (s key) - q.tolerance
    · rwa [gcra_kept hLimited]
    · rw [gcra_free hLimited]
      rcases hReaches with hLow | ⟨tat, hState, hLevel⟩
      · exact .inl hLow
      · refine .inr ⟨_, rfl, ?_⟩
        rw [hState, arrival, Option.getD_some]
        split <;> omega
  · rwa [Limiter.call_other hOwn]

/-- A call that is admitted raises the level by a period, which stays within the tolerance. -/
theorem reaches_admitted (hReaches : Reaches lo level (s key)) (hLater : lo ≤ now)
    (hAdmitted : (gcra.call q now key s).1 = false) :
    Reaches lo (level + q.period) ((gcra.call q now key s).2 key) ∧
      level + q.period ≤ now + q.tolerance := by
  have hFree : ¬now < arrival q now (s key) - q.tolerance := by
    rw [← gcra_limited_iff]
    exact Bool.not_eq_true _ ▸ hAdmitted
  have hArrival := le_arrival (q := q) hReaches hLater
  rw [Limiter.call_self, gcra_free hFree]
  exact ⟨.inr ⟨_, rfl, hArrival⟩, by omega⟩

end Pace

end Throttling
