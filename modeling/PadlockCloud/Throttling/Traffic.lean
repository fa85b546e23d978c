import Mathlib.Data.List.Basic
import Mathlib.Data.List.Count
import PadlockCloud.Throttling.Limiter

/-!
# Limited traffic

A sequence of requests in front of limiters that share a store. Each request has a target,
that is a quota and a key, or none if it is not limited. It passes if it has no target or
if its key is not limited.
-/

namespace Throttling

namespace Limiter

variable {E Q S K : Type} [DecidableEq K] (L : Limiter Q S) (target : E → Option (Q × K))

/-- Whether a request passes, and the store afterwards. -/
def admitOne (now : Int) (e : E) (s : Store K S) : Bool × Store K S :=
  match target e with
  | some (quota, key) => (!(L.call quota now key s).1, (L.call quota now key s).2)
  | none => (true, s)

/-- The requests with the decisions on them, all at one instant. -/
def traffic (now : Int) : List E → Store K S → List (E × Bool)
  | [], _ => []
  | e :: events, s =>
    (e, (L.admitOne target now e s).1) :: traffic now events (L.admitOne target now e s).2

variable {L target} {now : Int} {e : E} {events : List E} {s s' : Store K S} {quota : Q} {key : K}
  {o : E × Bool}

theorem admitOne_free (hFree : target e = none) : L.admitOne target now e s = (true, s) := by
  rw [admitOne, hFree]

theorem admitOne_target (hTarget : target e = some (quota, key)) :
    L.admitOne target now e s =
      (!(L.call quota now key s).1, (L.call quota now key s).2) := by
  rw [admitOne, hTarget]

theorem mem_of_traffic (hMem : o ∈ L.traffic target now events s) : o.1 ∈ events := by
  induction events generalizing s with
  | nil => cases hMem
  | cons e events ih =>
    rcases List.mem_cons.mp hMem with rfl | hRest
    · exact List.mem_cons_self
    · exact List.mem_cons_of_mem e (ih hRest)

/-- What has no target passes. -/
theorem traffic_free (hMem : o ∈ L.traffic target now events s) (hFree : target o.1 = none) :
    o.2 = true := by
  induction events generalizing s with
  | nil => cases hMem
  | cons e events ih =>
    rcases List.mem_cons.mp hMem with rfl | hRest
    · exact congrArg Prod.fst (admitOne_free hFree)
    · exact ih hRest

/-! ## The budget of a key -/

/-- The request is charged to the key. -/
def hits (target : E → Option (Q × K)) (key : K) (e : E) : Bool :=
  (target e).any fun found => found.2 = key

theorem hits_iff : hits target key e = true ↔ ∃ quota, target e = some (quota, key) := by
  unfold hits
  cases target e with
  | none => simp
  | some found =>
    obtain ⟨quota, own⟩ := found
    simp

variable (L now s) in
/-- A request that is not charged to the key leaves its state alone. -/
theorem admitOne_other (hOther : hits target key e = false) :
    (L.admitOne target now e s).2 key = s key := by
  cases hTarget : target e with
  | none => rw [admitOne_free hTarget]
  | some found =>
    obtain ⟨quota, own⟩ := found
    rw [admitOne_target hTarget]
    refine call_other ?_
    rintro rfl
    rw [hits_iff.mpr ⟨quota, hTarget⟩] at hOther
    cases hOther

/-- After some calls on a key, only what is left of its budget passes, if all requests with
the key have the same quota. -/
theorem countP_passed_le (key : K) {burst : Q → Nat} (hBurst : L.AdmitsAtOnce burst)
    (hAccepted : L.accepts quota = true)
    (hQuota : ∀ e ∈ events, ∀ own, target e = some (own, key) → own = quota) {n : Nat}
    (hState : s key = L.times quota now n) :
    (L.traffic target now events s).countP (fun o => o.2 && hits target key o.1) ≤
      burst quota + 1 - n := by
  induction events generalizing s n with
  | nil => exact Nat.zero_le _
  | cons e events ih =>
    have hRestQuota : ∀ e ∈ events, ∀ own, target e = some (own, key) → own = quota :=
      fun e he => hQuota e (List.mem_cons_of_mem _ he)
    rw [traffic, List.countP_cons]
    by_cases hHits : hits target key e = true
    · obtain ⟨own, hTarget⟩ := hits_iff.mp hHits
      obtain rfl : own = quota := hQuota e List.mem_cons_self own hTarget
      rw [admitOne_target hTarget]
      have hRest := ih hRestQuota (call_times hState)
      have hLimited := hBurst.limited_iff hAccepted hState
      simp only [hHits, Bool.and_true]
      cases hAnswer : (L.call own now key s).1 with
      | true =>
        simp only [Bool.not_true, Bool.false_eq_true, if_false]
        omega
      | false =>
        have hMany : ¬burst own < n := by
          rw [← hLimited, hAnswer]
          exact Bool.false_ne_true
        simp only [Bool.not_false, if_true]
        omega
    · rw [Bool.not_eq_true] at hHits
      have hRest := ih hRestQuota ((admitOne_other L now s hHits).trans hState)
      simp only [hHits, Bool.and_false, Bool.false_eq_true, if_false]
      exact hRest

/-! ## Groups of requests -/

/-- A group of requests whose keys no other request has gets the decisions that it would
get on its own. -/
theorem traffic_filter (group : E → Bool) {P : K → Prop}
    (hGroup : ∀ e ∈ events, ∀ own key, target e = some (own, key) → (group e = true ↔ P key))
    (hAgree : Store.AgreeOn P s s') :
    (L.traffic target now events s).filter (fun o => group o.1) =
      L.traffic target now (events.filter group) s' := by
  induction events generalizing s s' with
  | nil => rfl
  | cons e events ih =>
    have hRestGroup : ∀ e ∈ events, ∀ own key, target e = some (own, key) →
        (group e = true ↔ P key) := fun e he => hGroup e (List.mem_cons_of_mem _ he)
    rw [traffic]
    by_cases hOwn : group e = true
    · rw [List.filter_cons_of_pos (p := fun o : E × Bool => group o.1) hOwn,
        List.filter_cons_of_pos (p := group) hOwn, traffic]
      have hStep : (L.admitOne target now e s).1 = (L.admitOne target now e s').1 ∧
          Store.AgreeOn P (L.admitOne target now e s).2 (L.admitOne target now e s').2 := by
        cases hTarget : target e with
        | none =>
          rw [admitOne_free hTarget, admitOne_free hTarget]
          exact ⟨rfl, hAgree⟩
        | some found =>
          obtain ⟨own, key⟩ := found
          have hKey : P key := (hGroup e List.mem_cons_self own key hTarget).mp hOwn
          obtain ⟨hAnswer, hNext⟩ := call_congr L own now hAgree hKey
          rw [admitOne_target hTarget, admitOne_target hTarget]
          exact ⟨congrArg not hAnswer, hNext⟩
      rw [hStep.1, ih hRestGroup hStep.2]
    · rw [List.filter_cons_of_neg (p := fun o : E × Bool => group o.1) hOwn,
        List.filter_cons_of_neg (p := group) hOwn]
      refine ih hRestGroup ?_
      cases hTarget : target e with
      | none =>
        rw [admitOne_free hTarget]
        exact hAgree
      | some found =>
        obtain ⟨own, key⟩ := found
        rw [admitOne_target hTarget]
        refine (call_agreeOn L own now s ?_).trans hAgree
        intro hKey
        exact hOwn ((hGroup e List.mem_cons_self own key hTarget).mpr hKey)

end Limiter

end Throttling
