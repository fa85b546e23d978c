import Mathlib.Logic.Function.Basic

/-!
# Rate limiters over a store

A rate limiter keeps one state for each key. A call on a key decides from the quota of
the limiter, the instant and the state of the key, and a call that is limited leaves
that state as it was. Several limiters can share a store; then they share the states.
-/

namespace Throttling

/-- The decision of a limiter, and the state that it leaves for the key. -/
structure Limiter (Q S : Type) where
  /-- There is a limiter for the quota. -/
  accepts : Q → Bool
  charge : Q → Int → Option S → Bool × Option S
  limited_unchanged : ∀ q now state, (charge q now state).1 = true → (charge q now state).2 = state

/-- The states of the keys. -/
abbrev Store (K S : Type) := K → Option S

/-- Two stores have the same states for the keys in `P`. -/
def Store.AgreeOn {K S : Type} (P : K → Prop) (s s' : Store K S) : Prop := ∀ k, P k → s k = s' k

namespace Limiter

variable {Q S K : Type} [DecidableEq K] (L : Limiter Q S)

/-- One call on a key: whether it is limited, and the store afterwards. -/
def call (q : Q) (now : Int) (key : K) (s : Store K S) : Bool × Store K S :=
  ((L.charge q now (s key)).1, Function.update s key (L.charge q now (s key)).2)

variable {L} {q : Q} {now : Int} {key k : K} {s s' : Store K S} {P : K → Prop}

theorem call_self : (L.call q now key s).2 key = (L.charge q now (s key)).2 :=
  Function.update_self _ _ _

/-- A call changes the state of its own key only. -/
theorem call_other (hKey : k ≠ key) : (L.call q now key s).2 k = s k :=
  Function.update_of_ne hKey _ _

/-- A limited call changes nothing. -/
theorem call_limited (hLimited : (L.call q now key s).1 = true) : (L.call q now key s).2 = s := by
  rw [call, L.limited_unchanged q now (s key) hLimited, Function.update_eq_self]

variable (L q now s) in
/-- A call on a key that is not in `P` is not seen in `P`. -/
theorem call_agreeOn (hKey : ¬P key) : Store.AgreeOn P (L.call q now key s).2 s := by
  intro k hk
  refine call_other ?_
  rintro rfl
  exact hKey hk

variable (L q now) in
/-- Where the states are the same, so are the answers and the states afterwards. -/
theorem call_congr (hAgree : Store.AgreeOn P s s') (hKey : P key) :
    (L.call q now key s).1 = (L.call q now key s').1 ∧
      Store.AgreeOn P (L.call q now key s).2 (L.call q now key s').2 := by
  have hSame := hAgree key hKey
  refine ⟨by rw [call, call, hSame], ?_⟩
  intro k hk
  by_cases hOwn : k = key
  · subst hOwn
    rw [call_self, call_self, hSame]
  · rw [call_other hOwn, call_other hOwn]
    exact hAgree k hk

/-! ## Calls at one instant -/

variable (L) in
/-- The state of a key after so many calls at one instant. -/
def times (q : Q) (now : Int) : Nat → Option S
  | 0 => none
  | n + 1 => (L.charge q now (times q now n)).2

variable (L) in
/-- At one instant, the limiter admits one call more than the burst of its quota. -/
def AdmitsAtOnce (burst : Q → Nat) : Prop :=
  ∀ q now n, L.accepts q = true → ((L.charge q now (L.times q now n)).1 = true ↔ burst q < n)

theorem call_times {n : Nat} (hState : s key = L.times q now n) :
    (L.call q now key s).2 key = L.times q now (n + 1) := by
  rw [call_self, hState]
  rfl

theorem AdmitsAtOnce.limited_iff {burst : Q → Nat} (hBurst : L.AdmitsAtOnce burst)
    (hAccepted : L.accepts q = true) {n : Nat} (hState : s key = L.times q now n) :
    (L.call q now key s).1 = true ↔ burst q < n := by
  rw [call, hState]
  exact hBurst q now n hAccepted

end Limiter

namespace Store.AgreeOn

variable {K S : Type} {P P' : K → Prop} {s s' s'' : Store K S}

theorem refl (P : K → Prop) (s : Store K S) : Store.AgreeOn P s s := fun _ _ => rfl

theorem trans (hFirst : Store.AgreeOn P s s') (hSecond : Store.AgreeOn P s' s'') :
    Store.AgreeOn P s s'' := fun k hk => (hFirst k hk).trans (hSecond k hk)

end Store.AgreeOn

end Throttling
