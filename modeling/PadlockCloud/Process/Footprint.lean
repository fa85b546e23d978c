import PadlockCloud.Process.Interleaving

/-!
# Footprints

A state that consists of cells, and calls that use some of its cells and write
some of those. If what one call writes is not used by another one and the other
way round, the two are independent, which is what the theorems about
interleavings ask for.
-/

namespace Process

variable {C X V σ : Type} {R : C → Type}

/-- How a call depends on the cells of the state: outside of what it writes
nothing changes, and its response and the written values are determined by the
cells that it uses. -/
structure Footprint (h : Interp R σ) (X V : Type) where
  read : σ → X → V
  read_ext : ∀ s t, (∀ x, read s x = read t x) → s = t
  uses : C → List X
  writes : C → List X
  writes_subset : ∀ c, writes c ⊆ uses c
  frame : ∀ c s x, x ∉ writes c → read (h c s).2 x = read s x
  response : ∀ c s t, (∀ x ∈ uses c, read s x = read t x) → (h c s).1 = (h c t).1
  written : ∀ c s t, (∀ x ∈ uses c, read s x = read t x) →
    ∀ x ∈ writes c, read (h c s).2 x = read (h c t).2 x

namespace Footprint

variable {h : Interp R σ}

/-- Neither call uses a cell that the other one writes. -/
def Disjoint (F : Footprint h X V) (c d : C) : Prop :=
  (∀ x ∈ F.writes c, x ∉ F.uses d) ∧ ∀ x ∈ F.writes d, x ∉ F.uses c

instance [DecidableEq X] (F : Footprint h X V) (c d : C) : Decidable (F.Disjoint c d) :=
  inferInstanceAs (Decidable (_ ∧ _))

/-- A call does not see a disjoint one. -/
theorem unseen {F : Footprint h X V} {c d : C} (hDisjoint : F.Disjoint c d) (s : σ) :
    ∀ x ∈ F.uses c, F.read (h d s).2 x = F.read s x := by
  intro x hUses
  apply F.frame
  intro hWrites
  exact hDisjoint.2 x hWrites hUses

theorem independent {F : Footprint h X V} {c d : C} (hDisjoint : F.Disjoint c d) :
    Independent h c d := by
  intro s
  have hFirst := unseen hDisjoint s
  have hSecond := unseen hDisjoint.symm s
  refine ⟨F.response c _ _ hFirst, F.response d _ _ hSecond, F.read_ext _ _ ?_⟩
  intro x
  by_cases hc : x ∈ F.writes c
  · have hd : x ∉ F.writes d := fun hd => hDisjoint.1 x hc (F.writes_subset d hd)
    rw [F.written c _ _ hFirst x hc, F.frame d _ x hd]
  · by_cases hd : x ∈ F.writes d
    · rw [F.frame c _ x hc, F.written d _ _ hSecond x hd]
    · rw [F.frame c _ x hc, F.frame d _ x hd, F.frame d _ x hd, F.frame c _ x hc]

end Footprint

end Process
