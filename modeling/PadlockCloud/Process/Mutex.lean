import Mathlib.Logic.Function.Basic
import PadlockCloud.Process.Bounded
import PadlockCloud.Process.Pool

/-!
# Mutexes

Programs that take one mutex at most: taking it is their first call, and giving it
back is their last one. In a pool of such programs a mutex has one holder at most
(`Exclusive`), and a program that cannot go on waits for one that can (`Exclusive.next`).

Programs of which one can always go on get to their end, if there is a bound on their calls
(`Pool.completes`).
-/

namespace Process

/-- What a call does with the mutexes. -/
inductive MutexOp (M : Type) where
  | lock (m : M)
  | unlock (m : M)
  | other
deriving DecidableEq

/-- The mutexes of an interface. -/
structure Mutexes {C σ : Type} {R : C → Type} (h : Interp R σ) (M : Type) [DecidableEq M] where
  op : C → MutexOp M
  held : σ → M → Bool
  held_step : ∀ c s, held (h c s).2 =
    match op c with
    | .lock m => Function.update (held s) m true
    | .unlock m => Function.update (held s) m false
    | .other => held s

namespace Mutexes

variable {C σ L M ε α : Type} {R : C → Type} [DecidableEq M] {h : Interp R σ} (X : Mutexes h M)
  (known : (c : C) → R c → Prop)

/-- A mutex that is held blocks the next one who wants to take it. -/
def Free (s : σ) (c : C) : Prop := ∀ m, X.op c = .lock m → X.held s m = false

/-! ## One program -/

/-- The program gives back `m` in its last call and touches no mutex before. -/
def Releases (m : M) : Program R ε α → Prop
  | .pure _ | .fail _ => False
  | .call c k =>
    X.op c = .other ∧ (∀ r, known c r → Releases m (k r)) ∨
      X.op c = .unlock m ∧ ∀ r, known c r → (k r).Ended

/-- The program takes `m` in its first call, if it makes one, and gives it back in
its last one. -/
def Guards (m : M) : Program R ε α → Prop
  | .pure _ | .fail _ => True
  | .call c k => X.op c = .lock m ∧ ∀ r, known c r → X.Releases known m (k r)

/-- The program does not touch any mutex. -/
def Aloof (p : Program R ε α) : Prop := ∃ n, p.Bounded known (fun c => X.op c = .other) n

/-- The program guards its mutex, if it has one. -/
def Keeps : Option M → Program R ε α → Prop
  | some m => X.Guards known m
  | none => X.Aloof known

variable {X known} in
theorem releases_ensure {m : M} {n : Nat} {p : Program R ε α} {c : C} {k : R c → Program R ε Unit}
    (hBounded : p.Bounded known (fun c => X.op c = .other) n) (hUnlock : X.op c = .unlock m)
    (hRest : ∀ r, (k r).Ended) : X.Releases known m (p.ensure (.call c k)) := by
  induction p generalizing n with
  | pure a => exact .inr ⟨hUnlock, fun r _ => (hRest r).bind fun _ => .pure a⟩
  | fail e => exact .inr ⟨hUnlock, fun r _ => (hRest r).bind fun _ => .fail e⟩
  | call d l ih =>
    cases n with
    | zero => exact hBounded.elim
    | succ n => exact .inl ⟨hBounded.1, fun r hr => ih r (hBounded.2 r hr)⟩

variable {X known} in
/-- What follows must make no call. -/
theorem Releases.bind {β : Type} {m : M} {p : Program R ε α} {f : α → Program R ε β}
    (hReleases : X.Releases known m p) (hRest : ∀ a, (f a).Ended) :
    X.Releases known m (p.bind f) := by
  induction p with
  | pure a => exact hReleases.elim
  | fail e => exact hReleases.elim
  | call c k ih =>
    rcases hReleases with ⟨hOther, hInner⟩ | ⟨hUnlock, hEnded⟩
    · exact .inl ⟨hOther, fun r hr => ih r (hInner r hr)⟩
    · exact .inr ⟨hUnlock, fun r hr => (hEnded r hr).bind hRest⟩

variable {X known} in
theorem Releases.attempt {m : M} {p : Program R ε α} (escapes : ε → Bool)
    (hReleases : X.Releases known m p) : X.Releases known m (p.attempt escapes) := by
  induction p with
  | pure a => exact hReleases.elim
  | fail e => exact hReleases.elim
  | call c k ih =>
    rcases hReleases with ⟨hOther, hInner⟩ | ⟨hUnlock, hEnded⟩
    · exact .inl ⟨hOther, fun r hr => ih r (hInner r hr)⟩
    · exact .inr ⟨hUnlock, fun r hr => (hEnded r hr).attempt escapes⟩

section Sequence

variable {X known} {β : Type} {o : Option M} {p : Program R ε α} {f : α → Program R ε β}

theorem Keeps.of_ended (hEnded : p.Ended) : X.Keeps known o p := by
  cases p with
  | pure a =>
    cases o with
    | none => exact ⟨0, .pure a⟩
    | some m => trivial
  | fail e =>
    cases o with
    | none => exact ⟨0, .fail e⟩
    | some m => trivial
  | call c k => exact (Program.Ended.not_call hEnded).elim

theorem Keeps.bind (hKeeps : X.Keeps known o p) (hRest : ∀ a, (f a).Ended) :
    X.Keeps known o (p.bind f) := by
  rcases Program.Ended.or_call p with hEnded | ⟨c, k, rfl⟩
  · exact .of_ended (hEnded.bind hRest)
  · cases o with
    | none =>
      obtain ⟨n, hBounded⟩ := hKeeps
      exact ⟨n, hBounded.bind_ended fun a => (hRest a).bounded⟩
    | some m => exact ⟨hKeeps.1, fun r hr => (hKeeps.2 r hr).bind hRest⟩

theorem Keeps.attempt (escapes : ε → Bool) (hKeeps : X.Keeps known o p) :
    X.Keeps known o (p.attempt escapes) := by
  rcases Program.Ended.or_call p with hEnded | ⟨c, k, rfl⟩
  · exact .of_ended (hEnded.attempt escapes)
  · cases o with
    | none =>
      obtain ⟨n, hBounded⟩ := hKeeps
      exact ⟨n, hBounded.attempt escapes⟩
    | some m => exact ⟨hKeeps.1, fun r hr => (hKeeps.2 r hr).attempt escapes⟩

end Sequence

/-- The program that has made these calls has `m`. -/
def Holding (m : M) (log : List (Event R)) : Prop :=
  (∃ e ∈ log, X.op e.1 = .lock m) ∧ ∀ e ∈ log, X.op e.1 ≠ .unlock m

/-- How far a program is that keeps a mutex. -/
inductive Stage : Option M → List (Event R) → Program R ε α → Prop where
  | aloof {log : List (Event R)} {p : Program R ε α} (hLog : ∀ e ∈ log, X.op e.1 = .other)
      (hRest : X.Aloof known p) : Stage none log p
  | before {m : M} {p : Program R ε α} (hRest : X.Guards known m p) : Stage (some m) [] p
  | inside {m : M} {body : List (Event R)} {e : Event R} {p : Program R ε α}
      (hLock : X.op e.1 = .lock m) (hBody : ∀ e ∈ body, X.op e.1 = .other)
      (hRest : X.Releases known m p) : Stage (some m) (body ++ [e]) p
  | after {m : M} {body : List (Event R)} {e u : Event R} {p : Program R ε α}
      (hLock : X.op e.1 = .lock m) (hBody : ∀ e ∈ body, X.op e.1 = .other)
      (hUnlock : X.op u.1 = .unlock m) (hRest : p.Ended) : Stage (some m) (u :: body ++ [e]) p

variable {X known} {m m' : M} {o : Option M} {log : List (Event R)} {p : Program R ε α} {c : C}
  {k : R c → Program R ε α} {r : R c}

theorem Stage.start (hKeeps : X.Keeps known o p) : X.Stage known o [] p := by
  cases o with
  | none => exact .aloof nofun hKeeps
  | some m => exact .before hKeeps

/-- A call brings the program to its next stage. -/
theorem Stage.step (hStage : X.Stage known o log (.call c k)) (hKnown : known c r) :
    X.Stage known o (⟨c, r⟩ :: log) (k r) := by
  cases hStage with
  | aloof hLog hRest =>
    obtain ⟨n, hBounded⟩ := hRest
    cases n with
    | zero => exact hBounded.elim
    | succ n => exact .aloof (List.forall_mem_cons.mpr ⟨hBounded.1, hLog⟩) ⟨n, hBounded.2 r hKnown⟩
  | before hRest =>
    have hTaken : X.Stage known _ ([] ++ [⟨c, r⟩]) (k r) :=
      .inside hRest.1 nofun (hRest.2 r hKnown)
    exact hTaken
  | inside hLock hBody hRest =>
    rcases hRest with ⟨hOther, hRest⟩ | ⟨hUnlock, hRest⟩
    · exact .inside hLock (List.forall_mem_cons.mpr ⟨hOther, hBody⟩) (hRest r hKnown)
    · exact .after (u := ⟨c, r⟩) hLock hBody hUnlock (hRest r hKnown)
  | after hLock hBody hUnlock hRest => exact hRest.elim

theorem holding_cons_other {e : Event R} (hOther : X.op e.1 = .other) :
    X.Holding m (e :: log) ↔ X.Holding m log := by
  simp [Holding, hOther]

theorem not_holding_of_other (hLog : ∀ e ∈ log, X.op e.1 = .other) : ¬X.Holding m log := by
  rintro ⟨⟨e, he, hLock⟩, -⟩
  rw [hLog e he] at hLock
  cases hLock

theorem not_holding_nil : ¬X.Holding m [] := by
  rintro ⟨⟨e, he, -⟩, -⟩
  cases he

theorem holding_inside {e : Event R} (hLock : X.op e.1 = .lock m)
    (hLog : ∀ e ∈ log, X.op e.1 = .other) : X.Holding m' (log ++ [e]) ↔ m' = m := by
  constructor
  · rintro ⟨⟨d, hd, hTaken⟩, -⟩
    rcases List.mem_append.mp hd with hBody | hFirst
    · rw [hLog d hBody] at hTaken
      cases hTaken
    · rw [List.mem_singleton.mp hFirst, hLock] at hTaken
      exact (MutexOp.lock.inj hTaken).symm
  · rintro rfl
    refine ⟨⟨e, List.mem_append_right _ (List.mem_singleton_self e), hLock⟩, ?_⟩
    intro d hd hGiven
    rcases List.mem_append.mp hd with hBody | hFirst
    · rw [hLog d hBody] at hGiven
      cases hGiven
    · rw [List.mem_singleton.mp hFirst, hLock] at hGiven
      cases hGiven

theorem holding_single {e : Event R} (hLock : X.op e.1 = .lock m) : X.Holding m' [e] ↔ m' = m := by
  have hLog : ∀ d ∈ ([] : List (Event R)), X.op d.1 = .other := nofun
  exact holding_inside hLock hLog

/-- Who has ended holds nothing. -/
theorem Stage.not_holding_of_ended (hStage : X.Stage known o log p) (hEnded : p.Ended) :
    ¬X.Holding m log := by
  cases hStage with
  | aloof hLog hRest => exact not_holding_of_other hLog
  | before hRest => exact not_holding_nil
  | inside hLock hBody hRest =>
    cases p with
    | pure a => exact hRest.elim
    | fail e => exact hRest.elim
    | call c k => exact (Program.Ended.not_call hEnded).elim
  | @after m₀ body e u p hLock hBody hUnlock hRest =>
    rintro ⟨⟨d, hd, hTaken⟩, hKept⟩
    rcases List.mem_cons.mp hd with rfl | hd
    · rw [hUnlock] at hTaken
      cases hTaken
    · rcases List.mem_append.mp hd with hOwn | hFirst
      · rw [hBody d hOwn] at hTaken
        cases hTaken
      · rw [List.mem_singleton.mp hFirst, hLock] at hTaken
        obtain rfl := MutexOp.lock.inj hTaken
        exact hKept u List.mem_cons_self hUnlock

/-- The only mutex that a program holds is its own. -/
theorem Stage.eq_of_holding (hStage : X.Stage known o log p) (hHolding : X.Holding m log) :
    o = some m := by
  have hEnds (hEnded : p.Ended) := hStage.not_holding_of_ended hEnded hHolding
  cases hStage with
  | aloof hLog hRest => exact (not_holding_of_other hLog hHolding).elim
  | before hRest => exact (not_holding_nil hHolding).elim
  | inside hLock hBody hRest => rw [(holding_inside hLock hBody).mp hHolding]
  | after hLock hBody hUnlock hRest => exact (hEnds hRest).elim

/-- Who takes a mutex has made no call before. -/
theorem Stage.locks (hStage : X.Stage known o log (.call c k)) (hOp : X.op c = .lock m) :
    o = some m ∧ log = [] := by
  cases hStage with
  | aloof hLog hRest =>
    obtain ⟨n, hBounded⟩ := hRest
    cases n with
    | zero => exact hBounded.elim
    | succ n =>
      have hOther : X.op c = .other := hBounded.1
      rw [hOp] at hOther
      cases hOther
  | before hRest =>
    have hOwn := hRest.1
    rw [hOp] at hOwn
    exact ⟨congrArg some (MutexOp.lock.inj hOwn).symm, rfl⟩
  | inside hLock hBody hRest =>
    rcases hRest with ⟨hOther, -⟩ | ⟨hUnlock, -⟩
    · rw [hOp] at hOther
      cases hOther
    · rw [hOp] at hUnlock
      cases hUnlock
  | after hLock hBody hUnlock hRest => exact hRest.elim

/-- Who keeps a mutex and has made a call has taken it. -/
theorem Stage.locked_iff (hStage : X.Stage known (some m) log p) :
    log ≠ [] ↔ ∃ e ∈ log, X.op e.1 = .lock m := by
  constructor
  · intro hLog
    cases hStage with
    | before hRest => exact (hLog rfl).elim
    | @inside _ body e p hLock hBody hRest =>
      exact ⟨e, List.mem_append_right _ (List.mem_singleton_self e), hLock⟩
    | @after _ body e u p hLock hBody hUnlock hRest =>
      exact ⟨e, List.mem_append_right _ (List.mem_singleton_self e), hLock⟩
  · rintro ⟨e, he, -⟩ rfl
    cases he

/-- Who gives a mutex back holds it. -/
theorem Stage.unlocks (hStage : X.Stage known o log (.call c k)) (hOp : X.op c = .unlock m) :
    X.Holding m log := by
  cases hStage with
  | aloof hLog hRest =>
    obtain ⟨n, hBounded⟩ := hRest
    cases n with
    | zero => exact hBounded.elim
    | succ n =>
      have hOther : X.op c = .other := hBounded.1
      rw [hOp] at hOther
      cases hOther
  | before hRest =>
    have hOwn := hRest.1
    rw [hOp] at hOwn
    cases hOwn
  | inside hLock hBody hRest =>
    rcases hRest with ⟨hOther, -⟩ | ⟨hUnlock, -⟩
    · rw [hOp] at hOther
      cases hOther
    · rw [hOp] at hUnlock
      exact (holding_inside hLock hBody).mpr (MutexOp.unlock.inj hUnlock)
  | after hLock hBody hUnlock hRest => exact hRest.elim

/-- A call of a program that keeps a mutex takes it, or gives it back at the end, or is
made in between. -/
theorem Stage.of_call (hStage : X.Stage known (some m) log (.call c k)) :
    log = [] ∧ X.op c = .lock m ∨ X.Holding m log ∧
      (X.op c = .other ∨ X.op c = .unlock m ∧ ∀ r, known c r → (k r).Ended) := by
  cases hStage with
  | before hRest => exact .inl ⟨rfl, hRest.1⟩
  | inside hLock hBody hRest =>
    exact .inr ⟨(holding_inside hLock hBody).mpr rfl, hRest.imp And.left id⟩
  | after hLock hBody hUnlock hRest => exact hRest.elim

/-- Who holds a mutex has a next call, and that takes none. -/
theorem Stage.goes_on (hStage : X.Stage known o log p) (hHolding : X.Holding m log) :
    ∃ c k, p = .call c k ∧ ∀ m', X.op c ≠ .lock m' := by
  rcases Program.Ended.or_call p with hEnded | ⟨c, k, rfl⟩
  · exact (hStage.not_holding_of_ended hEnded hHolding).elim
  · refine ⟨c, k, rfl, ?_⟩
    intro m' hOp
    rw [(hStage.locks hOp).2] at hHolding
    exact not_holding_nil hHolding

theorem holding_of_split {body newer older : List (Event R)} {e d : Event R}
    (hLock : X.op d.1 = .lock m) (hBody : ∀ e ∈ body, X.op e.1 = .other)
    (hSplit : body ++ [d] = newer ++ e :: older) (hOther : X.op e.1 = .other) :
    X.Holding m older := by
  rcases List.eq_nil_or_concat older with rfl | ⟨before, last, rfl⟩
  · obtain ⟨-, hLast⟩ := List.append_inj' hSplit rfl
    rw [← List.singleton_inj.mp hLast, hLock] at hOther
    cases hOther
  · rw [List.concat_eq_append] at hSplit ⊢
    rw [← List.cons_append, ← List.append_assoc] at hSplit
    obtain ⟨rfl, hLast⟩ := List.append_inj' hSplit rfl
    obtain rfl := List.singleton_inj.mp hLast
    apply (holding_inside hLock ?_).mpr rfl
    intro e he
    exact hBody e (List.mem_append_right _ (List.mem_cons_of_mem _ he))

/-- A program that keeps a mutex has it at each of its other calls. -/
theorem Stage.holding_at {newer older : List (Event R)} {e : Event R}
    (hStage : X.Stage known (some m) log p) (hLog : log = newer ++ e :: older)
    (hOther : X.op e.1 = .other) : X.Holding m older := by
  cases hStage with
  | before hRest =>
    rw [List.nil_eq_append_iff] at hLog
    cases hLog.2
  | inside hLock hBody hRest => exact holding_of_split hLock hBody hLog hOther
  | after hLock hBody hUnlock hRest =>
    rw [List.cons_append] at hLog
    cases newer with
    | nil =>
      obtain ⟨rfl, -⟩ := List.cons.inj hLog
      rw [hUnlock] at hOther
      cases hOther
    | cons n newer => exact holding_of_split hLock hBody (List.cons.inj hLog).2 hOther

/-! ## A pool of programs -/

variable (X) in
/-- The thread in slot `i` has `m`. -/
def Holds (P : Pool L R ε α σ) (i : Nat) (m : M) : Prop :=
  ∃ t, P.threads[i]? = some t ∧ X.Holding m t.log

variable (X known) in
/-- Each mutex that is held has one holder, and no other mutex has any. -/
structure Exclusive (mutex : L → Option M) (P : Pool L R ε α σ) : Prop where
  stage : ∀ t ∈ P.threads, X.Stage known (mutex t.label) t.log t.rest
  one : ∀ {i j m}, X.Holds P i m → X.Holds P j m → i = j
  held : ∀ m, X.held P.state m = true ↔ ∃ i, X.Holds P i m

variable {program : L → Program R ε α} {mutex : L → Option M} {bound : L → Nat}
  {starts : Pool L R ε α σ → L → Prop} {P Q : Pool L R ε α σ} {l : L} {i j : Nat}
  {t : Thread L R ε α}

theorem holds_start : X.Holds (P.start program l) i m ↔ X.Holds P i m := by
  unfold Holds Pool.start
  rcases Nat.lt_or_ge i P.threads.length with hOld | hNew
  · rw [List.getElem?_append_left hOld]
  · rw [List.getElem?_append_right hNew, List.getElem?_eq_none hNew]
    constructor
    · rintro ⟨t, hAt, hHolding⟩
      obtain rfl := List.mem_singleton.mp (List.mem_of_getElem? hAt)
      exact (not_holding_nil hHolding).elim
    · rintro ⟨t, hAt, -⟩
      cases hAt

theorem holds_advance (hAt : P.threads[i]? = some t) :
    X.Holds (P.advance h i t c k) j m ↔
      j ≠ i ∧ X.Holds P j m ∨ j = i ∧ X.Holding m (⟨c, (h c P.state).1⟩ :: t.log) := by
  unfold Holds Pool.advance
  by_cases hSame : j = i
  · subst hSame
    rw [List.getElem?_set_self (List.getElem?_eq_some_iff.mp hAt).1]
    simp
  · rw [List.getElem?_set_ne (Ne.symm hSame)]
    simp [hSame]

theorem holds_of_thread (hAt : P.threads[i]? = some t) : X.Holds P i m ↔ X.Holding m t.log := by
  simp [Holds, hAt]

namespace Exclusive

theorem empty {s : σ} (hFree : ∀ m, X.held s m = false) :
    X.Exclusive known mutex ({ state := s } : Pool L R ε α σ) where
  stage := nofun
  one := by
    rintro i j m ⟨t, hAt, -⟩
    cases hAt
  held m := by
    rw [hFree m]
    constructor
    · exact nofun
    · rintro ⟨i, t, hAt, -⟩
      cases hAt

theorem start (hExclusive : X.Exclusive known mutex P) (hKeeps : X.Keeps known (mutex l) (program l)) :
    X.Exclusive known mutex (P.start program l) where
  stage t ht := by
    rcases List.mem_append.mp ht with hOld | hNew
    · exact hExclusive.stage t hOld
    · obtain rfl := List.mem_singleton.mp hNew
      exact .start hKeeps
  one hi hj := hExclusive.one (holds_start.mp hi) (holds_start.mp hj)
  held m := by
    simp only [holds_start]
    exact hExclusive.held m

theorem stage_advance (hExclusive : X.Exclusive known mutex P) (hKnown : ∀ c s, known c (h c s).1)
    (hAt : P.threads[i]? = some t) (hRest : t.rest = .call c k) :
    ∀ u ∈ (P.advance h i t c k).threads, X.Stage known (mutex u.label) u.log u.rest := by
  intro u hu
  rcases List.mem_or_eq_of_mem_set hu with hOld | rfl
  · exact hExclusive.stage u hOld
  · have hStage := hExclusive.stage t (List.mem_of_getElem? hAt)
    rw [hRest] at hStage
    exact hStage.step (hKnown c P.state)

/-- Other calls leave the holders as they are. -/
theorem holds_other (hAt : P.threads[i]? = some t) (hOp : X.op c = .other) :
    X.Holds (P.advance h i t c k) j m ↔ X.Holds P j m := by
  rw [holds_advance hAt, holding_cons_other hOp, ← holds_of_thread hAt]
  constructor
  · rintro (⟨-, hHolds⟩ | ⟨rfl, hHolds⟩) <;> exact hHolds
  · intro hHolds
    by_cases hSame : j = i
    · exact .inr ⟨hSame, hSame ▸ hHolds⟩
    · exact .inl ⟨hSame, hHolds⟩

/-- Who takes a mutex has had none before. -/
theorem holds_lock (hExclusive : X.Exclusive known mutex P) (hAt : P.threads[i]? = some t)
    (hRest : t.rest = .call c k) (hOp : X.op c = .lock m) (m' : M) :
    X.Holds (P.advance h i t c k) j m' ↔ X.Holds P j m' ∨ j = i ∧ m' = m := by
  have hStage := hExclusive.stage t (List.mem_of_getElem? hAt)
  rw [hRest] at hStage
  have hLog := (hStage.locks hOp).2
  rw [holds_advance hAt, hLog, holding_single hOp]
  refine or_congr_left' fun _ => and_iff_right_of_imp ?_
  rintro hHolds rfl
  rw [holds_of_thread hAt, hLog] at hHolds
  exact not_holding_nil hHolds

/-- Who gives a mutex back has no other one. -/
theorem holds_unlock (hExclusive : X.Exclusive known mutex P) (hKnown : ∀ c s, known c (h c s).1)
    (hAt : P.threads[i]? = some t) (hRest : t.rest = .call c k) (hOp : X.op c = .unlock m)
    (m' : M) : X.Holds (P.advance h i t c k) j m' ↔ j ≠ i ∧ X.Holds P j m' := by
  have hStage := hExclusive.stage t (List.mem_of_getElem? hAt)
  rw [hRest] at hStage
  rw [holds_advance hAt, or_iff_left]
  rintro ⟨-, hHolding⟩
  have hOwn := hStage.eq_of_holding (hStage.unlocks hOp)
  have hSame := (hStage.step (hKnown c P.state)).eq_of_holding hHolding
  obtain rfl := Option.some.inj (hOwn.symm.trans hSame)
  exact hHolding.2 _ List.mem_cons_self hOp

theorem holds_of_unlock (hExclusive : X.Exclusive known mutex P) (hAt : P.threads[i]? = some t)
    (hRest : t.rest = .call c k) (hOp : X.op c = .unlock m) (m' : M) :
    X.Holds P i m' ↔ m' = m := by
  have hStage := hExclusive.stage t (List.mem_of_getElem? hAt)
  rw [hRest] at hStage
  have hHolding := hStage.unlocks hOp
  rw [holds_of_thread hAt]
  constructor
  · intro hOther
    exact Option.some.inj ((hStage.eq_of_holding hOther).symm.trans (hStage.eq_of_holding hHolding))
  · rintro rfl
    exact hHolding

/-- There is one holder at most after a call that may be performed. -/
theorem one_advance (hExclusive : X.Exclusive known mutex P) (hKnown : ∀ c s, known c (h c s).1)
    (hAt : P.threads[i]? = some t) (hRest : t.rest = .call c k) (hFree : X.Free P.state c)
    {j₁ j₂ : Nat} (h₁ : X.Holds (P.advance h i t c k) j₁ m)
    (h₂ : X.Holds (P.advance h i t c k) j₂ m) : j₁ = j₂ := by
  cases hOp : X.op c with
  | other =>
    rw [holds_other hAt hOp] at h₁ h₂
    exact hExclusive.one h₁ h₂
  | lock m₀ =>
    rw [hExclusive.holds_lock hAt hRest hOp] at h₁ h₂
    -- Nobody has held the mutex that is taken.
    have hNobody (j : Nat) : ¬X.Holds P j m₀ := by
      intro hHolds
      have hTaken := (hExclusive.held m₀).mpr ⟨j, hHolds⟩
      rw [hFree m₀ hOp] at hTaken
      cases hTaken
    rcases h₁ with h₁ | ⟨rfl, rfl⟩ <;> rcases h₂ with h₂ | ⟨rfl, hSame⟩
    · exact hExclusive.one h₁ h₂
    · exact (hNobody _ (hSame ▸ h₁)).elim
    · exact (hNobody _ h₂).elim
    · rfl
  | unlock m₀ =>
    rw [hExclusive.holds_unlock hKnown hAt hRest hOp] at h₁ h₂
    exact hExclusive.one h₁.2 h₂.2

/-- A mutex is held after a call exactly if a thread holds it. -/
theorem held_advance (hExclusive : X.Exclusive known mutex P) (hKnown : ∀ c s, known c (h c s).1)
    (hAt : P.threads[i]? = some t) (hRest : t.rest = .call c k) (m : M) :
    X.held (P.advance h i t c k).state m = true ↔ ∃ j, X.Holds (P.advance h i t c k) j m := by
  show X.held (h c P.state).2 m = true ↔ _
  rw [X.held_step]
  cases hOp : X.op c with
  | other =>
    simp only [holds_other hAt hOp]
    exact hExclusive.held m
  | lock m₀ =>
    simp only [hExclusive.holds_lock hAt hRest hOp, Function.update_apply]
    by_cases hSame : m = m₀
    · simp [hSame]
    · simpa [hSame] using hExclusive.held m
  | unlock m₀ =>
    have hOwn := hExclusive.holds_of_unlock hAt hRest hOp
    simp only [hExclusive.holds_unlock hKnown hAt hRest hOp, Function.update_apply]
    split
    · rename_i hSame
      subst hSame
      refine iff_of_false (fun hNone => by cases hNone) ?_
      rintro ⟨j, hOther, hHolds⟩
      exact hOther (hExclusive.one hHolds ((hOwn m).mpr rfl))
    · rename_i hOther
      rw [hExclusive.held m]
      refine exists_congr fun j => (and_iff_right_of_imp ?_).symm
      rintro hHolds rfl
      exact hOther ((hOwn m).mp hHolds)

/-- A call that may be performed keeps the mutexes with one holder each. -/
theorem advance (hExclusive : X.Exclusive known mutex P) (hKnown : ∀ c s, known c (h c s).1)
    (hAt : P.threads[i]? = some t) (hRest : t.rest = .call c k) (hFree : X.Free P.state c) :
    X.Exclusive known mutex (P.advance h i t c k) where
  stage := hExclusive.stage_advance hKnown hAt hRest
  one := hExclusive.one_advance hKnown hAt hRest hFree
  held := hExclusive.held_advance hKnown hAt hRest

/-- Unless all have ended, one of them can go on. -/
theorem next (hExclusive : X.Exclusive known mutex P) :
    (∀ t ∈ P.threads, t.rest.Ended) ∨
      ∃ (i : Nat) (t : Thread L R ε α) (c : C) (k : R c → Program R ε α),
        P.threads[i]? = some t ∧ t.rest = .call c k ∧ X.Free P.state c := by
  by_cases hAll : ∀ t ∈ P.threads, t.rest.Ended
  · exact .inl hAll
  right
  simp only [not_forall] at hAll
  obtain ⟨t, ht, hGoes⟩ := hAll
  obtain ⟨i, hAt⟩ := List.mem_iff_getElem?.mp ht
  obtain ⟨c, k, hRest⟩ := (Program.Ended.or_call t.rest).resolve_left hGoes
  by_cases hFree : X.Free P.state c
  · exact ⟨i, t, c, k, hAt, hRest, hFree⟩
  -- It waits for a mutex, and the one who holds that does not wait.
  simp only [Free, not_forall] at hFree
  obtain ⟨m, -, hTaken⟩ := hFree
  obtain ⟨j, u, hAt', hHolding⟩ := (hExclusive.held m).mp (by simpa using hTaken)
  have hStage := hExclusive.stage u (List.mem_of_getElem? hAt')
  obtain ⟨c', k', hRest', hOther⟩ := hStage.goes_on hHolding
  exact ⟨j, u, c', k', hAt', hRest', fun m' hOp => (hOther m' hOp).elim⟩

/-- When all have ended, all mutexes have been given back. -/
theorem released (hExclusive : X.Exclusive known mutex P) (hEnded : ∀ t ∈ P.threads, t.rest.Ended)
    (m : M) : X.held P.state m = false := by
  rw [← Bool.not_eq_true, hExclusive.held m]
  rintro ⟨i, t, hAt, hHolding⟩
  have ht := List.mem_of_getElem? hAt
  exact (hExclusive.stage t ht).not_holding_of_ended (hEnded t ht) hHolding

end Exclusive

end Mutexes

/-! ## Getting to the end -/

namespace Pool

variable {C σ L ε α : Type} {R : C → Type} {h : Interp R σ} {known : (c : C) → R c → Prop}
  {bound : L → Nat} {program : L → Program R ε α} {P : Pool L R ε α σ} {i : Nat}
  {t : Thread L R ε α} {c : C} {k : R c → Program R ε α} {l : L}

/-- No program makes more calls than its bound allows. -/
def WithinBounds (known : (c : C) → R c → Prop) (bound : L → Nat) (P : Pool L R ε α σ) : Prop :=
  ∀ t ∈ P.threads, ∃ n, t.log.length + n ≤ bound t.label ∧ t.rest.Bounded known (fun _ => True) n

theorem WithinBounds.start (hBounds : P.WithinBounds known bound)
    (hProgram : (program l).Bounded known (fun _ => True) (bound l)) :
    (P.start program l).WithinBounds known bound := by
  intro t ht
  rcases List.mem_append.mp ht with hOld | hNew
  · exact hBounds t hOld
  · obtain rfl := List.mem_singleton.mp hNew
    exact ⟨bound l, by simp, hProgram⟩

theorem WithinBounds.advance (hBounds : P.WithinBounds known bound)
    (hKnown : ∀ c s, known c (h c s).1) (hAt : P.threads[i]? = some t)
    (hRest : t.rest = .call c k) : (P.advance h i t c k).WithinBounds known bound := by
  intro u hu
  rcases List.mem_or_eq_of_mem_set hu with hOld | rfl
  · exact hBounds u hOld
  · obtain ⟨n, hLe, hBounded⟩ := hBounds t (List.mem_of_getElem? hAt)
    rw [hRest] at hBounded
    cases n with
    | zero => exact hBounded.elim
    | succ n =>
      refine ⟨n, ?_, hBounded.2 _ (hKnown c P.state)⟩
      simp only [List.length_cons]
      omega

/-- The calls that the bounds leave. -/
def spare (bound : L → Nat) (P : Pool L R ε α σ) : Nat :=
  P.threads.foldr (fun t n => bound t.label - t.log.length + n) 0

/-- The total changes by the element that is replaced. -/
theorem total_set {A : Type} (f : A → Nat) (l : List A) {i : Nat} {a b : A} (hAt : l[i]? = some a) :
    (l.set i b).foldr (fun x n => f x + n) 0 + f a = l.foldr (fun x n => f x + n) 0 + f b := by
  induction l generalizing i with
  | nil => cases hAt
  | cons x l ih =>
    cases i with
    | zero =>
      obtain rfl := Option.some.inj hAt
      simp only [List.set_cons_zero, List.foldr_cons]
      omega
    | succ i =>
      have hRest := ih (show l[i]? = some a from hAt)
      simp only [List.set_cons_succ, List.foldr_cons]
      omega

theorem spare_advance (hBounds : P.WithinBounds known bound) (hAt : P.threads[i]? = some t)
    (hRest : t.rest = .call c k) : (P.advance h i t c k).spare bound < P.spare bound := by
  obtain ⟨n, hLe, hBounded⟩ := hBounds t (List.mem_of_getElem? hAt)
  rw [hRest] at hBounded
  cases n with
  | zero => exact hBounded.elim
  | succ n =>
    have hSum := total_set (fun t : Thread L R ε α => bound t.label - t.log.length) P.threads hAt
      (b := { t with rest := k (h c P.state).1, log := ⟨c, (h c P.state).1⟩ :: t.log })
    unfold spare Pool.advance
    simp only [List.length_cons] at hSum ⊢
    omega

/-- If one program can always go on until all have ended, all can be brought to their end
without any new one. -/
theorem completes {I : Pool L R ε α σ → Prop} {enabled : Pool L R ε α σ → Nat → C → Prop}
    (program : L → Program R ε α) (hI : I P) (hBounds : P.WithinBounds known bound)
    (hKnown : ∀ c s, known c (h c s).1)
    (hNext : ∀ P, I P → (∀ t ∈ P.threads, t.rest.Ended) ∨
      ∃ (i : Nat) (t : Thread L R ε α) (c : C) (k : R c → Program R ε α),
        P.threads[i]? = some t ∧ t.rest = .call c k ∧ enabled P i c)
    (hCall : ∀ P i t c k, I P → P.threads[i]? = some t → t.rest = .call c k → enabled P i c →
      I (P.advance h i t c k)) :
    ∃ Q, Steps h program (fun _ _ => False) enabled P Q ∧ I Q ∧ (∀ t ∈ Q.threads, t.rest.Ended) ∧
      Q.threads.map Thread.label = P.threads.map Thread.label := by
  induction hSpare : P.spare bound using Nat.strongRecOn generalizing P with
  | ind n ih =>
    rcases hNext P hI with hEnded | ⟨i, t, c, k, hAt, hRest, hEnabled⟩
    · exact ⟨P, .refl, hI, hEnded, rfl⟩
    · have hLess := spare_advance (h := h) hBounds hAt hRest
      rw [hSpare] at hLess
      obtain ⟨Q, hSteps, hEnd⟩ := ih _ hLess (hCall P i t c k hI hAt hRest hEnabled)
        (hBounds.advance hKnown hAt hRest) rfl
      rw [labels_advance hAt] at hEnd
      exact ⟨Q, .head (.call i t c k hAt hRest hEnabled) hSteps, hEnd⟩

end Pool

end Process
