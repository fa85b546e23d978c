import PadlockCloud.Process.Interleaving
import PadlockCloud.Process.Mutex
import PadlockCloud.Process.Run

/-!
# Serial order

A *region* is a part of the state, with the calls that work inside of it and the calls
that leave it as it is. Where the programs that keep a mutex work inside of its region
and all others leave it as it is, the region looks at any time as if those programs had
been run one after the other, in the order in which they took the mutex
(`Region.Served.steps`).

A program may also turn away from its region at some point. What it does to the region
is the same in a serial run then, but its result can be another one.
-/

namespace Process

/-- A part of the state: what can be seen of it, the states in which the responses are
known, the calls that work inside of the part, and those that leave it as it is. -/
structure Region {C σ : Type} {R : C → Type} (h : Interp R σ) (V : Type) where
  view : σ → V
  good : σ → Prop
  known : (c : C) → R c → Prop
  inside : C → Prop
  outside : C → Prop
  known_step : ∀ {c s}, good s → known c (h c s).1
  good_inside : ∀ {c s}, good s → inside c → good (h c s).2
  good_outside : ∀ {c s}, good s → outside c → good (h c s).2
  response_inside : ∀ {c s t}, good s → good t → view s = view t → inside c → (h c s).1 = (h c t).1
  view_inside : ∀ {c s t}, good s → good t → view s = view t → inside c →
    view (h c s).2 = view (h c t).2
  view_outside : ∀ {c s}, outside c → view (h c s).2 = view s

namespace Region

variable {C σ V L M ε α β : Type} {R : C → Type} {h : Interp R σ} (G : Region h V)

/-! ## Two runs of one program -/

/-- Two good states that look the same. -/
structure Same (s t : σ) : Prop where
  left : G.good s
  right : G.good t
  view : G.view s = G.view t

/-- All calls leave the region as it is. -/
abbrev Leaves (p : Program R ε α) : Prop := p.Stays G.known G.outside fun _ => True

/-- All calls work inside of the region, up to a point from which on a program that is
`loose` leaves it as it is. -/
def Attends (loose : Prop) : Program R ε α → Prop
  | .pure _ | .fail _ => True
  | .call c k =>
    G.inside c ∧ (∀ r, G.known c r → Attends loose (k r)) ∨ loose ∧ G.Leaves (.call c k)

/-- What is left of a program in two runs of it. -/
inductive Beside (loose : Prop) (p p' : Program R ε α) : Prop where
  | along (hSame : p' = p) (hAttends : G.Attends loose p)
  | apart (hLoose : loose) (hLeaves : G.Leaves p) (hLeaves' : G.Leaves p')

variable {G} {loose : Prop} {p p' : Program R ε α} {c : C} {k : R c → Program R ε α} {s t : σ}

theorem Same.refl (hGood : G.good s) : G.Same s s := ⟨hGood, hGood, rfl⟩

theorem Same.outside (hSame : G.Same s t) (hOutside : G.outside c) : G.Same (h c s).2 t :=
  ⟨G.good_outside hSame.left hOutside, hSame.right, (G.view_outside hOutside).trans hSame.view⟩

theorem Same.inside (hSame : G.Same s t) (hInside : G.inside c) :
    (h c s).1 = (h c t).1 ∧ G.Same (h c s).2 (h c t).2 :=
  ⟨G.response_inside hSame.left hSame.right hSame.view hInside,
    G.good_inside hSame.left hInside, G.good_inside hSame.right hInside,
    G.view_inside hSame.left hSame.right hSame.view hInside⟩

/-- A run that leaves the region as it is. -/
theorem Same.run (hSame : G.Same s t) (hLeaves : G.Leaves p) : G.Same s (p.run h t).2 := by
  induction p generalizing t with
  | pure a => exact hSame
  | fail e => exact hSame
  | call c k ih =>
    have hNext : G.Same s (h c t).2 :=
      ⟨hSame.left, G.good_outside hSame.right hLeaves.1,
        hSame.view.trans (G.view_outside hLeaves.1).symm⟩
    exact ih _ hNext (hLeaves.2 _ (G.known_step hSame.right))

/-- The other run follows a call, or waits if the program has turned away. -/
theorem Beside.step (hBeside : G.Beside loose (.call c k) p') (hSame : G.Same s t) :
    ∃ q u, p'.run h t = q.run h u ∧ G.Same (h c s).2 u ∧ G.Beside loose (k (h c s).1) q := by
  have hKnown := G.known_step (c := c) hSame.left
  cases hBeside with
  | along hEq hAttends =>
    subst hEq
    rcases hAttends with ⟨hInside, hRest⟩ | ⟨hLoose, hLeaves⟩
    · obtain ⟨hResponse, hNext⟩ := hSame.inside hInside
      refine ⟨k (h c s).1, (h c t).2, ?_, hNext, .along rfl (hRest _ hKnown)⟩
      rw [Program.run_call, hResponse]
    · exact ⟨_, t, rfl, hSame.outside hLeaves.1, .apart hLoose (hLeaves.2 _ hKnown) hLeaves⟩
  | apart hLoose hLeaves hLeaves' =>
    exact ⟨p', t, rfl, hSame.outside hLeaves.1, .apart hLoose (hLeaves.2 _ hKnown) hLeaves'⟩

/-- Where one run has ended, the other one can be brought to its end. -/
theorem Beside.finish (hBeside : G.Beside loose p p') (hEnded : p.Ended) (hSame : G.Same s t) :
    G.Same s (p'.run h t).2 ∧ (¬loose → p.result = some (p'.run h t).1) := by
  cases hBeside with
  | along hEq hAttends =>
    subst hEq
    cases p' with
    | pure a => exact ⟨hSame, fun _ => rfl⟩
    | fail e => exact ⟨hSame, fun _ => rfl⟩
    | call c k => exact (Program.Ended.not_call hEnded).elim
  | apart hLoose hLeaves hLeaves' => exact ⟨hSame.run hLeaves', fun hNot => (hNot hLoose).elim⟩

/-! ## Programs that attend to the region -/

namespace Attends

theorem leaves (hLoose : loose) (hLeaves : G.Leaves p) : G.Attends loose p := by
  cases p with
  | pure a => trivial
  | fail e => trivial
  | call c k => exact .inr ⟨hLoose, hLeaves⟩

theorem stays {post : α → Prop} (hStays : p.Stays G.known G.inside post) : G.Attends loose p := by
  induction p with
  | pure a => trivial
  | fail e => trivial
  | call c k ih => exact .inl ⟨hStays.1, fun r hr => ih r (hStays.2 r hr)⟩

/-- A sequence may turn away from the region in its second part. -/
theorem bind {post : α → Prop} {f : α → Program R ε β} (hFirst : p.Stays G.known G.inside post)
    (hSecond : ∀ a, post a → G.Attends loose (f a)) : G.Attends loose (p.bind f) := by
  induction p with
  | pure a => exact hSecond a hFirst
  | fail e => trivial
  | call c k ih => exact .inl ⟨hFirst.1, fun r hr => ih r (hFirst.2 r hr)⟩

theorem bind_ended {f : α → Program R ε β} (hFirst : G.Attends loose p)
    (hSecond : ∀ a, (f a).Ended) : G.Attends loose (p.bind f) := by
  induction p with
  | pure a =>
    have hEnded := hSecond a
    rw [Program.pure_bind]
    cases hRest : f a with
    | pure b => trivial
    | fail e => trivial
    | call c k => rw [hRest] at hEnded; exact hEnded.elim
  | fail e => trivial
  | call c k ih =>
    refine hFirst.imp (fun hInside => ⟨hInside.1, fun r hr => ih r (hInside.2 r hr)⟩) ?_
    rintro ⟨hLoose, hLeaves⟩
    exact ⟨hLoose, Program.Stays.bind hLeaves fun a _ => Program.Ended.stays (hSecond a)⟩

theorem attempt (escapes : ε → Bool) (hAttends : G.Attends loose p) :
    G.Attends loose (p.attempt escapes) := by
  induction p with
  | pure a => trivial
  | fail e =>
    rw [Program.attempt]
    split <;> trivial
  | call c k ih =>
    refine hAttends.imp (fun hInside => ⟨hInside.1, fun r hr => ih r (hInside.2 r hr)⟩) ?_
    rintro ⟨hLoose, hLeaves⟩
    exact ⟨hLoose, (Program.Stays.attempt escapes hLeaves).mono fun _ _ => trivial⟩

/-- A clean-up that works inside of the region and also leaves it as it is. -/
theorem ensure {cleanup : Program R ε Unit} (hAttends : G.Attends loose p)
    (hInside : cleanup.Stays G.known G.inside fun _ => True) (hOutside : G.Leaves cleanup) :
    G.Attends loose (p.ensure cleanup) := by
  induction p with
  | pure a => exact .bind hInside fun _ _ => trivial
  | fail e => exact .bind hInside fun _ _ => trivial
  | call c k ih =>
    refine hAttends.imp (fun hInside => ⟨hInside.1, fun r hr => ih r (hInside.2 r hr)⟩) ?_
    rintro ⟨hLoose, hLeaves⟩
    exact ⟨hLoose, Program.Stays.ensure hLeaves hOutside⟩

end Attends

/-! ## Pools -/

/-- The state after the programs of some threads, one after the other, the latest one
first. -/
def serial (h : Interp R σ) (program : L → Program R ε α) (s : σ)
    (order : List (Nat × Thread L R ε α)) : σ :=
  Run.after (fun l s => ((program l).run h s).2) s (order.map fun e => e.2.label)

variable [DecidableEq M] (X : Mutexes h M) (G) (m : M) (program : L → Program R ε α)
  (mutex : L → Option M) (loose : L → Prop) (heard : (c : C) → R c → Prop) (first : σ)

/-- The threads of a region in a pool: those that have given the mutex back, in the order
in which they have taken it, and the one that has it. -/
structure Served (P : Pool L R ε α σ) (order : List (Nat × Thread L R ε α)) : Prop where
  good : G.good P.state
  others : ∀ t ∈ P.threads, mutex t.label ≠ some m → t.rest.Stays heard G.outside fun _ => True
  own : ∀ t ∈ P.threads, mutex t.label = some m →
    G.Attends (loose t.label) (program t.label) ∧ (t.log = [] → t.rest = program t.label)
  once : (order.map Prod.fst).Nodup
  mem : ∀ {i : Nat} {t : Thread L R ε α}, (i, t) ∈ order ↔
    P.threads[i]? = some t ∧ mutex t.label = some m ∧ t.log ≠ [] ∧ ¬X.Holding m t.log
  results : ∀ {newer older : List (Nat × Thread L R ε α)} {i : Nat} {t : Thread L R ε α},
    order = newer ++ (i, t) :: older → ¬loose t.label →
    t.rest.result = some ((program t.label).run h (serial h program first older)).1
  /-- The one that has the mutex is under way in a serial run. -/
  busy : ∀ {i : Nat} {t : Thread L R ε α}, P.threads[i]? = some t → X.Holding m t.log →
    ∃ p s, (program t.label).run h (serial h program first order) = p.run h s ∧
      G.Same P.state s ∧ G.Beside (loose t.label) t.rest p
  idle : X.held P.state m = false → G.Same P.state (serial h program first order)

variable {X G m program mutex loose heard first} {known : (c : C) → R c → Prop}
  {P Q : Pool L R ε α σ} {order : List (Nat × Thread L R ε α)} {l : L} {i : Nat}
  {t : Thread L R ε α}

namespace Served

theorem empty (hGood : G.good first) :
    G.Served X m program mutex loose heard first { state := first } [] where
  good := hGood
  others := nofun
  own := nofun
  once := .nil
  mem := by
    intro i t
    constructor
    · exact nofun
    · rintro ⟨hAt, -⟩
      cases hAt
  results hOrder := by
    cases (List.nil_eq_append_iff.mp hOrder).2
  busy hAt := by cases hAt
  idle _ := .refl hGood

theorem start (hServed : G.Served X m program mutex loose heard first P order)
    (hOwn : mutex l = some m → G.Attends (loose l) (program l))
    (hOther : mutex l ≠ some m → (program l).Stays heard G.outside fun _ => True) :
    G.Served X m program mutex loose heard first (P.start program l) order where
  good := hServed.good
  others t ht := by
    rcases List.mem_append.mp ht with hOld | hNew
    · exact hServed.others t hOld
    · rw [List.mem_singleton.mp hNew]
      exact hOther
  own t ht := by
    rcases List.mem_append.mp ht with hOld | hNew
    · exact hServed.own t hOld
    · rw [List.mem_singleton.mp hNew]
      exact fun hMutex => ⟨hOwn hMutex, fun _ => rfl⟩
  once := hServed.once
  mem := by
    intro i t
    rw [hServed.mem]
    constructor
    · rintro ⟨hAt, hRest⟩
      refine ⟨?_, hRest⟩
      rw [Pool.start, List.getElem?_append_left (List.getElem?_eq_some_iff.mp hAt).1]
      exact hAt
    · rintro ⟨hAt, hMutex, hLog, hHolding⟩
      refine ⟨?_, hMutex, hLog, hHolding⟩
      exact (Pool.at_start hAt).resolve_right fun hNew => hLog (hNew ▸ rfl)
  results := hServed.results
  busy hAt hHolding := by
    rcases Pool.at_start hAt with hOld | rfl
    · exact hServed.busy hOld hHolding
    · exact (Mutexes.not_holding_nil hHolding).elim
  idle := hServed.idle

/-- Who is about to make a call in the region is under way in a serial run. -/
theorem underway (hServed : G.Served X m program mutex loose heard first P order)
    (hStage : X.Stage known (some m) t.log t.rest) (hMutex : mutex t.label = some m)
    (hAt : P.threads[i]? = some t) (hRest : t.rest = .call c k) (hFree : X.Free P.state c) :
    ∃ p s, (program t.label).run h (serial h program first order) = p.run h s ∧
      G.Same P.state s ∧ G.Beside (loose t.label) t.rest p := by
  rw [hRest] at hStage
  rcases hStage.of_call with ⟨hLog, hOp⟩ | ⟨hHolding, -⟩
  · obtain ⟨hAttends, hFresh⟩ := hServed.own t (List.mem_of_getElem? hAt) hMutex
    have hProgram := hFresh hLog
    exact ⟨_, _, rfl, hServed.idle (hFree m hOp), .along hProgram.symm (hProgram ▸ hAttends)⟩
  · exact hServed.busy hAt hHolding

/-- A call from outside of the region. -/
theorem advance_other (hServed : G.Served X m program mutex loose heard first P order)
    (hStage : X.Stage known (mutex t.label) t.log t.rest) (hMutex : mutex t.label ≠ some m)
    (hAt : P.threads[i]? = some t) (hRest : t.rest = .call c k)
    (hKnown : known c (h c P.state).1) (hHeard : heard c (h c P.state).1) :
    G.Served X m program mutex loose heard first (P.advance h i t c k) order := by
  obtain ⟨hOutside, hNext⟩ : G.outside c ∧
      ∀ r, heard c r → (k r).Stays heard G.outside fun _ => True := by
    have hStays := hServed.others t (List.mem_of_getElem? hAt) hMutex
    rwa [hRest] at hStays
  rw [hRest] at hStage
  have hHeld : X.held (h c P.state).2 m = X.held P.state m := by
    rw [X.held_step]
    cases hOp : X.op c with
    | lock m' =>
      apply Function.update_of_ne
      rintro rfl
      exact hMutex (hStage.locks hOp).1
    | unlock m' =>
      apply Function.update_of_ne
      rintro rfl
      exact hMutex (hStage.eq_of_holding (hStage.unlocks hOp))
    | other => rfl
  refine ⟨G.good_outside hServed.good hOutside, fun u hu hOther => ?_, fun u hu hOwn => ?_,
    hServed.once, ?_, hServed.results, fun {j u} hAt' hHolding => ?_, fun hFree => ?_⟩
  · rcases List.mem_or_eq_of_mem_set hu with hOld | rfl
    · exact hServed.others u hOld hOther
    · exact hNext _ hHeard
  · rcases List.mem_or_eq_of_mem_set hu with hOld | rfl
    · exact hServed.own u hOld hOwn
    · exact (hMutex hOwn).elim
  · intro j u
    rw [hServed.mem, Pool.at_advance hAt]
    constructor
    · rintro ⟨hAt', hOwn, hRest'⟩
      refine ⟨.inl ⟨?_, hAt'⟩, hOwn, hRest'⟩
      rintro rfl
      obtain rfl := Option.some.inj (hAt.symm.trans hAt')
      exact hMutex hOwn
    · rintro ⟨⟨-, hAt'⟩ | ⟨-, rfl⟩, hOwn, hRest'⟩
      · exact ⟨hAt', hOwn, hRest'⟩
      · exact (hMutex hOwn).elim
  · rcases (Pool.at_advance hAt).mp hAt' with ⟨-, hOld⟩ | ⟨rfl, rfl⟩
    · obtain ⟨p, s, hRun, hSame, hBeside⟩ := hServed.busy hOld hHolding
      exact ⟨p, s, hRun, hSame.outside hOutside, hBeside⟩
    · have hKeeps := (hStage.step hKnown).eq_of_holding hHolding
      exact (hMutex hKeeps).elim
  · rw [Pool.advance, hHeld] at hFree
    exact (hServed.idle hFree).outside hOutside

/-- The threads that do not make a call are as they were. -/
theorem others_advance (hServed : G.Served X m program mutex loose heard first P order)
    (hMutex : mutex t.label = some m) :
    ∀ u ∈ (P.advance h i t c k).threads, mutex u.label ≠ some m →
      u.rest.Stays heard G.outside fun _ => True := by
  intro u hu hOther
  rcases List.mem_or_eq_of_mem_set hu with hOld | rfl
  · exact hServed.others u hOld hOther
  · exact (hOther hMutex).elim

theorem own_advance (hServed : G.Served X m program mutex loose heard first P order)
    (hAt : P.threads[i]? = some t) :
    ∀ u ∈ (P.advance h i t c k).threads, mutex u.label = some m →
      G.Attends (loose u.label) (program u.label) ∧ (u.log = [] → u.rest = program u.label) := by
  intro u hu hOwn
  rcases List.mem_or_eq_of_mem_set hu with hOld | rfl
  · exact hServed.own u hOld hOwn
  · exact ⟨(hServed.own t (List.mem_of_getElem? hAt) hOwn).1, fun hLog => by cases hLog⟩

/-- The program in slot `i` has not been served yet. -/
theorem not_mem (hServed : G.Served X m program mutex loose heard first P order)
    (hAt : P.threads[i]? = some t) (hWaits : t.log = [] ∨ X.Holding m t.log) :
    i ∉ order.map Prod.fst := by
  intro hMem
  obtain ⟨⟨j, u⟩, hu, rfl⟩ := List.mem_map.mp hMem
  obtain ⟨hAt', -, hLog, hHolding⟩ := hServed.mem.mp hu
  obtain rfl := Option.some.inj (hAt.symm.trans hAt')
  exact hWaits.elim hLog hHolding

/-- A call after which the mutex is kept. -/
theorem advance_busy (hServed : G.Served X m program mutex loose heard first P order)
    (hExclusive : X.Exclusive known mutex (P.advance h i t c k))
    (hMutex : mutex t.label = some m) (hAt : P.threads[i]? = some t)
    (hWaits : t.log = [] ∨ X.Holding m t.log)
    (hHolding : X.Holding m (⟨c, (h c P.state).1⟩ :: t.log))
    (hNext : ∃ p s, (program t.label).run h (serial h program first order) = p.run h s ∧
      G.Same (h c P.state).2 s ∧ G.Beside (loose t.label) (k (h c P.state).1) p) :
    G.Served X m program mutex loose heard first (P.advance h i t c k) order := by
  have hOut := hServed.not_mem hAt hWaits
  have hHolds : X.Holds (P.advance h i t c k) i m :=
    ⟨_, (Pool.at_advance hAt).mpr (.inr ⟨rfl, rfl⟩), hHolding⟩
  refine ⟨?_, hServed.others_advance hMutex, hServed.own_advance hAt, hServed.once, ?_,
    hServed.results, fun {j u} hAt' hHolding' => ?_, fun hFree => ?_⟩
  · obtain ⟨p, s, -, hSame, -⟩ := hNext
    exact hSame.left
  · intro j u
    rw [Pool.at_advance hAt]
    constructor
    · intro hMem
      obtain ⟨hAt', hRest⟩ := hServed.mem.mp hMem
      refine ⟨.inl ⟨?_, hAt'⟩, hRest⟩
      rintro rfl
      exact hOut (List.mem_map_of_mem hMem)
    · rintro ⟨⟨-, hAt'⟩ | ⟨-, rfl⟩, hOwn, hLog, hNot⟩
      · exact hServed.mem.mpr ⟨hAt', hOwn, hLog, hNot⟩
      · exact (hNot hHolding).elim
  · obtain rfl := hExclusive.one ⟨u, hAt', hHolding'⟩ hHolds
    rcases (Pool.at_advance hAt).mp hAt' with ⟨hOther, -⟩ | ⟨-, rfl⟩
    · exact (hOther rfl).elim
    · exact hNext
  · rw [(hExclusive.held m).mpr ⟨i, hHolds⟩] at hFree
    cases hFree

/-- The call that gives the mutex back. -/
theorem advance_last (hServed : G.Served X m program mutex loose heard first P order)
    (hExclusive : X.Exclusive known mutex P) (hMutex : mutex t.label = some m)
    (hAt : P.threads[i]? = some t) (hHolding : X.Holding m t.log) (hOp : X.op c = .unlock m)
    (hEnded : (k (h c P.state).1).Ended)
    (hNext : ∃ p s, (program t.label).run h (serial h program first order) = p.run h s ∧
      G.Same (h c P.state).2 s ∧ G.Beside (loose t.label) (k (h c P.state).1) p) :
    G.Served X m program mutex loose heard first (P.advance h i t c k)
      ((i, { t with rest := k (h c P.state).1, log := ⟨c, (h c P.state).1⟩ :: t.log }) ::
        order) := by
  have hOut := hServed.not_mem hAt (.inr hHolding)
  have hNot : ¬X.Holding m (⟨c, (h c P.state).1⟩ :: t.log) := fun hStill =>
    hStill.2 _ (List.mem_cons_self ..) hOp
  obtain ⟨p, s, hRun, hSame, hBeside⟩ := hNext
  obtain ⟨hEnd, hResult⟩ := hBeside.finish hEnded hSame
  rw [← hRun] at hEnd hResult
  refine ⟨hSame.left, hServed.others_advance hMutex, hServed.own_advance hAt,
    List.nodup_cons.mpr ⟨hOut, hServed.once⟩, ?_, ?_, fun {j u} hAt' hHolding' => ?_,
    fun _ => hEnd⟩
  · intro j u
    rw [Pool.at_advance hAt, List.mem_cons]
    constructor
    · rintro (hFirst | hMem)
      · obtain ⟨rfl, rfl⟩ := Prod.mk.inj hFirst
        exact ⟨.inr ⟨rfl, rfl⟩, hMutex, List.cons_ne_nil _ _, hNot⟩
      · obtain ⟨hAt', hRest⟩ := hServed.mem.mp hMem
        refine ⟨.inl ⟨?_, hAt'⟩, hRest⟩
        rintro rfl
        exact hOut (List.mem_map_of_mem hMem)
    · rintro ⟨⟨-, hAt'⟩ | ⟨rfl, rfl⟩, hOwn, hLog, hNot⟩
      · exact .inr (hServed.mem.mpr ⟨hAt', hOwn, hLog, hNot⟩)
      · exact .inl rfl
  · intro newer older j u hOrder hTight
    cases newer with
    | nil =>
      obtain ⟨hFirst, rfl⟩ := List.cons.inj hOrder
      obtain ⟨rfl, rfl⟩ := Prod.mk.inj hFirst
      exact hResult hTight
    | cons e newer => exact hServed.results (List.cons.inj hOrder).2 hTight
  · rcases (Pool.at_advance hAt).mp hAt' with ⟨hOther, hOld⟩ | ⟨-, rfl⟩
    · exact (hOther (hExclusive.one ⟨u, hOld, hHolding'⟩ ⟨t, hAt, hHolding⟩)).elim
    · exact (hNot hHolding').elim

/-- A call of any thread. -/
theorem advance (hServed : G.Served X m program mutex loose heard first P order)
    (hExclusive : X.Exclusive known mutex P) (hKnown : ∀ c s, known c (h c s).1)
    (hAt : P.threads[i]? = some t) (hRest : t.rest = .call c k) (hFree : X.Free P.state c)
    (hHeard : heard c (h c P.state).1) :
    ∃ order', G.Served X m program mutex loose heard first (P.advance h i t c k) order' ∧
      order <:+ order' := by
  have hStage := hExclusive.stage t (List.mem_of_getElem? hAt)
  by_cases hMutex : mutex t.label = some m
  · have hNext : ∃ p s, (program t.label).run h (serial h program first order) = p.run h s ∧
        G.Same (h c P.state).2 s ∧ G.Beside (loose t.label) (k (h c P.state).1) p := by
      rw [hMutex] at hStage
      obtain ⟨p, s, hRun, hSame, hBeside⟩ :=
        hServed.underway hStage hMutex hAt hRest hFree
      rw [hRest] at hBeside
      obtain ⟨q, u, hStep, hSame, hBeside⟩ := hBeside.step hSame
      exact ⟨q, u, hRun.trans hStep, hSame, hBeside⟩
    have hExclusive' := hExclusive.advance hKnown hAt hRest hFree
    rw [hMutex, hRest] at hStage
    rcases hStage.of_call with ⟨hLog, hOp⟩ | ⟨hHolding, hOp | ⟨hOp, hEnded⟩⟩
    · have hTaken : X.Holding m (⟨c, (h c P.state).1⟩ :: t.log) := by
        rw [hLog]
        exact (Mutexes.holding_single hOp).mpr rfl
      exact ⟨order, hServed.advance_busy hExclusive' hMutex hAt (.inl hLog) hTaken hNext,
        List.suffix_refl order⟩
    · have hStill : X.Holding m (⟨c, (h c P.state).1⟩ :: t.log) :=
        (Mutexes.holding_cons_other hOp).mpr hHolding
      exact ⟨order, hServed.advance_busy hExclusive' hMutex hAt (.inr hHolding) hStill hNext,
        List.suffix_refl order⟩
    · exact ⟨_, hServed.advance_last hExclusive hMutex hAt hHolding hOp (hEnded _ (hKnown c _)) hNext,
        List.suffix_cons _ order⟩
  · exact ⟨order, hServed.advance_other hStage hMutex hAt hRest (hKnown c _) hHeard,
      List.suffix_refl order⟩

variable {starts : Pool L R ε α σ → L → Prop} {enabled : Pool L R ε α σ → Nat → C → Prop}

/-- From one pool to a later one the order only grows at its end. -/
theorem steps (hServed : G.Served X m program mutex loose heard first P order)
    (hExclusive : X.Exclusive known mutex P) (hKnown : ∀ c s, known c (h c s).1)
    (hKeeps : ∀ l, X.Keeps known (mutex l) (program l))
    (hStarts : ∀ P l, starts P l → mutex l = some m → G.Attends (loose l) (program l))
    (hLeaves : ∀ l, mutex l ≠ some m → (program l).Stays heard G.outside fun _ => True)
    (hEnabled : ∀ P i c, G.good P.state → enabled P i c →
      X.Free P.state c ∧ heard c (h c P.state).1)
    (hSteps : Pool.Steps h program starts enabled P Q) :
    ∃ order', G.Served X m program mutex loose heard first Q order' ∧ order <:+ order' := by
  have hBoth : X.Exclusive known mutex Q ∧
      ∃ order', G.Served X m program mutex loose heard first Q order' ∧ order <:+ order' := by
    refine Pool.invariant (I := fun Q => X.Exclusive known mutex Q ∧ ∃ order',
      G.Served X m program mutex loose heard first Q order' ∧ order <:+ order') hSteps
      ⟨hExclusive, order, hServed, List.suffix_refl order⟩ ?_ ?_
    · rintro P l ⟨hExclusive, order', hServed, hSuffix⟩ hMay
      exact ⟨hExclusive.start (hKeeps l), order', hServed.start (hStarts P l hMay) (hLeaves l),
        hSuffix⟩
    · rintro P i t c k ⟨hExclusive, order', hServed, hSuffix⟩ hAt hRest hMay
      obtain ⟨hFree, hHeard⟩ := hEnabled P i c hServed.good hMay
      obtain ⟨order'', hServed', hSuffix'⟩ :=
        hServed.advance hExclusive hKnown hAt hRest hFree hHeard
      exact ⟨hExclusive.advance hKnown hAt hRest hFree, order'', hServed',
        hSuffix.trans hSuffix'⟩
  exact hBoth.2

end Served

end Region

end Process
