import PadlockCloud.Process.Pool

/-!
# Twin runs

Two programs are alike when they make alike calls as long as the responses are alike, and
end alike. A pool of programs can then be replayed with their twins (`Pool.replay`), so
what differs between alike calls does not show in what the programs come to.
-/

namespace Process

variable {L C ε α β α' β' σ : Type} {R : C → Type}

/-- When two calls are alike, and when their responses are. -/
structure Likeness (R : C → Type) where
  call : C → C → Prop
  response : (c c' : C) → R c → R c' → Prop

/-- The call is like itself, and its responses are alike only if they are the same and as
known. -/
structure Likeness.Plain (K : Likeness R) (known : (c : C) → R c → Prop) (c : C) : Prop where
  call : K.call c c
  eq_of_response : ∀ {r r'}, K.response c c r r' → r = r'
  known_of_response : ∀ {r r'}, K.response c c r r' → known c r

namespace Program

/-- The programs make alike calls, and their results are as `post` says. -/
inductive Like (K : Likeness R) (post : α → β → Prop) : Program R ε α → Program R ε β → Prop where
  | pure {a : α} {b : β} (hPost : post a b) : Like K post (.pure a) (.pure b)
  | fail (e : ε) : Like K post (.fail e) (.fail e)
  | call {c c' : C} {k : R c → Program R ε α} {k' : R c' → Program R ε β} (hCall : K.call c c')
      (hRest : ∀ r r', K.response c c' r r' → Like K post (k r) (k' r')) :
      Like K post (.call c k) (.call c' k')

namespace Like

variable {K : Likeness R} {post : α → β → Prop} {post' : α' → β' → Prop}
  {p : Program R ε α} {q : Program R ε β}

/-- A program that stays among plain calls is like itself. -/
theorem of_stays {known : (c : C) → R c → Prop} {allowed : C → Prop} {post : α → Prop}
    (hStays : p.Stays known allowed post) (hPlain : ∀ c, allowed c → K.Plain known c) :
    p.Like K (fun a b => b = a ∧ post a) p := by
  induction p with
  | pure a => exact .pure ⟨rfl, hStays⟩
  | fail e => exact .fail e
  | call c k ih =>
    have hCall := hPlain c hStays.1
    refine .call hCall.call fun r r' hAlike => ?_
    obtain rfl := hCall.eq_of_response hAlike
    exact ih r (hStays.2 r (hCall.known_of_response hAlike))

theorem mono {weaker : α → β → Prop} (hLike : p.Like K post q)
    (hMono : ∀ a b, post a b → weaker a b) : p.Like K weaker q := by
  induction hLike with
  | pure hPost => exact .pure (hMono _ _ hPost)
  | fail e => exact .fail e
  | call hCall _ ih => exact .call hCall ih

theorem refl (hPlain : ∀ c, K.Plain (fun _ _ => True) c) (p : Program R ε α) :
    p.Like K (fun a b => b = a) p :=
  (of_stays (.any p) fun c _ => hPlain c).mono fun _ _ hSame => hSame.1

theorem bind {f : α → Program R ε α'} {g : β → Program R ε β'} (hFirst : p.Like K post q)
    (hSecond : ∀ a b, post a b → (f a).Like K post' (g b)) :
    (p.bind f).Like K post' (q.bind g) := by
  induction hFirst with
  | pure hPost => exact hSecond _ _ hPost
  | fail e => exact .fail e
  | call hCall _ ih => exact .call hCall ih

/-- After the same result two programs go on in alike ways. -/
theorem bind_same {q : Program R ε α} {f : α → Program R ε α'} {g : α → Program R ε β'}
    (hFirst : p.Like K (fun a b => b = a) q) (hSecond : ∀ a, (f a).Like K post' (g a)) :
    (p.bind f).Like K post' (q.bind g) := by
  refine hFirst.bind fun a b hSame => ?_
  rw [hSame]
  exact hSecond a

/-- Alike attempts end with alike results or with the same error. -/
theorem attempt (escapes : ε → Bool) (hLike : p.Like K post q) :
    (p.attempt escapes).Like K (fun result result' =>
      (∃ a b, result = .ok a ∧ result' = .ok b ∧ post a b) ∨
        ∃ e, result = .error e ∧ result' = .error e) (q.attempt escapes) := by
  induction hLike with
  | pure hPost => exact .pure (.inl ⟨_, _, rfl, rfl, hPost⟩)
  | fail e =>
    unfold Program.attempt
    split
    · exact .fail e
    · exact .pure (.inr ⟨e, rfl, rfl⟩)
  | call hCall _ ih => exact .call hCall ih

theorem ensure {cleanup cleanup' : Program R ε Unit} (hLike : p.Like K post q)
    (hCleanup : cleanup.Like K (fun _ _ => True) cleanup') :
    (p.ensure cleanup).Like K post (q.ensure cleanup') := by
  induction hLike with
  | pure hPost => exact hCleanup.bind fun _ _ _ => .pure hPost
  | fail e => exact hCleanup.bind fun _ _ _ => .fail e
  | call hCall _ ih => exact .call hCall ih

/-- The twin of a program that has ended has ended too. -/
theorem result {a : α} (hLike : (Program.pure a : Program R ε α).Like K post q) :
    ∃ b, q = .pure b ∧ post a b := by
  cases hLike with
  | pure hPost => exact ⟨_, rfl, hPost⟩

/-- The twin of a program that is to make a call is to make an alike call. -/
theorem next {c : C} {k : R c → Program R ε α} (hLike : (Program.call c k).Like K post q) :
    ∃ c' k', q = .call c' k' ∧ K.call c c' ∧
      ∀ r r', K.response c c' r r' → (k r).Like K post (k' r') := by
  cases hLike with
  | call hCall hRest => exact ⟨_, _, rfl, hCall, hRest⟩

end Like

end Program

/-! ## Twin pools -/

/-- Two threads of twin pools. -/
structure Thread.Like (K : Likeness R) (post : L → α → α → Prop) (twin : L → L)
    (t t' : Thread L R ε α) : Prop where
  label : t'.label = twin t.label
  log : t'.log.length = t.log.length
  rest : t.rest.Like K (post t.label) t'.rest

namespace Pool

/-- The states are related, and the threads are pairwise alike. -/
structure Twins (K : Likeness R) (post : L → α → α → Prop) (twin : L → L) (related : σ → σ → Prop)
    (P P' : Pool L R ε α σ) : Prop where
  state : related P.state P'.state
  length : P'.threads.length = P.threads.length
  threads : ∀ {i : Nat} {t t' : Thread L R ε α}, P.threads[i]? = some t →
    P'.threads[i]? = some t' → t.Like K post twin t'

variable {K : Likeness R} {post : L → α → α → Prop} {twin : L → L} {related : σ → σ → Prop}
  {h : Interp R σ} {program : L → Program R ε α} {starts starts' : Pool L R ε α σ → L → Prop}
  {enabled enabled' : Pool L R ε α σ → Nat → C → Prop} {P P' Q : Pool L R ε α σ}

namespace Twins

theorem at_twin (hTwins : Twins K post twin related P P') {i : Nat} {t : Thread L R ε α}
    (hAt : P.threads[i]? = some t) : ∃ t', P'.threads[i]? = some t' ∧ t.Like K post twin t' := by
  have hLength : i < P'.threads.length := by
    rw [hTwins.length]
    exact (List.getElem?_eq_some_iff.mp hAt).1
  exact ⟨_, List.getElem?_eq_getElem hLength,
    hTwins.threads hAt (List.getElem?_eq_getElem hLength)⟩

theorem labels (hTwins : Twins K post twin related P P') :
    P'.threads.map Thread.label = (P.threads.map Thread.label).map twin := by
  apply List.ext_getElem?
  intro i
  rw [List.getElem?_map, List.getElem?_map, List.getElem?_map]
  cases hAt : P.threads[i]? with
  | none =>
    have hLength := hTwins.length
    rw [List.getElem?_eq_none_iff] at hAt
    rw [List.getElem?_eq_none_iff.mpr (by omega)]
    rfl
  | some t =>
    obtain ⟨t', hAt', hLike⟩ := hTwins.at_twin hAt
    rw [hAt', Option.map_some, Option.map_some, Option.map_some, hLike.label]

theorem start {l : L} (hTwins : Twins K post twin related P P')
    (hLike : (program l).Like K (post l) (program (twin l))) :
    Twins K post twin related (P.start program l) (P'.start program (twin l)) where
  state := hTwins.state
  length := by simp only [Pool.start, List.length_append, List.length_singleton, hTwins.length]
  threads {i t t'} hAt hAt' := by
    unfold Pool.start at hAt hAt'
    have hLength := hTwins.length
    rcases Nat.lt_or_ge i P.threads.length with hOld | hNew
    · rw [List.getElem?_append_left hOld] at hAt
      rw [List.getElem?_append_left (by omega)] at hAt'
      exact hTwins.threads hAt hAt'
    · rw [List.getElem?_append_right hNew] at hAt
      rw [List.getElem?_append_right (by omega)] at hAt'
      obtain rfl := List.mem_singleton.mp (List.mem_of_getElem? hAt)
      obtain rfl := List.mem_singleton.mp (List.mem_of_getElem? hAt')
      exact ⟨rfl, rfl, hLike⟩

theorem advance {i : Nat} {t t' : Thread L R ε α} {c c' : C} {k : R c → Program R ε α}
    {k' : R c' → Program R ε α} (hTwins : Twins K post twin related P P')
    (hAt : P.threads[i]? = some t) (hAt' : P'.threads[i]? = some t')
    (hRest : ∀ r r', K.response c c' r r' → (k r).Like K (post t.label) (k' r'))
    (hState : related (h c P.state).2 (h c' P'.state).2)
    (hResponse : K.response c c' (h c P.state).1 (h c' P'.state).1) :
    Twins K post twin related (P.advance h i t c k) (P'.advance h i t' c' k') where
  state := hState
  length := by simp only [Pool.advance, List.length_set, hTwins.length]
  threads {j u u'} hu hu' := by
    rw [at_advance hAt] at hu
    rw [at_advance hAt'] at hu'
    rcases hu with ⟨hOther, hu⟩ | ⟨hSame, rfl⟩
    · rcases hu' with ⟨-, hu'⟩ | ⟨hSame, -⟩
      · exact hTwins.threads hu hu'
      · exact absurd hSame hOther
    · rcases hu' with ⟨hOther, -⟩ | ⟨-, rfl⟩
      · exact absurd hSame hOther
      · have hLike := hTwins.threads hAt hAt'
        refine ⟨hLike.label, ?_, hRest _ _ hResponse⟩
        rw [List.length_cons, List.length_cons, hLike.log]

end Twins

/-- What one pool does its twin can do, if related states answer alike calls alike. -/
theorem replay (hSteps : Steps h program starts enabled P Q)
    (hTwins : Twins K post twin related P P')
    (hStart : ∀ P P' l, Twins K post twin related P P' → starts P l → starts' P' (twin l) ∧
      (program l).Like K (post l) (program (twin l)))
    (hCall : ∀ P P' i c c', Twins K post twin related P P' → K.call c c' → enabled P i c →
      enabled' P' i c' ∧ related (h c P.state).2 (h c' P'.state).2 ∧
        K.response c c' (h c P.state).1 (h c' P'.state).1) :
    ∃ Q', Steps h program starts' enabled' P' Q' ∧ Twins K post twin related Q Q' := by
  induction hSteps with
  | refl => exact ⟨P', .refl, hTwins⟩
  | tail _ hStep ih =>
    obtain ⟨Q', hReplayed, hTwins⟩ := ih
    cases hStep with
    | start l hStarts =>
      obtain ⟨hMay, hLike⟩ := hStart _ Q' l hTwins hStarts
      exact ⟨_, hReplayed.tail (.start (twin l) hMay), hTwins.start hLike⟩
    | call i t c k hAt hRest hEnabled =>
      obtain ⟨t', hAt', hLike⟩ := hTwins.at_twin hAt
      have hPrograms := hLike.rest
      rw [hRest] at hPrograms
      obtain ⟨c', k', hRest', hSame, hNext⟩ := hPrograms.next
      obtain ⟨hMay, hState, hResponse⟩ := hCall _ Q' i c c' hTwins hSame hEnabled
      exact ⟨_, hReplayed.tail (.call i t' c' k' hAt' hRest' hMay),
        hTwins.advance hAt hAt' hNext hState hResponse⟩

end Pool

end Process
