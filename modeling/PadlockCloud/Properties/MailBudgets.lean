import PadlockCloud.Model.RateLimit
import PadlockCloud.Throttling.Gcra

/-!
# The budgets of the mail limiter

A mail is charged to the address of the client and to the email that it goes to. The two
budgets are kept in one store, and the limiter of the addresses is asked for both, so they
are apart only as long as the quotas are the same and no address is spelled like an email.
Both charges are made in any case: a mail that is refused for its address is still charged
to the email.
-/

namespace PadlockCloud

open Throttling Time

/-- A call of `RateLimit` with its instant. -/
structure MailCall where
  now : Time
  ip : GoString
  email : GoString

/-- The answers to a sequence of calls. -/
def answers {σ : Type} (step : MailCall → σ → Bool × σ) : List MailCall → σ → List Bool
  | [], _ => []
  | c :: calls, s => (step c s).1 :: answers step calls (step c s).2

/-- Two limiters whose states stay related by steps with the same answers give the same
answers. -/
theorem answers_of_related {σ τ : Type} {step : MailCall → σ → Bool × σ}
    {step' : MailCall → τ → Bool × τ} (Related : σ → τ → Prop) {calls : List MailCall}
    (hStep : ∀ c ∈ calls, ∀ s s', Related s s' →
      (step c s).1 = (step' c s').1 ∧ Related (step c s).2 (step' c s').2)
    {s : σ} {s' : τ} (hStart : Related s s') : answers step calls s = answers step' calls s' := by
  induction calls generalizing s s' with
  | nil => rfl
  | cons c calls ih =>
    obtain ⟨hAnswer, hNext⟩ := hStep c List.mem_cons_self s s' hStart
    have hRest := ih (fun d hd => hStep d (List.mem_cons_of_mem c hd)) hNext
    rw [answers, answers, hAnswer, hRest]

section Budgets

variable {Q S : Type}

namespace EmailRateLimiter

def step (L : Limiter Q S) (c : MailCall) (erl : EmailRateLimiter Q S) :
    Bool × EmailRateLimiter Q S :=
  erl.rateLimit L c.now c.ip c.email

end EmailRateLimiter

/-- Two tables, one for the addresses and one for the emails. -/
structure Budgets (S : Type) where
  ip : Store GoString S := fun _ => none
  email : Store GoString S := fun _ => none

/-- Each table is charged under its own quota. -/
def Budgets.step (L : Limiter Q S) (ipQuota emailQuota : Q) (c : MailCall) (b : Budgets S) :
    Bool × Budgets S :=
  let (ipLimited, ip) := L.call ipQuota c.now c.ip b.ip
  let (emailLimited, email) := L.call emailQuota c.now c.email b.email
  (ipLimited || emailLimited, { ip, email })

variable {L : Limiter Q S} {ipQuota emailQuota : Q} {erl erl' : EmailRateLimiter Q S}
  {b : Budgets S} {c : MailCall} {calls : List MailCall}

/-! ## Separate budgets -/

/-- The store has the states of both tables, where `Ip` are the keys of the one and
`Email` those of the other. -/
structure Splits (Ip Email : GoString → Prop) (erl : EmailRateLimiter Q S) (b : Budgets S) :
    Prop where
  ip : Store.AgreeOn Ip erl.store b.ip
  email : Store.AgreeOn Email erl.store b.email

/-- One call has the same answer and keeps the budgets apart. -/
theorem Splits.step {Ip Email : GoString → Prop} (hSplits : Splits Ip Email erl b)
    (hApart : ∀ k, Ip k → ¬Email k) (hIp : Ip c.ip) (hEmail : Email c.email) :
    (erl.step L c).1 = (b.step L erl.ipQuota erl.ipQuota c).1 ∧
      Splits Ip Email (erl.step L c).2 (b.step L erl.ipQuota erl.ipQuota c).2 := by
  obtain ⟨hFirst, hIpNext⟩ := Limiter.call_congr L erl.ipQuota c.now hSplits.ip hIp
  -- The charge of the address is not seen among the emails, nor the other way round.
  have hEmailSame := (Limiter.call_agreeOn L erl.ipQuota c.now erl.store fun hOther =>
    hApart c.ip hIp hOther).trans hSplits.email
  obtain ⟨hSecond, hEmailNext⟩ := Limiter.call_congr L erl.ipQuota c.now hEmailSame hEmail
  refine ⟨congrArg₂ or hFirst hSecond, ?_, hEmailNext⟩
  refine (Limiter.call_agreeOn _ _ _ _ ?_).trans hIpNext
  intro hOther
  exact hApart c.email hOther hEmail

theorem answers_split (Ip Email : GoString → Prop) (hSplits : Splits Ip Email erl b)
    (hApart : ∀ k, Ip k → ¬Email k) (hCalls : ∀ c ∈ calls, Ip c.ip ∧ Email c.email) :
    answers (EmailRateLimiter.step L) calls erl =
      answers (Budgets.step L erl.ipQuota erl.ipQuota) calls b := by
  refine answers_of_related
    (fun s t => s.ipQuota = erl.ipQuota ∧ Splits Ip Email s t) ?_ ⟨rfl, hSplits⟩
  rintro c hc s t ⟨hQuota, hSplits⟩
  obtain ⟨hIp, hEmail⟩ := hCalls c hc
  obtain ⟨hAnswer, hNext⟩ := hSplits.step (L := L) hApart hIp hEmail
  rw [hQuota] at hAnswer hNext
  exact ⟨hAnswer, hQuota, hNext⟩

/-- The limiter answers like two separate tables, if the quotas are the same and no
address of the calls is spelled like an email of them. -/
theorem mail_budgets_apart (hNew : newEmailRateLimiter L ipQuota emailQuota = some erl)
    (hQuotas : emailQuota = ipQuota) (hApart : ∀ c ∈ calls, ∀ d ∈ calls, c.ip ≠ d.email) :
    answers (EmailRateLimiter.step L) calls erl =
      answers (Budgets.step L ipQuota emailQuota) calls {} := by
  subst hQuotas
  unfold newEmailRateLimiter at hNew
  split at hNew
  · obtain rfl := Option.some.inj hNew
    refine answers_split (fun k => ∃ c ∈ calls, c.ip = k) (fun k => ∃ c ∈ calls, c.email = k)
      ⟨.refl _ _, .refl _ _⟩ ?_ ?_
    · rintro k ⟨c, hc, rfl⟩ ⟨d, hd, hSame⟩
      exact hApart c hc d hd hSame.symm
    · intro c hc
      exact ⟨⟨c, hc, rfl⟩, ⟨c, hc, rfl⟩⟩
  · cases hNew

/-! ## The cost of a refusal -/

/-- The keys that a call charges: those for which it is not limited. -/
def chargedKeys (L : Limiter Q S) (erl : EmailRateLimiter Q S) (c : MailCall) : List GoString :=
  let (ipLimited, store) := L.call erl.ipQuota c.now c.ip erl.store
  let (emailLimited, _) := L.call erl.ipQuota c.now c.email store
  (if ipLimited then [] else [c.ip]) ++ if emailLimited then [] else [c.email]

/-- No other key changes its state, and the quotas stay. -/
theorem step_uncharged (L : Limiter Q S) (erl : EmailRateLimiter Q S) (c : MailCall) :
    (erl.step L c).2.ipQuota = erl.ipQuota ∧
      Store.AgreeOn (· ∉ chargedKeys L erl c) (erl.step L c).2.store erl.store := by
  refine ⟨rfl, ?_⟩
  intro k hk
  simp only [chargedKeys, List.mem_append, not_or] at hk
  obtain ⟨hIp, hEmail⟩ := hk
  -- Each half leaves a key alone that it is limited for, or that is not its own.
  have hHalf {q : Q} {key : GoString} {s : Store GoString S}
      (hKey : k ∉ if (L.call q c.now key s).1 then [] else [key]) :
      (L.call q c.now key s).2 k = s k := by
    cases hLimited : (L.call q c.now key s).1 with
    | true => rw [Limiter.call_limited hLimited]
    | false =>
      rw [hLimited, if_neg Bool.false_ne_true, List.mem_singleton] at hKey
      exact Limiter.call_other hKey
  exact (hHalf hEmail).trans (hHalf hIp)

/-- Where the stores agree on the keys of a call, the answer is the same, and they agree
afterwards. -/
theorem step_congr {P : GoString → Prop} (hQuota : erl.ipQuota = erl'.ipQuota)
    (hAgree : Store.AgreeOn P erl.store erl'.store) (hIp : P c.ip) (hEmail : P c.email) :
    (erl.step L c).1 = (erl'.step L c).1 ∧
      Store.AgreeOn P (erl.step L c).2.store (erl'.step L c).2.store := by
  obtain ⟨hFirst, hNext⟩ := Limiter.call_congr L erl.ipQuota c.now hAgree hIp
  obtain ⟨hSecond, hLast⟩ := Limiter.call_congr L erl.ipQuota c.now hNext hEmail
  unfold EmailRateLimiter.step EmailRateLimiter.rateLimit
  rw [← hQuota]
  exact ⟨congrArg₂ or hFirst hSecond, hLast⟩

theorem answers_congr {P : GoString → Prop} (hQuota : erl.ipQuota = erl'.ipQuota)
    (hAgree : Store.AgreeOn P erl.store erl'.store) (hCalls : ∀ c ∈ calls, P c.ip ∧ P c.email) :
    answers (EmailRateLimiter.step L) calls erl = answers (EmailRateLimiter.step L) calls erl' := by
  refine answers_of_related
    (fun s s' => s.ipQuota = s'.ipQuota ∧ Store.AgreeOn P s.store s'.store) ?_ ⟨hQuota, hAgree⟩
  rintro c hc s s' ⟨hQuota, hAgree⟩
  obtain ⟨hIp, hEmail⟩ := hCalls c hc
  obtain ⟨hAnswer, hNext⟩ := step_congr (L := L) hQuota hAgree hIp hEmail
  exact ⟨hAnswer, hQuota, hNext⟩

/-- A call that is limited charges one of its keys at most. -/
theorem chargedKeys_of_limited (hLimited : (erl.step L c).1 = true) :
    (chargedKeys L erl c).length ≤ 1 := by
  have hHalf : (L.call erl.ipQuota c.now c.ip erl.store).1 = true ∨
      (L.call erl.ipQuota c.now c.email (L.call erl.ipQuota c.now c.ip erl.store).2).1 = true :=
    Bool.or_eq_true _ _ ▸ hLimited
  unfold chargedKeys
  dsimp only
  rcases hHalf with hIp | hEmail
  · rw [if_pos hIp]
    split <;> simp
  · rw [if_pos hEmail]
    split <;> simp

/-- After a call that is limited, every later call is answered as if it had not been
made, as long as it is not for the one key that was charged. -/
theorem refused_mail_cost (erl : EmailRateLimiter Q S) (c : MailCall)
    (hLimited : (erl.step L c).1 = true) :
    (chargedKeys L erl c).length ≤ 1 ∧
      ∀ later : List MailCall,
        (∀ d ∈ later, d.ip ∉ chargedKeys L erl c ∧ d.email ∉ chargedKeys L erl c) →
          answers (EmailRateLimiter.step L) later (erl.step L c).2 =
            answers (EmailRateLimiter.step L) later erl := by
  refine ⟨chargedKeys_of_limited hLimited, ?_⟩
  intro later hLater
  obtain ⟨hQuota, hAgree⟩ := step_uncharged L erl c
  exact answers_congr hQuota hAgree hLater

end Budgets

/-! ## Examples -/

/-- One call in a minute, and five more at once. -/
def perMinute : Quota := ⟨minute, 5⟩

/-- One call in a minute. -/
def onePerMinute : Quota := ⟨minute, 0⟩

theorem mail_budgets_apart_twice :
    answers (EmailRateLimiter.step gcra)
        [⟨0, lit "1.2.3.4:5", lit "e@x.io"⟩, ⟨1, lit "1.2.3.4:5", lit "f@x.io"⟩]
        { ipQuota := onePerMinute, emailQuota := onePerMinute } =
      answers (Budgets.step gcra onePerMinute onePerMinute)
        [⟨0, lit "1.2.3.4:5", lit "e@x.io"⟩, ⟨1, lit "1.2.3.4:5", lit "f@x.io"⟩] {} :=
  mail_budgets_apart rfl rfl (by decide)

/-- With a quota of its own, the second mail to one email would be limited. -/
theorem mail_budgets_mixed :
    ¬∀ (ipQuota emailQuota : Quota) (erl : EmailRateLimiter Quota Int) (calls : List MailCall),
      newEmailRateLimiter gcra ipQuota emailQuota = some erl →
        answers (EmailRateLimiter.step gcra) calls erl =
          answers (Budgets.step gcra ipQuota emailQuota) calls {} := by
  intro hAll
  have hSame := hAll perMinute onePerMinute { ipQuota := perMinute, emailQuota := onePerMinute }
    [⟨0, lit "1.2.3.4:5", lit "e@x.io"⟩, ⟨1, lit "1.2.3.5:5", lit "e@x.io"⟩] rfl
  exact absurd hSame (by decide +kernel)

/-- The limiter after a mail to `f@x.io`, and the next one from the same address. -/
def spent : EmailRateLimiter Quota Int :=
  (EmailRateLimiter.step gcra ⟨0, lit "1.2.3.4:5", lit "f@x.io"⟩
    { ipQuota := onePerMinute, emailQuota := onePerMinute }).2

/-- A mail to another email is refused, and a mail to a third one is answered as before. -/
theorem refused_mail_cost_third :
    (spent.step gcra ⟨1, lit "1.2.3.4:5", lit "e@x.io"⟩).1 = true ∧
      answers (EmailRateLimiter.step gcra) [⟨2, lit "1.2.3.6:5", lit "g@x.io"⟩]
          (spent.step gcra ⟨1, lit "1.2.3.4:5", lit "e@x.io"⟩).2 =
        answers (EmailRateLimiter.step gcra) [⟨2, lit "1.2.3.6:5", lit "g@x.io"⟩] spent :=
  ⟨by decide +kernel, (refused_mail_cost spent ⟨1, lit "1.2.3.4:5", lit "e@x.io"⟩
    (by decide +kernel)).2 _ (by decide +kernel)⟩

/-- The refused mail uses up the budget of its email. -/
theorem refused_mail_costs :
    ¬∀ (erl : EmailRateLimiter Quota Int) (c : MailCall) (later : List MailCall),
      (erl.step gcra c).1 = true →
        answers (EmailRateLimiter.step gcra) later (erl.step gcra c).2 =
          answers (EmailRateLimiter.step gcra) later erl := by
  intro hAll
  have hSame := hAll spent ⟨1, lit "1.2.3.4:5", lit "e@x.io"⟩
    [⟨2, lit "1.2.3.6:5", lit "e@x.io"⟩] (by decide +kernel)
  exact absurd hSame (by decide +kernel)

end PadlockCloud
