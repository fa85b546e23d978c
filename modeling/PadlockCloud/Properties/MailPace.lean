import PadlockCloud.Properties.Isolation
import PadlockCloud.Properties.MailBudgets
import PadlockCloud.Request.Mailings

/-!
# The pace of the mails

However the requests interleave, the mails to one email and those for the clients of one
address leave at the rate of the mail limiter: six at once, and one in each minute after
that. Each mail is one request that the limiter has let through, and each call that it
lets through brings the arrival times of both keys forward by a minute.
-/

namespace PadlockCloud

open Process Throttling Time

namespace MailCall

/-- The call is for a client or an email of that spelling. -/
def concerns (key : GoString) (c : MailCall) : Bool := c.ip = key || c.email = key

/-- The call comes in the time from `lo` to `hi`. -/
def within (lo hi : Time) (c : MailCall) : Bool := lo ≤ c.now && c.now ≤ hi

end MailCall

/-! ## The limiter -/

section Pace

variable {erl : EmailRateLimiter Quota Int} {c : MailCall} {key : GoString} {lo hi level : Int}

theorem reaches_step (hValid : erl.ipQuota.isValid = true)
    (hReaches : Reaches lo level (erl.store key)) :
    Reaches lo level ((erl.step gcra c).2.store key) :=
  reaches_call hValid (reaches_call hValid hReaches)

/-- A call that is let through raises the level of both keys. -/
theorem reaches_passed (hValid : erl.ipQuota.isValid = true)
    (hReaches : Reaches lo level (erl.store key)) (hLater : lo ≤ c.now)
    (hConcerns : c.concerns key = true) (hPassed : (erl.step gcra c).1 = false) :
    Reaches lo (level + erl.ipQuota.period) ((erl.step gcra c).2.store key) ∧
      level + erl.ipQuota.period ≤ c.now + erl.ipQuota.tolerance := by
  obtain ⟨hIp, hEmail⟩ := Bool.or_eq_false_iff.mp hPassed
  by_cases hOwn : c.email = key
  · subst hOwn
    exact reaches_admitted (reaches_call hValid hReaches) hLater hEmail
  · obtain rfl : c.ip = key := by simpa [MailCall.concerns, hOwn] using hConcerns
    obtain ⟨hNext, hLevel⟩ := reaches_admitted hReaches hLater hIp
    exact ⟨reaches_call hValid hNext, hLevel⟩

/-- The calls that are let through in some time. -/
def letThrough (key : GoString) (lo hi : Time) (decision : MailCall × Bool) : Bool :=
  !decision.2 && (decision.1.within lo hi && decision.1.concerns key)

/-- The calls that concern a key pass at the pace of the quota, whatever came before. -/
theorem passed_pace (calls : List MailCall) (erl : EmailRateLimiter Quota Int) (key : GoString)
    (lo hi : Int) {level : Int} (hValid : erl.ipQuota.isValid = true)
    (hReaches : Reaches lo level (erl.store key)) :
    let decisions := calls.zip (answers (EmailRateLimiter.step gcra) calls erl)
    decisions.countP (letThrough key lo hi) = 0 ∨
      level + decisions.countP (letThrough key lo hi) * erl.ipQuota.period ≤
        hi + erl.ipQuota.tolerance := by
  induction calls generalizing erl level with
  | nil => exact .inl rfl
  | cons c calls ih =>
    dsimp only
    rw [answers, List.zip_cons_cons, List.countP_cons]
    have hQuota : (erl.step gcra c).2.ipQuota = erl.ipQuota := rfl
    split
    · rename_i hCounts
      simp only [letThrough, MailCall.within, Bool.and_eq_true, Bool.not_eq_true',
        decide_eq_true_eq] at hCounts
      obtain ⟨hPassed, ⟨hLo, hHi⟩, hConcerns⟩ := hCounts
      obtain ⟨hNext, hLevel⟩ := reaches_passed hValid hReaches hLo hConcerns hPassed
      rcases ih (erl.step gcra c).2 hValid hNext with hLast | hMore
      · right
        rw [hLast, Nat.zero_add, Nat.cast_one, one_mul]
        exact Int.le_trans hLevel (Int.add_le_add_right hHi _)
      · rw [hQuota] at hMore
        right
        rw [Nat.cast_add, Nat.cast_one, Int.add_mul, one_mul]
        omega
    · exact ih (erl.step gcra c).2 hValid (reaches_step hValid hReaches)

end Pace

/-- Some places of a list with what is counted are no more than the count. -/
theorem length_le_countP {α : Type} {p : α → Bool} {l : List α} {places : List Nat}
    (hApart : places.Nodup) (hPlaces : ∀ i ∈ places, ∃ a, l[i]? = some a ∧ p a = true) :
    places.length ≤ l.countP p := by
  rw [← List.length_findIdxs (s := 0)]
  apply (hApart.subperm ?_).length_le
  intro i hi
  obtain ⟨a, hAt, hCounts⟩ := hPlaces i hi
  obtain ⟨hBound, rfl⟩ := List.getElem?_eq_some_iff.mp hAt
  exact List.mem_findIdxs_iff_exists_getElem_pos.mpr ⟨hBound, hCounts⟩

/-! ## The server -/

namespace Server

/-- The calls of the limiter have decided on the mails of the threads, one call on each. -/
structure Polls (erl : EmailRateLimiter Quota Int) (calls : List MailCall) (P : ServerPool)
    (position : Nat → Nat) : Prop where
  apart : Function.Injective position
  asked : ∀ {i : Nat} {t : Thread Action Call.Resp HttpError (Option Reply)} {endpoint : Endpoint}
    {env : Env} {r : Request} {mail : Mail}, P.threads[i]? = some t →
    t.label = .serve endpoint env r → ⟨.send mail, ()⟩ ∈ t.log →
      ∃ now, calls[position i]? = some ⟨now, ipFromRequest r, mail.recipient⟩ ∧
        (answers (EmailRateLimiter.step gcra) calls erl)[position i]? =
          some (env.rateLimited (ipFromRequest r) mail.recipient)

variable {srv : Server} {b : Backend} {starts : ServerPool → Action → Prop} {P Q : ServerPool}
  {erl : EmailRateLimiter Quota Int} {calls : List MailCall} {position : Nat → Nat}

/-- The mail is one that the server writes for the request of the thread, and the call of the
limiter for the client and the recipient has answered `false`. -/
structure LetOut (srv : Server) (erl : EmailRateLimiter Quota Int) (calls : List MailCall)
    (position : Nat) (action : Action) (mail : Mail) : Prop where
  written : ∃ endpoint env r, action = .serve endpoint env r ∧ srv.Writes env mail ∧
    env.rateLimited (ipFromRequest r) mail.recipient = false ∧
      ∃ now, calls[position]? = some ⟨now, ipFromRequest r, mail.recipient⟩
  passed : (answers (EmailRateLimiter.step gcra) calls erl)[position]? = some false

/-- A mail that has been sent is at the place of a call that has been let through. -/
theorem letOut_of_sent {outbox : List Mail} {sent : List (Nat × Mail)}
    (hPosted : Posted srv outbox sent Q) (hPolls : Polls erl calls Q position) {i : Nat}
    {mail : Mail} (hSent : (i, mail) ∈ sent) :
    ∃ t, Q.threads[i]? = some t ∧ LetOut srv erl calls (position i) t.label mail := by
  obtain ⟨t, hAt, hLog⟩ := hPosted.logged.mp hSent
  have hGranted := hPosted.granted hSent hAt
  refine ⟨t, hAt, ?_⟩
  cases hLabel : t.label with
  | clean now keys =>
    rw [hLabel] at hGranted
    exact hGranted.elim
  | serve endpoint env r =>
    rw [hLabel] at hGranted
    obtain ⟨hFree, hWritten⟩ := hGranted
    obtain ⟨now, hCall, hAnswer⟩ := hPolls.asked hAt hLabel hLog
    exact ⟨⟨endpoint, env, r, rfl, hWritten, hFree, now, hCall⟩,
      hAnswer.trans (congrArg some hFree)⟩

theorem LetOut.decided {i : Nat} {action : Action} {mail : Mail}
    (hLetOut : LetOut srv erl calls i action mail) :
    ∃ c, calls[i]? = some c ∧
      (calls.zip (answers (EmailRateLimiter.step gcra) calls erl))[i]? = some (c, false) := by
  obtain ⟨endpoint, env, r, -, -, -, now, hCall⟩ := hLetOut.written
  refine ⟨_, hCall, ?_⟩
  rw [List.getElem?_zip_eq_some]
  exact ⟨hCall, hLetOut.passed⟩

/-- The mails of the event go to the email. -/
def mailsTo (email : GoString) : Event Call.Resp → Bool
  | ⟨.send mail, _⟩ => mail.recipient = email
  | _ => true

/-- A client asks twice, and the two requests take turns. -/
def asksTwice : List (Pool.Move Action) :=
  [.start clientAsks, .start clientAsks, .call 0, .call 1, .call 1, .call 0]

/-- The limiter is asked for both of them within one second. -/
def twoCalls : List MailCall :=
  [⟨0, [], lit "e@x.io"⟩, ⟨second, [], lit "e@x.io"⟩]

end Server

end PadlockCloud
