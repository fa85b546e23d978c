import PadlockCloud.Request.Custody

/-!
# Many requests with custody of secrets

The requests are numbered, each with its log and the secret that it draws. The
invariant says where a secret can be: the secret of a stored auth request, and of
one that a request has in hand, is in no account. A step of one of the requests
keeps it, provided that nobody takes an auth request that another one holds.
-/

namespace PadlockCloud

open Process Log

/-- The auth request is stored. -/
def Tables.Pending (T : Tables) (ar : AuthRequest) : Prop := ∃ k, T.authRequests k = some ar

/-- The secret is in a stored account or has been in an account that was returned. -/
def Visible (T : Tables) (logs : Nat → Log) (s : GoString) : Prop :=
  (∃ k acc, T.accounts k = some acc ∧ s ∈ acc.secrets) ∨ ∃ i, s ∈ seen (logs i)

/-- The requests draw different secrets, an auth request is issued and taken once, and
its secret is not in an account before the one who took it brings it there. -/
structure Custody (T : Tables) (owns : Nat → Option GoString) (logs : Nat → Log) : Prop where
  apart : ∀ {i j s}, owns i = some s → owns j = some s → i = j
  nonempty : ∀ {i}, owns i ≠ some []
  nodup : ∀ {k acc}, T.accounts k = some acc → acc.secrets.Nodup
  filed : T.Filed
  issuedOwn : ∀ {i ar}, ar ∈ issued (logs i) → owns i = some ar.authToken.token
  issuedOnce : ∀ {i ar ar'}, ar ∈ issued (logs i) → ar' ∈ issued (logs i) → ar = ar'
  stored : ∀ {ar}, T.Pending ar → ∃ i, ar ∈ issued (logs i)
  taken : ∀ {i ar}, ar ∈ got (logs i) → ∃ j, ar ∈ issued (logs j)
  spent : ∀ {s}, Visible T logs s → ∃ i, owns i = some s ∧ ¬Unspent (owns i) (logs i)
  holder : ∀ {i j ar}, ar ∈ got (logs i) → ar ∈ got (logs j) → i = j
  held : ∀ {i ar}, ar ∈ got (logs i) → Holds (logs i) ar ∨ ¬T.Pending ar
  hand : ∀ {i ar}, ar ∈ inHand (logs i) → ¬Visible T logs ar.authToken.token
  pending : ∀ {ar}, T.Pending ar → (∀ i, ar ∉ got (logs i)) → ¬Visible T logs ar.authToken.token

/-- Nobody holds the auth request that the call finds. -/
def Untaken (T : Tables) (logs : Nat → Log) (c : Call) : Prop :=
  ∀ key ar, c = .storage (.getAuthRequest key) → T.authRequests key = some ar →
    ∀ i, ¬Holds (logs i) ar

/-! ## Longer logs -/

namespace Log

variable {log : Log} {e : Event Call.Resp} {ar : AuthRequest} {s : GoString}

theorem mem_got_cons : ar ∈ got (e :: log) ↔ PadlockCloud.taken e = some ar ∨ ar ∈ got log := by
  simp only [got, List.filterMap_cons]
  cases PadlockCloud.taken e with
  | none => simp
  | some found => simp [eq_comm]

theorem mem_issued_cons : ar ∈ issued (e :: log) ↔ e.1.issues = some ar ∨ ar ∈ issued log := by
  simp only [issued, List.filterMap_cons]
  cases e.1.issues with
  | none => simp
  | some new => simp [eq_comm]

theorem mem_seen_cons : s ∈ seen (e :: log) ↔ s ∈ shown e ∨ s ∈ seen log := List.mem_append

/-- What is in hand has been got. -/
theorem got_of_inHand (hHand : ar ∈ inHand log) : ar ∈ got log :=
  (List.takeWhile_sublist _).filterMap taken |>.subset hHand

theorem mem_inHand_cons (hHand : ar ∈ inHand (e :: log)) :
    e.1.puts = none ∧ (PadlockCloud.taken e = some ar ∨ ar ∈ inHand log) := by
  unfold inHand at hHand
  cases hPuts : e.1.puts with
  | none =>
    rw [List.takeWhile_cons_of_pos (by rw [hPuts]; rfl)] at hHand
    exact ⟨rfl, mem_got_cons.mp hHand⟩
  | some acc =>
    rw [List.takeWhile_cons_of_neg (by rw [hPuts]; exact Bool.false_ne_true)] at hHand
    exact absurd hHand List.not_mem_nil

theorem holds_cons (hKeeps : e.1.discards ≠ some ar.key)
    (hHolds : PadlockCloud.taken e = some ar ∨ Holds log ar) : Holds (e :: log) ar := by
  unfold Holds
  rw [List.takeWhile_cons_of_pos (by simpa using hKeeps)]
  exact mem_got_cons.mpr hHolds

/-- What has been spent stays so. -/
theorem unspent_of_cons {own : Option GoString} (hUnspent : Unspent own (e :: log)) :
    Unspent own log := by
  refine ⟨?_, fun e' he' => hUnspent.2 e' (List.mem_cons_of_mem _ he')⟩
  rw [List.eq_nil_iff_forall_not_mem]
  intro ar har
  have hNone := hUnspent.1
  rw [List.eq_nil_iff_forall_not_mem] at hNone
  exact hNone ar (mem_issued_cons.mpr (.inr har))

end Log

/-! ## One more call -/

/-- The request `i` has performed one more call. -/
def Log.record (logs : Nat → Log) (i : Nat) (e : Event Call.Resp) : Nat → Log :=
  Function.update logs i (e :: logs i)

section Record

variable {logs : Nat → Log} {i j : Nat} {e : Event Call.Resp} {ar : AuthRequest} {s : GoString}
  {own : Option GoString}

theorem record_cases (logs : Nat → Log) (i j : Nat) (e : Event Call.Resp) :
    record logs i e j = logs j ∧ j ≠ i ∨ record logs i e j = e :: logs j ∧ j = i := by
  by_cases hSame : j = i
  · subst hSame
    exact .inr ⟨Function.update_self .., rfl⟩
  · exact .inl ⟨Function.update_of_ne hSame .., hSame⟩

theorem got_record (hGot : ar ∈ got (logs j)) : ar ∈ got (record logs i e j) := by
  rcases record_cases logs i j e with ⟨hSame, -⟩ | ⟨hLonger, -⟩
  · rwa [hSame]
  · rw [hLonger]
    exact mem_got_cons.mpr (.inr hGot)

theorem got_of_record (hGot : ar ∈ got (record logs i e j)) :
    ar ∈ got (logs j) ∨ j = i ∧ taken e = some ar := by
  rcases record_cases logs i j e with ⟨hSame, -⟩ | ⟨hLonger, hIndex⟩
  · exact .inl (by rwa [hSame] at hGot)
  · rw [hLonger] at hGot
    exact (mem_got_cons.mp hGot).symm.imp_right fun hTaken => ⟨hIndex, hTaken⟩

theorem issued_record (hIssued : ar ∈ issued (logs j)) : ar ∈ issued (record logs i e j) := by
  rcases record_cases logs i j e with ⟨hSame, -⟩ | ⟨hLonger, -⟩
  · rwa [hSame]
  · rw [hLonger]
    exact mem_issued_cons.mpr (.inr hIssued)

theorem issued_of_record (hIssued : ar ∈ issued (record logs i e j)) :
    ar ∈ issued (logs j) ∨ j = i ∧ e.1.issues = some ar := by
  rcases record_cases logs i j e with ⟨hSame, -⟩ | ⟨hLonger, hIndex⟩
  · exact .inl (by rwa [hSame] at hIssued)
  · rw [hLonger] at hIssued
    exact (mem_issued_cons.mp hIssued).symm.imp_right fun hNew => ⟨hIndex, hNew⟩

theorem seen_of_record (hSeen : s ∈ seen (record logs i e j)) : s ∈ seen (logs j) ∨ s ∈ shown e := by
  rcases record_cases logs i j e with ⟨hSame, -⟩ | ⟨hLonger, -⟩
  · exact .inl (by rwa [hSame] at hSeen)
  · rw [hLonger] at hSeen
    exact (mem_seen_cons.mp hSeen).symm

theorem inHand_of_record (hHand : ar ∈ inHand (record logs i e j)) :
    ar ∈ inHand (logs j) ∧ (j = i → e.1.puts = none) ∨ j = i ∧ taken e = some ar := by
  rcases record_cases logs i j e with ⟨hSame, hOther⟩ | ⟨hLonger, hIndex⟩
  · exact .inl ⟨by rwa [hSame] at hHand, fun hIndex => absurd hIndex hOther⟩
  · rw [hLonger] at hHand
    obtain ⟨hPuts, hNew | hOld⟩ := mem_inHand_cons hHand
    · exact .inr ⟨hIndex, hNew⟩
    · exact .inl ⟨hOld, fun _ => hPuts⟩

theorem holds_record (hHolds : Holds (logs j) ar) :
    Holds (record logs i e j) ar ∨ e.1.discards = some ar.key := by
  rcases record_cases logs i j e with ⟨hSame, -⟩ | ⟨hLonger, -⟩
  · exact .inl (by rwa [hSame])
  · by_cases hDiscards : e.1.discards = some ar.key
    · exact .inr hDiscards
    · rw [hLonger]
      exact .inl (holds_cons hDiscards (.inr hHolds))

theorem unspent_of_record (hUnspent : Unspent own (record logs i e j)) : Unspent own (logs j) := by
  rcases record_cases logs i j e with ⟨hSame, -⟩ | ⟨hLonger, -⟩
  · rwa [hSame] at hUnspent
  · rw [hLonger] at hUnspent
    exact unspent_of_cons hUnspent

end Record

/-! ## What a call does to the tables -/

section Tables

variable {b : Backend} {c : Call} {w : World Tables} {ar : AuthRequest} {acc : Account}
  {k key s : GoString}

theorem pending_exec (hJ : b.json.Lossless) (hPending : (exec b c w).2.storage.Pending ar) :
    w.storage.Pending ar ∨ c.issues = some ar := by
  obtain ⟨k, hFound⟩ := hPending
  rcases authRequests_exec hFound with hOld | ⟨new, rfl, -, rfl⟩
  · exact .inl ⟨k, hOld⟩
  · rw [AuthRequest.marshal_of_lossless hJ]
    exact .inr rfl

theorem filed_exec (hJ : b.json.Lossless) (hFiled : w.storage.Filed) :
    (exec b c w).2.storage.Filed := by
  intro k ar hFound
  rcases authRequests_exec hFound with hOld | ⟨new, -, rfl, rfl⟩
  · exact hFiled hOld
  · rw [AuthRequest.marshal_of_lossless hJ]

theorem secrets_exec (hJ : b.json.Lossless)
    (hFound : (exec b c w).2.storage.accounts k = some acc) :
    w.storage.accounts k = some acc ∨ ∃ put, c.puts = some put ∧ acc.secrets = put.secrets := by
  rcases accounts_exec hFound with hOld | ⟨now, put, rfl, -, rfl⟩
  · exact .inl hOld
  · rw [Account.marshal_of_lossless hJ]
    exact .inr ⟨put, rfl, Account.secrets_prepare ..⟩

theorem discards_exec (hDiscards : c.discards = some key) :
    (exec b c w).2.storage.authRequests key = none := by
  rcases c with c | email | email | mail
  · cases c with
    | deleteAuthRequest key' =>
      obtain rfl := Option.some.inj hDiscards
      exact Function.update_self ..
    | _ => cases hDiscards
  all_goals cases hDiscards

theorem taken_exec (hTaken : taken ⟨c, (exec b c w).1⟩ = some ar) :
    ∃ key, c = .storage (.getAuthRequest key) ∧ w.storage.authRequests key = some ar := by
  rcases c with c | email | email | mail
  · cases c with
    | getAuthRequest key =>
      refine ⟨key, rfl, ?_⟩
      cases hFound : w.storage.authRequests key with
      | none => simp [World.step, Tables.step, lookup, hFound, taken] at hTaken
      | some found => simpa [World.step, Tables.step, lookup, hFound, taken] using hTaken
    | _ => cases hTaken
  all_goals cases hTaken

theorem shown_exec (hShown : s ∈ shown ⟨c, (exec b c w).1⟩) :
    (∃ k acc, w.storage.accounts k = some acc ∧ s ∈ acc.secrets) ∨
      ∃ put, c.puts = some put ∧ s ∈ put.secrets := by
  rcases c with c | email | email | mail
  · cases c with
    | getAccount email =>
      cases hFound : w.storage.accounts email with
      | none => simp [World.step, Tables.step, lookup, hFound, shown] at hShown
      | some acc =>
        refine .inl ⟨email, acc, hFound, ?_⟩
        simpa [World.step, Tables.step, lookup, hFound, shown] using hShown
    | putAccount now put =>
      refine .inr ⟨put, rfl, ?_⟩
      rw [← Account.secrets_prepare b now put]
      exact hShown
    | _ => exact absurd hShown List.not_mem_nil
  all_goals exact absurd hShown List.not_mem_nil

end Tables

/-! ## The step -/

namespace Custody

variable {b : Backend} {w : World Tables} {owns : Nat → Option GoString} {logs : Nat → Log}
  {c : Call} {i j : Nat} {ar ar' : AuthRequest} {s : GoString}

/-- The one who issued an auth request has drawn its secret. -/
theorem eq_issuer (hCustody : Custody w.storage owns logs) (hIssued : ar ∈ issued (logs j))
    (hOwn : owns i = some ar.authToken.token) : i = j :=
  hCustody.apart hOwn (hCustody.issuedOwn hIssued)

theorem not_unspent (hIssued : ar ∈ issued (logs j)) : ¬Unspent (owns j) (logs j) := by
  intro hUnspent
  rw [hUnspent.1] at hIssued
  cases hIssued

/-- Auth requests that have been issued are told by their secrets. -/
theorem eq_of_secret (hCustody : Custody w.storage owns logs) (hIssued : ar ∈ issued (logs i))
    (hIssued' : ar' ∈ issued (logs j)) (hSame : ar.authToken.token = ar'.authToken.token) :
    ar = ar' := by
  have hOwn := hCustody.issuedOwn hIssued
  rw [hSame] at hOwn
  obtain rfl := hCustody.eq_issuer hIssued' hOwn
  exact hCustody.issuedOnce hIssued hIssued'

/-- The one who carries the secret of an auth request has it in hand. -/
theorem inHand_of_carries (hCustody : Custody w.storage owns logs) (hIssued : ar ∈ issued (logs j))
    (hCarries : Carries (owns i) (logs i) ar.authToken.token) : ar ∈ inHand (logs i) := by
  rcases hCarries with ⟨ar', hHand, hSame⟩ | ⟨hOwn, hUnspent⟩
  · obtain ⟨m, hIssued'⟩ := hCustody.taken (got_of_inHand hHand)
    rwa [hCustody.eq_of_secret hIssued hIssued' hSame.symm]
  · obtain rfl := hCustody.eq_issuer hIssued hOwn
    exact absurd hUnspent (not_unspent hIssued)

/-- Nothing that is carried is in an account yet. -/
theorem not_visible (hCustody : Custody w.storage owns logs)
    (hCarries : Carries (owns i) (logs i) s) : ¬Visible w.storage logs s := by
  rcases hCarries with ⟨ar, hHand, rfl⟩ | ⟨hOwn, hUnspent⟩
  · exact hCustody.hand hHand
  · intro hVisible
    obtain ⟨m, hOther, hSpent⟩ := hCustody.spent hVisible
    obtain rfl := hCustody.apart hOwn hOther
    exact hSpent hUnspent

/-- Nobody has taken the auth request that the call finds. -/
theorem not_got (hCustody : Custody w.storage owns logs) (hUntaken : Untaken w.storage logs c)
    (hTaken : PadlockCloud.taken ⟨c, (exec b c w).1⟩ = some ar) :
    w.storage.Pending ar ∧ ∀ j, ar ∉ got (logs j) := by
  obtain ⟨key, hCall, hFound⟩ := taken_exec hTaken
  refine ⟨⟨key, hFound⟩, fun j hGot => ?_⟩
  rcases hCustody.held hGot with hHolds | hGone
  · exact hUntaken key ar hCall hFound j hHolds
  · exact hGone ⟨key, hFound⟩

/-- The call gets what the contract promises. -/
theorem response (hCustody : Custody w.storage owns logs) (c : Call) :
    custodyResponse (owns i) (logs i) c (exec b c w).1 := by
  rcases c with c | email | email | mail
  · cases c with
    | getAccount email =>
      intro acc hOk
      have hFound := lookup_ok hOk
      have hVisible {s : GoString} (hs : s ∈ acc.secrets) : Visible w.storage logs s :=
        .inl ⟨email, acc, hFound, hs⟩
      refine ⟨hCustody.nodup hFound, fun hNil => ?_, fun s hCarries hs => ?_⟩
      · obtain ⟨j, hOwn, -⟩ := hCustody.spent (hVisible hNil)
        exact hCustody.nonempty hOwn
      · exact hCustody.not_visible hCarries (hVisible hs)
    | putAccount now acc =>
      intro acc' hOk
      obtain rfl := Except.ok.inj hOk
      exact Account.secrets_prepare ..
    | getAuthRequest key =>
      intro ar hOk hUnspent hOwn
      obtain ⟨j, hIssued⟩ := hCustody.stored ⟨key, lookup_ok hOk⟩
      obtain rfl := hCustody.eq_issuer hIssued hOwn
      exact not_unspent hIssued hUnspent
    | _ => trivial
  all_goals trivial

/-- A secret that is new in the accounts was carried there. -/
theorem visible_step (hJ : b.json.Lossless) (hCall : custodyCall (owns i) (logs i) c)
    (hVisible : Visible (exec b c w).2.storage (record logs i ⟨c, (exec b c w).1⟩) s) :
    Visible w.storage logs s ∨
      ∃ put, c.puts = some put ∧ s ∈ put.secrets ∧ Carries (owns i) (logs i) s := by
  have hBrought {put : Account} (hPuts : c.puts = some put) (hs : s ∈ put.secrets) :
      Visible w.storage logs s ∨
        ∃ put, c.puts = some put ∧ s ∈ put.secrets ∧ Carries (owns i) (logs i) s := by
    obtain ⟨now, rfl⟩ := Call.puts_eq_some hPuts
    rcases hCall.2 s hs with hSeen | hCarries
    · exact .inl (.inr ⟨i, hSeen⟩)
    · exact .inr ⟨put, rfl, hs, hCarries⟩
  rcases hVisible with ⟨k, acc, hFound, hs⟩ | ⟨j, hSeen⟩
  · rcases secrets_exec hJ hFound with hOld | ⟨put, hPuts, hSame⟩
    · exact .inl (.inl ⟨k, acc, hOld, hs⟩)
    · exact hBrought hPuts (hSame ▸ hs)
  · rcases seen_of_record hSeen with hOld | hShown
    · exact .inl (.inr ⟨j, hOld⟩)
    · rcases shown_exec hShown with hStored | ⟨put, hPuts, hs⟩
      · exact .inl (.inl hStored)
      · exact hBrought hPuts hs

/-- The secret of an issued auth request that is not in an account stays out, unless the
call stores an account with the auth request in hand. -/
theorem not_visible_step (hCustody : Custody w.storage owns logs) (hJ : b.json.Lossless)
    (hCall : custodyCall (owns i) (logs i) c) (hIssued : ar ∈ issued (logs j))
    (hOut : ¬Visible w.storage logs ar.authToken.token)
    (hHand : ar ∈ inHand (logs i) → c.puts = none) :
    ¬Visible (exec b c w).2.storage (record logs i ⟨c, (exec b c w).1⟩) ar.authToken.token := by
  intro hVisible
  rcases visible_step hJ hCall hVisible with hOld | ⟨put, hPuts, -, hCarries⟩
  · exact hOut hOld
  · rw [hHand (hCustody.inHand_of_carries hIssued hCarries)] at hPuts
    cases hPuts

/-- What a call issues has been drawn by the one who performs it and was nowhere. -/
theorem issues_fresh (hCustody : Custody w.storage owns logs)
    (hCall : custodyCall (owns i) (logs i) c) (hIssues : c.issues = some ar) :
    owns i = some ar.authToken.token ∧ Unspent (owns i) (logs i) ∧
      (∀ j, ar ∉ issued (logs j)) ∧ ¬Visible w.storage logs ar.authToken.token := by
  obtain rfl := Call.issues_eq_some hIssues
  obtain ⟨hOwn, hUnspent⟩ := hCall
  refine ⟨hOwn, hUnspent, fun j hIssued => ?_, hCustody.not_visible (.inr ⟨hOwn, hUnspent⟩)⟩
  obtain rfl := hCustody.eq_issuer hIssued hOwn
  exact not_unspent hIssued hUnspent

/-- At first there is nothing. -/
theorem empty : Custody .empty (fun _ => none) fun _ => [] where
  apart := nofun
  nonempty := nofun
  nodup := nofun
  filed := nofun
  issuedOwn := nofun
  issuedOnce := nofun
  stored hPending := by
    obtain ⟨k, hFound⟩ := hPending
    cases hFound
  taken := nofun
  spent hVisible := by
    rcases hVisible with ⟨k, acc, hFound, -⟩ | ⟨i, hSeen⟩
    · cases hFound
    · cases hSeen
  holder := nofun
  held := nofun
  hand := nofun
  pending hPending := by
    obtain ⟨k, hFound⟩ := hPending
    cases hFound

/-- One more request, with a secret of its own. -/
theorem draw {T : Tables} {own : Option GoString} (hCustody : Custody T owns logs)
    (hNone : owns i = none) (hFresh : ∀ s, own = some s → ∀ j, owns j ≠ some s)
    (hNonempty : own ≠ some []) : Custody T (Function.update owns i own) logs := by
  have hOther {j : Nat} {s : GoString} (hOwn : owns j = some s) :
      Function.update owns i own j = owns j := by
    refine Function.update_of_ne ?_ ..
    rintro rfl
    rw [hNone] at hOwn
    cases hOwn
  have hEither {j : Nat} {s : GoString} (hOwn : Function.update owns i own j = some s) :
      owns j = some s ∨ j = i ∧ own = some s := by
    by_cases hSame : j = i
    · subst hSame
      rw [Function.update_self] at hOwn
      exact .inr ⟨rfl, hOwn⟩
    · rw [Function.update_of_ne hSame] at hOwn
      exact .inl hOwn
  exact
    { hCustody with
      apart := by
        intro j m s hOwn hOwn'
        rcases hEither hOwn with hOld | ⟨rfl, hNew⟩
        · rcases hEither hOwn' with hOld' | ⟨rfl, hNew'⟩
          · exact hCustody.apart hOld hOld'
          · exact absurd hOld (hFresh s hNew' j)
        · rcases hEither hOwn' with hOld' | ⟨rfl, -⟩
          · exact absurd hOld' (hFresh s hNew m)
          · rfl
      nonempty := by
        intro j hOwn
        rcases hEither hOwn with hOld | ⟨-, hNew⟩
        · exact hCustody.nonempty hOld
        · exact hNonempty hNew
      issuedOwn := by
        intro j ar hIssued
        have hOwn := hCustody.issuedOwn hIssued
        rw [hOther hOwn, hOwn]
      spent := by
        intro s hVisible
        obtain ⟨j, hOwn, hSpent⟩ := hCustody.spent hVisible
        exact ⟨j, by rw [hOther hOwn, hOwn], by rwa [hOther hOwn]⟩ }

section Step

variable (hCustody : Custody w.storage owns logs) (hJ : b.json.Lossless)
  (hCall : custodyCall (owns i) (logs i) c) (hUntaken : Untaken w.storage logs c)

include hCustody hCall

theorem issuedOnce_step {e : Event Call.Resp} (hEvent : e.1 = c)
    (hIssued : ar ∈ issued (record logs i e j)) (hIssued' : ar' ∈ issued (record logs i e j)) :
    ar = ar' := by
  subst hEvent
  have hAlone {ar ar' : AuthRequest} (hIssues : e.1.issues = some ar)
      (hOld : ar' ∈ issued (logs i)) : False :=
    not_unspent hOld (hCustody.issues_fresh hCall hIssues).2.1
  rcases issued_of_record hIssued with hOld | ⟨rfl, hIssues⟩
  · rcases issued_of_record hIssued' with hOld' | ⟨rfl, hIssues'⟩
    · exact hCustody.issuedOnce hOld hOld'
    · exact (hAlone hIssues' hOld).elim
  · rcases issued_of_record hIssued' with hOld' | ⟨-, hIssues'⟩
    · exact (hAlone hIssues hOld').elim
    · exact Option.some.inj (hIssues.symm.trans hIssues')

include hJ

/-- A secret that comes into an account has been spent by the one who drew it. -/
theorem spent_step
    (hVisible : Visible (exec b c w).2.storage (record logs i ⟨c, (exec b c w).1⟩) s) :
    ∃ j, owns j = some s ∧ ¬Unspent (owns j) (record logs i ⟨c, (exec b c w).1⟩ j) := by
  rcases visible_step hJ hCall hVisible with hOld | ⟨put, hPuts, hs, hCarries⟩
  · obtain ⟨j, hOwn, hSpent⟩ := hCustody.spent hOld
    exact ⟨j, hOwn, fun hUnspent => hSpent (unspent_of_record hUnspent)⟩
  · rcases hCarries with ⟨ar, hHand, rfl⟩ | ⟨hOwn, -⟩
    · obtain ⟨m, hIssued⟩ := hCustody.taken (got_of_inHand hHand)
      exact ⟨m, hCustody.issuedOwn hIssued, not_unspent (issued_record hIssued)⟩
    · refine ⟨i, hOwn, fun hUnspent => ?_⟩
      rw [record, Function.update_self] at hUnspent
      exact hUnspent.2 _ List.mem_cons_self put hPuts s hOwn hs

/-- An auth request that nobody holds any more has been deleted for good. -/
theorem held_step (hGot : ar ∈ got (record logs i ⟨c, (exec b c w).1⟩ j)) :
    Holds (record logs i ⟨c, (exec b c w).1⟩ j) ar ∨ ¬(exec b c w).2.storage.Pending ar := by
  rcases got_of_record hGot with hOld | ⟨rfl, hTaken⟩
  · rcases hCustody.held hOld with hHolds | hGone
    · refine (holds_record hHolds).imp_right fun hDiscards hPending => ?_
      obtain ⟨k, hFound⟩ := hPending
      have hKey := filed_exec hJ hCustody.filed hFound
      rw [← hKey, discards_exec hDiscards] at hFound
      cases hFound
    · refine .inr fun hPending => ?_
      rcases pending_exec hJ hPending with hStill | hIssues
      · exact hGone hStill
      · obtain ⟨m, hIssued⟩ := hCustody.taken hOld
        exact (hCustody.issues_fresh hCall hIssues).2.2.1 m hIssued
  · obtain ⟨key, rfl, -⟩ := taken_exec hTaken
    rw [record, Function.update_self]
    exact .inl (holds_cons nofun (.inl hTaken))

/-- The secret of an auth request that nobody has taken stays out of the accounts. -/
theorem pending_step (hPending : (exec b c w).2.storage.Pending ar)
    (hNone : ∀ j, ar ∉ got (record logs i ⟨c, (exec b c w).1⟩ j)) :
    ¬Visible (exec b c w).2.storage (record logs i ⟨c, (exec b c w).1⟩) ar.authToken.token := by
  have hNone' (j : Nat) : ar ∉ got (logs j) := fun hGot => hNone j (got_record hGot)
  rcases pending_exec hJ hPending with hOld | hIssues
  · obtain ⟨m, hIssued⟩ := hCustody.stored hOld
    exact hCustody.not_visible_step hJ hCall hIssued (hCustody.pending hOld hNone')
      fun hOwn => absurd (got_of_inHand hOwn) (hNone' _)
  · obtain ⟨-, -, -, hOut⟩ := hCustody.issues_fresh hCall hIssues
    intro hVisible
    rcases visible_step hJ hCall hVisible with hOld | ⟨put, hPuts, -⟩
    · exact hOut hOld
    · obtain rfl := Call.issues_eq_some hIssues
      cases hPuts

include hUntaken

/-- The secret of an auth request in hand stays out of the accounts: whoever stores an
account with it has it in hand, and then it is in hand no more. -/
theorem hand_step (hHand : ar ∈ inHand (record logs i ⟨c, (exec b c w).1⟩ j)) :
    ¬Visible (exec b c w).2.storage (record logs i ⟨c, (exec b c w).1⟩) ar.authToken.token := by
  rcases inHand_of_record hHand with ⟨hOld, hPuts⟩ | ⟨rfl, hTaken⟩
  · obtain ⟨m, hIssued⟩ := hCustody.taken (got_of_inHand hOld)
    refine hCustody.not_visible_step hJ hCall hIssued (hCustody.hand hOld) fun hOwn => ?_
    exact hPuts (hCustody.holder (got_of_inHand hOld) (got_of_inHand hOwn))
  · obtain ⟨hPending, hNone⟩ := hCustody.not_got hUntaken hTaken
    obtain ⟨m, hIssued⟩ := hCustody.stored hPending
    exact hCustody.not_visible_step hJ hCall hIssued (hCustody.pending hPending hNone)
      fun hOwn => absurd (got_of_inHand hOwn) (hNone _)

/-- A call of one of the requests keeps everything in custody. -/
theorem step : Custody (exec b c w).2.storage owns (record logs i ⟨c, (exec b c w).1⟩) where
  apart := hCustody.apart
  nonempty := hCustody.nonempty
  nodup {k acc} hFound := by
    rcases secrets_exec hJ hFound with hOld | ⟨put, hPuts, hSame⟩
    · exact hCustody.nodup hOld
    · obtain ⟨now, rfl⟩ := Call.puts_eq_some hPuts
      rw [hSame]
      exact hCall.1
  filed := filed_exec hJ hCustody.filed
  issuedOwn {j ar} hIssued := by
    rcases issued_of_record hIssued with hOld | ⟨rfl, hIssues⟩
    · exact hCustody.issuedOwn hOld
    · exact (hCustody.issues_fresh hCall hIssues).1
  issuedOnce := hCustody.issuedOnce_step hCall rfl
  stored {ar} hPending := by
    rcases pending_exec hJ hPending with hOld | hIssues
    · obtain ⟨j, hIssued⟩ := hCustody.stored hOld
      exact ⟨j, issued_record hIssued⟩
    · refine ⟨i, ?_⟩
      rw [record, Function.update_self]
      exact mem_issued_cons.mpr (.inl hIssues)
  taken {j ar} hGot := by
    rcases got_of_record hGot with hOld | ⟨-, hTaken⟩
    · obtain ⟨m, hIssued⟩ := hCustody.taken hOld
      exact ⟨m, issued_record hIssued⟩
    · obtain ⟨m, hIssued⟩ := hCustody.stored (hCustody.not_got hUntaken hTaken).1
      exact ⟨m, issued_record hIssued⟩
  spent := hCustody.spent_step hJ hCall
  holder {j m ar} hGot hGot' := by
    rcases got_of_record hGot with hOld | ⟨rfl, hTaken⟩
    · rcases got_of_record hGot' with hOld' | ⟨rfl, hTaken'⟩
      · exact hCustody.holder hOld hOld'
      · exact absurd hOld ((hCustody.not_got hUntaken hTaken').2 _)
    · rcases got_of_record hGot' with hOld' | ⟨rfl, -⟩
      · exact absurd hOld' ((hCustody.not_got hUntaken hTaken).2 _)
      · rfl
  held := hCustody.held_step hJ hCall
  hand := hCustody.hand_step hJ hCall hUntaken
  pending := hCustody.pending_step hJ hCall

end Step

end Custody

end PadlockCloud
