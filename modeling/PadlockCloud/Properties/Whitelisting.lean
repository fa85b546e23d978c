import PadlockCloud.Model.Whitelist
import PadlockCloud.Properties.Isolation
import PadlockCloud.Request.Pools
import PadlockCloud.Request.Scope

/-!
# The reach of the whitelist

The whitelist is looked at in one place only, before an auth request is stored. Still, a
server with a whitelist never holds a record for any other email, and sends no other email
a mail but the note on a deprecated version: whatever the requests and however they
interleave, accounts and data stores are written only for what an auth request led to.
-/

namespace PadlockCloud

open Process

/-- The email is one of the list, as JSON keeps it. -/
def Listed (b : Backend) (emails : List GoString) (key : GoString) : Prop :=
  ∃ e ∈ emails, key = b.json.coerce e

/-- Every record is for an email of the list. -/
structure Tables.Listed (b : Backend) (emails : List GoString) (T : Tables) : Prop where
  accounts : ∀ {key acc}, T.accounts key = some acc → PadlockCloud.Listed b emails key
  dataStores : ∀ {key content}, T.dataStores key = some content → PadlockCloud.Listed b emails key
  authRequests : ∀ {key ar}, T.authRequests key = some ar →
    PadlockCloud.Listed b emails ar.authToken.email

/-- The mail is for an email of the list, or it is the note on a deprecated version. -/
def Mail.Expected (emails : List GoString) (mail : Mail) : Prop :=
  mail.recipient ∈ emails ∨ mail.subject = deprecatedSubject

namespace Call

variable {b : Backend} {emails : List GoString} {c : Call} {w : World Tables}

/-- What is found is for an email of the list. -/
def findsListed (b : Backend) (emails : List GoString) (c : Call) (answer : c.Resp) : Prop :=
  c.sound b answer ∧ match c, answer with
    | .storage (.getAccount key), answer => ∀ acc, answer = .ok acc → Listed b emails key
    | .storage (.getAuthRequest _), answer => ∀ ar, answer = .ok ar →
      Listed b emails ar.authToken.email
    | _, _ => True

/-- The call writes for an email of the list. -/
def writesListed (b : Backend) (emails : List GoString) : Call → Prop
  | .storage (.putAccount _ acc) => acc.Sound b.json acc.email ∧ Listed b emails acc.email
  | .storage (.putDataStore acc _) => Listed b emails acc.email
  | .storage (.putAuthRequest ar) => ar.authToken.Issued b.json ∧ ar.authToken.email ∈ emails
  | .send mail => mail.Expected emails
  | _ => True

theorem keepsSound_writesListed (hWrites : c.writesListed b emails) : c.keepsSound b := by
  rcases c with c | _ | _ | _
  · cases c with
    | putAccount now acc => exact hWrites.1
    | putAuthRequest ar => exact hWrites.1
    | _ => trivial
  all_goals trivial

theorem findsListed_response (hSound : w.storage.Sound b.json) (hListed : w.storage.Listed b emails)
    (c : Call) : c.findsListed b emails (exec b c w).1 := by
  refine ⟨sound_response hSound c, ?_⟩
  rcases c with c | _ | _ | _
  · cases c with
    | getAccount key => exact fun acc hFound => hListed.accounts (lookup_ok hFound)
    | getAuthRequest key => exact fun ar hFound => hListed.authRequests (lookup_ok hFound)
    | _ => trivial
  all_goals trivial

/-- The tables keep to the list. -/
theorem listed_exec (hListed : w.storage.Listed b emails) (hWrites : c.writesListed b emails) :
    (exec b c w).2.storage.Listed b emails := by
  refine ⟨?_, ?_, ?_⟩
  · intro key acc hFound
    rcases accounts_exec hFound with hOld | ⟨now, put, rfl, rfl, -⟩
    · exact hListed.accounts hOld
    · exact hWrites.2
  · intro key content hFound
    rcases c with c | _ | _ | _
    · cases c with
      | putDataStore acc new =>
        simp only [World.step, Tables.step, Tables.putDataStore, Function.update_apply] at hFound
        split at hFound
        · rename_i hKey
          rw [hKey]
          exact hWrites
        · exact hListed.dataStores hFound
      | deleteDataStore k =>
        simp only [World.step, Tables.step, Tables.putDataStore, Function.update_apply] at hFound
        split at hFound
        · cases hFound
        · exact hListed.dataStores hFound
      | _ => exact hListed.dataStores hFound
    all_goals exact hListed.dataStores hFound
  · intro key ar hFound
    rcases authRequests_exec hFound with hOld | ⟨new, rfl, rfl, rfl⟩
    · exact hListed.authRequests hOld
    · exact ⟨_, hWrites.2, rfl⟩

end Call

/-- The string is one of the lines that are read from the file. -/
def InFile (content e : GoString) : Prop := ∃ lines, scanLines content = some lines ∧ e ∈ lines

namespace Server

variable {srv : Server} {b : Backend} {emails : List GoString} {P Q : ServerPool}
  {starts : ServerPool → Action → Prop}

theorem scope_listed (hWhitelist : srv.whitelist = some emails) :
    Scope srv b (Listed b emails) (Call.findsListed b emails) (Call.writesListed b emails) where
  sound _ _ hFinds := hFinds.1
  found hFinds := hFinds.2 _ rfl
  admits hListed :=
    { get := trivial
      put := fun hSound => ⟨hSound.email ▸ hSound, hSound.email ▸ hListed⟩
      delete := trivial
      putData := fun hEmail => by
        rw [Call.writesListed, hEmail]
        exact hListed
      deleteData := trivial }
  asks ar hIssued hEmail := by
    rw [isWhitelisted, hWhitelist] at hEmail
    exact ⟨hIssued, List.contains_iff_mem.mp hEmail⟩
  mails mail hRecipient := by
    rw [isWhitelisted, hWhitelist] at hRecipient
    exact .inl (List.contains_iff_mem.mp hRecipient)
  notes _ _ := .inr rfl
  harmless c hHarmless := by
    rcases c with c | _ | _ | _
    · cases c with
      | putAccount now acc => exact hHarmless.elim
      | putAuthRequest ar => exact hHarmless.elim
      | putDataStore acc content => exact hHarmless.elim
      | _ => trivial
    · trivial
    · trivial
    · exact hHarmless.elim

/-- The state keeps to the list. -/
structure Keeping (b : Backend) (emails : List GoString) (w : World Tables) : Prop where
  sound : w.storage.Sound b.json
  listed : w.storage.Listed b emails
  outbox : ∀ mail ∈ w.outbox, mail.Expected emails

theorem Keeping.exec {w : World Tables} {c : Call} (hKeeping : Keeping b emails w)
    (hWrites : c.writesListed b emails) : Keeping b emails (exec b c w).2 where
  sound := Call.sound_exec hKeeping.sound (Call.keepsSound_writesListed hWrites)
  listed := Call.listed_exec hKeeping.listed hWrites
  outbox mail hMail := by
    rcases c with c | email | email | new
    · exact hKeeping.outbox mail hMail
    · exact hKeeping.outbox mail hMail
    · exact hKeeping.outbox mail hMail
    · rcases List.mem_append.mp hMail with hOld | hNew
      · exact hKeeping.outbox mail hOld
      · rw [List.mem_singleton.mp hNew]
        exact hWrites

theorem keeping_interleaves (hWhitelist : srv.whitelist = some emails)
    (hKeeping : Keeping b emails P.state) (hFresh : P.threads = [])
    (hSteps : srv.Interleaves b starts P Q) : Keeping b emails Q.state := by
  have hProgram (action : Action) : (action.program srv).Stays (Call.findsListed b emails)
      (Call.writesListed b emails) fun _ => True :=
    (scope_listed hWhitelist).program fun email acc _ hFound => hFound.2 acc rfl
  apply Pool.stays hSteps hFresh hKeeping hProgram
  intro w c hKeeping hWrites
  exact ⟨Call.findsListed_response hKeeping.sound hKeeping.listed c, hKeeping.exec hWrites⟩

/-- The file with the one email. -/
def oneEmail (path : GoString) : Option GoString :=
  if path = lit "whitelist" then some (lit "e@x.io\n") else none

/-- The standard server with a whitelist. -/
def listing : Server := { standard with whitelist := some [lit "e@x.io"] }

end Server

end PadlockCloud
