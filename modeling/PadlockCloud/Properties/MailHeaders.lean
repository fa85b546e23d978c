import PadlockCloud.Format.Header
import PadlockCloud.Model.Sender
import PadlockCloud.Model.Standard
import PadlockCloud.Request.Contracts

/-!
# The headers of the mails

A message is put together from strings that nobody has checked: the recipient is what the
client has submitted, and the body may be or contain anything. The subject is a fixed text
or ends with a code of hexadecimal digits, and the transport refuses a sender or recipient
with a line break. So the first blank line of a message that is delivered is the one behind
its three fields.
-/

namespace PadlockCloud

open Process

/-- `Name: value` on lines that end with CR and LF. -/
def mailLayout : Format.Layout UInt8 where
  sep := lit ": "
  eol := lit "\r\n"
  sep_ne_nil := by decide
  eol_ne_nil := by decide
  sep_plain := by decide +kernel

/-- A reader for which a LF ends a line as well, with or without a CR before it. -/
def lineFeedReader : Format.LineReader mailLayout where
  next s :=
    (Format.cut [0x0A] s).map fun parts =>
      (if parts.1.getLast? = some 0x0D then parts.1.dropLast else parts.1, parts.2)
  shorter := by
    intro s line rest hNext
    obtain ⟨parts, hCut, hParts⟩ := Option.map_eq_some_iff.mp hNext
    obtain ⟨-, rfl⟩ := Prod.mk.inj hParts
    rw [(Format.cut_eq_some.mp hCut).text]
    simp only [List.length_append, List.length_singleton]
    omega
  next_plain := by
    intro line rest hPlain
    have hApart : ∀ c ∈ line ++ [0x0D], c ∉ [(0x0A : UInt8)] := by
      rw [List.forall_mem_append]
      refine ⟨?_, by decide +kernel⟩
      intro c hc hLine
      exact hPlain c hc (List.mem_cons_of_mem 0x0D hLine)
    have hCut := Format.cut_append (List.cons_ne_nil _ _) hApart rest
    have hText : line ++ mailLayout.eol ++ rest = line ++ [0x0D] ++ [0x0A] ++ rest := by
      simp only [List.append_assoc]
      rfl
    rw [hText, hCut, Option.map_some, List.getLast?_concat, if_pos rfl, List.dropLast_concat]

/-- What `smtp.SendMail` promises: it delivers nothing if there is a CR or an LF in the
address of the sender or of a recipient. -/
def RefusesLineBreaks (sendFunc : SendFunc) : Prop :=
  ∀ args, sendFunc args = .ok () →
    mailLayout.Plain args.fromAddress ∧ ∀ rec ∈ args.recipients, mailLayout.Plain rec

/-! ## Messages -/

def mailField (name value : GoString) (hName : ∀ c ∈ name, c ∉ mailLayout.sep ++ mailLayout.eol)
    (hValue : mailLayout.Plain value) : Format.Field mailLayout where
  name
  value
  name_apart := fun c hc hSep => hName c hc (List.mem_append_left _ hSep)
  name_plain := fun c hc hEol => hName c hc (List.mem_append_right _ hEol)
  value_plain := hValue

def subjectField {subject : GoString} (hSubject : mailLayout.Plain subject) :
    Format.Field mailLayout :=
  mailField (lit "Subject") subject (by decide +kernel) hSubject

def fromField {fromAddress : GoString} (hFrom : mailLayout.Plain fromAddress) :
    Format.Field mailLayout :=
  mailField (lit "From") fromAddress (by decide +kernel) hFrom

def toField {rec : GoString} (hTo : mailLayout.Plain rec) : Format.Field mailLayout :=
  mailField (lit "To") rec (by decide +kernel) hTo

namespace EmailSender

variable {sender : EmailSender} {rec subject body : GoString}

/-- What stands before the blank line of the format string of `Send`. -/
def header (sender : EmailSender) (rec subject : GoString) : GoString :=
  lit "Subject: " ++ subject ++ lit "\r\nFrom: " ++ sender.fromAddress ++ lit "\r\nTo: " ++ rec

theorem message_eq :
    sender.message rec subject body =
      sender.header rec subject ++ (mailLayout.eol ++ mailLayout.eol) ++ body := rfl

/-- The header in the terms of the layout. -/
theorem header_eq : sender.header rec subject =
    lit "Subject" ++ mailLayout.sep ++ subject ++ mailLayout.eol ++
      (lit "From" ++ mailLayout.sep ++ sender.fromAddress ++ mailLayout.eol ++
        (lit "To" ++ mailLayout.sep ++ rec)) := by
  have hSubject : lit "Subject: " = lit "Subject" ++ mailLayout.sep := by decide
  have hFrom : lit "\r\nFrom: " = mailLayout.eol ++ (lit "From" ++ mailLayout.sep) := by decide
  have hTo : lit "\r\nTo: " = mailLayout.eol ++ (lit "To" ++ mailLayout.sep) := by decide
  rw [header, hSubject, hFrom, hTo]
  simp only [List.append_assoc]

theorem message_eq_print (hSubject : mailLayout.Plain subject)
    (hFrom : mailLayout.Plain sender.fromAddress) (hTo : mailLayout.Plain rec) :
    sender.message rec subject body =
      Format.print [subjectField hSubject, fromField hFrom, toField hTo] body := by
  rw [message_eq, header_eq, Format.print_eq_heading]
  rfl

/-- The refusal is needed: a recipient with a line break brings a field of its own. -/
theorem read_injected (hSubject : mailLayout.Plain subject)
    (hFrom : mailLayout.Plain sender.fromAddress) (hTo : mailLayout.Plain rec)
    (injected : Format.Field mailLayout) (R : Format.LineReader mailLayout) :
    R.read (sender.message (rec ++ mailLayout.eol ++ injected.line) subject body) =
      some ([(lit "Subject", subject), (lit "From", sender.fromAddress), (lit "To", rec),
        injected.pair], body) := by
  have hMessage : sender.message (rec ++ mailLayout.eol ++ injected.line) subject body =
      Format.print [subjectField hSubject, fromField hFrom, toField hTo, injected] body := by
    rw [message_eq, header_eq, Format.print_eq_heading, ← List.append_assoc _ _ injected.line,
      ← List.append_assoc _ rec]
    rfl
  exact (congrArg R.read hMessage).trans (Format.LineReader.read_print _ body)

/-- The addresses of what is delivered have no line break. -/
theorem plain_of_send (hRefuses : RefusesLineBreaks sender.sendFunc)
    (hSent : sender.send rec subject body = .ok ()) :
    mailLayout.Plain sender.fromAddress ∧ mailLayout.Plain rec := by
  obtain ⟨hFrom, hRecipients⟩ := hRefuses _ hSent
  exact ⟨hFrom, hRecipients rec (List.mem_singleton.mpr rfl)⟩

end EmailSender

/-- The message has its first blank line behind the three fields, and every reader finds
them with their values, whether a bare LF is the end of a line for it or not. -/
structure ReadsAs (msg subject fromAddress rec body : GoString) : Prop where
  cut : Format.cut (lit "\r\n\r\n") msg =
    some (lit "Subject: " ++ subject ++ lit "\r\nFrom: " ++ fromAddress ++ lit "\r\nTo: " ++ rec,
      body)
  read : ∀ R : Format.LineReader mailLayout, R.read msg =
    some ([(lit "Subject", subject), (lit "From", fromAddress), (lit "To", rec)], body)

/-- What is delivered is read as what was handed to `Send`, for every subject without a
line break. -/
theorem EmailSender.readsAs_of_send {sender : EmailSender} {rec subject body : GoString}
    (hRefuses : RefusesLineBreaks sender.sendFunc) (hSubject : mailLayout.Plain subject)
    (hSent : sender.send rec subject body = .ok ()) :
    ReadsAs (sender.sendArgs rec subject body).msg subject sender.fromAddress rec body := by
  obtain ⟨hFrom, hTo⟩ := plain_of_send hRefuses hSent
  have hMessage : sender.message rec subject body = _ := message_eq_print hSubject hFrom hTo
  constructor
  · have hCut := congrArg (Format.cut (mailLayout.eol ++ mailLayout.eol)) hMessage
    rw [Format.cut_print] at hCut
    exact hCut.trans (congrArg (fun s => some (s, body)) header_eq.symm)
  · intro R
    exact (congrArg R.read hMessage).trans (Format.LineReader.read_print _ body)

/-- If the mail is delivered, it is read as the subject, the sender, the email and the
body. -/
def Mail.Intact (sender : EmailSender) (email : GoString) (mail : Mail) : Prop :=
  let subject := render mail.subject
  let body := render mail.body
  sender.send mail.recipient subject body = .ok () →
    ReadsAs (sender.sendArgs mail.recipient subject body).msg subject sender.fromAddress email body

/-- For a mail it is enough that its subject has no line break. -/
theorem Mail.intact {sender : EmailSender} {mail : Mail}
    (hRefuses : RefusesLineBreaks sender.sendFunc)
    (hSubject : mailLayout.Plain (render mail.subject)) : mail.Intact sender mail.recipient := by
  intro hSent
  exact EmailSender.readsAs_of_send hRefuses hSubject hSent

/-! ## What a program mails -/

section Mailing

variable {α σ : Type} {P : Mail → Prop}

/-- Every mail is of a kind, whatever the calls are answered. -/
def mailing (P : Mail → Prop) : Contract Call.Resp where
  call _ c := ∀ mail, c = .send mail → P mail
  response _ _ _ := True

/-- With any storage, the mails of such a program are of that kind. -/
theorem outbox_of_meets {S : Interp StorageCall.Resp σ} {p : Serve α}
    {post : List (Event Call.Resp) → α → Prop} {log : List (Event Call.Resp)}
    (hMeets : p.Meets (mailing P) post log) (w : World σ) :
    ∃ mails, (p.run (World.step S) w).2.outbox = w.outbox ++ mails ∧ ∀ mail ∈ mails, P mail := by
  induction p generalizing log w with
  | pure a => exact ⟨[], (List.append_nil _).symm, nofun⟩
  | fail e => exact ⟨[], (List.append_nil _).symm, nofun⟩
  | call c k ih =>
    obtain ⟨hCall, hRest⟩ := hMeets
    obtain ⟨mails, hOutbox, hMails⟩ :=
      ih (World.step S c w).1 (hRest _ trivial) (World.step S c w).2
    rw [Program.run_call, hOutbox]
    cases c with
    | storage c => exact ⟨mails, rfl, hMails⟩
    | lock email => exact ⟨mails, rfl, hMails⟩
    | unlock email => exact ⟨mails, rfl, hMails⟩
    | send mail =>
      refine ⟨mail :: mails, List.append_assoc _ _ _, ?_⟩
      intro mail' hMem
      rcases List.mem_cons.mp hMem with rfl | hRest
      · exact hCall _ rfl
      · exact hMails mail' hRest

theorem mailing_store (c : StorageCall) : Complies (mailing P) (store c) := by
  intro log
  apply Program.Meets.call
  · intro mail hSend
    cases hSend
  · intro result _
    trivial

theorem mailing_sendMail {mail : Mail} (hMail : P mail) : Complies (mailing P) (sendMail mail) := by
  intro log
  apply Program.Meets.call
  · intro mail' hSend
    cases hSend
    exact hMail
  · intro result _
    trivial

end Mailing

namespace Server

variable {σ : Type} {srv : Server} {env : Env} {r : Request} {auth : Option Auth}
  {sender : EmailSender} {f : AuthForm} {ar : AuthRequest} {P : Mail → Prop}

/-! ## The subjects -/

theorem urlSafe_plain {s : GoString} (hSafe : s.all urlSafe = true) : mailLayout.Plain s := by
  intro c hc
  have hByte : urlSafe c = true → c ∉ mailLayout.eol :=
    forall_byte (P := fun c => urlSafe c = true → c ∉ mailLayout.eol) (by decide +kernel) c
  exact hByte (List.all_eq_true.mp hSafe c hc)

/-- A subject is a fixed text, or such a text and a code. -/
theorem authSubject_plain (hCode : ar.code.all urlSafe = true) :
    mailLayout.Plain (render (authSubject f ar)) := by
  unfold authSubject
  split
  · split
    · have hText : mailLayout.Plain (lit "Your Padlock Login Code: ") := by decide
      rw [render, List.flatMap_cons, List.flatMap_singleton]
      exact Format.Layout.plain_append.mpr ⟨hText, urlSafe_plain hCode⟩
    · decide
  · decide

/-! ## The handlers -/

theorem mailing_checkAccount (email : GoString) :
    Complies (mailing P) (checkAccount r email) := by
  intro log
  apply meets_checkAccount (I := fun _ => True)
  · intro _ c _ mail hSend
    cases hSend
  · intro _ _ _ _ _
    trivial
  · trivial

/-- The code of an auth request has digits only. -/
theorem mailing_issueAuthRequest (hType : f.type ≠ []) :
    Obeys (mailing P) (fun ar => ar.code.all urlSafe = true) (issueAuthRequest env f) := by
  unfold issueAuthRequest
  cases hNew : newAuthRequest env f.email f.type f.actType f.device with
  | none => exact .fail _
  | some new =>
    obtain ⟨-, -, -, hCode, -⟩ := newAuthRequest_key hNew hType
    refine .bind (.bind (mailing_store _) fun result _ => complies_orFail) ?_
    intro _ _
    exact .pure hCode

theorem mailing_sendActivation (hRefuses : RefusesLineBreaks sender.sendFunc)
    (hCode : ar.code.all urlSafe = true) :
    Complies (mailing (Mail.Intact sender f.email)) (srv.sendActivation env r f ar) := by
  unfold sendActivation
  split
  · exact .pure trivial
  · split
    · exact .fail _
    · cases srv.templates.activateAuthTokenEmail (srv.activationLink r ar) ar.authToken ar.code with
      | none => exact .fail _
      | some body => exact mailing_sendMail (Mail.intact hRefuses (authSubject_plain hCode))

theorem mailing_requestAuthToken (hRefuses : RefusesLineBreaks sender.sendFunc) :
    Complies (mailing (Mail.Intact sender (r.postFormValue srv.net (lit "email"))))
      (srv.requestAuthToken env r auth) := by
  unfold requestAuthToken
  dsimp only
  cases hCheck : AuthForm.check srv (srv.authForm r auth) with
  | error e => exact .fail e
  | ok u =>
    have hType : (srv.authForm r auth).type ≠ [] := by
      rcases (AuthForm.check_ok hCheck).2.2.1 with hType | hType <;> rw [hType] <;> decide
    refine .bind (mailing_checkAccount _) ?_
    intro _ _
    refine .bind (mailing_issueAuthRequest hType) ?_
    intro ar hCode
    refine .bind (complies_authResponse _ ar) ?_
    intro response _
    refine .bind (mailing_sendActivation (f := srv.authForm r auth) hRefuses hCode) ?_
    intro _ _
    exact .pure trivial

/-- The mail goes to the email that was found in the request. -/
theorem mailing_sendDeprecatedVersionEmail (hRefuses : RefusesLineBreaks sender.sendFunc) :
    Complies (mailing fun mail => ∃ email, srv.deprecatedVersionRecipient r = some email ∧
      mail.Intact sender email) (srv.sendDeprecatedVersionEmail env r) := by
  unfold sendDeprecatedVersionEmail
  refine .bind (.orPanic fun email hEmail => hEmail) ?_
  intro email hEmail
  split
  · cases srv.templates.deprecatedVersionEmail with
    | none => exact .pure trivial
    | some body =>
      have hSubject : mailLayout.Plain
        (render [.text (lit "Please update your version of Padlock")]) := by decide
      apply mailing_sendMail
      exact ⟨email, hEmail, Mail.intact hRefuses hSubject⟩
  · exact .pure trivial

/-- No client can bring a field or a body of its own into a mail: every mail that a request
for a token or a deprecated request sends arrives with the subject, the sender, the
submitted email and the body, and nothing else. -/
theorem mails_arrive_intact (srv : Server) (S : Interp StorageCall.Resp σ) (env : Env)
    (r : Request) (auth : Option Auth) (w : World σ) (sender : EmailSender)
    (hRefuses : RefusesLineBreaks sender.sendFunc) :
    (∃ mails,
      ((srv.requestAuthToken env r auth).run (World.step S) w).2.outbox = w.outbox ++ mails ∧
        ∀ mail ∈ mails, mail.Intact sender (r.postFormValue srv.net (lit "email"))) ∧
    ∃ mails,
      ((srv.sendDeprecatedVersionEmail env r).run (World.step S) w).2.outbox = w.outbox ++ mails ∧
        ∀ mail ∈ mails, ∃ email, srv.deprecatedVersionRecipient r = some email ∧
          mail.Intact sender email := by
  constructor
  · exact outbox_of_meets (mailing_requestAuthToken hRefuses []) w
  · exact outbox_of_meets (mailing_sendDeprecatedVersionEmail hRefuses []) w

/-! ## A login code by mail -/

/-- A transport that delivers everything that it does not have to refuse. -/
def carefulSendMail : SendFunc := fun args =>
  if mailLayout.Plain args.fromAddress ∧ ∀ rec ∈ args.recipients, mailLayout.Plain rec then .ok ()
  else .error (lit "smtp: A line must not contain CR or LF")

theorem refuses_carefulSendMail : RefusesLineBreaks carefulSendMail := by
  intro args hSent
  unfold carefulSendMail at hSent
  split at hSent
  · assumption
  · cases hSent

def noreplySender : EmailSender :=
  newEmailSender carefulSendMail
    { user := lit "noreply", server := lit "x.io", port := lit "587" }

/-- A client that asks for a login code. -/
def pairingRequest : Request :=
  clientRequest (lit "POST") [] [] (lit "type=api&actType=code&email=e@x.io")

/-- One activation mail is sent. -/
theorem mails_arrive_intact_pairing :
    (∃ mails, mails.length = 1 ∧
      ((standard.requestAuthToken (.after 0 (.constant 0)) pairingRequest none).run
        (World.step (Tables.step .levelDB)) freshWorld).2.outbox = freshWorld.outbox ++ mails ∧
        ∀ mail ∈ mails,
          mail.Intact noreplySender (pairingRequest.postFormValue standard.net (lit "email"))) ∧
    ∃ mails,
      ((standard.sendDeprecatedVersionEmail (.after 0 (.constant 0)) pairingRequest).run
        (World.step (Tables.step .levelDB)) freshWorld).2.outbox = freshWorld.outbox ++ mails ∧
        ∀ mail ∈ mails, ∃ email, standard.deprecatedVersionRecipient pairingRequest = some email ∧
          mail.Intact noreplySender email := by
  obtain ⟨⟨mails, hSent, hIntact⟩, hDeprecated⟩ :=
    mails_arrive_intact standard (Tables.step .levelDB) (.after 0 (.constant 0)) pairingRequest none
      freshWorld noreplySender refuses_carefulSendMail
  have hOne : ((standard.requestAuthToken (.after 0 (.constant 0)) pairingRequest none).run
      (World.step (Tables.step .levelDB)) freshWorld).2.outbox.length = 1 := by
    decide +kernel
  refine ⟨⟨mails, ?_, hSent, hIntact⟩, hDeprecated⟩
  rw [hSent] at hOne
  exact hOne

/-- The mail is sent and delivered. -/
example :
    ((standard.requestAuthToken (.after 0 (.constant 0)) pairingRequest none).run (exec .levelDB)
      freshWorld).2.outbox.map (fun mail =>
        (mail.recipient,
          noreplySender.send mail.recipient (render mail.subject) (render mail.body))) =
      [(lit "e@x.io", .ok ())] := by
  decide +kernel

end Server

end PadlockCloud
