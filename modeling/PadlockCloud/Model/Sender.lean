import PadlockCloud.Model.Mail

/-!
# The sender

`sender.go`: how a mail becomes a message and is handed to `smtp.SendMail`. The
subject, the sender and the recipient go into the header as they are; what is not
sent because of them is for the transport to say.
-/

namespace PadlockCloud

/-- `EmailConfig`, with `fromAddress` for the field `From`. -/
structure EmailConfig where
  user : GoString := []
  server : GoString := []
  port : GoString := []
  password : GoString := []
  fromAddress : GoString := []

/-- The arguments of `smtp.PlainAuth`. -/
structure PlainAuth where
  identity : GoString
  username : GoString
  password : GoString
  host : GoString
  deriving DecidableEq

/-- The arguments of `smtp.SendMail`. -/
structure SendArgs where
  addr : GoString
  auth : Option PlainAuth
  fromAddress : GoString
  recipients : List GoString
  msg : GoString
  deriving DecidableEq

/-- A function like `smtp.SendMail`, with the text of its error. A message without
an error has been delivered. -/
abbrev SendFunc := SendArgs → Except GoString Unit

structure EmailSender where
  config : EmailConfig
  sendFunc : SendFunc

/-- `NewEmailSender`, where `smtp.SendMail` is a parameter. -/
def newEmailSender (smtpSendMail : SendFunc) (c : EmailConfig) : EmailSender :=
  { config := c, sendFunc := smtpSendMail }

namespace EmailSender

variable (sender : EmailSender)

def auth : Option PlainAuth :=
  if sender.config.user ≠ [] then
    some
      { identity := []
        username := sender.config.user
        password := sender.config.password
        host := sender.config.server }
  else none

/-- The configured address, or else the user. -/
def fromAddress : GoString :=
  if sender.config.fromAddress = [] then sender.config.user else sender.config.fromAddress

def message (rec subject body : GoString) : GoString :=
  lit "Subject: " ++ subject ++ lit "\r\nFrom: " ++ sender.fromAddress ++ lit "\r\nTo: " ++ rec ++
    lit "\r\n\r\n" ++ body

/-- What `Send` calls its `SendFunc` with. -/
def sendArgs (rec subject body : GoString) : SendArgs :=
  { addr := sender.config.server ++ lit ":" ++ sender.config.port
    auth := sender.auth
    fromAddress := sender.fromAddress
    recipients := [rec]
    msg := sender.message rec subject body }

/-- `EmailSender.Send` -/
def send (rec subject body : GoString) : Except GoString Unit :=
  sender.sendFunc (sender.sendArgs rec subject body)

end EmailSender

end PadlockCloud
