import PadlockCloud.Model.Auth

/-!
# Mails

The mail templates of `assets/templates/email`, executed by `html/template`.
A rendered body is kept as the pieces that the template actions put out, so
that one can say what a mail offers its reader (a link, a code) and not only
which characters it consists of.
-/

namespace PadlockCloud

/-- A stretch of a rendered mail: text of the template, a value inserted by an
action, or the two values that activate a token. -/
inductive Piece where
  | text (s : GoString)
  | link (s : GoString)
  | code (s : GoString)
  deriving DecidableEq

def Piece.content : Piece → GoString
  | .text s | .link s | .code s => s

structure Mail where
  recipient : GoString
  subject : List Piece
  body : List Piece
  deriving DecidableEq

/-- The text of a subject or a body. -/
def render (pieces : List Piece) : GoString := pieces.flatMap Piece.content

/-- The escaping that `html/template` applies to a value in running text. -/
def escapeByte (b : UInt8) : GoString :=
  if b = 0x00 then [0xEF, 0xBF, 0xBD]
  else if b = 0x22 then lit "&#34;"
  else if b = 0x26 then lit "&amp;"
  else if b = 0x27 then lit "&#39;"
  else if b = 0x2B then lit "&#43;"
  else if b = 0x3C then lit "&lt;"
  else if b = 0x3E then lit "&gt;"
  else [b]

def escapeHtml (s : GoString) : GoString := s.flatMap escapeByte

theorem escapeHtml_append (s t : GoString) : escapeHtml (s ++ t) = escapeHtml s ++ escapeHtml t :=
  List.flatMap_append

/-- Encoded tokens and codes are not touched by the escaping. -/
theorem escapeHtml_urlSafe {s : GoString} (hSafe : s.all urlSafe = true) : escapeHtml s = s := by
  induction s with
  | nil => rfl
  | cons b s ih =>
    simp only [List.all_cons, Bool.and_eq_true] at hSafe
    have hByte : urlSafe b = true → escapeByte b = [b] :=
      forall_byte (P := fun b => urlSafe b = true → escapeByte b = [b]) (by decide +kernel) b
    rw [escapeHtml, List.flatMap_cons, hByte hSafe.1]
    exact congrArg (b :: ·) (ih hSafe.2)

/-- `base.txt.tmpl` around the block `main`. -/
def baseEmail (main : List Piece) : List Piece :=
  [.text (lit "Hi there!\n\n")] ++ main ++ [.text (lit "\n\nBest,\nThe Padlock Team\n")]

/-- `activate-auth-token.txt.tmpl` -/
def activateAuthTokenEmail (activationLink : GoString) (token : AuthToken) (code : GoString) :
    List Piece :=
  baseEmail <|
    if token.type = lit "web" then
      [.text (lit "Here is the login link for your account "),
        .text (escapeHtml token.email),
        .text (lit ". Just click the link to log in!\n\n"),
        .link (escapeHtml activationLink)]
    else
      [.text (lit "You are receiving this email because you requested to pair your Device \""),
        .text (escapeHtml token.description),
        .text (lit "\" with the Padlock account \""),
        .text (escapeHtml token.email),
        .text (lit "\".")] ++
      (if code ≠ [] then
        [.text (lit "\n\nYour login code is: "), .code (escapeHtml code), .text (lit "\n\n")]
      else
        [.text (lit "\n\nTo finish the pairing process, please visit the following link:\n\n"),
          .link (escapeHtml activationLink), .text (lit "\n\n")]) ++
      [.text (lit "WARNING: If you did not request to pair this device with your account, " ++
        lit "please disregard the previous instructions and contact us at support@padlock.io.")]

/-- `deprecated-version.txt.tmpl` -/
def deprecatedVersionEmail : List Piece :=
  baseEmail
    [.text (lit "Thanks for using Padlock!\n\nYou're receiving this email because you tried to " ++
      lit "use Padlock Cloud with an outdated version of the app. Please update to the newest " ++
      lit "version using one of the following links:\n\n" ++
      lit "Android: https://play.google.com/store/apps/details?id=com.maklesoft.padlock\n" ++
      lit "iOS: https://itunes.apple.com/app/id871710139\n" ++
      lit "Google Chrome: " ++
      lit "https://chrome.google.com/webstore/detail/padlock/npkoefjfcjbknoeadfkbcdpbapaamcif")]

end PadlockCloud
