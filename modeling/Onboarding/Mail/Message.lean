import Onboarding.Schema
/-!
# Mail messages — texts with places for a code and an email

A template names `{code}` and `{email}` where the values go. Codes are filled in
first and emails second, each wherever its place occurs, so a code that held
`{email}` would be filled in too; an email that holds `{code}` stays as it is.
-/

namespace Onboarding

/-- A mail ready to be sent. -/
structure MailMessage where
  sender : String
  recipient : String
  subject : String
  text : String
deriving DecidableEq, Repr, Inhabited

/-- The stored and sent layout. -/
def MailMessage.schema : Schema MailMessage :=
  .via
    (.record (.required "from" .text
      (.required "to" .text
      (.required "subject" .text
      (.required "text" .text .done)))))
    (fun (a, b, c, d, ()) => ⟨a, b, c, d⟩)
    (fun m => (m.sender, m.recipient, m.subject, m.text, ()))
    (fun _ => rfl) (fun _ => rfl)

/-- What the service's mails say. -/
structure MailTemplates where
  sender : String := "Decentr <noreply@decentr.net>"
  verificationSubject : String := "Confirm your Decentr registration"
  verificationBody : String := "Your verification code is \x7bcode\x7d."
  welcomeSubject : String := "Welcome to Decentr"
  welcomeBody : String := "Your wallet is ready. Welcome aboard, \x7bemail\x7d!"
deriving DecidableEq, Repr, Inhabited

namespace MailTemplates

/-- The stored and sent layout; every member has a fallback. -/
def schema : Schema MailTemplates :=
  .via
    (.record (.optional "from" .text ({ } : MailTemplates).sender
      (.optional "verification_subject" .text ({ } : MailTemplates).verificationSubject
      (.optional "verification_body" .text ({ } : MailTemplates).verificationBody
      (.optional "welcome_subject" .text ({ } : MailTemplates).welcomeSubject
      (.optional "welcome_body" .text ({ } : MailTemplates).welcomeBody .done))))))
    (fun (a, b, c, d, e, ()) => ⟨a, b, c, d, e⟩)
    (fun t => (t.sender, t.verificationSubject, t.verificationBody, t.welcomeSubject,
      t.welcomeBody, ()))
    (fun _ => rfl) (fun _ => rfl)

/-- Every occurrence of `place` in `cs`, from the left, replaced by `value`; the
value itself is not searched. The first argument counts characters of a place just
replaced. -/
def fillFrom (place value : List Char) : Nat → List Char → List Char
  | _, [] => []
  | skip + 1, _ :: r => fillFrom place value skip r
  | 0, c :: r =>
    if place.isPrefixOf (c :: r) then value ++ fillFrom place value (place.length - 1) r
    else c :: fillFrom place value 0 r

/-- Every occurrence of a place replaced by a value. -/
def fill (place value cs : List Char) : List Char := fillFrom place value 0 cs

/-- The place of a code. -/
def codePlace : List Char := "\x7bcode\x7d".toList

/-- The place of an email. -/
def emailPlace : List Char := "\x7bemail\x7d".toList

/-- A template with its code and then its email filled in. -/
def render (template email code : String) : String :=
  String.ofList (fill emailPlace email.toList (fill codePlace code.toList template.toList))

/-- The mail that carries a code. -/
def verification (t : MailTemplates) (email code : String) : MailMessage where
  sender := t.sender
  recipient := email
  subject := t.verificationSubject
  text := render t.verificationBody email code

/-- The mail that greets a confirmed owner. -/
def welcome (t : MailTemplates) (email : String) : MailMessage where
  sender := t.sender
  recipient := email
  subject := t.welcomeSubject
  text := render t.welcomeBody email ""

end MailTemplates

end Onboarding
