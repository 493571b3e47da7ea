import Onboarding.Text.Blank
import Onboarding.Text.Lowercase
import Onboarding.Text.Split
/-!
# Emails — one spelling for each

Clients write an email in any case and with blanks around it. `Email.normalize?` gives
the one spelling that owners are made from, or nothing for a text that does not look
like an email.
-/

namespace Onboarding

namespace Email

/-- Whether a text has something on either side of its last `@` and no blanks. -/
def isPlausible (cs : List Char) : Bool :=
  match splitLast? '@' cs with
  | none => false
  | some (user, domain) => !user.isEmpty && !domain.isEmpty && !cs.any isBlank

/-- The email without surrounding blanks and in lower case. -/
def normalize? (raw : String) : Option String :=
  let email := lowercase (trim raw)
  if isPlausible email.toList then some email else none

end Email

end Onboarding
