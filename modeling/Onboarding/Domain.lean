import Onboarding.Text.Blank
import Onboarding.Text.Split
import Onboarding.Store.Basic
/-!
# Email domains — whose mail is refused

The domain of an email is what follows its last `@`, without surrounding blanks and
trailing dots, with ASCII letters in lower case. An email is refused if its domain is
on the denylist or below a listed domain: parents are looked up from the domain
upwards, down to those that still contain a dot.
-/

namespace Onboarding

/-- A domain without surrounding blanks and the dots at its end. -/
def trimDomain (cs : List Char) : List Char := dropEndWhile (· = '.') (trimChars cs)

/-- The domain of an email, unless it is empty. -/
def emailDomain? (email : String) : Option String :=
  match splitLast? '@' email.toList with
  | none => none
  | some (_, domain) =>
    match trimDomain domain with
    | [] => none
    | cs => some (asciiLower (String.ofList cs))

/-- The domain above a domain. -/
def parentDomain? (domain : List Char) : Option (List Char) :=
  (splitFirst? '.' domain).map (·.2)

/-- What follows the first occurrence of a character is shorter than the whole. -/
theorem length_tail_dropWhile_lt {sep : Char} {cs : List Char} (h : sep ∈ cs) :
    (cs.dropWhile (· ≠ sep)).tail.length < cs.length := by
  induction cs with
  | nil => simp at h
  | cons c r ih =>
    by_cases hc : c = sep
    · simp [hc]
    · have hr : sep ∈ r := by
        rcases List.mem_cons.1 h with rfl | hr
        · exact absurd rfl hc
        · exact hr
      have := ih hr
      simp only [List.dropWhile_cons, decide_not, hc, decide_false, Bool.not_false, ↓reduceIte,
        List.length_cons]
      simp only [decide_not] at this
      omega

theorem length_parentDomain {domain parent : List Char} (h : parentDomain? domain = some parent) :
    parent.length < domain.length := by
  unfold parentDomain? splitFirst? at h
  split at h
  · rename_i hmem
    simp only [Option.map_some, Option.some.injEq] at h
    exact h ▸ length_tail_dropWhile_lt hmem
  · simp at h

namespace Store

variable {σ : Type} [Store σ]

/-- Whether a domain or a parent of it that contains a dot is on the denylist. -/
def hasFraudDomain (s : σ) (domain : List Char) : Except StoreError Bool :=
  match isFraudDomain s (String.ofList domain) with
  | .error e => .error e
  | .ok true => .ok true
  | .ok false =>
    match _h : parentDomain? domain with
    | none => .ok false
    | some parent =>
      if '.' ∈ parent then hasFraudDomain s parent else .ok false
termination_by domain.length
decreasing_by exact length_parentDomain _h

/-- Whether the domain of an email is refused. -/
def isFraudEmail (s : σ) (email : String) : Except StoreError Bool :=
  match emailDomain? email with
  | none => .ok false
  | some domain => hasFraudDomain s domain.toList

end Store

end Onboarding
