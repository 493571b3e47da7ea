import Onboarding.Proofs.Store.Listing
/-!
# Lookups — what the denylist is asked for, one domain after the other

A denylist is to cover what is below its entries (`Covers`). The domain of an email is looked
up, and then what follows each of its dots, as long as a dot is left in that (`parents`). The
loop that does so is a walk along a finite list (`Store.hasFraudDomain_eq_lookUp`), of at most
as many domains as there are dots. A store whose lookups do not fail then finds the emails
whose domain, or a parent of it that has a dot, is on its denylist. It is one dot short: an
email is passed by where the only entry above it is a name without a dot, and nowhere else
(`covers_subdomains`).
-/

namespace Onboarding

open StoreView

/-! ## The domain of an email -/

/-- What follows the last `@` of an email, without the dots at its end and in small letters. -/
def IsDomainOf (domain : List Char) (email : String) : Prop :=
  ∃ front cut dots, email.toList = front ++ '@' :: (cut ++ List.replicate dots '.') ∧ '@' ∉ cut ∧
    cut ≠ [] ∧ cut.getLast? ≠ some '.' ∧ domain = cut.map Char.toLower

/-- **Without blanks in the email**, its domain is what is asked for. -/
theorem isDomainOf_iff {domain : List Char} {email : String}
    (hemail : ∀ c ∈ email.toList, isBlank c = false) :
    IsDomainOf domain email ↔ emailDomain? email = some (String.ofList domain) := by
  unfold emailDomain?
  constructor
  · rintro ⟨front, cut, dots, htext, hat, hne, hended, rfl⟩
    have hback : '@' ∉ cut ++ List.replicate dots '.' := by
      simp [List.mem_append, List.mem_replicate, hat]
    have hblank : ∀ c ∈ cut ++ List.replicate dots '.', isBlank c = false := by
      intro c hc
      exact hemail c (htext ▸ List.mem_append_right _ (List.mem_cons_of_mem _ hc))
    have htrim : trimDomain (cut ++ List.replicate dots '.') = cut := by
      rw [trimDomain, trimChars_eq_self hblank, dropEndWhile_append_dots hended]
    rw [splitLast?_eq_some_iff.2 ⟨htext, hback⟩]
    dsimp only
    rw [htrim]
    split
    · exact absurd rfl hne
    · rw [asciiLower, String.toList_ofList]
  · intro h
    split at h
    · cases h
    rename_i front back hsplit
    obtain ⟨htext, hat⟩ := splitLast?_eq_some_iff.1 hsplit
    have hblank : ∀ c ∈ back, isBlank c = false := by
      intro c hc
      exact hemail c (htext ▸ List.mem_append_right _ (List.mem_cons_of_mem _ hc))
    rw [trimDomain, trimChars_eq_self hblank] at h
    obtain ⟨dots, hdots⟩ := exists_dots back
    split at h
    · cases h
    rename_i hne
    have hlower : (dropEndWhile (· = '.') back).map Char.toLower = domain := by
      have hlists := String.ofList_injective (Option.some.inj h)
      rwa [String.toList_ofList] at hlists
    refine ⟨front, dropEndWhile (· = '.') back, dots, hdots ▸ htext, ?_, hne, ?_, hlower.symm⟩
    · exact fun hmem => hat ((dropEndWhile_sublist _ _).subset hmem)
    · intro hlast
      have hcut := getLast?_dropEndWhile (p := (· = '.')) hlast
      exact of_decide_eq_false hcut rfl

/-! ## Parents -/

/-- What follows a dot of a domain, as long as a dot is left in it; the longest first. -/
def parents : List Char → List (List Char)
  | [] => []
  | c :: cs => if c = '.' ∧ '.' ∈ cs then cs :: parents cs else parents cs

theorem mem_parents {cs above : List Char} :
    above ∈ parents cs ↔ '.' :: above <:+ cs ∧ '.' ∈ above := by
  induction cs with
  | nil => simp [parents]
  | cons c cs ih =>
    rw [parents, List.suffix_cons_iff, List.cons.injEq]
    split
    · rename_i hdot
      obtain ⟨rfl, hmem⟩ := hdot
      rw [List.mem_cons, ih]
      constructor
      · rintro (rfl | ⟨hsuffix, habove⟩)
        · exact ⟨.inl ⟨rfl, rfl⟩, hmem⟩
        · exact ⟨.inr hsuffix, habove⟩
      · rintro ⟨⟨-, rfl⟩ | hsuffix, habove⟩
        · exact .inl rfl
        · exact .inr ⟨hsuffix, habove⟩
    · rename_i hdot
      rw [ih]
      constructor
      · rintro ⟨hsuffix, habove⟩
        exact ⟨.inr hsuffix, habove⟩
      · rintro ⟨⟨rfl, rfl⟩ | hsuffix, habove⟩
        · exact absurd ⟨rfl, habove⟩ hdot
        · exact ⟨hsuffix, habove⟩

/-- The last dot has no parent behind it that counts. -/
theorem length_parents (cs : List Char) : (parents cs).length = cs.count '.' - 1 := by
  induction cs with
  | nil => rfl
  | cons c cs ih =>
    rw [parents, List.count_cons]
    by_cases hc : c = '.'
    · by_cases hmem : '.' ∈ cs
      · have hpos := List.count_pos_iff.2 hmem
        rw [if_pos ⟨hc, hmem⟩, List.length_cons, ih]
        simp only [hc, beq_self_eq_true, if_true]
        omega
      · have hzero := List.count_eq_zero.2 hmem
        rw [if_neg fun h => hmem h.2, ih]
        simp only [hc, beq_self_eq_true, if_true]
        omega
    · rw [if_neg fun h => hc h.1, ih]
      simp [hc]

theorem parentDomain?_cons (c : Char) (cs : List Char) :
    parentDomain? (c :: cs) = if c = '.' then some cs else parentDomain? cs := by
  unfold parentDomain? splitFirst?
  by_cases hc : c = '.'
  · simp [hc]
  · simp [hc, Ne.symm hc]

/-- The parents are found one above the other. -/
theorem parents_eq (cs : List Char) :
    parents cs = match parentDomain? cs with
      | none => []
      | some above => if '.' ∈ above then above :: parents above else [] := by
  induction cs with
  | nil => rfl
  | cons c cs ih =>
    rw [parents, parentDomain?_cons]
    by_cases hc : c = '.'
    · rw [if_pos hc]
      dsimp only
      by_cases hmem : '.' ∈ cs
      · rw [if_pos ⟨hc, hmem⟩, if_pos hmem]
      · have hnone : parents cs = [] := by
          rw [← List.length_eq_zero_iff, length_parents, List.count_eq_zero.2 hmem]
        rw [if_neg fun h => hmem h.2, if_neg hmem, hnone]
    · rw [if_neg fun h => hc h.1, if_neg hc, ih]

/-- What is looked up for a domain: itself, and then its parents. -/
def lookups (domain : List Char) : List (List Char) := domain :: parents domain

/-- There is one lookup for each dot, and one if there is none. -/
theorem length_lookups (domain : List Char) :
    (lookups domain).length = max 1 (domain.count '.') := by
  rw [lookups, List.length_cons, length_parents]
  omega

/-- What is looked up for a plain domain is plain. -/
theorem isPlainDomain_of_mem_lookups {domain cs : List Char} (h : IsPlainDomain domain)
    (hcs : cs ∈ lookups domain) : IsPlainDomain cs ∧ cs ⊆ domain := by
  rcases List.mem_cons.1 hcs with rfl | hparent
  · exact ⟨h, List.Subset.refl _⟩
  · obtain ⟨hsuffix, hdot⟩ := mem_parents.1 hparent
    have habove := (List.suffix_cons '.' cs).trans hsuffix
    exact ⟨h.of_suffix habove (List.ne_nil_of_mem hdot), habove.subset⟩

/-! ## The walk -/

namespace Store

variable {σ : Type} [Store σ]

/-- Domains are looked up one after the other, until one is on the denylist or cannot be looked
up. -/
def lookUp (s : σ) : List (List Char) → Except StoreError Bool
  | [] => .ok false
  | cs :: rest =>
    match isFraudDomain s (String.ofList cs) with
    | .error e => .error e
    | .ok true => .ok true
    | .ok false => lookUp s rest

/-- **The loop is a walk** along a list that is there before it starts. -/
theorem hasFraudDomain_eq_lookUp (s : σ) (domain : List Char) :
    hasFraudDomain s domain = lookUp s (lookups domain) := by
  induction hn : domain.length using Nat.strongRecOn generalizing domain with
  | ind n ih =>
    rw [hasFraudDomain_eq, lookups, lookUp, parents_eq]
    rcases isFraudDomain s (String.ofList domain) with e | _ | _
    · rfl
    · dsimp only
      cases hparent : parentDomain? domain with
      | none => rfl
      | some above =>
        have hshort := length_parentDomain hparent
        dsimp only
        split
        · exact ih _ (hn ▸ hshort) above rfl
        · rfl
    · rfl

/-- A walk whose lookups all answer finds whether one of the domains is listed. -/
theorem lookUp_eq_ok {s : σ} {listed : List Char → Prop} {css : List (List Char)}
    (h : ∀ cs ∈ css, ∃ answer, isFraudDomain s (String.ofList cs) = .ok answer ∧
      (answer = true ↔ listed cs)) :
    ∃ answer, lookUp s css = .ok answer ∧ (answer = true ↔ ∃ cs ∈ css, listed cs) := by
  induction css with
  | nil => exact ⟨false, rfl, by simp⟩
  | cons cs rest ih =>
    obtain ⟨⟨answer, hanswer, hlisted⟩, hrest⟩ := List.forall_mem_cons.1 h
    rw [lookUp, hanswer]
    cases answer with
    | true => exact ⟨true, rfl, by simp [hlisted.1 rfl]⟩
    | false =>
      obtain ⟨found, hfound, hiff⟩ := ih hrest
      refine ⟨found, hfound, ?_⟩
      have hnot : ¬ listed cs := fun hcs => Bool.false_ne_true (hlisted.2 hcs)
      rw [hiff]
      simp [hnot]

/-- Without a domain there is nothing to look up. -/
theorem isFraudEmail_of_none {s : σ} {email : String} (h : emailDomain? email = none) :
    isFraudEmail s email = .ok false := by
  rw [isFraudEmail, h]

theorem isFraudEmail_of_some {s : σ} {email domain : String}
    (h : emailDomain? email = some domain) :
    isFraudEmail s email = lookUp s (lookups domain.toList) := by
  rw [isFraudEmail, h]
  exact hasFraudDomain_eq_lookUp s _

end Store

open DenyingStore (Denies)

/-- A listed domain, or a listed parent with a dot, is found among the lookups. -/
theorem exists_mem_lookups {listed : String → Prop} {domain : List Char} :
    (∃ cs ∈ lookups domain, listed (String.ofList cs)) ↔ listed (String.ofList domain) ∨
      ∃ above, '.' :: above <:+ domain ∧ '.' ∈ above ∧ listed (String.ofList above) := by
  rw [lookups, List.exists_mem_cons_iff]
  refine or_congr_right (exists_congr fun above => ?_)
  rw [mem_parents, and_assoc]

/-- Where lookups answer, they answer whether the domain of an email, or a parent with a dot, is
listed. -/
theorem isFraudEmail_of_quiet {σ : Type} [Store σ] [LawfulStore σ] [ListingStore σ] {s : σ}
    {email : String} (hemail : ∀ c ∈ email.toList, isBlank c = false)
    (hquiet : .isFraudDomain ∉ failing s) :
    ∃ answer, Store.isFraudEmail s email = .ok answer ∧
      (answer = true ↔ ∃ domain, IsDomainOf domain email ∧
        (Denies s (String.ofList domain) ∨
          ∃ above, '.' :: above <:+ domain ∧ '.' ∈ above ∧ Denies s (String.ofList above))) := by
  simp only [isDomainOf_iff hemail]
  cases hdomain : emailDomain? email with
  | none => exact ⟨false, Store.isFraudEmail_of_none hdomain, by simp⟩
  | some domain =>
    have hplain := isPlainDomain_of_emailDomain? hemail hdomain
    have hsmall := toLower_of_emailDomain? hdomain
    have hanswers : ∀ cs ∈ lookups domain.toList, ∃ answer,
        Store.isFraudDomain s (String.ofList cs) = .ok answer ∧
          (answer = true ↔ Denies s (String.ofList cs)) := by
      intro cs hcs
      obtain ⟨hcsplain, hsub⟩ := isPlainDomain_of_mem_lookups hplain hcs
      have hanswer := ListingStore.isFraudDomain_of_quiet hquiet hcsplain
      rwa [asciiLower_ofList fun c hc => hsmall c (hsub hc)] at hanswer
    obtain ⟨answer, hanswer, hiff⟩ := Store.lookUp_eq_ok hanswers
    refine ⟨answer, (Store.isFraudEmail_of_some hdomain).trans hanswer, ?_⟩
    rw [hiff, exists_mem_lookups]
    constructor
    · exact fun h => ⟨domain.toList, by rw [String.ofList_toList], h⟩
    · rintro ⟨asked, hasked, h⟩
      rwa [Option.some.inj hasked, String.toList_ofList]

/-! ## Where the walk stops -/

/-- The domain of an email is listed, or a name above it. -/
def Covers (listed : String → Prop) (email : String) : Prop :=
  ∃ domain, IsDomainOf domain email ∧ (listed (String.ofList domain) ∨
    ∃ above, '.' :: above <:+ domain ∧ listed (String.ofList above))

/-- The domain of an email is not listed, and what is listed above it is a name without a
dot. -/
def PassesBy (listed : String → Prop) (email : String) : Prop :=
  ∃ domain, IsDomainOf domain email ∧ ¬ listed (String.ofList domain) ∧
    (∃ above, '.' :: above <:+ domain ∧ listed (String.ofList above)) ∧
    ∀ above, '.' :: above <:+ domain → listed (String.ofList above) → '.' ∉ above

section Stops

variable {listed : String → Prop} {email : String}

theorem IsDomainOf.unique (hemail : ∀ c ∈ email.toList, isBlank c = false)
    {domain domain' : List Char} (h : IsDomainOf domain email) (h' : IsDomainOf domain' email) :
    domain = domain' := by
  have hdomain := (isDomainOf_iff hemail).1 h
  have hdomain' := (isDomainOf_iff hemail).1 h'
  exact String.ofList_injective (Option.some.inj (hdomain.symm.trans hdomain'))

/-- **What is found is what is covered, unless it is passed by.** -/
theorem found_iff_covers_iff (hemail : ∀ c ∈ email.toList, isBlank c = false) {found : Prop}
    (hfound : found ↔ ∃ domain, IsDomainOf domain email ∧ (listed (String.ofList domain) ∨
      ∃ above, '.' :: above <:+ domain ∧ '.' ∈ above ∧ listed (String.ofList above))) :
    (found ↔ Covers listed email) ↔ ¬ PassesBy listed email := by
  constructor
  · rintro hiff ⟨domain, hdomain, hself, habove, hnodot⟩
    -- the email is covered, so something must have been found
    obtain ⟨asked, hasked, hlisted⟩ := hfound.1 (hiff.2 ⟨domain, hdomain, .inr habove⟩)
    rcases hasked.unique hemail hdomain with rfl
    rcases hlisted with hlisted | ⟨above, hsuffix, hdot, hlisted⟩
    · exact hself hlisted
    · exact hnodot above hsuffix hlisted hdot
  · intro hpassed
    rw [hfound]
    constructor
    · rintro ⟨domain, hdomain, hlisted | ⟨above, hsuffix, -, hlisted⟩⟩
      · exact ⟨domain, hdomain, .inl hlisted⟩
      · exact ⟨domain, hdomain, .inr ⟨above, hsuffix, hlisted⟩⟩
    · rintro ⟨domain, hdomain, hlisted⟩
      refine ⟨domain, hdomain, Classical.byContradiction fun hnone => hpassed ?_⟩
      rw [not_or] at hnone
      refine ⟨domain, hdomain, hnone.1, hlisted.resolve_left hnone.1, ?_⟩
      exact fun above hsuffix habove hdot => hnone.2 ⟨above, hsuffix, hdot, habove⟩

end Stops

/-- **The denylist covers what is below its entries, but for entries without a dot.** For every
email the loop looks up as many domains as the email's has dots, or one, and no others. Without
blanks in the email and as long as lookups do not fail, the answer is whether the domain of the
email is listed, or a parent of it that has a dot. That is whether the denylist covers the email,
unless the only entry above it has no dot. -/
theorem covers_subdomains {kind : StoreKind} (s : kind.State) (email : String) :
    (emailDomain? email = none → Store.isFraudEmail s email = .ok false) ∧
    (∀ domain, emailDomain? email = some domain →
      Store.isFraudEmail s email = Store.lookUp s (lookups domain.toList) ∧
        (lookups domain.toList).length = max 1 (domain.toList.count '.')) ∧
    ((∀ c ∈ email.toList, isBlank c = false) → .isFraudDomain ∉ failing s →
      ∃ answer, Store.isFraudEmail s email = .ok answer ∧
        (answer = true ↔ ∃ domain, IsDomainOf domain email ∧
          (Denies s (String.ofList domain) ∨
            ∃ above, '.' :: above <:+ domain ∧ '.' ∈ above ∧ Denies s (String.ofList above))) ∧
        ((answer = true ↔ Covers (Denies s) email) ↔ ¬ PassesBy (Denies s) email)) := by
  refine ⟨Store.isFraudEmail_of_none, fun domain hdomain => ?_, fun hemail hquiet => ?_⟩
  · exact ⟨Store.isFraudEmail_of_some hdomain, length_lookups _⟩
  · cases kind with
    | table =>
      obtain ⟨answer, hanswer, hfound⟩ := isFraudEmail_of_quiet (σ := TableStore) hemail hquiet
      exact ⟨answer, hanswer, hfound, found_iff_covers_iff hemail hfound⟩
    | indexed =>
      obtain ⟨answer, hanswer, hfound⟩ := isFraudEmail_of_quiet (σ := IndexedStore) hemail hquiet
      exact ⟨answer, hanswer, hfound, found_iff_covers_iff hemail hfound⟩

/-- A denylist with one entry. -/
def listing (entry : String) (kind : StoreKind) : kind.State :=
  (Store.putFraudDomain entry Store.empty).2

theorem failing_listing (entry : String) (kind : StoreKind) :
    failing (listing entry kind) = [] := by
  cases kind with
  | table => exact (ListingStore.failing_put (Store.empty : TableStore) entry).trans rfl
  | indexed => exact (ListingStore.failing_put (Store.empty : IndexedStore) entry).trans rfl

/-- An email is refused for a listed domain two labels above its own. -/
theorem covers_subdomains_mail :
    Store.isFraudEmail (listing "spam.example" .indexed) "a@mx.eu.spam.example." = .ok true := by
  have hnone : "a@mx.eu.spam.example.".toList.any isBlank = false := by decide +kernel
  have hemail : ∀ c ∈ "a@mx.eu.spam.example.".toList, isBlank c = false := by
    simpa only [List.any_eq_false, Bool.not_eq_true] using hnone
  have hquiet : .isFraudDomain ∉ failing (listing "spam.example" .indexed) := by
    simp [failing_listing]
  obtain ⟨answer, hanswer, hiff, -⟩ :=
    (covers_subdomains (listing "spam.example" .indexed) "a@mx.eu.spam.example.").2.2 hemail hquiet
  have hdomain : IsDomainOf "mx.eu.spam.example".toList "a@mx.eu.spam.example." :=
    ⟨['a'], "mx.eu.spam.example".toList, 1, by decide +kernel, by decide +kernel, by decide +kernel,
      by decide +kernel, by decide +kernel⟩
  have hlisted : Denies (listing "spam.example" .indexed)
      (String.ofList "spam.example".toList) := by
    show Utf8.bytes _ ∈ IndexedStore.fraudDomains _
    decide +kernel
  have habove : '.' :: "spam.example".toList <:+ "mx.eu.spam.example".toList := by decide +kernel
  have hdot : '.' ∈ "spam.example".toList := by decide +kernel
  rw [hanswer, hiff.2 ⟨_, hdomain, .inr ⟨_, habove, hdot, hlisted⟩⟩]

/-- An email below a listed name without a dot is passed by. -/
theorem not_covers_top_level :
    ¬ ∀ (kind : StoreKind) (s : kind.State) (email : String),
      (∀ c ∈ email.toList, isBlank c = false) → .isFraudDomain ∉ failing s →
        ∃ answer, Store.isFraudEmail s email = .ok answer ∧
          (answer = true ↔ ∃ domain, IsDomainOf domain email ∧
            (Denies s (String.ofList domain) ∨
              ∃ above, '.' :: above <:+ domain ∧ Denies s (String.ofList above))) := by
  intro h
  have hnone : "a@spam.example".toList.any isBlank = false := by decide +kernel
  have hemail : ∀ c ∈ "a@spam.example".toList, isBlank c = false := by
    simpa only [List.any_eq_false, Bool.not_eq_true] using hnone
  have hquiet : .isFraudDomain ∉ failing (listing "example" .table) := by simp [failing_listing]
  obtain ⟨answer, hanswer, hiff⟩ :=
    h .table (listing "example" .table) "a@spam.example" hemail hquiet
  have hdomain : IsDomainOf "spam.example".toList "a@spam.example" :=
    ⟨['a'], "spam.example".toList, 0, by decide +kernel, by decide +kernel, by decide +kernel,
      by decide +kernel, by decide +kernel⟩
  have hlisted : Denies (listing "example" .table) (String.ofList "example".toList) := by
    show _ ∈ TableStore.fraudDomains _
    decide +kernel
  have hrefused := hiff.2 ⟨_, hdomain, .inr ⟨"example".toList, by decide +kernel, hlisted⟩⟩
  rw [hrefused] at hanswer
  revert hanswer
  decide +kernel

end Onboarding
