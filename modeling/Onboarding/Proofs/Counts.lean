import Mathlib.Data.List.Perm.Basic
import Onboarding.Referral
import Onboarding.Registration
/-!
# Counts — what is counted of a list whatever its order

Stores list their records in an order of their own. What the service reports of them
counts days, states and rewards, and each of these comes out the same in every order: two
additions can change places (`TokenAmount.saturatingAdd_right_comm`), and so can two
entries of a tally.
-/

namespace Onboarding

/-- Two saturating additions can change places. -/
theorem TokenAmount.saturatingAdd_right_comm (a b c : TokenAmount) :
    (a.saturatingAdd b).saturatingAdd c = (a.saturatingAdd c).saturatingAdd b := by
  have hunits : ((a.saturatingAdd b).saturatingAdd c).units.toNat =
      ((a.saturatingAdd c).saturatingAdd b).units.toNat := by
    simp only [toNat_saturatingAdd]
    omega
  generalize (a.saturatingAdd b).saturatingAdd c = x at hunits ⊢
  generalize (a.saturatingAdd c).saturatingAdd b = y at hunits ⊢
  exact congrArg TokenAmount.mk (UInt64.toNat_inj.1 hunits)

/-- A tally does not depend on the order of its items. -/
theorem tally_perm {κ : Type} [Ord κ] [Std.TransOrd κ] [Std.LawfulEqOrd κ] {items items' : List κ}
    (h : items.Perm items') : tally items = tally items' := by
  unfold tally
  refine h.foldl_eq' (fun k _ k' _ m => ?_) ∅
  refine Std.ExtTreeMap.ext_getElem? fun a => ?_
  simp only [Std.ExtTreeMap.getElem?_alter, Std.compare_eq_iff_eq]
  by_cases hk : k = a <;> by_cases hk' : k' = a <;> simp_all

theorem countByDay_perm {rs rs' : List Registration} (h : rs.Perm rs') :
    countByDay rs = countByDay rs' := by
  have hdays := tally_perm (h.filterMap fun r => r.confirmedAt.map Timestamp.startOfDay)
  unfold countByDay
  dsimp only
  rw [hdays]

theorem ReferralStats.ofList_perm {fs fs' : List Referral} (h : fs.Perm fs') :
    ofList fs = ofList fs' := by
  have hreward : (fs.filterMap (·.senderReward)).foldl TokenAmount.saturatingAdd .zero =
      (fs'.filterMap (·.senderReward)).foldl TokenAmount.saturatingAdd .zero :=
    (h.filterMap _).foldl_eq' (fun a _ b _ c => c.saturatingAdd_right_comm a b) _
  unfold ofList
  rw [hreward, h.countP_eq, h.countP_eq, h.countP_eq]

end Onboarding
