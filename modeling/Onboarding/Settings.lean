import Onboarding.Schema.Basic
/-!
# Settings — what a registration earns, and how often it may be tried

The reward of a sender grows with the referrals that were confirmed before: the
highest tier that is reached pays. `Settings.check` refuses settings under which
nothing could be registered or paid, and tiers that share a threshold.
-/

namespace Onboarding

/-- One step of the sender's rewards. -/
structure RewardTier where
  /-- Confirmed referrals from which on the tier applies. -/
  minConfirmed : UInt64
  reward : TokenAmount
deriving DecidableEq, Repr, Inhabited

/-- The stored and sent layout. -/
def RewardTier.schema : Schema RewardTier :=
  .via (.record (.required "min_confirmed" .word (.required "reward" TokenAmount.schema .done)))
    (fun (a, b, ()) => ⟨a, b⟩) (fun t => (t.minConfirmed, t.reward, ()))
    (fun _ => rfl) (fun _ => rfl)

/-- What a confirmed referral pays. -/
structure RewardPolicy where
  receiverReward : TokenAmount := ⟨10000000⟩
  senderTiers : List RewardTier :=
    [⟨0, ⟨10000000⟩⟩, ⟨100, ⟨12500000⟩⟩, ⟨250, ⟨15000000⟩⟩, ⟨500, ⟨17500000⟩⟩,
      ⟨1000, ⟨20000000⟩⟩]
deriving DecidableEq, Repr, Inhabited

namespace RewardPolicy

/-- The tier with the highest threshold; of tiers with one threshold, the last. -/
def highest (tiers : List RewardTier) : Option RewardTier :=
  tiers.foldl (fun best t =>
    match best with
    | none => some t
    | some b => if t.minConfirmed < b.minConfirmed then some b else some t) none

/-- The reward of a sender who had `confirmedBefore` confirmed referrals; nothing
where no tier is reached. -/
def senderReward (p : RewardPolicy) (confirmedBefore : Nat) : TokenAmount :=
  match highest (p.senderTiers.filter fun t => t.minConfirmed.toNat ≤ confirmedBefore) with
  | none => .zero
  | some t => t.reward

/-- Whether two neighbours in a list are equal. -/
def hasEqualNeighbours : List UInt64 → Bool
  | a :: b :: r => a == b || hasEqualNeighbours (b :: r)
  | _ => false

/-- Whether two tiers share a threshold. -/
def sharesThreshold (p : RewardPolicy) : Bool :=
  hasEqualNeighbours ((p.senderTiers.map (·.minConfirmed)).mergeSort (fun a b => a ≤ b))

/-- The stored and sent layout. -/
def schema : Schema RewardPolicy :=
  .via
    (.record (.optional "receiver_reward" TokenAmount.schema
        ({ } : RewardPolicy).receiverReward
      (.optional "sender_tiers" (.list RewardTier.schema)
        ({ } : RewardPolicy).senderTiers .done)))
    (fun (a, b, ()) => ⟨a, b⟩) (fun p => (p.receiverReward, p.senderTiers, ()))
    (fun _ => rfl) (fun _ => rfl)

end RewardPolicy

/-- Why settings are refused. -/
inductive SettingsFault where
  | emptyPrefix
  | zeroStake
  | zeroTestnetStake
  | sharedThreshold
deriving DecidableEq, Repr

/-- The wording of each reason. -/
def SettingsFault.message : SettingsFault → String
  | .emptyPrefix => "address_prefix is empty"
  | .zeroStake => "initial_stake is zero"
  | .zeroTestnetStake => "testnet_stake is zero"
  | .sharedThreshold => "referral tiers share a min_confirmed threshold"

/-- How the registration service works. -/
structure Settings where
  /-- Seconds between two verification mails for one registration. -/
  throttleSeconds : UInt64 := 60
  /-- What a wallet is granted when its registration is confirmed. -/
  initialStake : TokenAmount := ⟨1000000⟩
  /-- The prefix of every wallet address. -/
  addressPrefix : String := "decentr"
  referral : RewardPolicy := { }
  /-- What the faucet grants; nothing turns the faucet off. -/
  testnetStake : Option TokenAmount := none
deriving DecidableEq, Repr, Inhabited

namespace Settings

/-- The first reason to refuse the settings. -/
def check (s : Settings) : Except SettingsFault Unit :=
  if s.addressPrefix.isEmpty then .error .emptyPrefix
  else if s.initialStake.isZero then .error .zeroStake
  else if s.testnetStake.any TokenAmount.isZero then .error .zeroTestnetStake
  else if s.referral.sharesThreshold then .error .sharedThreshold
  else .ok ()

/-- The stored and sent layout; every member has a fallback. -/
def schema : Schema Settings :=
  .via
    (.record (.optional "throttle_secs" .word ({ } : Settings).throttleSeconds
      (.optional "initial_stake" TokenAmount.schema ({ } : Settings).initialStake
      (.optional "address_prefix" .text ({ } : Settings).addressPrefix
      (.optional "referral" RewardPolicy.schema ({ } : Settings).referral
      (.optional "testnet_stake" (.option TokenAmount.schema) none .done))))))
    (fun (a, b, c, d, e, ()) => ⟨a, b, c, d, e⟩)
    (fun s => (s.throttleSeconds, s.initialStake, s.addressPrefix, s.referral, s.testnetStake, ()))
    (fun _ => rfl) (fun _ => rfl)

end Settings

end Onboarding
