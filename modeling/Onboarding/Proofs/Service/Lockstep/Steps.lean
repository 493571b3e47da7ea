import Onboarding.Proofs.Service.World
import Onboarding.Proofs.Store.Alike
/-!
# Lockstep — the steps of a call in two worlds

Two worlds are alike if their stores are and nothing else tells them apart. Each step that
a call or a transaction may take is matched here: it gives the same result in both worlds
and leaves them alike. A transaction that fails leaves its store as it was, so of a body
that fails only the draws have to agree (`ServiceM.tryTransaction_matched`).
-/

namespace Onboarding

section Bodies

variable {σ τ : Type}

/-- Two transactions that failed after the same draws. -/
def SameDraws (p : σ × Randomness) (q : τ × Randomness) : Prop := p.2 = q.2

/-- Two transactions under way: their stores are alike and their draws the same. -/
def InStep [Store σ] [Store τ] [LawfulStore σ] [LawfulStore τ] (p : σ × Randomness)
    (q : τ × Randomness) : Prop := Alike p.1 q.1 ∧ p.2 = q.2

namespace TransactionM

variable {α β : Type} {s : σ} {t : τ} {g : Randomness}
  {R : σ × Randomness → τ × Randomness → Prop}

/-- What is read alike is read in lockstep. -/
theorem read_matched {f : σ → Except StoreError α} {f' : τ → Except StoreError α}
    (h : f s = f' t) {k : α → TransactionM σ β} {k' : α → TransactionM τ β}
    (hrest : ∀ a, f s = .ok a → Matched R SameDraws (k a (s, g)) (k' a (t, g))) :
    Matched R SameDraws ((read f >>= k) (s, g)) ((read f' >>= k') (t, g)) := by
  unfold read Body.read
  rw [Computation.bind_apply, Computation.bind_apply]
  dsimp only
  rw [← h]
  cases hf : f s with
  | error e => exact .error rfl
  | ok a => exact hrest a hf

theorem find_matched {f : σ → Except StoreError α} {f' : τ → Except StoreError α}
    (h : f s = f' t) {k : Option α → TransactionM σ β} {k' : Option α → TransactionM τ β}
    (hrest : ∀ a?, Except.found? (f s) = .ok a? →
      Matched R SameDraws (k a? (s, g)) (k' a? (t, g))) :
    Matched R SameDraws ((find f >>= k) (s, g)) ((find f' >>= k') (t, g)) := by
  refine read_matched (f := fun s => Except.found? (f s)) ?_ hrest
  exact congrArg Except.found? h

/-- Both draw the same code. -/
theorem drawCode_matched {f : Randomness → Except RandomFault String × Randomness}
    {k : String → TransactionM σ β} {k' : String → TransactionM τ β}
    (hrest : ∀ code g', f g = (.ok code, g') →
      Matched R SameDraws (k code (s, g')) (k' code (t, g'))) :
    Matched R SameDraws ((drawCode f >>= k) (s, g)) ((drawCode f >>= k') (t, g)) := by
  unfold drawCode Body.companion
  rw [Computation.bind_apply, Computation.bind_apply]
  dsimp only
  rcases hf : f g with ⟨_ | code, g'⟩
  · exact .error rfl
  · exact hrest code g' hf

theorem write_matched [Store σ] [Store τ] [LawfulStore σ] [LawfulStore τ] {op : StoreM σ Unit}
    {op' : StoreM τ Unit} (h : Matched Alike (fun _ _ => True) (op s) (op' t)) :
    Matched InStep SameDraws (write op (s, g)) (write op' (t, g)) := by
  unfold write Body.write
  dsimp only
  generalize op s = out at h ⊢
  generalize op' t = out' at h ⊢
  cases h with
  | ok h => exact .ok ⟨h, rfl⟩
  | error _ => exact .error rfl

end TransactionM

end Bodies

/-- Two worlds that differ in nothing but the kind of their store. -/
structure World.Alike {σ τ : Type} [Store σ] [Store τ] [LawfulStore σ] [LawfulStore τ]
    (v : World σ) (w : World τ) : Prop where
  store : Onboarding.Alike v.store w.store
  random_eq : v.random = w.random
  ledger_eq : v.ledger = w.ledger
  outbox_eq : v.outbox = w.outbox
  clock_eq : v.clock = w.clock
  pending_eq : v.pending = w.pending
  quietLeft : v.interruption = none
  quietRight : w.interruption = none
  /-- Only owners that can be registered wait for a payout. -/
  waiting : ∀ o ∈ v.pending, o.IsHash

/-- The chain takes a transfer in both worlds or in neither. -/
theorem World.Alike.pay_matched {σ τ : Type} [Store σ] [Store τ] [LawfulStore σ] [LawfulStore τ]
    {v : World σ} {w : World τ} (h : v.Alike w) (t : Transfer) :
    Matched World.Alike World.Alike (v.pay t) (w.pay t) := by
  unfold World.pay
  rw [h.quietLeft, h.quietRight, ← h.ledger_eq]
  rcases v.ledger.send t with ⟨_ | _, l⟩
  · exact .error { h with ledger_eq := rfl, quietLeft := rfl, quietRight := rfl }
  · exact .ok { h with ledger_eq := rfl, quietLeft := rfl, quietRight := rfl }

namespace ServiceM

variable {σ τ : Type} [Store σ] [Store τ] [LawfulStore σ] [LawfulStore τ] {α β : Type}
  {v : World σ} {w : World τ}

theorem read_matched (h : v.Alike w) {f : σ → Except StoreError α} {f' : τ → Except StoreError α}
    (hf : f v.store = f' w.store) {k : α → ServiceM σ β} {k' : α → ServiceM τ β}
    (hrest : ∀ a, f v.store = .ok a → Matched World.Alike World.Alike (k a v) (k' a w)) :
    Matched World.Alike World.Alike ((read f >>= k) v) ((read f' >>= k') w) := by
  unfold read
  rw [Computation.bind_apply, Computation.bind_apply, ← hf]
  cases hread : f v.store with
  | error e => exact .error h
  | ok a => exact hrest a hread

theorem find_matched (h : v.Alike w) {f : σ → Except StoreError α}
    {f' : τ → Except StoreError α} (hf : f v.store = f' w.store) {k : Option α → ServiceM σ β}
    {k' : Option α → ServiceM τ β} (hrest : ∀ a?, Except.found? (f v.store) = .ok a? →
      Matched World.Alike World.Alike (k a? v) (k' a? w)) :
    Matched World.Alike World.Alike ((find f >>= k) v) ((find f' >>= k') w) := by
  refine read_matched h (f := fun s => Except.found? (f s)) ?_ hrest
  exact congrArg Except.found? hf

theorem now_matched (h : v.Alike w) {k : Timestamp → ServiceM σ β} {k' : Timestamp → ServiceM τ β}
    (hrest : Matched World.Alike World.Alike (k v.clock v) (k' v.clock w)) :
    Matched World.Alike World.Alike ((now >>= k) v) ((now >>= k') w) := by
  rw [Computation.bind_of_ok (now_apply v), Computation.bind_of_ok (now_apply w), ← h.clock_eq]
  exact hrest

theorem pay_matched (h : v.Alike w) (t : Transfer) :
    Matched World.Alike World.Alike (pay t v) (pay t w) := by
  have hpay := h.pay_matched t
  unfold pay
  generalize v.pay t = out at hpay ⊢
  generalize w.pay t = out' at hpay ⊢
  cases hpay with
  | ok h' => exact .ok h'
  | error h' => exact .error h'

theorem mail_matched (h : v.Alike w) (m : Mail) :
    Matched World.Alike World.Alike (mail m v) (mail m w) := by
  unfold mail
  rw [← h.outbox_eq]
  exact .ok { h with outbox_eq := rfl }

theorem later_matched (h : v.Alike w) {o : Owner} (ho : o.IsHash) :
    Matched World.Alike World.Alike (later o v) (later o w) := by
  have hwaiting : ∀ p ∈ v.pending ++ [o], p.IsHash := by
    intro p hp
    rcases List.mem_append.1 hp with hp | hp
    · exact h.waiting p hp
    · rw [List.mem_singleton.1 hp]
      exact ho
  unfold later
  rw [← h.pending_eq]
  exact .ok { h with pending_eq := rfl, waiting := hwaiting }

/-- A write on its own is undone if it fails. -/
theorem write_matched (h : v.Alike w) {op : StoreM σ Unit} {op' : StoreM τ Unit}
    (hop : Matched Onboarding.Alike (fun _ _ => True) (op v.store) (op' w.store)) :
    Matched World.Alike World.Alike (write op v) (write op' w) := by
  unfold write Store.alone
  generalize op v.store = out at hop ⊢
  generalize op' w.store = out' at hop ⊢
  cases hop with
  | ok hstore => exact .ok { h with store := hstore }
  | error _ => exact .ok h

/-- **Transactions with matched bodies are matched.** -/
theorem tryTransaction_matched (h : v.Alike w) {body : TransactionM σ α}
    {body' : TransactionM τ α}
    (hbody : Matched InStep SameDraws (body (v.store, v.random)) (body' (w.store, v.random))) :
    Matched World.Alike World.Alike (tryTransaction body v) (tryTransaction body' w) := by
  obtain ⟨hbegin, hbegin'⟩ := h.store.canBegin
  unfold tryTransaction Store.transaction
  rw [hbegin, hbegin', ← h.random_eq]
  dsimp only
  generalize body (v.store, v.random) = out at hbody ⊢
  generalize body' (w.store, v.random) = out' at hbody ⊢
  cases hbody with
  | ok hstep => exact .ok { h with store := hstep.1, random_eq := hstep.2 }
  | error hdraws => exact .ok { h with random_eq := hdraws }

theorem transaction_matched (h : v.Alike w) {body : TransactionM σ α} {body' : TransactionM τ α}
    (hbody : Matched InStep SameDraws (body (v.store, v.random)) (body' (w.store, v.random))) :
    Matched World.Alike World.Alike (transaction body v) (transaction body' w) := by
  unfold transaction
  refine (tryTransaction_matched h hbody).bind fun r v' w' _ _ h' => ?_
  cases r with
  | error e => exact .error h'
  | ok a => exact .ok h'

end ServiceM

end Onboarding
