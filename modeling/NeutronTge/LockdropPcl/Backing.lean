import NeutronTge.LockdropPcl.Solvency

/-!
# NeutronTge.LockdropPcl.Backing

The LP tokens behind the lockups of the PCL lockdrop. It holds some and has staked others, and
together they are at least the amount of the pool (`Backed`): a migration adds as many as it
mints, and an exit takes a share that is rounded down out of those it divides, which are no more
than all of them.
-/

namespace NeutronTge.LockdropPcl

open CosmWasm Astroport
open Lockdrop (PoolType LockupKey)

variable {E : Type} {x : Externals E} {w w' : World E} {key : LockupKey}

/-! ### The LP tokens -/

/-- The LP tokens of the lockdrop. -/
structure LpTokens (E : Type) where
  /-- What it holds of an LP token. -/
  held : E → Addr → Nat
  /-- What it has staked of an LP token at an incentives contract. -/
  staked : E → Addr → Addr → Nat

/-- What the lockdrop has of an LP token, with one incentives contract. -/
def LpTokens.owned (c : LpTokens E) (e : E) (incentives lp : Addr) : Nat :=
  c.held e lp + c.staked e incentives lp

/-- A reward that is paid in an LP token. -/
def CosmosMsg.PaysIn (lp : Addr) (msg : CosmosMsg) : Prop :=
  ∃ t, msg = .transfer t ∧ t.info = .token lp

/-- The messages that take LP tokens out of what the lockdrop holds. -/
def CosmosMsg.TakesLp (lp : Addr) : CosmosMsg → Prop
  | .lpTransfer lpToken _ _ => lpToken = lp
  | .sendDeposit lpToken _ _ => lpToken = lp
  | .transfer t => t.info = .token lp
  | _ => False

/-- The other contracts say what the lockdrop holds and has staked, and LP tokens go away only
with its own messages. -/
structure LpTokens.Honest (c : LpTokens E) (x : Externals E) : Prop where
  balance : ∀ e lp n, (x.querier e).tokenBalance lp = .ok n → n = c.held e lp
  deposit : ∀ e incentives lp n, (x.querier e).deposit incentives lp = .ok n →
    n = c.staked e incentives lp
  sends : ∀ e e' lp recipient n, x.exec e (.lpTransfer lp recipient n) = .ok e' →
    c.held e' lp + n = c.held e lp
  stakes : ∀ e e' lp incentives n, x.exec e (.sendDeposit lp incentives n) = .ok e' →
    c.owned e' incentives lp = c.owned e incentives lp
  unstakes : ∀ e e' incentives lp n, x.exec e (.incentivesWithdraw incentives lp n) = .ok e' →
    c.owned e' incentives lp = c.owned e incentives lp
  held_le : ∀ e e' m lp, ¬ m.TakesLp lp → x.exec e m = .ok e' → c.held e lp ≤ c.held e' lp
  staked_le : ∀ e e' m incentives lp, (∀ n, m ≠ .incentivesWithdraw incentives lp n) →
    x.exec e m = .ok e' → c.staked e incentives lp ≤ c.staked e' incentives lp

namespace LpTokens.Honest

variable {c : LpTokens E}

/-- Messages that take no LP tokens away. -/
theorem owned_run (hc : c.Honest x) {incentives lp : Addr} {msgs : List CosmosMsg} {e e' : E}
    (hheld : ∀ m ∈ msgs, ¬ m.TakesLp lp)
    (hstaked : ∀ m ∈ msgs, ∀ n, m ≠ .incentivesWithdraw incentives lp n)
    (h : msgs.foldlM x.exec e = .ok e') : c.owned e incentives lp ≤ c.owned e' incentives lp :=
  foldlM_invariant (fun t => c.owned e incentives lp ≤ c.owned t incentives lp) (Nat.le_refl _)
    (fun t t' m hm ht hexec => ht.trans (Nat.add_le_add
      (hc.held_le t t' m lp (hheld m hm) hexec)
      (hc.staked_le t t' m incentives lp (hstaked m hm) hexec))) h

/-- A withdrawal takes LP tokens from the stake to the balance. -/
theorem owned_withdraw (hc : c.Honest x) {incentives lpToken lp : Addr} {n : Nat} {e e' : E}
    (h : x.exec e (.incentivesWithdraw incentives lpToken n) = .ok e') :
    c.owned e incentives lp ≤ c.owned e' incentives lp := by
  by_cases hlp : lpToken = lp
  · subst hlp
    exact (hc.unstakes _ _ _ _ _ h).ge
  · refine Nat.add_le_add (hc.held_le _ _ _ lp id h) (hc.staked_le _ _ _ _ lp (fun k heq => ?_) h)
    injection heq with _ heq
    exact hlp heq

/-- A transfer of LP tokens takes what it says. -/
theorem owned_send (hc : c.Honest x) {lpToken recipient : Addr} {n : Nat} {e e' : E}
    (h : x.exec e (.lpTransfer lpToken recipient n) = .ok e') (incentives lp : Addr) :
    c.owned e incentives lp ≤ c.owned e' incentives lp + if lp = lpToken then n else 0 := by
  have hstaked := hc.staked_le _ _ _ incentives lp (fun _ => CosmosMsg.noConfusion) h
  unfold owned
  split_ifs with hlp
  · subst hlp
    have hheld := hc.sends _ _ _ _ _ h
    omega
  · have hheld := hc.held_le e e' (.lpTransfer lpToken recipient n) lp (fun h => hlp h.symm) h
    omega

/-- Staking moves LP tokens from the balance to the stake. -/
theorem owned_deposit (hc : c.Honest x) {incentives lpToken lp : Addr} {n : Nat} {e e' : E}
    (h : x.exec e (.sendDeposit lpToken incentives n) = .ok e') :
    c.owned e incentives lp ≤ c.owned e' incentives lp := by
  by_cases hlp : lpToken = lp
  · subst hlp
    exact (hc.stakes _ _ _ _ _ h).ge
  · exact Nat.add_le_add (hc.held_le e e' (.sendDeposit lpToken incentives n) lp hlp h)
      (hc.staked_le _ _ _ _ lp (fun _ => CosmosMsg.noConfusion) h)

end LpTokens.Honest

/-! ### What a claim takes -/

section PaysOut

variable {q : Querier} {s s' t : Storage} {height share : Nat}
variable {withdraw : Bool} {msgs rewardMsgs exitMsgs ntrnMsgs : List CosmosMsg} {pool : PoolInfo}
variable {lockup lockup' : LockupInfo} {e e' : E} {c : LpTokens E} {lp : Addr}

theorem PaysRewards.owned (hc : c.Honest x)
    (h : PaysRewards q s key lockup pool share withdraw lockup' msgs)
    (hpaid : ∀ m ∈ msgs, ¬ m.PaysIn lp) (hrun : msgs.foldlM x.exec e = .ok e') :
    c.owned e s.config.incentives lp ≤ c.owned e' s.config.incentives lp := by
  cases h with
  | unstaked =>
      obtain rfl := Except.ok.inj hrun
      exact Nat.le_refl _
  | staked rewards debts pending =>
      obtain ⟨e₁, hpay, hunstake⟩ := foldlM_append_ok.mp hrun
      have htransfers : ∀ m ∈ pending.map (fun a => CosmosMsg.transfer (a.intoMsg key.user)),
          ∃ t, m = .transfer t := by
        intro m hm
        obtain ⟨a, -, rfl⟩ := List.mem_map.mp hm
        exact ⟨_, rfl⟩
      refine (hc.owned_run (fun m hm htakes => ?_) (fun m hm n heq => ?_) hpay).trans ?_
      · obtain ⟨t, rfl⟩ := htransfers m hm
        exact hpaid _ (List.mem_append_left _ hm) ⟨t, rfl, htakes⟩
      · obtain ⟨t, rfl⟩ := htransfers m hm
        cases heq
      · cases withdraw with
        | false =>
            obtain rfl := Except.ok.inj hunstake
            exact Nat.le_refl _
        | true => exact hc.owned_withdraw (foldlM_singleton_ok.mp hunstake)

/-- A claim takes the share of the lockup away when it leaves, and nothing of other LP
tokens. -/
theorem PaysOut.owned (hc : c.Honest x)
    (h : PaysOut q s s' height key withdraw msgs pool lockup lockup' share t rewardMsgs exitMsgs
      ntrnMsgs) (hpaid : ∀ m ∈ msgs, ¬ m.PaysIn lp) (hrun : msgs.foldlM x.exec e = .ok e') :
    c.owned e s.config.incentives lp ≤ c.owned e' s.config.incentives lp +
      if withdraw ∧ lp = pool.lpToken then share else 0 := by
  have hmsgs := h.messages
  rw [hmsgs] at hrun
  obtain ⟨e₂, hrun, hrun₃⟩ := foldlM_append_ok.mp hrun
  obtain ⟨e₁, hrun₁, hrun₂⟩ := foldlM_append_ok.mp hrun
  have hrewards := h.rewards.owned hc (fun m hm => hpaid m (by simp [hmsgs, hm])) hrun₁
  have hexits : c.owned e₁ s.config.incentives lp ≤ c.owned e₂ s.config.incentives lp +
      if withdraw ∧ lp = pool.lpToken then share else 0 := by
    have hexits := h.exits
    cases hexits with
    | stored =>
        obtain rfl := Except.ok.inj hrun₂
        exact Nat.le_add_right _ _
    | closed =>
        have hsend := hc.owned_send (foldlM_singleton_ok.mp hrun₂) s.config.incentives lp
        simpa using hsend
  have hntrn : c.owned e₂ s.config.incentives lp ≤ c.owned e' s.config.incentives lp := by
    refine hc.owned_run (fun m hm htakes => ?_) (fun m hm n heq => ?_) hrun₃ <;>
      rcases h.ntrn.mem hm with ⟨coin, rfl⟩ | ⟨credits, amount, rfl⟩
    · exact htakes
    · exact htakes
    · cases heq
    · cases heq
  omega

end PaysOut

/-- Collecting the rewards of a pool changes neither LP tokens nor amounts. -/
theorem Collects.pool {p q : PoolType} {pool' : PoolInfo} (h : Collects x p w w')
    (hq : w'.storage.assetPools.mayLoad q = some pool') :
    ∃ pool, w.storage.assetPools.mayLoad q = some pool ∧ pool'.lpToken = pool.lpToken ∧
      pool'.amountInLockups = pool.amountInLockups := by
  cases h with
  | nothing => exact ⟨pool', hq, rfl, rfl⟩
  | booked incentives lpToken ext s prev pool deposit perShare hclaim hbooks =>
      have hpool := hbooks.pool_eq
      obtain rfl := hbooks.storage
      replace hq : (w.storage.assetPools.save p
          { pool with incentivesRewardsPerShare := perShare } w.env.height).mayLoad q =
            some pool' := hq
      rw [SnapshotMap.mayLoad_save_eq] at hq
      split_ifs at hq with hqp
      · obtain rfl := Option.some.inj hq
        exact ⟨pool, hqp ▸ hpool, rfl, rfl⟩
      · exact ⟨pool', hq, rfl, rfl⟩

/-- It takes no LP tokens. -/
theorem Collects.owned {c : LpTokens E} (hc : c.Honest x) {p : PoolType}
    (h : Collects x p w w') (incentives lp : Addr) :
    c.owned w.ext incentives lp ≤ c.owned w'.ext incentives lp := by
  cases h with
  | nothing => exact Nat.le_refl _
  | booked _ _ ext _ _ _ _ _ hclaim =>
      exact Nat.add_le_add (hc.held_le _ _ _ lp id hclaim)
        (hc.staked_le _ _ _ _ lp (fun _ => CosmosMsg.noConfusion) hclaim)

/-! ### Enough LP tokens -/

/-- The pools have different LP tokens, and the lockdrop has enough of each for the amount of
its pool. -/
structure Backed (c : LpTokens E) (w : World E) : Prop where
  tokens : ∀ p q pool pool', p ≠ q → w.storage.assetPools.mayLoad p = some pool →
    w.storage.assetPools.mayLoad q = some pool' → pool.lpToken ≠ pool'.lpToken
  covered : ∀ p pool, w.storage.assetPools.mayLoad p = some pool →
    pool.amountInLockups ≤ c.owned w.ext w.storage.config.incentives pool.lpToken

/-- Who takes `units / amount` of some LP tokens, rounded down, leaves enough for the rest. -/
theorem exit_leaves {units amount balance owned : Nat} (hunits : units ≤ amount)
    (hamount : amount ≤ owned) (hbalance : balance ≤ owned) :
    amount - units + units * balance / amount ≤ owned := by
  obtain ⟨rest, rfl⟩ := Nat.exists_eq_add_of_le hunits
  obtain ⟨extra, rfl⟩ := Nat.exists_eq_add_of_le hamount
  have hshare : units * balance / (units + rest) ≤ units + extra := by
    refine Nat.div_le_of_le_mul ?_
    calc units * balance ≤ units * (units + rest + extra) := Nat.mul_le_mul_left _ hbalance
      _ ≤ (units + rest) * (units + extra) := by
        have hextra := Nat.zero_le (rest * extra)
        nlinarith
  omega

namespace Backed

variable {c : LpTokens E}

/-- A step after which every pool has the LP token it had, and enough of it. -/
theorem step (h : Backed c w)
    (hpools : ∀ p pool', w'.storage.assetPools.mayLoad p = some pool' →
      ∃ pool, w.storage.assetPools.mayLoad p = some pool ∧ pool'.lpToken = pool.lpToken ∧
        (pool.amountInLockups ≤ c.owned w.ext w.storage.config.incentives pool.lpToken →
          pool'.amountInLockups ≤
            c.owned w'.ext w'.storage.config.incentives pool.lpToken)) : Backed c w' where
  tokens p q pool pool' hne hp hq := by
    obtain ⟨pool₁, hp₁, htoken, -⟩ := hpools p pool hp
    obtain ⟨pool₂, hq₂, htoken', -⟩ := hpools q pool' hq
    rw [htoken, htoken']
    exact h.tokens p q pool₁ pool₂ hne hp₁ hq₂
  covered p pool' hp := by
    obtain ⟨pool, hpool, htoken, hcovered⟩ := hpools p pool' hp
    rw [htoken]
    exact hcovered (h.covered p pool hpool)

/-- A step that keeps the pools and takes no LP tokens. -/
theorem frame (h : Backed c w) (hpools : w'.storage.assetPools = w.storage.assetPools)
    (howned : ∀ lp, c.owned w.ext w.storage.config.incentives lp ≤
      c.owned w'.ext w'.storage.config.incentives lp) : Backed c w' :=
  h.step fun _ pool' hp => ⟨pool', hpools ▸ hp, rfl, fun hle => hle.trans (howned _)⟩

theorem collects {p : PoolType} (hc : c.Honest x) (h : Backed c w)
    (hcollects : Collects x p w w') : Backed c w' := by
  obtain ⟨-, -, -, hconfig⟩ := hcollects.frame
  refine h.step fun q pool' hq => ?_
  obtain ⟨pool, hpool, htoken, hamount⟩ := hcollects.pool hq
  rw [hconfig, hamount]
  exact ⟨pool, hpool, htoken, fun hle => hle.trans (hcollects.owned hc _ _)⟩

theorem pays (hc : c.Honest x) (h : Backed c w) {withdraw : Bool} {msgs : List CosmosMsg}
    {pool : PoolInfo} {lockup lockup' : LockupInfo} {share : Nat} {t : Storage}
    {rewardMsgs exitMsgs ntrnMsgs : List CosmosMsg}
    (hpays : Pays x w w' key withdraw msgs pool lockup lockup' share t rewardMsgs exitMsgs
      ntrnMsgs)
    (hpaid : ∀ m ∈ msgs, ∀ p pool, w.storage.assetPools.mayLoad p = some pool →
      ¬ m.PaysIn pool.lpToken) : Backed c w' := by
  have hout := hpays.paysOut
  obtain ⟨hself, hothers⟩ := hout.assetPools
  have hpool := hout.pool_eq
  have howned := fun p pool' (hp : w.storage.assetPools.mayLoad p = some pool') =>
    hout.owned hc (fun m hm => hpaid m hm p pool' hp) hpays.exec
  obtain ⟨balance, hbalance, -, hshare⟩ := astroportLpShare_ok hout.share_eq
  -- what the exit divides is a part of what the lockdrop has
  have hpart : balance ≤ c.owned w.ext w.storage.config.incentives pool.lpToken := by
    unfold lpBalance at hbalance
    split_ifs at hbalance
    · rw [hc.deposit _ _ _ _ hbalance]
      exact Nat.le_add_left _ _
    · rw [hc.balance _ _ _ hbalance]
      exact Nat.le_add_right _ _
  refine h.step fun q pool' hq => ?_
  rw [hout.config]
  by_cases hqp : q = key.poolType
  · subst hqp
    obtain rfl := Option.some.inj (hself.symm.trans hq)
    refine ⟨pool, hpool, rfl, fun hle => ?_⟩
    have hkept := howned _ pool hpool
    cases withdraw with
    | false => simpa using hle.trans hkept
    | true =>
        obtain ⟨-, hunits, -⟩ := hout.leaves
        have hrest := exit_leaves hunits hle hpart
        rw [← hshare] at hrest
        simp only [and_self, if_true] at hkept ⊢
        omega
  · rw [hothers q hqp] at hq
    refine ⟨pool', hq, rfl, fun hle => hle.trans ?_⟩
    have hkept := howned q pool' hq
    rwa [if_neg fun hand => h.tokens q _ pool' pool hqp hq hpool hand.2, Nat.add_zero] at hkept

/-- A migration adds as many units as it mints LP tokens. -/
theorem migrates (hc : c.Honest x) (h : Backed c w) {funds : List Coin}
    {userInfo : Lockdrop.UserInfo} {lockup : Lockdrop.LockupInfoV2} {stake : Bool} {pair : Addr}
    {ext : E} {msgs : List CosmosMsg} {prev balance : Nat} {pool : PoolInfo} {weight : Nat}
    (hmigrates : Migrates x w w' key funds userInfo lockup stake pair ext msgs prev balance pool
      weight) : Backed c w' := by
  have hfinishes := hmigrates.finishes
  have hstaked : ∀ lp, c.staked w.ext w.storage.config.incentives lp ≤
      c.staked ext w.storage.config.incentives lp := fun lp =>
    hc.staked_le _ _ _ _ lp (fun _ => CosmosMsg.noConfusion) hmigrates.provides
  have hprovided : ∀ lp, c.owned w.ext w.storage.config.incentives lp ≤
      c.owned ext w.storage.config.incentives lp := fun lp =>
    Nat.add_le_add (hc.held_le _ _ _ lp id hmigrates.provides) (hstaked lp)
  -- the units that are added are the LP tokens that came in
  have hminted : c.owned w.ext w.storage.config.incentives pool.lpToken + (balance - prev) ≤
      c.owned ext w.storage.config.incentives pool.lpToken := by
    have hbefore := hc.balance _ _ _ hmigrates.prev_eq
    have hafter := hc.balance _ _ _ hmigrates.balance_eq
    have hle := hmigrates.prev_le
    have hmore := hstaked pool.lpToken
    unfold LpTokens.owned
    omega
  have hrest : ∀ lp, c.owned ext w.storage.config.incentives lp ≤
      c.owned w'.ext w.storage.config.incentives lp := by
    intro lp
    have hrun := hmigrates.exec
    rw [hfinishes.messages] at hrun
    split_ifs at hrun
    · exact hc.owned_deposit (foldlM_singleton_ok.mp hrun)
    · obtain rfl := Except.ok.inj hrun
      exact Nat.le_refl _
  refine h.step fun q pool' hq => ?_
  rw [hfinishes.config]
  rw [hfinishes.assetPools] at hq
  split_ifs at hq with hqp
  · obtain rfl := Option.some.inj hq
    refine ⟨pool, hqp ▸ hfinishes.pool_eq, rfl, fun hle => ?_⟩
    exact (Nat.add_le_add_right hle _).trans (hminted.trans (hrest _))
  · exact ⟨pool', hq, rfl, fun hle => hle.trans ((hprovided _).trans (hrest _))⟩

/-- A message of the owner: another incentives contract is only taken while nothing is
staked. -/
theorem administers (hc : c.Honest x) (h : Backed c w) {info : MessageInfo} {msg : ExecuteMsg}
    (hmsg : msg.administers = true) (hsame : Administers w w')
    (hexec : w.execute x info msg = .ok w') : Backed c w' := by
  refine h.step fun p pool hp => ?_
  rw [hsame.assetPools] at hp
  refine ⟨pool, hp, rfl, fun hle => ?_⟩
  rw [hsame.ext]
  rcases administers_incentives hexec hmsg with hincentives | hnothing
  · rw [hincentives]
    exact hle
  · have hzero := hc.deposit _ _ _ _ (hnothing p pool hp)
    unfold LpTokens.owned at hle ⊢
    omega

/-- A transaction that pays no reward in LP tokens. -/
theorem execute (hc : c.Honest x) (h : Backed c w) {info : MessageInfo} {msg : ExecuteMsg}
    (hexec : w.execute x info msg = .ok w')
    (hpaid : Appends (fun m => ∀ p pool, w.storage.assetPools.mayLoad p = some pool →
      ¬ m.PaysIn pool.lpToken) w.trace w'.trace) : Backed c w' := by
  cases execute_effect hexec with
  | administer _ hmsg hsame => exact h.administers hc hmsg hsame hexec
  | migrate _ _ _ _ _ _ _ _ _ _ _ _ hmigrates => exact h.migrates hc hmigrates
  | claim poolType duration withdraw r w₁ opened collect msgs pool lockup lockup' share t
      rewardMsgs exitMsgs ntrnMsgs hstarts hcollects hpays =>
      have hsame := hstarts.sameBooks
      have hstart : Backed c (w.respond r) := by
        refine h.frame hsame.assetPools fun lp => ?_
        show _ ≤ c.owned w.ext r.storage.config.incentives lp
        rw [hsame.config]
      refine (hstart.collects hc hcollects).pays hc hpays fun m hm p pool' hp => ?_
      obtain ⟨collected, hcollected, -⟩ := hcollects.trace
      obtain ⟨new, hnew, hpaid⟩ := hpaid
      obtain ⟨pool₀, hpool₀, htoken, -⟩ := hcollects.pool hp
      rw [htoken]
      refine hpaid m ?_ p pool₀ (hsame.assetPools ▸ hpool₀)
      have htrace : w.trace ++ new = w.trace ++ (collected ++ msgs) := by
        rw [← hnew, hpays.trace, hcollected, List.append_assoc]
        rfl
      rw [List.append_cancel_left htrace]
      exact List.mem_append_right _ hm

/-- Right after `instantiate` there are no lockups. -/
theorem of_instantiate {env : Env} {info : MessageInfo} {msg : InstantiateMsg}
    (h : instantiate env info msg = .ok w.storage) (htokens : msg.atomToken ≠ msg.usdcToken) :
    Backed c w where
  tokens := by
    rw [instantiate_ok h]
    exact fun p q pool pool' hne hp hq => initialPools_lpToken htokens hne hp hq
  covered p pool hpool := by
    rw [instantiate_ok h] at hpool
    rcases initialPool_ok hpool with ⟨-, rfl⟩ | ⟨-, rfl⟩ <;> exact Nat.zero_le _

end Backed

end NeutronTge.LockdropPcl
