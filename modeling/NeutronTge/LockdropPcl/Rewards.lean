import NeutronTge.LockdropPcl.Transactions

/-!
# NeutronTge.LockdropPcl.Rewards

What a lockup is paid. The reward callback goes through the rewards that the incentives
contract lists, and settles the lockup's debt for each of them; an asset that is not listed
is not settled, whatever was credited for it before (`Settled`). A history of payments is
kept beside a run, so that what a lockup got in all is known when it leaves
(`unlock_pays_iff`).
-/

namespace NeutronTge.LockdropPcl

open CosmWasm Astroport
open Lockdrop (PoolType LockupKey)

/-! ### Settling debts -/

/-- What a share has accrued of an asset from the beginning. -/
def accruedOf (perShare : RestrictedVector AssetInfo Decimal) (share : Nat)
    (asset : AssetInfo) : Nat :=
  perShare.atomicsOf asset * share / FixedPoint.fractional

/-- The amount of one asset in a list. -/
def amountOf (asset : AssetInfo) (assets : List Asset) : Nat :=
  (assets.map fun a => if a.info = asset then a.amount else 0).sum

@[simp] theorem amountOf_nil (asset : AssetInfo) : amountOf asset [] = 0 := rfl

theorem amountOf_append (asset : AssetInfo) (xs ys : List Asset) :
    amountOf asset (xs ++ ys) = amountOf asset xs + amountOf asset ys := by
  simp [amountOf]

theorem amountOf_singleton (asset : AssetInfo) (a : Asset) :
    amountOf asset [a] = if a.info = asset then a.amount else 0 := by
  simp [amountOf]

/-- The debts and the assets to pay, before and after the assets of a list were settled for a
share: the debt of an asset that is listed and was ever credited becomes what the share has
accrued, and the difference is paid. -/
structure Settled (perShare : RestrictedVector AssetInfo Decimal) (share : Nat)
    (assets : List AssetInfo) (st st' : RestrictedVector AssetInfo Nat × List Asset) :
    Prop where
  debt : ∀ a, st'.1.valueOf a =
    if a ∈ assets ∧ perShare.atomicsOf a ≠ 0 then accruedOf perShare share a else st.1.valueOf a
  debt_le : ∀ a ∈ assets, perShare.atomicsOf a ≠ 0 →
    st.1.valueOf a ≤ accruedOf perShare share a
  paid : ∀ a, amountOf a st'.2 + st.1.valueOf a = amountOf a st.2 + st'.1.valueOf a

namespace Settled

variable {perShare : RestrictedVector AssetInfo Decimal} {share : Nat}
variable {xs ys : List AssetInfo} {st st' st'' : RestrictedVector AssetInfo Nat × List Asset}

theorem nil (st : RestrictedVector AssetInfo Nat × List Asset) :
    Settled perShare share [] st st where
  debt a := by simp
  debt_le a ha := absurd ha List.not_mem_nil
  paid _ := rfl

theorem append (h : Settled perShare share xs st st') (h' : Settled perShare share ys st' st'') :
    Settled perShare share (xs ++ ys) st st'' where
  debt a := by
    rw [h'.debt, h.debt]
    by_cases hzero : perShare.atomicsOf a = 0
    · simp [hzero]
    · by_cases hys : a ∈ ys
      · simp [hzero, hys]
      · simp [hzero, hys]
  debt_le a ha hzero := by
    by_cases hxs : a ∈ xs
    · exact h.debt_le a hxs hzero
    · have hys := (List.mem_append.mp ha).resolve_left hxs
      have hle := h'.debt_le a hys hzero
      rwa [h.debt, if_neg fun hmem => hxs hmem.1] at hle
  paid a := by
    have hfirst := h.paid a
    have hsecond := h'.paid a
    omega

end Settled

theorem accrueReward_ok {pool : PoolInfo} {share : Nat} {reward : RewardType}
    {st st' : RestrictedVector AssetInfo Nat × List Asset}
    (h : accrueReward pool share st reward = .ok st') :
    Settled pool.incentivesRewardsPerShare share [reward.asset] st st' := by
  unfold accrueReward at h
  dsimp only at h
  split_ifs at h with hzero
  · -- an asset that was never credited is skipped
    obtain rfl := Except.ok.inj h
    have hatomics : pool.incentivesRewardsPerShare.atomicsOf reward.asset = 0 := by
      rw [RestrictedVector.atomicsOf, hzero]
      rfl
    refine ⟨fun a => ?_, fun a ha hne => ?_, fun _ => rfl⟩
    · rw [if_neg]
      rintro ⟨ha, hne⟩
      exact hne (List.mem_singleton.mp ha ▸ hatomics)
    · exact absurd (List.mem_singleton.mp ha ▸ hatomics) hne
  · have hatomics : pool.incentivesRewardsPerShare.atomicsOf reward.asset ≠ 0 := by
      intro heq
      refine hzero ?_
      unfold RestrictedVector.atomicsOf at heq
      generalize (pool.incentivesRewardsPerShare.load reward.asset).getD FixedPoint.zero = d at heq
      obtain ⟨atomics⟩ := d
      exact congrArg FixedPoint.mk heq
    simp only [bind_eq_ok, Uint.checkedSub_eq_ok, Except.ok.injEq] at h
    obtain ⟨lpAmount, hlp, accrued, haccrued, _, ⟨hle, rfl⟩, debts, hdebts, rfl⟩ := h
    have hfloor : accrued.toUintFloor =
        accruedOf pool.incentivesRewardsPerShare share reward.asset :=
      FixedPoint.checkedMul_ofUint_floor hlp haccrued
    rw [hfloor] at hle hdebts ⊢
    have hvalue := RestrictedVector.valueOf_updateUint hdebts
    have hle' : st.1.valueOf reward.asset ≤
        accruedOf pool.incentivesRewardsPerShare share reward.asset := hle
    refine ⟨fun a => ?_, fun a ha _ => ?_, fun a => ?_⟩
    · dsimp only
      rw [hvalue]
      by_cases ha : a = reward.asset
      · subst ha
        rw [if_pos rfl, if_pos ⟨List.mem_singleton_self _, hatomics⟩]
        exact Nat.add_sub_of_le hle'
      · rw [if_neg ha, if_neg fun hmem => ha (List.mem_singleton.mp hmem.1), Nat.add_zero]
    · rw [List.mem_singleton.mp ha]
      exact hle
    · dsimp only
      rw [hvalue]
      have hpaid : amountOf a (if accruedOf pool.incentivesRewardsPerShare share reward.asset -
            (st.1.load reward.asset).getD 0 = 0 then st.2
          else st.2 ++ [⟨reward.asset, accruedOf pool.incentivesRewardsPerShare share
            reward.asset - (st.1.load reward.asset).getD 0⟩]) =
          amountOf a st.2 + if a = reward.asset then
            accruedOf pool.incentivesRewardsPerShare share reward.asset -
              (st.1.load reward.asset).getD 0 else 0 := by
        split_ifs with hnone ha ha
        · rw [hnone, Nat.add_zero]
        · rfl
        · rw [amountOf_append, amountOf_singleton, if_pos ha.symm]
        · rw [amountOf_append, amountOf_singleton, if_neg (Ne.symm ha)]
      rw [hpaid]
      omega

theorem accrueRewards_ok {pool : PoolInfo} {share : Nat} : ∀ {rewards : List RewardType}
    {st st' : RestrictedVector AssetInfo Nat × List Asset},
    rewards.foldlM (accrueReward pool share) st = .ok st' →
      Settled pool.incentivesRewardsPerShare share (rewards.map RewardType.asset) st st' := by
  intro rewards
  induction rewards with
  | nil =>
      intro st st' h
      obtain rfl := Except.ok.inj h
      exact Settled.nil st
  | cons reward rewards ih =>
      intro st st' h
      obtain ⟨st₁, hfirst, hrest⟩ := foldlM_cons_ok.mp h
      exact (accrueReward_ok hfirst).append (ih hrest)

/-! ### What messages transfer -/

/-- The amount of a message that is a transfer which meets `P`. -/
def CosmosMsg.transferred (P : TransferMsg → Bool) : CosmosMsg → Nat
  | .transfer msg => if P msg then msg.quantity else 0
  | _ => 0

/-- The amount of all transfers among the messages that meet `P`. -/
def transferred (P : TransferMsg → Bool) (msgs : List CosmosMsg) : Nat :=
  (msgs.map (CosmosMsg.transferred P)).sum

section Transferred

variable {P : TransferMsg → Bool} {msgs : List CosmosMsg}

theorem transferred_append (xs ys : List CosmosMsg) :
    transferred P (xs ++ ys) = transferred P xs + transferred P ys := by
  simp [transferred]

theorem transferred_eq_zero (h : ∀ m ∈ msgs, ∀ t, m ≠ .transfer t) : transferred P msgs = 0 := by
  refine List.sum_eq_zero fun n hn => ?_
  obtain ⟨m, hm, rfl⟩ := List.mem_map.mp hn
  cases m with
  | transfer t => exact absurd rfl (h _ hm t)
  | _ => rfl

/-- Assets that are sent to a user, when `P` looks for one of them. -/
theorem transferred_assets {user : Addr} {asset : AssetInfo}
    (hP : ∀ a : Asset, P (a.intoMsg user) = decide (a.info = asset)) (assets : List Asset) :
    transferred P (assets.map fun a => .transfer (a.intoMsg user)) = amountOf asset assets := by
  unfold transferred amountOf
  rw [List.map_map]
  congr 1
  refine List.map_congr_left fun a _ => ?_
  simp only [Function.comp, CosmosMsg.transferred, hP, decide_eq_true_eq, intoMsg_quantity]

end Transferred

/-! ### The payments of a run -/

/-- What was paid in a run so far: to each lockup since it was stored, and for each pool. -/
structure Payments where
  lockup : LockupKey → AssetInfo → Nat
  pool : PoolType → AssetInfo → Nat

namespace Payments

/-- Before a run. -/
def none : Payments := ⟨fun _ _ => 0, fun _ _ => 0⟩

/-- A claim for the lockup `key` sent `msgs`. -/
def claimed (b : Payments) (key : LockupKey) (msgs : List CosmosMsg) : Payments where
  lockup k asset := b.lockup k asset +
    if k = key then transferred (fun t => t.recipient = k.user ∧ t.info = asset) msgs else 0
  pool p asset := b.pool p asset +
    if p = key.poolType then transferred (fun t => t.info = asset) msgs else 0

/-- The lockup `key` was stored anew. -/
def stored (b : Payments) (key : LockupKey) : Payments :=
  { b with lockup := fun k asset => if k = key then 0 else b.lockup k asset }

variable {E : Type}

/-- The payments after an action, which is looked up in the trace. -/
def after (w : World E) (a : Action E) (w' : World E) (b : Payments) : Payments :=
  match a with
  | .execute info (.claimRewardsAndOptionallyUnlock poolType duration _) =>
      b.claimed ⟨poolType, info.sender, duration⟩ (w'.trace.drop w.trace.length)
  | .execute _ (.migrateXYKLiquidity poolType user duration _ _ _) =>
      b.stored ⟨poolType, user, duration⟩
  | _ => b

end Payments

variable {E : Type} {x : Externals E} {w w₁ w' : World E}

/-- The payments of a run. -/
def payments (x : Externals E) (w : World E) (as : List (Action E)) : Payments :=
  history (World.exec x) Payments.after w .none as

/-! ### What the reward callback settles -/

section Settles

variable {q : Querier} {s s' t : Storage} {height share : Nat} {key : LockupKey}
variable {withdraw : Bool} {msgs rewardMsgs exitMsgs ntrnMsgs : List CosmosMsg} {pool : PoolInfo}
variable {lockup lockup' : LockupInfo}

/-- The rewards that the reward callback goes through: nothing before the pool is staked. -/
def Lists (q : Querier) (s : Storage) (pool : PoolInfo) (assets : List AssetInfo) : Prop :=
  (pool.isStaked = false ∧ assets = []) ∨
    pool.isStaked = true ∧ ∃ rewards,
      q.rewardInfo s.config.incentives pool.lpToken = .ok rewards ∧
        assets = rewards.map RewardType.asset

theorem PaysRewards.settles
    (h : PaysRewards q s key lockup pool share withdraw lockup' msgs) :
    ∃ assets pending, Lists q s pool assets ∧
      Settled pool.incentivesRewardsPerShare share assets (lockup.incentivesDebt, [])
        (lockup'.incentivesDebt, pending) ∧
      ∀ P, transferred P msgs =
        transferred P (pending.map fun asset => .transfer (asset.intoMsg key.user)) := by
  cases h with
  | unstaked hstaked =>
      exact ⟨[], [], Or.inl ⟨hstaked, rfl⟩, Settled.nil _, fun _ => rfl⟩
  | staked rewards debts pending hstaked hrewards hpending =>
      refine ⟨rewards.map RewardType.asset, pending, Or.inr ⟨hstaked, rewards, hrewards, rfl⟩,
        accrueRewards_ok hpending, fun P => ?_⟩
      have hunstake : transferred P (if withdraw = true then
          [.incentivesWithdraw s.config.incentives pool.lpToken share] else []) = 0 := by
        split_ifs <;> rfl
      rw [transferred_append, hunstake, Nat.add_zero]

/-- What the reward callback does to the debts of its lockup, and what it pays of an asset. -/
theorem PaysOut.settles
    (h : PaysOut q s s' height key withdraw msgs pool lockup lockup' share t rewardMsgs exitMsgs
      ntrnMsgs) :
    ∃ assets pending, Lists q s pool assets ∧
      Settled pool.incentivesRewardsPerShare share assets (lockup.incentivesDebt, [])
        (lockup'.incentivesDebt, pending) ∧
      ∀ P asset, (∀ a : Asset, P (a.intoMsg key.user) = decide (a.info = asset)) →
        transferred P msgs + lockup.incentivesDebt.valueOf asset =
          lockup'.incentivesDebt.valueOf asset := by
  obtain ⟨assets, pending, hlists, hsettled, hmsgs⟩ := h.rewards.settles
  refine ⟨assets, pending, hlists, hsettled, fun P asset hP => ?_⟩
  have hexits : transferred P exitMsgs = 0 := by
    refine transferred_eq_zero fun m hm t heq => ?_
    obtain ⟨-, rfl⟩ := h.exits.mem hm
    cases heq
  have hntrn : transferred P ntrnMsgs = 0 := by
    refine transferred_eq_zero fun m hm t heq => ?_
    rcases h.ntrn.mem hm with ⟨coin, rfl⟩ | ⟨credits, amount, rfl⟩ <;> cases heq
  have hpaid := hsettled.paid asset
  rw [h.messages, transferred_append, transferred_append, hexits, hntrn, hmsgs,
    transferred_assets hP]
  simp only [amountOf_nil] at hpaid
  omega

end Settles

/-! ### The payments are the debts -/

/-- The debt of a lockup is what it was paid, and nothing is credited to a pool before it is
staked. -/
structure Accounted (w : World E) (b : Payments) : Prop where
  debt : ∀ k core, w.storage.coreOf k = some core →
    ∀ asset, b.lockup k asset = core.incentivesDebt.valueOf asset
  unstaked : ∀ p pool, w.storage.assetPools.mayLoad p = some pool → pool.isStaked = false →
    ∀ asset, pool.incentivesRewardsPerShare.atomicsOf asset = 0

namespace Accounted

variable {b : Payments}

/-- A step that keeps the lockups and the pools. -/
theorem frame (h : Accounted w b) (hcores : ∀ k, w'.storage.coreOf k = w.storage.coreOf k)
    (hpools : w'.storage.assetPools = w.storage.assetPools) : Accounted w' b where
  debt k core hcore := h.debt k core (hcores k ▸ hcore)
  unstaked p pool hpool := h.unstaked p pool (hpools ▸ hpool)

/-- Rewards are booked for a pool that is staked. -/
theorem gathers {p : PoolType} (h : Accounted w b) (hgathers : Gathers x p w w') :
    Accounted w' b := by
  cases hgathers with
  | nothing => exact h
  | booked pool pending ext s deposit perShare hstaked hpending hclaim hbooks =>
      obtain rfl := hbooks.storage
      refine ⟨h.debt, fun p' pool' hpool' hunstaked => ?_⟩
      dsimp only at hpool'
      rw [SnapshotMap.mayLoad_save_eq] at hpool'
      split_ifs at hpool' with hp
      · obtain rfl := Option.some.inj hpool'
        rw [hstaked] at hunstaked
        cases hunstaked
      · exact h.unstaked p' pool' hpool' hunstaked

/-- A claim up to its reward callback. -/
theorem collected {info : MessageInfo} {poolType : PoolType} {duration : Nat} {withdraw : Bool}
    (h : Accounted w b) (hcollected : w.collected x info poolType duration withdraw = .ok w₁) :
    Accounted w₁ b ∧ ∃ msgs, w₁.trace = w.trace ++ msgs ∧ ∀ P, transferred P msgs = 0 := by
  obtain ⟨r, opened, collect, hstarts, hgathers⟩ := collected_ok hcollected
  have hsame := hstarts.sameBooks
  have hr : Accounted (w.respond r) b := h.frame hsame.lockups hsame.assetPools
  obtain ⟨msgs, htrace, hmsgs⟩ := hgathers.collects.trace
  refine ⟨hr.gathers hgathers, msgs, htrace, fun P => transferred_eq_zero fun m hm t heq => ?_⟩
  obtain ⟨incentives, lpTokens, rfl⟩ := hmsgs m hm
  cases heq

/-- The reward callback, after messages that transfer nothing. -/
theorem pays {key : LockupKey} {withdraw : Bool} {before msgs : List CosmosMsg} {pool : PoolInfo}
    {lockup lockup' : LockupInfo} {share : Nat} {t : Storage}
    {rewardMsgs exitMsgs ntrnMsgs : List CosmosMsg} (h : Accounted w b)
    (hbefore : ∀ P, transferred P before = 0)
    (hpays : Pays x w w' key withdraw msgs pool lockup lockup' share t rewardMsgs exitMsgs
      ntrnMsgs) : Accounted w' (b.claimed key (before ++ msgs)) := by
  have hout := hpays.paysOut
  obtain ⟨assets, pending, -, -, hpaid⟩ := hout.settles
  obtain ⟨hkey, hothers⟩ := hout.coreOf
  constructor
  · intro k core hcore asset
    simp only [Payments.claimed, transferred_append, hbefore, Nat.zero_add]
    by_cases hk : k = key
    · obtain rfl := hk
      obtain rfl := Option.some.inj (hkey.symm.trans hcore)
      have hold := h.debt k lockup.core (coreOf_of_load hout.lockup_eq) asset
      have hnew := hpaid (fun t => t.recipient = k.user ∧ t.info = asset) asset (by simp)
      rw [if_pos rfl, hold, Nat.add_comm]
      exact hnew
    · rw [if_neg hk, Nat.add_zero]
      exact h.debt k core (hothers k hk ▸ hcore) asset
  · intro p pool' hpool' hunstaked
    obtain ⟨hsame, hrest⟩ := hout.assetPools
    by_cases hp : p = key.poolType
    · subst hp
      obtain rfl := Option.some.inj (hsame.symm.trans hpool')
      exact h.unstaked _ pool hout.pool_eq hunstaked
    · exact h.unstaked p pool' (hrest p hp ▸ hpool') hunstaked

/-- A claim: the history takes down what it transferred. -/
theorem claims {info : MessageInfo} {poolType : PoolType} {duration : Nat} {withdraw : Bool}
    (h : Accounted w b)
    (hexec : w.execute x info (.claimRewardsAndOptionallyUnlock poolType duration withdraw) =
      .ok w') :
    Accounted w' (b.claimed ⟨poolType, info.sender, duration⟩
      (w'.trace.drop w.trace.length)) := by
  obtain ⟨w₁, hcollected, hpay⟩ := execute_collected hexec
  obtain ⟨h₁, before, htrace, hbefore⟩ := h.collected hcollected
  obtain ⟨msgs, pool, lockup, lockup', share, t, rewardMsgs, exitMsgs, ntrnMsgs, hpays⟩ :=
    pays_ok ⟨poolType, info.sender, duration⟩ hpay
  have hdrop : w'.trace.drop w.trace.length = before ++ msgs := by
    rw [hpays.trace, htrace, List.append_assoc, List.drop_left]
  rw [hdrop]
  exact h₁.pays hbefore hpays

/-- A lockup comes in: it has no debts, and it was paid nothing. -/
theorem migrates {key : LockupKey} {funds : List Coin} {userInfo : Lockdrop.UserInfo}
    {lockup : Lockdrop.LockupInfoV2} {stake : Bool} {pair : Addr} {ext : E}
    {msgs : List CosmosMsg} {prev balance : Nat} {pool : PoolInfo} {weight : Nat}
    (h : Accounted w b)
    (hmigrates : Migrates x w w' key funds userInfo lockup stake pair ext msgs prev balance pool
      weight) : Accounted w' (b.stored key) := by
  have hfinishes := hmigrates.finishes
  have hcores := coreOf_save hfinishes.lockupInfo
  constructor
  · intro k core hcore asset
    rw [hcores] at hcore
    simp only [Payments.stored]
    split_ifs at hcore ⊢ with hk
    · obtain rfl := Option.some.inj hcore
      rfl
    · exact h.debt k core hcore asset
  · intro p pool' hpool' hunstaked
    rw [hfinishes.assetPools] at hpool'
    split_ifs at hpool' with hp
    · obtain rfl := Option.some.inj hpool'
      exact h.unstaked p pool (hp ▸ hfinishes.pool_eq) (Bool.or_eq_false_iff.mp hunstaked).2
    · exact h.unstaked p pool' hpool' hunstaked

theorem exec {a : Action E} (h : Accounted w b) (hexec : World.exec x w a = .ok w') :
    Accounted w' (Payments.after w a w' b) := by
  cases a with
  | advance seconds blocks =>
      obtain rfl := Except.ok.inj hexec
      exact h.frame (fun _ => rfl) rfl
  | drift ext =>
      obtain rfl := Except.ok.inj hexec
      exact h.frame (fun _ => rfl) rfl
  | execute info msg =>
      replace hexec : w.execute x info msg = .ok w' := hexec
      cases execute_effect hexec with
      | administer _ hmsg hsame =>
          have hafter : Payments.after w (.execute info msg) w' b = b := by
            cases msg with
            | claimRewardsAndOptionallyUnlock => cases hmsg
            | migrateXYKLiquidity => cases hmsg
            | _ => rfl
          rw [hafter]
          exact h.frame (coreOf_congr hsame.lockupInfo) hsame.assetPools
      | claim poolType duration withdraw => exact h.claims hexec
      | migrate _ _ _ _ _ _ _ _ _ _ _ _ hmigrates => exact h.migrates hmigrates

theorem of_instantiate {env : Env} {info : MessageInfo} {msg : InstantiateMsg}
    (h : instantiate env info msg = .ok w.storage) : Accounted w .none := by
  have hstorage := instantiate_ok h
  constructor
  · intro k core hcore
    rw [hstorage] at hcore
    cases hcore
  · intro p pool hpool _ asset
    rw [hstorage] at hpool
    rcases initialPool_ok hpool with ⟨-, rfl⟩ | ⟨-, rfl⟩ <;> rfl

end Accounted

/-! ### Unlocking -/

/-- The lockup left, and was paid all that its share had accrued of every credited asset. -/
def PaidInFull (s : Storage) (paid : AssetInfo → Nat) (key : LockupKey) : Prop :=
  ∃ pool core share, s.assetPools.mayLoad key.poolType = some pool ∧ s.coreOf key = some core ∧
    core.astroportLpTransferred = some share ∧
    ∀ asset, pool.incentivesRewardsPerShare.atomicsOf asset ≠ 0 →
      paid asset = accruedOf pool.incentivesRewardsPerShare share asset

/-- The incentives contract lists every credited asset of which the lockup has something
pending. -/
def PendingListed (q : Querier) (s : Storage) (key : LockupKey) : Prop :=
  ∀ pool lockup share asset, s.assetPools.mayLoad key.poolType = some pool →
    s.lockupInfo.mayLoad key = some lockup →
    astroportLpShare q s.config.incentives pool lockup.lpUnitsLocked = .ok share →
    pool.incentivesRewardsPerShare.atomicsOf asset ≠ 0 →
    lockup.incentivesDebt.valueOf asset ≠ accruedOf pool.incentivesRewardsPerShare share asset →
      ∃ rewards, q.rewardInfo s.config.incentives pool.lpToken = .ok rewards ∧
        asset ∈ rewards.map RewardType.asset

/-- What the debts of a lockup are after its reward callback, by the rewards that are
listed. -/
theorem Pays.debts_iff {b : Payments} {key : LockupKey} {withdraw : Bool}
    {msgs : List CosmosMsg} {pool : PoolInfo} {lockup lockup' : LockupInfo} {share : Nat}
    {t : Storage} {rewardMsgs exitMsgs ntrnMsgs : List CosmosMsg} (h : Accounted w b)
    (hpays : Pays x w w' key withdraw msgs pool lockup lockup' share t rewardMsgs exitMsgs
      ntrnMsgs) :
    (∀ asset, pool.incentivesRewardsPerShare.atomicsOf asset ≠ 0 →
      lockup'.incentivesDebt.valueOf asset =
        accruedOf pool.incentivesRewardsPerShare share asset) ↔
      PendingListed (x.querier w.ext) w.storage key := by
  have hout := hpays.paysOut
  obtain ⟨assets, pending, hlists, hsettled, -⟩ := hout.settles
  have hdebt := hsettled.debt
  dsimp only at hdebt
  constructor
  · intro hall pool₁ lockup₁ share₁ asset hpool hlockup hshare hcredited hpending
    obtain rfl := Option.some.inj (hout.pool_eq.symm.trans hpool)
    obtain rfl := Option.some.inj (hout.lockup_eq.symm.trans hlockup)
    obtain rfl := Except.ok.inj (hout.share_eq.symm.trans hshare)
    -- the debt was settled, so the asset is on the list
    have hmem : asset ∈ assets := by
      by_contra hno
      have hsame := hdebt asset
      rw [if_neg fun h => hno h.1, hall asset hcredited] at hsame
      exact hpending hsame.symm
    rcases hlists with ⟨hunstaked, -⟩ | ⟨-, rewards, hrewards, rfl⟩
    · exact absurd (h.unstaked _ pool hout.pool_eq hunstaked asset) hcredited
    · exact ⟨rewards, hrewards, hmem⟩
  · intro hlisted asset hcredited
    rw [hdebt]
    by_cases hmem : asset ∈ assets
    · rw [if_pos ⟨hmem, hcredited⟩]
    · rw [if_neg fun h => hmem h.1]
      by_contra hpending
      obtain ⟨rewards, hrewards, hasset⟩ := hlisted pool lockup share asset hout.pool_eq
        hout.lockup_eq hout.share_eq hcredited hpending
      rcases hlists with ⟨hunstaked, -⟩ | ⟨-, rewards', hrewards', rfl⟩
      · exact hcredited (h.unstaked _ pool hout.pool_eq hunstaked asset)
      · obtain rfl := Except.ok.inj (hrewards.symm.trans hrewards')
        exact hmem hasset

/-- In every run, a lockup that is unlocked was paid all it had accrued of every credited
asset, if and only if the incentives contract lists each of them of which something is
pending when the reward callback runs. -/
theorem unlock_pays_iff {env : Env} {info₀ : MessageInfo} {msg : InstantiateMsg}
    (hstart : instantiate env info₀ msg = .ok w.storage) (as : List (Action E))
    {info : MessageInfo} {poolType : PoolType} {duration : Nat}
    (hcollected : (run (World.exec x) w as).collected x info poolType duration true = .ok w₁)
    (hexec : World.exec x (run (World.exec x) w as)
      (.execute info (.claimRewardsAndOptionallyUnlock poolType duration true)) = .ok w') :
    PaidInFull w'.storage
        ((payments x w (as ++ [.execute info
          (.claimRewardsAndOptionallyUnlock poolType duration true)])).lockup
            ⟨poolType, info.sender, duration⟩) ⟨poolType, info.sender, duration⟩ ↔
      PendingListed (x.querier w₁.ext) w₁.storage ⟨poolType, info.sender, duration⟩ := by
  have hbefore : Accounted (run (World.exec x) w as) (payments x w as) :=
    history_invariant Accounted (fun _ _ _ _ => Accounted.exec) (.of_instantiate hstart)
  have hafter := hbefore.exec hexec
  rw [payments, history_snoc hexec, ← payments]
  obtain ⟨w₂, hcollected₂, hpay⟩ := execute_collected hexec
  obtain rfl := Except.ok.inj (hcollected.symm.trans hcollected₂)
  obtain ⟨h₁, -⟩ := hbefore.collected hcollected
  obtain ⟨msgs, pool, lockup, lockup', share, t, rewardMsgs, exitMsgs, ntrnMsgs, hpays⟩ :=
    pays_ok ⟨poolType, info.sender, duration⟩ hpay
  obtain ⟨hcore, -⟩ := hpays.paysOut.coreOf
  obtain ⟨hpool, -⟩ := hpays.paysOut.assetPools
  rw [← hpays.debts_iff h₁]
  have hdebt := hafter.debt _ _ hcore
  constructor
  · rintro ⟨pool', core', share', hpool', hcore', hleft, hall⟩ asset hcredited
    obtain rfl := Option.some.inj (hpool.symm.trans hpool')
    obtain rfl := Option.some.inj (hcore.symm.trans hcore')
    obtain rfl := Option.some.inj hleft
    rw [← hdebt]
    exact hall asset hcredited
  · intro hall
    refine ⟨_, _, share, hpool, hcore, rfl, fun asset hcredited => ?_⟩
    rw [hdebt]
    exact hall asset hcredited

/-! ### A reward that is no longer listed -/

/-- The reward of the small chain. -/
def astro : AssetInfo := .token "astro"

/-- Alice's and Bob's lockups come in and are staked, 12 rewards arrive, and Alice claims
her part after her unlock time. -/
def sampleClaim : List (Action SampleExt) :=
  let staked := run (World.exec sampleExternals) sampleStart
    [sampleMigration "alice" 20 false, sampleMigration "bob" 10 true]
  [sampleMigration "alice" 20 false, sampleMigration "bob" 10 true, .advance 100 10,
    .drift { staked.ext with
      pending := staked.ext.pending.save "usdc_pcl" [⟨astro, 12⟩], listed := [.int astro] },
    .execute ⟨"alice", []⟩ (.claimRewardsAndOptionallyUnlock .usdc 1 false)]

/-- The incentives contract lists other rewards now. -/
def sampleListed (rewards : List RewardType) : List (Action SampleExt) :=
  sampleClaim ++ [.drift { (run (World.exec sampleExternals) sampleStart sampleClaim).ext with
    listed := rewards }]

/-- Bob unlocks his lockup. -/
def bobUnlocks : Action SampleExt :=
  .execute ⟨"bob", []⟩ (.claimRewardsAndOptionallyUnlock .usdc 1 true)

/-- Bob's claim up to its reward callback. -/
def bobCollected (rewards : List RewardType) : World SampleExt :=
  commit (fun (w : World SampleExt) (_ : Unit) =>
      w.collected sampleExternals ⟨"bob", []⟩ .usdc 1 true)
    (run (World.exec sampleExternals) sampleStart (sampleListed rewards)) ()

/-- The reward is listed twice when Bob unlocks. -/
theorem unlock_pays_iff_sample :
    PaidInFull
      (commit (World.exec sampleExternals)
        (run (World.exec sampleExternals) sampleStart (sampleListed [.int astro, .ext astro 5]))
        bobUnlocks).storage
      ((payments sampleExternals sampleStart
        (sampleListed [.int astro, .ext astro 5] ++ [bobUnlocks])).lockup ⟨.usdc, "bob", 1⟩)
      ⟨.usdc, "bob", 1⟩ := by
  have hstart : instantiate ⟨0, 1, "lockdrop_pcl"⟩ ⟨"owner", []⟩ sampleInstantiateMsg =
      .ok sampleStart.storage := rfl
  have hcollected := ok_of_isOk (fun (w : World SampleExt) (_ : Unit) =>
      w.collected sampleExternals ⟨"bob", []⟩ .usdc 1 true)
    (s := run (World.exec sampleExternals) sampleStart (sampleListed [.int astro, .ext astro 5]))
    (a := ()) (by decide +kernel)
  have hexec := ok_of_isOk (World.exec sampleExternals)
    (s := run (World.exec sampleExternals) sampleStart (sampleListed [.int astro, .ext astro 5]))
    (a := bobUnlocks) (by decide +kernel)
  refine (unlock_pays_iff hstart _ hcollected hexec).mpr ?_
  intro pool lockup share asset hpool _ _ hcredited _
  have hpool₁ : (bobCollected [.int astro, .ext astro 5]).storage.assetPools.mayLoad .usdc =
      some ⟨"usdc_pcl", 60, 0, 60, [(astro, ⟨200000000000000000⟩)], true⟩ := by
    decide +kernel
  obtain rfl := Option.some.inj (hpool₁.symm.trans hpool)
  refine ⟨(bobCollected [.int astro, .ext astro 5]).ext.listed, rfl, ?_⟩
  by_cases hasset : astro = asset
  · rw [← hasset]
    decide +kernel
  · exact absurd (by simp [RestrictedVector.atomicsOf, RestrictedVector.load, hasset,
      FixedPoint.zero]) hcredited

/-- The reward is no longer listed when Bob unlocks: he leaves with 20 of the 60 LP tokens and
without his third of the 12 reward tokens, and cannot claim again. -/
theorem delisted_reward_lost :
    let w := run (World.exec sampleExternals) sampleStart (sampleListed [] ++ [bobUnlocks])
    let paid := (payments sampleExternals sampleStart (sampleListed [] ++ [bobUnlocks])).lockup
      ⟨.usdc, "bob", 1⟩
    w.storage.coreOf ⟨.usdc, "bob", 1⟩ = some ⟨20, some 20, true, [], 100⟩ ∧
      (World.exec sampleExternals w bobUnlocks).isOk = false ∧ paid astro = 0 ∧
      ¬ PaidInFull w.storage paid ⟨.usdc, "bob", 1⟩ := by
  intro w paid
  have hcore : w.storage.coreOf ⟨.usdc, "bob", 1⟩ = some ⟨20, some 20, true, [], 100⟩ := by
    decide +kernel
  have hpool : w.storage.assetPools.mayLoad .usdc =
      some ⟨"usdc_pcl", 40, 0, 60, [(astro, ⟨200000000000000000⟩)], true⟩ := by
    decide +kernel
  have hpaid : paid astro = 0 := by decide +kernel
  refine ⟨hcore, by decide +kernel, hpaid, ?_⟩
  rintro ⟨pool, core, share, hpool', hcore', hleft, hall⟩
  obtain rfl := Option.some.inj (hpool.symm.trans hpool')
  obtain rfl := Option.some.inj (hcore.symm.trans hcore')
  obtain rfl := Option.some.inj hleft
  have hfull := hall astro (by decide)
  rw [hpaid] at hfull
  exact absurd hfull (by decide)

end NeutronTge.LockdropPcl
