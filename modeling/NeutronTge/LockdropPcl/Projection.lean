import NeutronTge.LockdropPcl.Queries

/-!
# NeutronTge.LockdropPcl.Projection

The report about a lockup agrees with the claim that its owner can make in the same block. The
query books the pending rewards in memory, while a claim collects them, books what arrived and
settles the lockup's debts; asset by asset, both come to the same amount
(`report_pays`). For that, a debt is never left of an asset that was not credited
(`Reportable`).
-/

namespace NeutronTge.LockdropPcl

open CosmWasm Astroport
open Lockdrop (PoolType LockupKey mem_storedKeys)

variable {E : Type} {x : Externals E} {w w₁ w' : World E}

/-! ### Assumptions -/

/-- What a report relies on: the incentives contract pays what it says is pending, names each
asset once, lists the same assets as rewards, and raw queries return what the queries do. -/
structure PaysAsReported (x : Externals E) (e : E) (incentives lpToken : Addr) : Prop where
  distinct : ∀ pending, (x.querier e).pendingRewards incentives lpToken = .ok pending →
    (pending.map Asset.info).Nodup
  listed : ∀ pending rewards, (x.querier e).pendingRewards incentives lpToken = .ok pending →
    (x.querier e).rewardInfo incentives lpToken = .ok rewards →
      (rewards.map RewardType.asset).Perm (pending.map Asset.info)
  paid : ∀ e' pending, x.exec e (.claimRewards incentives [lpToken]) = .ok e' →
    (x.querier e).pendingRewards incentives lpToken = .ok pending →
      ∀ a ∈ pending, (x.querier e').queryPool a.info =
        .ok (((x.querier e).queryPool a.info).toOption.getD 0 + a.amount)
  unmoved : ∀ e', x.exec e (.claimRewards incentives [lpToken]) = .ok e' →
    (x.querier e').deposit incentives lpToken = (x.querier e).deposit incentives lpToken ∧
      (x.querier e').rewardInfo incentives lpToken = (x.querier e).rewardInfo incentives lpToken
  rawDeposit : (x.querier e).rawIncentivesDeposit incentives lpToken =
    (x.querier e).deposit incentives lpToken
  rawBalance : (x.querier e).rawBalance lpToken = (x.querier e).tokenBalance lpToken

/-! ### Debts are of credited assets -/

/-- The one-time reward of every lockup can be computed, and it has a debt of credited assets
only. -/
structure Reportable (s : Storage) : Prop where
  share : s.state.totalIncentivesShare = 0
  weight : ∀ k core, s.coreOf k = some core →
    ∃ weight, calculateWeight core.lpUnitsLocked k.duration s.config = .ok weight
  credited : ∀ k core asset, s.coreOf k = some core → core.incentivesDebt.valueOf asset ≠ 0 →
    ∃ pool, s.assetPools.mayLoad k.poolType = some pool ∧
      pool.incentivesRewardsPerShare.atomicsOf asset ≠ 0

/-- The weight of a lockup depends on the reward coefficients only. -/
theorem calculateWeight_congr {config config' : Config} {amount duration : Nat}
    (h : config'.lockupRewardsInfo = config.lockupRewardsInfo) :
    calculateWeight amount duration config' = calculateWeight amount duration config := by
  unfold calculateWeight
  rw [h]

/-- Pools stay, and what was credited to them stays credited. -/
def KeepsCredit (s s' : Storage) : Prop :=
  ∀ p pool, s.assetPools.mayLoad p = some pool → ∃ pool', s'.assetPools.mayLoad p = some pool' ∧
    ∀ asset, pool.incentivesRewardsPerShare.atomicsOf asset ≤
      pool'.incentivesRewardsPerShare.atomicsOf asset

theorem KeepsCredit.of_eq {s s' : Storage} (h : s'.assetPools = s.assetPools) :
    KeepsCredit s s' := fun _ pool hpool => ⟨pool, h ▸ hpool, fun _ => le_refl _⟩

theorem Collects.keepsCredit {poolType : PoolType} (h : Collects x poolType w w') :
    KeepsCredit w.storage w'.storage := by
  cases h with
  | nothing => exact .of_eq rfl
  | booked incentives lpToken ext s prev pool deposit perShare hclaim hbooks =>
      obtain rfl := hbooks.storage
      intro p pool' hpool'
      show ∃ pool'', (w.storage.assetPools.save poolType _ _).mayLoad p = some pool'' ∧ _
      rw [SnapshotMap.mayLoad_save_eq]
      split_ifs with hp
      · subst hp
        obtain rfl := Option.some.inj (hbooks.pool_eq.symm.trans hpool')
        exact ⟨_, rfl, bookBalances_le hbooks.perShare_eq⟩
      · exact ⟨pool', hpool', fun _ => le_refl _⟩

theorem Collects.state {poolType : PoolType} (h : Collects x poolType w w') :
    w'.storage.state = w.storage.state := by
  cases h with
  | nothing => rfl
  | booked _ _ _ _ _ _ _ _ _ hbooks =>
      obtain rfl := hbooks.storage
      rfl

/-- No message of the owner touches the state. -/
theorem administers_state {info : MessageInfo} {msg : ExecuteMsg}
    (h : w.execute x info msg = .ok w') (hmsg : msg.administers = true) :
    w'.storage.state = w.storage.state := by
  obtain ⟨r, hr, hrun, -⟩ := execute_ok h
  have hstored : r.storage.state = w.storage.state ∧ r.messages = [] := by
    cases msg with
    | updateConfig incentivesAddress =>
        simp only [execute, handleUpdateConfig, bind_eq_ok, rejectIf_eq_ok, exists_const] at hr
        obtain ⟨-, hr⟩ := hr
        cases incentivesAddress with
        | none =>
            obtain rfl := Except.ok.inj hr
            exact ⟨rfl, rfl⟩
        | some incentives =>
            simp only [bind_eq_ok, Except.ok.injEq] at hr
            obtain ⟨_, -, rfl⟩ := hr
            exact ⟨rfl, rfl⟩
    | proposeNewOwner owner expiresIn =>
        simp only [execute, bind_eq_ok, Except.ok.injEq] at hr
        obtain ⟨_, -, rfl⟩ := hr
        exact ⟨rfl, rfl⟩
    | dropOwnershipProposal =>
        simp only [execute, bind_eq_ok, Except.ok.injEq] at hr
        obtain ⟨_, -, rfl⟩ := hr
        exact ⟨rfl, rfl⟩
    | claimOwnership =>
        simp only [execute, bind_eq_ok, Except.ok.injEq] at hr
        obtain ⟨_, -, rfl⟩ := hr
        exact ⟨rfl, rfl⟩
    | claimRewardsAndOptionallyUnlock => cases hmsg
    | callback => cases hmsg
    | migrateXYKLiquidity => cases hmsg
  obtain ⟨hstate, hnone⟩ := hstored
  rw [hnone] at hrun
  obtain rfl := Except.ok.inj hrun
  exact hstate

theorem PaysOut.state {q : Querier} {s s' t : Storage} {height share : Nat} {key : LockupKey}
    {withdraw : Bool} {msgs rewardMsgs exitMsgs ntrnMsgs : List CosmosMsg} {pool : PoolInfo}
    {lockup lockup' : LockupInfo}
    (h : PaysOut q s s' height key withdraw msgs pool lockup lockup' share t rewardMsgs exitMsgs
      ntrnMsgs) : s'.state = s.state := by
  obtain ⟨-, hstate, -⟩ := h.ntrn.sameBooks
  rw [hstate]
  have hexits := h.exits
  generalize withdraw = b at hexits
  cases hexits with
  | stored => rfl
  | closed _ hcloses => rw [hcloses.storage]

namespace Reportable

/-- A step that keeps the lockups and the credit of the pools. -/
theorem frame {s s' : Storage} (h : Reportable s) (hstate : s'.state = s.state)
    (hinfo : s'.config.lockupRewardsInfo = s.config.lockupRewardsInfo)
    (hcores : ∀ k, s'.coreOf k = s.coreOf k) (hcredit : KeepsCredit s s') : Reportable s' where
  share := by rw [hstate, h.share]
  weight k core hcore := by
    rw [calculateWeight_congr hinfo]
    exact h.weight k core (hcores k ▸ hcore)
  credited k core asset hcore hdebt := by
    obtain ⟨pool, hpool, hne⟩ := h.credited k core asset (hcores k ▸ hcore) hdebt
    obtain ⟨pool', hpool', hle⟩ := hcredit k.poolType pool hpool
    exact ⟨pool', hpool', fun hzero => hne (Nat.le_zero.mp (hzero ▸ hle asset))⟩

/-- A claim up to its reward callback. -/
theorem collected {info : MessageInfo} {poolType : PoolType} {duration : Nat} {withdraw : Bool}
    (h : Reportable w.storage)
    (hcollected : w.collected x info poolType duration withdraw = .ok w₁) :
    Reportable w₁.storage := by
  obtain ⟨r, opened, collect, hstarts, hgathers⟩ := collected_ok hcollected
  have hsame := hstarts.sameBooks
  have hcollects := hgathers.collects
  obtain ⟨-, hlockups, -, hconfig⟩ := hcollects.frame
  have hr : Reportable r.storage := h.frame hsame.state (by rw [hsame.config]) hsame.lockups
    (.of_eq hsame.assetPools)
  exact hr.frame hcollects.state (congrArg Config.lockupRewardsInfo hconfig)
    (coreOf_congr hlockups) hcollects.keepsCredit

/-- The reward callback: the new debts are of assets it found credited. -/
theorem pays {key : LockupKey} {withdraw : Bool} {msgs : List CosmosMsg} {pool : PoolInfo}
    {lockup lockup' : LockupInfo} {share : Nat} {t : Storage}
    {rewardMsgs exitMsgs ntrnMsgs : List CosmosMsg} (h : Reportable w.storage)
    (hpays : Pays x w w' key withdraw msgs pool lockup lockup' share t rewardMsgs exitMsgs
      ntrnMsgs) : Reportable w'.storage := by
  have hout := hpays.paysOut
  obtain ⟨assets, pending, -, hsettled, -⟩ := hout.settles
  obtain ⟨hkey, hothers⟩ := hout.coreOf
  obtain ⟨hpool, hpools⟩ := hout.assetPools
  have hold := coreOf_of_load hout.lockup_eq
  constructor
  · rw [hout.state, h.share]
  · intro k core hcore
    rw [hout.config]
    by_cases hk : k = key
    · obtain rfl := hk
      obtain rfl := Option.some.inj (hkey.symm.trans hcore)
      exact h.weight k lockup.core hold
    · exact h.weight k core (hothers k hk ▸ hcore)
  · intro k core asset hcore hdebt
    have hcredit : KeepsCredit w.storage w'.storage := by
      intro p pool' hpool'
      by_cases hp : p = key.poolType
      · subst hp
        obtain rfl := Option.some.inj (hout.pool_eq.symm.trans hpool')
        exact ⟨_, hpool, fun _ => le_refl _⟩
      · exact ⟨pool', (hpools p hp).trans hpool', fun _ => le_refl _⟩
    have hkept : ∀ core', w.storage.coreOf k = some core' →
        core'.incentivesDebt.valueOf asset ≠ 0 →
          ∃ pool, w'.storage.assetPools.mayLoad k.poolType = some pool ∧
            pool.incentivesRewardsPerShare.atomicsOf asset ≠ 0 := by
      intro core' hcore' hdebt'
      obtain ⟨pool', hpool', hne⟩ := h.credited k core' asset hcore' hdebt'
      obtain ⟨pool'', hpool'', hle⟩ := hcredit k.poolType pool' hpool'
      exact ⟨pool'', hpool'', fun hzero => hne (Nat.le_zero.mp (hzero ▸ hle asset))⟩
    by_cases hk : k = key
    · obtain rfl := hk
      obtain rfl := Option.some.inj (hkey.symm.trans hcore)
      have hnew := hsettled.debt asset
      dsimp only at hnew hdebt
      split_ifs at hnew with hlisted
      · exact ⟨_, hpool, hlisted.2⟩
      · exact hkept lockup.core hold (hnew ▸ hdebt)
    · exact hkept core (hothers k hk ▸ hcore) hdebt

/-- A lockup comes in: its weight was computed, and it has no debts. -/
theorem migrates {key : LockupKey} {funds : List Coin} {userInfo : Lockdrop.UserInfo}
    {lockup : Lockdrop.LockupInfoV2} {stake : Bool} {pair : Addr} {ext : E}
    {msgs : List CosmosMsg} {prev balance : Nat} {pool : PoolInfo} {weight : Nat}
    (h : Reportable w.storage)
    (hmigrates : Migrates x w w' key funds userInfo lockup stake pair ext msgs prev balance pool
      weight) : Reportable w'.storage := by
  have hfinishes := hmigrates.finishes
  have hcores := coreOf_save hfinishes.lockupInfo
  constructor
  · rw [hfinishes.state, h.share]
  · intro k core hcore
    rw [hcores] at hcore
    rw [hfinishes.config]
    split_ifs at hcore with hk
    · obtain rfl := Option.some.inj hcore
      exact ⟨weight, hk ▸ hfinishes.weight_eq⟩
    · exact h.weight k core hcore
  · intro k core asset hcore hdebt
    rw [hcores] at hcore
    split_ifs at hcore with hk
    · obtain rfl := Option.some.inj hcore
      exact absurd rfl hdebt
    · obtain ⟨pool', hpool', hne⟩ := h.credited k core asset hcore hdebt
      rw [hfinishes.assetPools]
      split_ifs with hp
      · rw [hp, hfinishes.pool_eq] at hpool'
        obtain rfl := Option.some.inj hpool'
        exact ⟨_, rfl, hne⟩
      · exact ⟨pool', hpool', hne⟩

theorem exec {a : Action E} (h : Reportable w.storage) (hexec : World.exec x w a = .ok w') :
    Reportable w'.storage := by
  cases a with
  | advance seconds blocks =>
      obtain rfl := Except.ok.inj hexec
      exact h
  | drift ext =>
      obtain rfl := Except.ok.inj hexec
      exact h
  | execute info msg =>
      replace hexec : w.execute x info msg = .ok w' := hexec
      cases execute_effect hexec with
      | administer _ hmsg hsame =>
          exact h.frame (administers_state hexec hmsg) hsame.lockupRewardsInfo
            (coreOf_congr hsame.lockupInfo) (.of_eq hsame.assetPools)
      | claim poolType duration withdraw =>
          obtain ⟨w₁, hcollected, hpay⟩ := execute_collected hexec
          obtain ⟨_, _, _, _, _, _, _, _, _, hpays⟩ :=
            pays_ok ⟨poolType, info.sender, duration⟩ hpay
          exact (h.collected hcollected).pays hpays
      | migrate _ _ _ _ _ _ _ _ _ _ _ _ hmigrates => exact h.migrates hmigrates

theorem of_instantiate {env : Env} {info : MessageInfo} {msg : InstantiateMsg} {s : Storage}
    (h : instantiate env info msg = .ok s) : Reportable s := by
  obtain rfl := instantiate_ok h
  constructor
  · rfl
  · intro k core hcore
    cases hcore
  · intro k core asset hcore
    cases hcore

end Reportable

/-! ### What a claim collects -/

/-- A staked pool after its pending rewards were collected: each asset that is pending was
credited with what the query would book for it, and the other assets are as before. -/
structure Credited (q : Querier) (incentives : Addr) (pool : PoolInfo)
    (perShare : RestrictedVector AssetInfo Decimal) (pending : List Asset) : Prop where
  pending_eq : q.pendingRewards incentives pool.lpToken = .ok pending
  booked : ∀ balance, q.deposit incentives pool.lpToken = .ok balance → ∀ a ∈ pending,
    perShare.atomicsOf a.info = bookedAtomics pool.incentivesRewardsPerShare balance a
  others : ∀ asset, asset ∉ pending.map Asset.info →
    perShare.atomicsOf asset = pool.incentivesRewardsPerShare.atomicsOf asset

/-- The world in which the reward callback of a claim runs. -/
structure Gathered (x : Externals E) (w w₁ : World E) (poolType : PoolType) (pool : PoolInfo)
    (perShare : RestrictedVector AssetInfo Decimal) : Prop where
  config : w₁.storage.config = w.storage.config
  pool_eq : w₁.storage.assetPools.mayLoad poolType =
    some { pool with incentivesRewardsPerShare := perShare }
  balance : lpBalance (x.querier w₁.ext) w.storage.config.incentives pool =
    lpBalance (x.querier w.ext) w.storage.config.incentives pool
  staked : pool.isStaked = true →
    (x.querier w₁.ext).rewardInfo w.storage.config.incentives pool.lpToken =
      (x.querier w.ext).rewardInfo w.storage.config.incentives pool.lpToken ∧
    ∃ pending, Credited (x.querier w.ext) w.storage.config.incentives pool perShare pending

/-- The rewards are collected and booked. -/
theorem gathered_booked {s : Storage} {ext : E} {poolType : PoolType} {pool : PoolInfo}
    {pending : List Asset} {deposit : Nat} {perShare : RestrictedVector AssetInfo Decimal}
    {env : Env} (hstaked : pool.isStaked = true)
    (hagree : PaysAsReported x w.ext w.storage.config.incentives pool.lpToken)
    (hpending : (x.querier w.ext).pendingRewards w.storage.config.incentives pool.lpToken =
      .ok pending)
    (hclaim : x.exec w.ext (.claimRewards w.storage.config.incentives [pool.lpToken]) = .ok ext)
    (hconfig : s.config = w.storage.config)
    (hbooks : Books (x.querier ext) s w₁.storage env poolType
      (pending.map fun asset =>
        { asset with amount := ((x.querier w.ext).queryPool asset.info).toOption.getD 0 })
      pool deposit perShare) (hext : w₁.ext = ext) : Gathered x w w₁ poolType pool perShare := by
  subst hext
  obtain ⟨hdeposit, hrewards⟩ := hagree.unmoved w₁.ext hclaim
  have hstorage := hbooks.storage
  have hnodup := hagree.distinct pending hpending
  obtain ⟨hothers, hbooked⟩ := bookBalances_ok (by simpa [Function.comp_def] using hnodup)
    hbooks.perShare_eq
  refine ⟨by rw [hstorage, hconfig], ?_, ?_, fun _ => ⟨hrewards, pending, hpending, ?_, ?_⟩⟩
  · rw [hstorage]
    exact SnapshotMap.mayLoad_save _ _ _ _
  · unfold lpBalance
    rw [if_pos hstaked, if_pos hstaked, hdeposit]
  · intro balance hbalance a ha
    obtain ⟨current, hcurrent, -, -, hatomics⟩ := hbooked _ (List.mem_map_of_mem ha)
    -- what arrived is what was pending
    have hpaid := hagree.paid w₁.ext pending hclaim hpending a ha
    obtain rfl := Except.ok.inj (hpaid.symm.trans hcurrent)
    have hsame : deposit = balance := by
      have heq := hbooks.deposit_eq
      rw [hconfig, hdeposit] at heq
      exact Except.ok.inj (heq.symm.trans hbalance)
    rw [hatomics, Nat.add_sub_cancel_left, hsame]
    rfl
  · intro asset hasset
    exact hothers asset (by simpa [Function.comp_def] using hasset)

theorem collected_gathered {info : MessageInfo} {poolType : PoolType} {duration : Nat}
    {withdraw : Bool}
    (hagree : ∀ pool, w.storage.assetPools.mayLoad poolType = some pool →
      PaysAsReported x w.ext w.storage.config.incentives pool.lpToken)
    (h : w.collected x info poolType duration withdraw = .ok w₁) :
    ∃ pool perShare, w.storage.assetPools.mayLoad poolType = some pool ∧
      Gathered x w w₁ poolType pool perShare := by
  unfold World.collected at h
  rw [bind_eq_ok] at h
  obtain ⟨r, hr, hrun⟩ := h
  obtain ⟨opened, _, hstarts⟩ := handleClaimRewardsAndUnlockForLockup_ok hr
  have hsame := hstarts.sameBooks
  obtain ⟨pool, collect, hpoolr, hcollect, hmsgs⟩ :=
    handleClaimRewardsAndUnlockForLockup_messages hr
  rw [hmsgs, List.dropLast_concat] at hrun
  have hpool : w.storage.assetPools.mayLoad poolType = some pool := by
    rw [← hsame.assetPools, hpoolr]
  replace hagree := hagree pool hpool
  unfold claimMessages at hcollect
  split_ifs at hcollect with hstaked
  · simp only [bind_eq_ok, hsame.config] at hcollect
    obtain ⟨pending, hpending, hcollect⟩ := hcollect
    split_ifs at hcollect with hsome
    · obtain rfl := Except.ok.inj hcollect
      obtain ⟨ext, s, pool', deposit, perShare, hclaim, hbooks, rfl⟩ := books_ok hrun
      obtain rfl := Option.some.inj (hpoolr.symm.trans hbooks.pool_eq)
      exact ⟨pool, perShare, hpool,
        gathered_booked hstaked hagree hpending hclaim hsame.config hbooks rfl⟩
    · -- nothing is pending of any asset, and nothing is booked
      obtain rfl := Except.ok.inj hcollect
      obtain rfl := Except.ok.inj hrun
      refine ⟨pool, pool.incentivesRewardsPerShare, hpool, hsame.config, hpoolr, rfl, fun _ =>
        ⟨rfl, pending, hpending, fun balance _ a ha => ?_, fun _ _ => rfl⟩⟩
      have hzero : a.amount = 0 := by
        by_contra hne
        exact hsome ⟨a, ha, hne⟩
      rw [bookedAtomics, hzero, Nat.zero_mul, Nat.zero_div, Nat.add_zero]
  · obtain rfl := Except.ok.inj hcollect
    obtain rfl := Except.ok.inj hrun
    exact ⟨pool, pool.incentivesRewardsPerShare, hpool, hsame.config, hpoolr, rfl,
      fun hstaked' => absurd hstaked' hstaked⟩

/-! ### The report and the claim -/

/-- A share that was settled did not overflow. -/
theorem accrueReward_fits {pool : PoolInfo} {share : Nat} {reward : RewardType}
    {st st' : RestrictedVector AssetInfo Nat × List Asset}
    (h : accrueReward pool share st reward = .ok st')
    (hne : pool.incentivesRewardsPerShare.atomicsOf reward.asset ≠ 0) :
    pool.incentivesRewardsPerShare.atomicsOf reward.asset * share < 2 ^ 128 := by
  unfold accrueReward at h
  dsimp only at h
  split_ifs at h with hzero
  · refine absurd ?_ hne
    rw [RestrictedVector.atomicsOf, hzero]
    rfl
  · simp only [bind_eq_ok] at h
    obtain ⟨lpAmount, hlp, accrued, haccrued, -⟩ := h
    obtain ⟨-, rfl⟩ := FixedPoint.ofUint_eq_ok.mp hlp
    obtain ⟨hlt, -⟩ := FixedPoint.checkedMul_eq_ok.mp haccrued
    dsimp only at hlt
    rwa [← Nat.mul_assoc, Nat.mul_div_cancel _ FixedPoint.fractional_pos] at hlt

theorem accrueRewards_fits {pool : PoolInfo} {share : Nat} : ∀ {rewards : List RewardType}
    {st st' : RestrictedVector AssetInfo Nat × List Asset},
    rewards.foldlM (accrueReward pool share) st = .ok st' →
      ∀ a ∈ rewards.map RewardType.asset, pool.incentivesRewardsPerShare.atomicsOf a ≠ 0 →
        pool.incentivesRewardsPerShare.atomicsOf a * share < 2 ^ 128 := by
  intro rewards
  induction rewards with
  | nil => exact fun _ a ha => absurd ha List.not_mem_nil
  | cons reward rewards ih =>
      intro st st' h a ha hne
      obtain ⟨st₁, hfirst, hrest⟩ := foldlM_cons_ok.mp h
      rcases List.mem_cons.mp ha with rfl | ha
      · exact accrueReward_fits hfirst hne
      · exact ih hrest a ha hne

/-- What the callback settles for a lockup, the query can project, and both come to the same
amount. -/
theorem projects_of_settled {debts debts' : RestrictedVector AssetInfo Nat}
    {perShare₀ perShare : RestrictedVector AssetInfo Decimal} {pool : PoolInfo}
    {share balance : Nat}
    {rewards : List RewardType} {pending assets : List Asset} (hshare : share ≠ 0)
    (hbalance : 0 < balance) (hperShare : pool.incentivesRewardsPerShare = perShare)
    (hloop : rewards.foldlM (accrueReward pool share) (debts, []) = .ok (debts', assets))
    (hnodup : (pending.map Asset.info).Nodup)
    (hlisted : (rewards.map RewardType.asset).Perm (pending.map Asset.info))
    (hbooked : ∀ a ∈ pending, perShare.atomicsOf a.info = bookedAtomics perShare₀ balance a)
    (hcredited : ∀ asset, debts.valueOf asset ≠ 0 → perShare.atomicsOf asset ≠ 0) :
    ∃ st', pending.foldlM (projectReward share balance debts) (perShare₀, []) = .ok st' ∧
      ∀ asset, st'.2.valueOf asset + debts.valueOf asset = debts'.valueOf asset := by
  subst hperShare
  have hsettled := accrueRewards_ok hloop
  have hfits := accrueRewards_fits hloop
  have hdebt := hsettled.debt
  dsimp only at hdebt
  have hmem : ∀ a ∈ pending, a.info ∈ rewards.map RewardType.asset :=
    fun a ha => hlisted.mem_iff.mpr (List.mem_map_of_mem ha)
  have hprojectable : ∀ a ∈ pending, Projectable share balance debts perShare₀ a := by
    intro a ha
    by_cases hzero : pool.incentivesRewardsPerShare.atomicsOf a.info = 0
    · -- nothing was credited of this asset, and there is no debt of it
      have hnone : debts.valueOf a.info = 0 := by
        by_contra hne
        exact hcredited a.info hne hzero
      have hbooked₀ : bookedAtomics perShare₀ balance a = 0 := by rw [← hbooked a ha, hzero]
      refine ⟨?_, ?_, ?_⟩ <;> rw [hbooked₀]
      · exact Nat.two_pow_pos 128
      · rw [Nat.zero_mul, Nat.zero_div]
        exact Nat.two_pow_pos 128
      · rw [hnone]
        exact Nat.zero_le _
    · have hlt := hfits a.info (hmem a ha) hzero
      have hle := hsettled.debt_le a.info (hmem a ha) hzero
      rw [hbooked a ha] at hlt
      rw [accruedOf, hbooked a ha] at hle
      refine ⟨?_, ?_, hle⟩
      · exact lt_of_le_of_lt (Nat.le_mul_of_pos_right _ (Nat.pos_of_ne_zero hshare)) hlt
      · exact lt_of_le_of_lt (Nat.div_le_self _ _) hlt
  have hnone : ∀ a ∈ pending,
      RestrictedVector.valueOf ([] : RestrictedVector AssetInfo Nat) a.info = 0 := fun _ _ => rfl
  obtain ⟨st', hloop', hvalues, hothers⟩ := projectRewards_ok hbalance hnodup hprojectable hnone
  refine ⟨st', hloop', fun asset => ?_⟩
  rw [hdebt]
  by_cases hpending : asset ∈ pending.map Asset.info
  · obtain ⟨a, ha, rfl⟩ := List.mem_map.mp hpending
    have hle := (hprojectable a ha).debt_le
    rw [hvalues a ha, projectedAmount, Nat.sub_add_cancel hle, ← hbooked a ha]
    split_ifs with hnew
    · rfl
    · have hzero : pool.incentivesRewardsPerShare.atomicsOf a.info = 0 := by
        by_contra hne
        exact hnew ⟨hmem a ha, hne⟩
      rw [← hbooked a ha, hzero, Nat.zero_mul, Nat.zero_div] at hle
      rw [hzero, Nat.zero_mul, Nat.zero_div, Nat.le_zero.mp hle]
  · rw [hothers asset hpending, if_neg fun h => hpending (hlisted.mem_iff.mp h.1)]
    exact Nat.zero_add _

/-- A lockup without LP tokens is settled without a payment. -/
theorem settled_zero {perShare : RestrictedVector AssetInfo Decimal} {assets : List AssetInfo}
    {st st' : RestrictedVector AssetInfo Nat × List Asset} (h : Settled perShare 0 assets st st')
    (asset : AssetInfo) : st'.1.valueOf asset = st.1.valueOf asset := by
  rw [h.debt]
  split_ifs with hlisted
  · have hle := h.debt_le asset hlisted.1 hlisted.2
    rw [accruedOf, Nat.mul_zero, Nat.zero_div] at hle ⊢
    exact (Nat.le_zero.mp hle).symm
  · rfl

/-- The report about the lockup of a claim: its position is computed from the same balance,
and what it could claim is what the reward callback adds to its debts. -/
theorem claimableRewards_of_pays {key : LockupKey} {withdraw : Bool} {msgs : List CosmosMsg}
    {pool : PoolInfo} {perShare : RestrictedVector AssetInfo Decimal}
    {lockup₀ lockup lockup' : LockupInfo} {share balance : Nat} {t : Storage}
    {rewardMsgs exitMsgs ntrnMsgs : List CosmosMsg} (h₁ : Reportable w₁.storage)
    (hagree : PaysAsReported x w.ext w.storage.config.incentives pool.lpToken)
    (hgathered : Gathered x w w₁ key.poolType pool perShare)
    (hbalance : lpBalance (x.querier w.ext) w.storage.config.incentives pool = .ok balance)
    (hshare : share ≠ 0 → 0 < balance)
    (hdebts : lockup₀.incentivesDebt = lockup.incentivesDebt)
    (hpays : Pays x w₁ w' key withdraw msgs { pool with incentivesRewardsPerShare := perShare }
      lockup lockup' share t rewardMsgs exitMsgs ntrnMsgs) :
    ∃ claimable, claimableRewards (x.querier w.ext) w.storage pool lockup₀ share balance =
        .ok claimable ∧
      ∀ asset, claimable.valueOf asset + lockup.incentivesDebt.valueOf asset =
        lockup'.incentivesDebt.valueOf asset := by
  have hout := hpays.paysOut
  unfold claimableRewards
  rw [hdebts]
  have hsame : lockup'.incentivesDebt = lockup.incentivesDebt → ∀ asset,
      RestrictedVector.valueOf ([] : RestrictedVector AssetInfo Nat) asset +
        lockup.incentivesDebt.valueOf asset = lockup'.incentivesDebt.valueOf asset := by
    intro heq asset
    rw [heq]
    exact Nat.zero_add _
  cases hout.rewards with
  | unstaked hunstaked =>
      replace hunstaked : pool.isStaked = false := hunstaked
      rw [if_neg (by simp [hunstaked])]
      exact ⟨[], rfl, hsame rfl⟩
  | staked rewards debts assets hstaked hrewards hloop =>
      replace hstaked : pool.isStaked = true := hstaked
      by_cases hzero : share = 0
      -- a lockup without LP tokens is reported nothing and is paid nothing
      · subst hzero
        rw [if_neg (by simp)]
        refine ⟨[], rfl, fun asset => ?_⟩
        rw [settled_zero (accrueRewards_ok hloop) asset]
        exact Nat.zero_add _
      · rw [if_pos ⟨hstaked, hzero⟩]
        obtain ⟨hlist, pending, hcredited⟩ := hgathered.staked hstaked
        have hdeposit : (x.querier w.ext).deposit w.storage.config.incentives pool.lpToken =
            .ok balance := by
          unfold lpBalance at hbalance
          rwa [if_pos hstaked] at hbalance
        replace hrewards : (x.querier w.ext).rewardInfo w.storage.config.incentives pool.lpToken =
            .ok rewards := by
          rw [← hlist, ← hgathered.config]
          exact hrewards
        -- a debt is there only for an asset the pool was credited with
        have hkept : ∀ asset, lockup.incentivesDebt.valueOf asset ≠ 0 →
            perShare.atomicsOf asset ≠ 0 := by
          intro asset hdebt
          obtain ⟨pool', hpool', hne⟩ :=
            h₁.credited key lockup.core asset (coreOf_of_load hout.lockup_eq) hdebt
          obtain rfl := Option.some.inj (hout.pool_eq.symm.trans hpool')
          exact hne
        obtain ⟨st', hproject, hvalues⟩ := projects_of_settled hzero (hshare hzero) rfl hloop
          (hagree.distinct pending hcredited.pending_eq)
          (hagree.listed pending rewards hcredited.pending_eq hrewards)
          (hcredited.booked balance hdeposit) hkept
        refine ⟨st'.2, ?_, hvalues⟩
        simp only [bind_eq_ok]
        exact ⟨pending, hcredited.pending_eq, st', hproject, rfl⟩

/-- A claim in a state whose lockups can be reported: the report succeeds, and the claim pays
what it says. -/
theorem claim_report {info : MessageInfo} {poolType : PoolType} {duration : Nat}
    {withdraw : Bool} (h : Reportable w.storage)
    (hagree : ∀ pool, w.storage.assetPools.mayLoad poolType = some pool →
      PaysAsReported x w.ext w.storage.config.incentives pool.lpToken)
    (hexec : w.execute x info (.claimRewardsAndOptionallyUnlock poolType duration withdraw) =
      .ok w') :
    ∃ r pool lockup,
      queryLockupInfo (x.querier w.ext) w.storage ⟨poolType, info.sender, duration⟩ = .ok r ∧
      w.storage.assetPools.mayLoad poolType = some pool ∧
      w.storage.lockupInfo.mayLoad ⟨poolType, info.sender, duration⟩ = some lockup ∧
      ∀ asset, r.claimableIncentivesDebt.valueOf asset =
        transferred (fun t => t.recipient = info.sender ∧ t.info = asset)
          (w'.trace.drop w.trace.length) := by
  obtain ⟨w₁, hcollected, hpay⟩ := execute_collected hexec
  obtain ⟨pool, perShare, hpool, hgathered⟩ := collected_gathered hagree hcollected
  replace hagree := hagree pool hpool
  obtain ⟨r, opened, collect, hstarts, hgathers⟩ := collected_ok hcollected
  obtain ⟨-, hlockups, -, -⟩ := hgathers.collects.frame
  obtain ⟨before, htrace, hbefore⟩ := hgathers.collects.trace
  obtain ⟨msgs, pool₁, lockup, lockup', share, t, rewardMsgs, exitMsgs, ntrnMsgs, hpays⟩ :=
    pays_ok ⟨poolType, info.sender, duration⟩ hpay
  have hout := hpays.paysOut
  obtain rfl := Option.some.inj (hgathered.pool_eq.symm.trans hout.pool_eq)
  have hlockup := hout.lockup_eq
  rw [hlockups] at hlockup
  obtain rfl := Option.some.inj (hstarts.lockup_eq.symm.trans hlockup)
  -- the lockup as it is stored before the claim differs in its one-time reward only
  obtain ⟨lockup₀, hlockup₀, hcore⟩ : ∃ lockup₀,
      w.storage.lockupInfo.mayLoad ⟨poolType, info.sender, duration⟩ = some lockup₀ ∧
        lockup₀.core = opened.core := by
    have hcores := hstarts.sameBooks.coreOf ⟨poolType, info.sender, duration⟩
    rw [coreOf_of_load hstarts.lockup_eq] at hcores
    exact Option.map_eq_some_iff.mp hcores.symm
  have hunits : lockup₀.lpUnitsLocked = opened.lpUnitsLocked :=
    congrArg LockupCore.lpUnitsLocked hcore
  have hopen : lockup₀.astroportLpTransferred = none :=
    (congrArg LockupCore.astroportLpTransferred hcore).trans hstarts.lockup_open
  -- the position of the lockup
  obtain ⟨balance, hbalance, share', hdiv, hinto⟩ := by
    have hshare := hout.share_eq
    unfold astroportLpShare at hshare
    simpa only [bind_eq_ok] using hshare
  replace hbalance : lpBalance (x.querier w.ext) w.storage.config.incentives pool =
      .ok balance := by
    rw [← hgathered.balance, ← hgathered.config]
    exact hbalance
  have hraw : rawLpBalance (x.querier w.ext) w.storage pool = .ok balance := by
    rw [← hbalance]
    unfold rawLpBalance lpBalance
    rw [hagree.rawDeposit, hagree.rawBalance]
  have hpositive : share ≠ 0 → 0 < balance := by
    intro hne
    obtain ⟨-, rfl⟩ := Uint.tryInto_eq_ok.mp hinto
    obtain ⟨-, rfl⟩ := Uint.checkedDiv_eq_ok.mp hdiv
    refine Nat.pos_of_ne_zero fun hzero => hne ?_
    rw [hzero, Nat.mul_zero, Nat.zero_div]
  obtain ⟨claimable, hclaimable, hvalues⟩ := claimableRewards_of_pays (h.collected hcollected)
    hagree hgathered hbalance hpositive (congrArg LockupCore.incentivesDebt hcore) hpays
  have hposition : lockupPosition (x.querier w.ext) w.storage pool lockup₀ =
      .ok (share, claimable) := by
    unfold lockupPosition
    simp only [hopen, bind_eq_ok]
    exact ⟨balance, hraw, share', hunits ▸ hdiv, share, hinto, claimable, hclaimable, rfl⟩
  obtain ⟨ntrnRewards, hntrn⟩ : ∃ n, reportedNtrnRewards w.storage
      ⟨poolType, info.sender, duration⟩ pool lockup₀ = .ok n := by
    unfold reportedNtrnRewards
    split_ifs
    · obtain ⟨weight, hweight⟩ := h.weight _ _ (coreOf_of_load hlockup₀)
      unfold lockupIncentives
      refine ⟨0, bind_eq_ok.mpr ⟨weight, hweight, ?_⟩⟩
      rw [h.share]
      rfl
    · exact ⟨_, rfl⟩
  obtain ⟨report, hreport, rfl⟩ :=
    @queryLockupInfo_of_parts (x.querier w.ext) w.storage ⟨poolType, info.sender, duration⟩ pool
      lockup₀ share ntrnRewards claimable hpool hlockup₀ hposition hntrn
  refine ⟨report, pool, lockup₀, hreport, hpool, hlockup₀, fun asset => ?_⟩
  obtain ⟨_, _, -, -, hpaid⟩ := hout.settles
  have hdrop : w'.trace.drop w.trace.length = before ++ msgs := by
    rw [hpays.trace, htrace]
    show ((w.trace ++ before) ++ msgs).drop w.trace.length = _
    rw [List.append_assoc, List.drop_left]
  have hquiet : ∀ P, transferred P before = 0 := by
    refine fun P => transferred_eq_zero fun m hm t heq => ?_
    obtain ⟨incentives, lpTokens, rfl⟩ := hbefore m hm
    cases heq
  have hsettled := hpaid (fun t => t.recipient = info.sender ∧ t.info = asset) asset (by simp)
  have hvalue := hvalues asset
  rw [hdrop, transferred_append, hquiet, Nat.zero_add]
  omega

/-- In every reachable state, for an incentives contract that pays what it reports: a claim of a
lockup pays its owner, asset by asset, what the report about the lockup says before it in the
same block, and the report about the owner lists that report and adds up what its lockups can
claim. -/
theorem report_pays {env : Env} {info₀ : MessageInfo} {msg : InstantiateMsg}
    (hstart : instantiate env info₀ msg = .ok w.storage) (as : List (Action E))
    {info : MessageInfo} {poolType : PoolType} {duration : Nat} {withdraw : Bool}
    (hagree : ∀ pool,
      (run (World.exec x) w as).storage.assetPools.mayLoad poolType = some pool →
        PaysAsReported x (run (World.exec x) w as).ext
          (run (World.exec x) w as).storage.config.incentives pool.lpToken)
    (hexec : World.exec x (run (World.exec x) w as)
      (.execute info (.claimRewardsAndOptionallyUnlock poolType duration withdraw)) = .ok w') :
    let before := run (World.exec x) w as
    ∃ r, queryLockupInfo (x.querier before.ext) before.storage
        ⟨poolType, info.sender, duration⟩ = .ok r ∧
      (∀ asset, r.claimableIncentivesDebt.valueOf asset =
        transferred (fun t => t.recipient = info.sender ∧ t.info = asset)
          (w'.trace.drop before.trace.length)) ∧
      ∀ u, queryUserInfo (x.querier before.ext) before.storage info.sender = .ok u →
        ReportsOf (x.querier before.ext) before.storage info.sender u.lockupInfos ∧
        r ∈ u.lockupInfos ∧
        ∀ asset, u.claimableIncentivesDebt.valueOf asset = claimableOf asset u.lockupInfos := by
  intro before
  have hreportable : Reportable before.storage :=
    run_invariant (fun w : World E => Reportable w.storage) (fun _ _ _ => Reportable.exec)
      (Reportable.of_instantiate hstart)
  obtain ⟨r, pool, lockup, hr, hpool, hlockup, hpaid⟩ := claim_report hreportable hagree hexec
  refine ⟨r, hr, hpaid, fun u hu => ?_⟩
  obtain ⟨hreports, hsum⟩ := queryUserInfo_ok hu
  have hkey : ⟨poolType, info.sender, duration⟩ ∈ userLockupKeys before.storage info.sender :=
    mem_storedKeys.mpr ⟨rfl, by rw [hpool]; rfl, by rw [hlockup]; rfl⟩
  obtain ⟨r', hmem, hr'⟩ := hreports.mem hkey
  obtain rfl := Except.ok.inj (hr.symm.trans hr')
  exact ⟨hreports, hmem, hsum⟩

/-- Alice's and Bob's lockups come in and are staked, and 12 rewards wait for the pool. -/
def sampleReport : List (Action SampleExt) :=
  let staked := run (World.exec sampleExternals) sampleStart
    [sampleMigration "alice" 10 false, sampleMigration "bob" 20 true]
  [sampleMigration "alice" 10 false, sampleMigration "bob" 20 true, .advance 100 10,
    .drift { staked.ext with
      pending := staked.ext.pending.save "usdc_pcl" [⟨astro, 12⟩, ⟨.nativeToken "untrn", 0⟩]
      listed := [.ext (.nativeToken "untrn") 5, .int astro] }]

/-- Alice is paid the 4 rewards that are reported for her third of the pool. -/
theorem report_pays_sample :
    let before := run (World.exec sampleExternals) sampleStart sampleReport
    ∃ r, queryLockupInfo (sampleExternals.querier before.ext) before.storage
        ⟨.usdc, "alice", 1⟩ = .ok r ∧
      (∀ asset, r.claimableIncentivesDebt.valueOf asset =
        transferred (fun t => t.recipient = "alice" ∧ t.info = asset)
          ((commit (World.exec sampleExternals) before
            (.execute ⟨"alice", []⟩ (.claimRewardsAndOptionallyUnlock .usdc 1 true))).trace.drop
              before.trace.length)) ∧
      r.claimableIncentivesDebt.valueOf astro = 4 := by
  intro before
  have hstart : instantiate ⟨0, 1, "lockdrop_pcl"⟩ ⟨"owner", []⟩ sampleInstantiateMsg =
      .ok sampleStart.storage := rfl
  have hexec := ok_of_isOk (World.exec sampleExternals) (s := before)
    (a := .execute ⟨"alice", []⟩ (.claimRewardsAndOptionallyUnlock .usdc 1 true))
    (by decide +kernel)
  have hpending : before.ext.pendingOf "usdc_pcl" = [⟨astro, 12⟩, ⟨.nativeToken "untrn", 0⟩] := by
    decide +kernel
  have hclaimed : ∀ a ∈ before.ext.pendingOf "usdc_pcl",
      (before.ext.claim "usdc_pcl").balanceOf a.info = before.ext.balanceOf a.info + a.amount := by
    decide +kernel
  have hunmoved : (before.ext.claim "usdc_pcl").deposit "incentives" "usdc_pcl" =
      before.ext.deposit "incentives" "usdc_pcl" := by
    decide +kernel
  have hagree : PaysAsReported sampleExternals before.ext "incentives" "usdc_pcl" := by
    refine ⟨fun pending h => ?_, fun pending rewards h h' => ?_, fun e' pending he h a ha => ?_,
      fun e' he => ?_, rfl, rfl⟩
    · obtain rfl := Except.ok.inj h
      rw [hpending]
      decide
    · obtain rfl := Except.ok.inj h
      obtain rfl := Except.ok.inj h'
      rw [hpending]
      show List.Perm [.nativeToken "untrn", astro] [astro, .nativeToken "untrn"]
      exact List.Perm.swap _ _ _
    · obtain rfl := Except.ok.inj h
      obtain rfl := Except.ok.inj he
      exact congrArg Except.ok (hclaimed a ha)
    · obtain rfl := Except.ok.inj he
      exact ⟨congrArg Except.ok hunmoved, rfl⟩
  have hpool : before.storage.assetPools.mayLoad .usdc =
      some ⟨"usdc_pcl", 60, 0, 60, [], true⟩ ∧ before.storage.config.incentives = "incentives" := by
    decide +kernel
  obtain ⟨r, hr, hpaid, -⟩ := report_pays hstart sampleReport (fun pool hp => by
    obtain rfl := Option.some.inj (hpool.1.symm.trans hp)
    rw [hpool.2]
    exact hagree) hexec
  refine ⟨r, hr, hpaid, ?_⟩
  rw [hpaid]
  decide +kernel

end NeutronTge.LockdropPcl
