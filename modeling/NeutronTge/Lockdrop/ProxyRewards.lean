import NeutronTge.Lockdrop.Effects

/-!
# NeutronTge.Lockdrop.ProxyRewards

The rewards of the generator's proxies. Booking them credits every asset to the pool; a
claim and a migration pay a lockup the assets that are among its own debts, and the query
reports the assets that are pending on the proxies. Nothing ever puts an asset among the
debts of a lockup (`NoDebts`), so no lockup is paid any of it: that is what it is owed just
as long as no credited asset is worth one unit to it.
-/

namespace NeutronTge.Lockdrop

open CosmWasm Astroport Shares

/-! ### Payments -/

/-- What messages transfer to a user of an asset. -/
def transferred (msgs : List CosmosMsg) (user : Addr) (asset : AssetInfo) : Nat :=
  (msgs.map fun m =>
    match m with
    | .transfer t => if t.recipient = user ∧ t.info = asset then t.quantity else 0
    | _ => 0).sum

/-- Messages without a transfer. -/
def NoTransfer (msgs : List CosmosMsg) : Prop := ∀ m ∈ msgs, ∀ t, m ≠ .transfer t

theorem NoTransfer.transferred_eq {msgs : List CosmosMsg} (h : NoTransfer msgs) (user : Addr)
    (asset : AssetInfo) : transferred msgs user asset = 0 := by
  unfold transferred
  rw [List.sum_eq_zero_iff]
  intro n hn
  obtain ⟨m, hm, rfl⟩ := List.mem_map.mp hn
  cases m with
  | transfer t => exact absurd rfl (h _ hm t)
  | _ => rfl

@[simp] theorem noTransfer_nil : NoTransfer [] := by
  simp [NoTransfer]

theorem NoTransfer.append {xs ys : List CosmosMsg} (hx : NoTransfer xs) (hy : NoTransfer ys) :
    NoTransfer (xs ++ ys) := by
  intro m hm
  rcases List.mem_append.mp hm with hm | hm
  · exact hx m hm
  · exact hy m hm

theorem noTransfer_baseRewardMsg (poolType : PoolType) (user : Addr) (token : String)
    (pending : Nat) : NoTransfer (baseRewardMsg poolType user token pending) := by
  intro m hm t
  obtain ⟨coin, rfl⟩ := mem_baseRewardMsg hm
  exact CosmosMsg.noConfusion

variable {q : Querier} {s s' : Storage}

theorem PaysNtrn.noTransfer {user : Addr} {userInfo : UserInfo} {msgs : List CosmosMsg}
    (h : PaysNtrn s user userInfo s' msgs) : NoTransfer msgs := by
  intro m hm t
  rcases h.mem hm with ⟨coin, rfl⟩ | ⟨credits, amount, rfl⟩ <;>
    exact CosmosMsg.noConfusion

theorem StoresOrCloses.noTransfer {height : Nat} {key : LockupKey} {pool : PoolInfo}
    {lockup : LockupInfoV2} {amount : Nat} {withdraw : Bool} {msgs : List CosmosMsg}
    (h : StoresOrCloses s height key pool lockup amount withdraw s' msgs) : NoTransfer msgs := by
  intro m hm t
  obtain ⟨-, rfl⟩ := h.mem hm
  exact CosmosMsg.noConfusion

/-! ### Lockups without proxy debts -/

/-- Every stored lockup is of the new version and has no proxy debts. -/
def NoDebts (s : Storage) : Prop :=
  ∀ key st, s.lockupInfo.mayLoad key = some st →
    ∃ lockup, st = .v2 lockup ∧ lockup.generatorProxyDebt = []

theorem NoDebts.of_eq (h : NoDebts s) (hlockups : s'.lockupInfo = s.lockupInfo) : NoDebts s' := by
  intro key st hst
  rw [hlockups] at hst
  exact h key st hst

theorem NoDebts.save {key : LockupKey} {lockup : LockupInfoV2} (h : NoDebts s)
    (hlockups : s'.lockupInfo = s.lockupInfo.save key (.v2 lockup))
    (hdebts : lockup.generatorProxyDebt = []) : NoDebts s' := by
  intro k st hst
  rw [hlockups, Map.mayLoad_save_eq] at hst
  split_ifs at hst
  · obtain rfl := Option.some.inj hst
    exact ⟨lockup, rfl, hdebts⟩
  · exact h k st hst

theorem NoDebts.remove {key : LockupKey} (h : NoDebts s)
    (hlockups : s'.lockupInfo = s.lockupInfo.remove key) : NoDebts s' := by
  intro k st hst
  rw [hlockups, Map.mayLoad_remove_eq] at hst
  split_ifs at hst
  exact h k st hst

theorem NoDebts.load (h : NoDebts s) {key : LockupKey} {lockup : LockupInfoV2}
    (hload : compatibleLoad q s key = .ok lockup) : lockup.generatorProxyDebt = [] := by
  simp only [compatibleLoad, bind_eq_ok, Map.load_eq_ok] at hload
  obtain ⟨st, hst, hload⟩ := hload
  obtain ⟨info, rfl, hdebts⟩ := h key st hst
  obtain rfl := Except.ok.inj hload
  exact hdebts

/-! ### The handlers -/

theorem increasePosition_noDebts {key : LockupKey} {userInfo userInfo' : UserInfo} {amount : Nat}
    {lockup : LockupInfoV2} (hs : NoDebts s)
    (h : increasePosition q s key userInfo amount = .ok (lockup, userInfo')) :
    lockup.generatorProxyDebt = [] := by
  unfold increasePosition at h
  rw [bind_eq_ok] at h
  obtain ⟨found, hfound, h⟩ := h
  cases found with
  | some li =>
      simp only [bind_eq_ok, Except.ok.injEq, Prod.mk.injEq] at h
      obtain ⟨_, -, rfl, -⟩ := h
      have hload : compatibleLoad q s key = .ok li := compatibleMayLoad_ok hfound
      have hdebts := hs.load hload
      exact hdebts
  | none =>
      simp only [bind_eq_ok, Except.ok.injEq, Prod.mk.injEq] at h
      obtain ⟨_, -, _, -, _, -, _, -, _, -, rfl, -⟩ := h
      rfl

theorem handleIncreaseLockup_noDebts {env : Env} {info : MessageInfo} {user : Addr}
    {poolType : PoolType} {duration amount : Nat} {r : Response} (hs : NoDebts s)
    (h : handleIncreaseLockup q s env info user poolType duration amount = .ok r) :
    NoDebts r.storage := by
  simp only [handleIncreaseLockup, bind_eq_ok, rejectIf_eq_ok, exists_const,
    Except.ok.injEq] at h
  obtain ⟨-, _, -, -, -, _, -, -, _, -, _, -, _, -, ⟨lockup, userInfo⟩, hposition, _, -, rfl⟩ := h
  exact hs.save rfl (increasePosition_noDebts hs hposition)

theorem storeRemaining_noDebts {key : LockupKey} {lockup : LockupInfoV2} (hs : NoDebts s)
    (hdebts : lockup.generatorProxyDebt = []) (h : storeRemaining s key lockup = .ok s') :
    NoDebts s' := by
  unfold storeRemaining at h
  split at h
  · simp only [bind_eq_ok, Except.ok.injEq] at h
    obtain ⟨_, -, rfl⟩ := h
    exact hs.remove rfl
  · obtain rfl := Except.ok.inj h
    exact hs.save rfl hdebts

theorem handleWithdrawFromLockup_noDebts {env : Env} {info : MessageInfo} {user : Addr}
    {poolType : PoolType} {duration amount : Nat} {r : Response} (hs : NoDebts s)
    (h : handleWithdrawFromLockup q s env info user poolType duration amount = .ok r) :
    NoDebts r.storage := by
  simp only [handleWithdrawFromLockup, bind_eq_ok, rejectIf_eq_ok, exists_const,
    Except.ok.injEq] at h
  obtain ⟨-, _, -, -, -, _, -, lockup, hload, -, _, -, _, -, _, -, -, _, -, _, -, _, -, _, -, _,
    -, t, hstore, _, -, rfl⟩ := h
  have hdebts := hs.load hload
  have hrest := storeRemaining_noDebts hs (by exact hdebts) hstore
  exact hrest.of_eq rfl

theorem updateLockupReward_noDebts {key : LockupKey} {reward : Nat} (hs : NoDebts s)
    (h : updateLockupReward q s key = .ok (reward, s')) : NoDebts s' := by
  simp only [updateLockupReward, bind_eq_ok] at h
  obtain ⟨_, -, lockup, hload, h⟩ := h
  split_ifs at h
  · simp only [bind_eq_ok, Except.ok.injEq, Prod.mk.injEq] at h
    obtain ⟨_, -, -, rfl⟩ := h
    have hdebts := hs.load hload
    exact hs.save rfl hdebts
  · simp only [Except.ok.injEq, Prod.mk.injEq] at h
    obtain ⟨-, rfl⟩ := h
    exact hs

theorem updateUserLockupPositions_noDebts {user : Addr} {total : Nat} (hs : NoDebts s)
    (h : updateUserLockupPositionsAndCalcRewards q s user = .ok (total, s')) : NoDebts s' := by
  unfold updateUserLockupPositionsAndCalcRewards at h
  exact addAmounts_invariant (fun _ _ _ _ _ ht => updateLockupReward_noDebts ht) hs h

theorem FindsTotal.noDebts {user : Addr} {userInfo : UserInfo} {total : Nat}
    (h : FindsTotal q s user userInfo total s') (hs : NoDebts s) : NoDebts s' := by
  cases h with
  | stored => exact hs
  | computed _ _ _ hupdate => exact updateUserLockupPositions_noDebts hs hupdate

theorem handleMigrateLiquidity_noDebts {info : MessageInfo} {raw : Option Addr} {r : Response}
    (hs : NoDebts s) (h : handleMigrateLiquidityToPclPools q s info raw = .ok r) :
    NoDebts r.storage := by
  simp only [handleMigrateLiquidityToPclPools, storeNtrnRewards, bind_eq_ok,
    Except.ok.injEq] at h
  obtain ⟨userInfo, -, t, hstore, rfl⟩ := h
  split_ifs at hstore
  · simp only [bind_eq_ok, Except.ok.injEq] at hstore
    obtain ⟨⟨total, t'⟩, hupdate, rfl⟩ := hstore
    exact (updateUserLockupPositions_noDebts hs hupdate).of_eq rfl
  · obtain rfl := Except.ok.inj hstore
    exact hs

/-! ### The callbacks -/

theorem PaysNtrn.lockupInfo {user : Addr} {userInfo : UserInfo} {msgs : List CosmosMsg}
    (h : PaysNtrn s user userInfo s' msgs) : s'.lockupInfo = s.lockupInfo := by
  cases h <;> rfl

/-- Without debts the loop of the callbacks over them does nothing. -/
theorem lockupRewards_noDebts {key : LockupKey} {lockup lockup' : LockupInfoV2} {pool : PoolInfo}
    {userInfo : UserInfo} {generator : Addr} {share : Nat} {withdraw : Bool}
    {msgs : List CosmosMsg} (hdebts : lockup.generatorProxyDebt = [])
    (h : lockupRewards q key lockup pool userInfo generator share withdraw =
      .ok (lockup', msgs)) : lockup'.generatorProxyDebt = [] ∧ NoTransfer msgs := by
  unfold lockupRewards at h
  split at h
  · simp only [stakedRewards, hdebts, accruedProxy, bind_eq_ok, rejectIf_eq_ok, exists_const,
      Except.ok.injEq, Prod.mk.injEq] at h
    obtain ⟨rewardToken, -, ⟨accrued, pending⟩, -, ⟨debts, proxy⟩, ⟨rfl, rfl⟩, -, rfl, rfl⟩ := h
    refine ⟨rfl, ((noTransfer_baseRewardMsg _ _ _ _).append (by simp)).append ?_⟩
    intro m hm t
    split_ifs at hm
    · rw [List.mem_singleton.mp hm]
      exact CosmosMsg.noConfusion
    · exact absurd hm List.not_mem_nil
  · simp only [Except.ok.injEq, Prod.mk.injEq] at h
    obtain ⟨rfl, rfl⟩ := h
    exact ⟨hdebts, noTransfer_nil⟩

theorem callbackWithdrawUserRewards_noDebts {env : Env} {key : LockupKey} {withdraw : Bool}
    {r : Response} (hs : NoDebts s)
    (h : callbackWithdrawUserRewards q s env key withdraw = .ok r) :
    NoDebts r.storage ∧ NoTransfer r.messages := by
  simp only [callbackWithdrawUserRewards, bind_eq_ok, Except.ok.injEq] at h
  obtain ⟨_, -, lockup, hload, _, -, _, -, ⟨lockup', rewardMsgs⟩, hrewards, ⟨t, exitMsgs⟩,
    hexits, ⟨t', ntrnMsgs⟩, hntrn, rfl⟩ := h
  obtain ⟨hdebts, hmsgs⟩ := lockupRewards_noDebts (hs.load hload) hrewards
  have hexits := storeOrClose_ok hexits
  have hntrn := payNtrnRewards_ok hntrn
  refine ⟨?_, (hmsgs.append hexits.noTransfer).append hntrn.noTransfer⟩
  refine NoDebts.of_eq ?_ hntrn.lockupInfo
  cases hexits with
  | stored => exact hs.save rfl hdebts
  | closed _ hcloses => exact hs.save hcloses.lockupInfo hdebts

theorem callbackTransferAllRewards_noDebts {key : LockupKey} {r : Response} (hs : NoDebts s)
    (h : callbackTransferAllRewardsBeforeMigration q s key = .ok r) :
    NoDebts r.storage ∧ NoTransfer r.messages := by
  simp only [callbackTransferAllRewardsBeforeMigration, bind_eq_ok, Except.ok.injEq] at h
  obtain ⟨_, -, lockup, hload, _, -, _, -, _, -, ⟨accrued, pending⟩, -, ⟨debts, proxy⟩, hproxy,
    ⟨t, ntrnMsgs⟩, hntrn, rfl⟩ := h
  rw [hs.load hload] at hproxy
  obtain ⟨rfl, rfl⟩ := Prod.mk.inj (Except.ok.inj hproxy)
  have hntrn := payNtrnRewards_ok hntrn
  refine ⟨hs.of_eq hntrn.lockupInfo, ?_⟩
  refine (((noTransfer_baseRewardMsg _ _ _ _).append (by simp)).append hntrn.noTransfer).append ?_
  intro m hm t
  rw [List.mem_singleton.mp hm]
  exact CosmosMsg.noConfusion

theorem noTransfer_collect {poolType : PoolType} {msgs : List CosmosMsg}
    (h : msgs = [] ∨ ∃ generator lpToken prev prevProxy,
      msgs = [.claimRewards generator [lpToken],
        .callback (.updatePoolOnDualRewardsClaim poolType prev prevProxy)]) : NoTransfer msgs := by
  rcases h with rfl | ⟨generator, lpToken, prev, prevProxy, rfl⟩ <;> simp [NoTransfer]

theorem handleCallback_noDebts {env : Env} {msg : CallbackMsg} {r : Response} (hs : NoDebts s)
    (h : handleCallback q s env msg = .ok r) : NoDebts r.storage ∧ NoTransfer r.messages := by
  cases msg with
  | updatePoolOnDualRewardsClaim poolType prev prevProxy =>
      obtain ⟨hmsgs, _, _, _, _, _, -, hbooks⟩ := updatePoolOnDualRewardsClaim_ok h
      rw [hmsgs, hbooks.storage]
      exact ⟨hs.of_eq rfl, noTransfer_nil⟩
  | withdrawUserLockupRewardsCallback => exact callbackWithdrawUserRewards_noDebts hs h
  | initMigrateLockupToPCLPoolsCallback =>
      obtain ⟨hstorage, -, hstarts⟩ := callbackInitMigrateLockupToPclPools_ok h
      rw [hstorage]
      refine ⟨hs, ?_⟩
      generalize r.messages = msgs at hstarts
      cases hstarts with
      | skipped => exact noTransfer_nil
      | started _ collect _ _ hcollect =>
          exact (noTransfer_collect hcollect).append (by simp [NoTransfer])
  | transferAllRewardsBeforeMigrationCallback => exact callbackTransferAllRewards_noDebts hs h
  | withdrawUserLockupCallback =>
      obtain ⟨-, pool, lockup, hwithdraws⟩ := callbackWithdrawUserLockup_ok h
      obtain ⟨pair, ntrnBalance, denom, balance, -, hmsgs⟩ := hwithdraws.messages
      have hdebts := hs.load hwithdraws.lockup_eq
      rw [hmsgs]
      exact ⟨hs.save hwithdraws.closes.lockupInfo hdebts, by simp [NoTransfer]⟩
  | migrateUserLockupToPCLPairCallback =>
      obtain ⟨hstorage, -, pclLockdrop, funds, lockup, stake, -, -, hmsgs⟩ :=
        callbackMigrateUserLockupToPclPair_ok h
      rw [hstorage, hmsgs]
      exact ⟨hs, by simp [NoTransfer]⟩

/-- No message makes the contract keep a proxy debt or transfer an asset. -/
theorem execute_noDebts {env : Env} {info : MessageInfo} {msg : ExecuteMsg} {r : Response}
    (hs : NoDebts s) (h : execute q s env info msg = .ok r) :
    NoDebts r.storage ∧ NoTransfer r.messages := by
  cases msg with
  | increaseLockupFor =>
      refine ⟨handleIncreaseLockup_noDebts hs h, ?_⟩
      rw [(handleIncreaseLockup_ok h).1]
      exact noTransfer_nil
  | withdrawFromLockup =>
      refine ⟨handleWithdrawFromLockup_noDebts hs h, ?_⟩
      rw [(handleWithdrawFromLockup_ok h).1]
      exact noTransfer_nil
  | receive msg =>
      obtain ⟨-, -, poolType, incentivesShare, pool, -, hinit⟩ := receiveCw20_ok h
      obtain ⟨generator, height, -, hmsgs⟩ := hinit.messages
      rw [hinit.storage, hmsgs]
      exact ⟨hs.of_eq rfl, by simp [NoTransfer]⟩
  | claimRewardsAndOptionallyUnlock poolType duration withdraw =>
      obtain ⟨-, userInfo, total, t, st, collect, hclaim⟩ :=
        handleClaimRewardsAndUnlockForLockup_ok h
      rw [hclaim.storage, hclaim.messages]
      exact ⟨(hclaim.finds.noDebts hs).of_eq rfl,
        (noTransfer_collect hclaim.collect_eq).append (by simp [NoTransfer])⟩
  | migrateLiquidityToPCLPools raw =>
      obtain ⟨-, -, hmsgs⟩ := handleMigrateLiquidityToPclPools_ok h
      refine ⟨handleMigrateLiquidity_noDebts hs h, fun m hm t => ?_⟩
      obtain ⟨key, rfl⟩ := hmsgs m hm
      exact CosmosMsg.noConfusion
  | callback msg =>
      simp only [execute, bind_eq_ok, rejectIf_eq_ok, exists_const] at h
      exact handleCallback_noDebts hs h.2
  | setTokenInfo =>
      simp only [execute, handleSetTokenInfo, bind_eq_ok, rejectIf_eq_ok, exists_const,
        Except.ok.injEq] at h
      obtain ⟨-, rfl⟩ := h
      exact ⟨hs.of_eq rfl, noTransfer_nil⟩
  | increaseNTRNIncentives =>
      simp only [execute, handleIncreasingNtrnIncentives, bind_eq_ok, rejectIf_eq_ok,
        exists_const, Except.ok.injEq] at h
      obtain ⟨_, -, -, _, -, _, -, rfl⟩ := h
      exact ⟨hs.of_eq rfl, noTransfer_nil⟩
  | updateConfig =>
      simp only [execute, handleUpdateConfig, bind_eq_ok, rejectIf_eq_ok, exists_const,
        Except.ok.injEq] at h
      obtain ⟨-, -, rfl⟩ := h
      exact ⟨hs.of_eq rfl, noTransfer_nil⟩
  | proposeNewOwner =>
      simp only [execute, bind_eq_ok, Except.ok.injEq] at h
      obtain ⟨_, -, rfl⟩ := h
      exact ⟨hs.of_eq rfl, noTransfer_nil⟩
  | dropOwnershipProposal =>
      simp only [execute, bind_eq_ok, Except.ok.injEq] at h
      obtain ⟨_, -, rfl⟩ := h
      exact ⟨hs.of_eq rfl, noTransfer_nil⟩
  | claimOwnership =>
      simp only [execute, bind_eq_ok, Except.ok.injEq] at h
      obtain ⟨_, -, rfl⟩ := h
      exact ⟨hs.of_eq rfl, noTransfer_nil⟩

/-! ### What is reported -/

/-- What a proxy reward asset is worth to a share of the pool. -/
def PoolInfo.proxyReward (pool : PoolInfo) (share : Nat) (asset : AssetInfo) : Nat :=
  pool.generatorProxyPerShare.atomicsOf asset * share / FixedPoint.fractional

/-- The atomics per share of an asset once the pending rewards are booked, too. -/
def pendingAtomics (perShare : RestrictedVector AssetInfo Decimal) (poolLpUnits : Nat)
    (rewards : List Asset) (asset : AssetInfo) : Nat :=
  perShare.atomicsOf asset +
    (rewards.map fun r =>
      if r.info = asset then r.amount * FixedPoint.fractional / poolLpUnits else 0).sum

theorem pendingAtomics_cons {perShare perShare' : RestrictedVector AssetInfo Decimal}
    {poolLpUnits : Nat} {reward : Asset} {increment : Decimal} (rewards : List Asset)
    (hincrement : FixedPoint.fromRatio 128 reward.amount poolLpUnits = .ok increment)
    (h : perShare.updateDecimal reward.info increment = .ok perShare') (asset : AssetInfo) :
    pendingAtomics perShare poolLpUnits (reward :: rewards) asset =
      pendingAtomics perShare' poolLpUnits rewards asset := by
  obtain ⟨-, -, hatomics⟩ := FixedPoint.fromRatio_eq_ok.mp hincrement
  unfold pendingAtomics
  rw [RestrictedVector.atomicsOf_updateDecimal h, List.map_cons, List.sum_cons, hatomics]
  simp only [eq_comm (a := asset)]
  omega

/-- The atomics per share of an asset only grow while the pending rewards are booked. -/
theorem atomicsOf_le_pendingAtomics (perShare : RestrictedVector AssetInfo Decimal)
    (poolLpUnits : Nat) (rewards : List Asset) (asset : AssetInfo) :
    perShare.atomicsOf asset ≤ pendingAtomics perShare poolLpUnits rewards asset :=
  Nat.le_add_right _ _

theorem pendingAtomics_of_absent {perShare : RestrictedVector AssetInfo Decimal}
    {poolLpUnits : Nat} {rewards : List Asset} {asset : AssetInfo}
    (h : ¬ ∃ r ∈ rewards, r.info = asset) :
    pendingAtomics perShare poolLpUnits rewards asset = perShare.atomicsOf asset := by
  unfold pendingAtomics
  rw [List.sum_eq_zero_iff.mpr, Nat.add_zero]
  intro n hn
  obtain ⟨r, hr, rfl⟩ := List.mem_map.mp hn
  exact if_neg fun hinfo => h ⟨r, hr, hinfo⟩

/-- The loop of the query for a lockup without debts: it adds nothing for an asset exactly
when the asset is not pending or will be worth nothing to the lockup. -/
theorem claimableLoop_eq {poolLpUnits lockupLpUnits : Nat} {rewards : List Asset} :
    ∀ {st st' : RestrictedVector AssetInfo Decimal × RestrictedVector AssetInfo Nat},
      rewards.foldlM (fun st reward => do
        let increment ← FixedPoint.fromRatio 128 reward.amount poolLpUnits
        let perShare ← st.1.updateDecimal reward.info increment
        let current := (perShare.load reward.info).getD FixedPoint.zero
        let total ← current.checkedMulUint lockupLpUnits
        let debt ← Uint.checkedSub total
          ((RestrictedVector.load ([] : RestrictedVector AssetInfo Nat) reward.info).getD 0)
        let claimable ← RestrictedVector.updateUint st.2 reward.info debt
        .ok (perShare, claimable)) st = .ok st' →
      ∀ asset, st.2.valueOf asset ≤ st'.2.valueOf asset ∧
        (st'.2.valueOf asset = st.2.valueOf asset ↔
          ((∃ r ∈ rewards, r.info = asset) → pendingAtomics st.1 poolLpUnits rewards asset *
            lockupLpUnits / FixedPoint.fractional = 0)) := by
  induction rewards with
  | nil =>
      intro st st' h asset
      obtain rfl := Except.ok.inj h
      simp
  | cons reward rewards ih =>
      intro st st' h asset
      obtain ⟨t, ht, hrest⟩ := foldlM_cons_ok.mp h
      obtain ⟨hle, hiff⟩ := ih hrest asset
      simp only [bind_eq_ok, Uint.checkedSub_eq_ok, FixedPoint.checkedMulUint_eq_ok,
        Except.ok.injEq] at ht
      obtain ⟨increment, hincrement, perShare, hshare, total, ⟨-, rfl⟩, _, ⟨-, rfl⟩, claimable,
        hclaimable, rfl⟩ := ht
      have hvalue := RestrictedVector.valueOf_updateUint hclaimable asset
      have hpending := pendingAtomics_cons rewards hincrement hshare asset
      rw [hpending]
      by_cases hasset : asset = reward.info
      · subst hasset
        -- this reward adds what the asset is worth so far
        have hgrows := Nat.div_le_div_right (c := FixedPoint.fractional)
          (Nat.mul_le_mul_right lockupLpUnits
            (atomicsOf_le_pendingAtomics perShare poolLpUnits rewards reward.info))
        have hworth : lockupLpUnits * ((perShare.load reward.info).getD FixedPoint.zero).atomics =
            perShare.atomicsOf reward.info * lockupLpUnits := Nat.mul_comm _ _
        simp only [if_true, RestrictedVector.load, List.find?_nil, Option.map_none,
          Option.getD_none, Nat.sub_zero] at hvalue
        change claimable.valueOf reward.info = st.2.valueOf reward.info +
          lockupLpUnits * ((perShare.load reward.info).getD FixedPoint.zero).atomics /
            FixedPoint.fractional at hvalue
        rw [hworth] at hvalue
        have hmember : ∃ r ∈ reward :: rewards, r.info = reward.info :=
          ⟨reward, List.mem_cons_self, rfl⟩
        have hlast : ¬ (∃ r ∈ rewards, r.info = reward.info) →
            pendingAtomics perShare poolLpUnits rewards reward.info * lockupLpUnits /
              FixedPoint.fractional =
            perShare.atomicsOf reward.info * lockupLpUnits / FixedPoint.fractional :=
          fun habsent => by rw [pendingAtomics_of_absent habsent]
        dsimp only at hle hiff ⊢
        generalize perShare.atomicsOf reward.info * lockupLpUnits /
          FixedPoint.fractional = current at hvalue hgrows hlast
        generalize pendingAtomics perShare poolLpUnits rewards reward.info * lockupLpUnits /
          FixedPoint.fractional = final at hgrows hiff hlast ⊢
        refine ⟨by omega, fun heq _ => ?_, fun hzero => ?_⟩
        · by_cases hlater : ∃ r ∈ rewards, r.info = reward.info
          · exact hiff.mp (by omega) hlater
          · rw [hlast hlater]
            omega
        · have hworthless := hzero hmember
          have hsame := hiff.mpr fun _ => hworthless
          omega
      · rw [if_neg hasset, Nat.add_zero] at hvalue
        rw [hvalue] at hle hiff
        refine ⟨hle, hiff.trans ?_⟩
        simp [Ne.symm hasset]

/-- What the query reports for an open lockup without debts: nothing, exactly when no
pending asset will be worth anything to it. -/
theorem claimableProxyDebts_eq_zero {poolLpUnits lockupLpUnits : Nat} {rewards : List Asset}
    {perShare : RestrictedVector AssetInfo Decimal} {claimable : RestrictedVector AssetInfo Nat}
    (h : claimableProxyDebts poolLpUnits lockupLpUnits [] rewards perShare = .ok claimable) :
    (∀ asset, claimable.valueOf asset = 0) ↔
      ∀ reward ∈ rewards, pendingAtomics perShare poolLpUnits rewards reward.info *
        lockupLpUnits / FixedPoint.fractional = 0 := by
  simp only [claimableProxyDebts, bind_eq_ok, Except.ok.injEq] at h
  obtain ⟨st, hloop, rfl⟩ := h
  have hassets := claimableLoop_eq hloop
  constructor
  · intro hzero reward hreward
    exact (hassets reward.info).2.mp (hzero reward.info) ⟨reward, hreward, rfl⟩
  · intro hworthless asset
    refine (hassets asset).2.mpr ?_
    rintro ⟨reward, hreward, rfl⟩
    exact hworthless reward hreward

/-- The claimable proxy rewards that `query_lockup_info` reports. -/
theorem queryLockupInfo_proxies {key : LockupKey} {res : LockUpInfoResponse} {pool : PoolInfo}
    {lockup : LockupInfoV2} {generator : Addr} {poolUnits lockupUnits : Nat}
    {response : PendingTokenResponse} (h : queryLockupInfo q s key = .ok res)
    (hpool : s.assetPools.mayLoad key.poolType = some pool) (hstaked : pool.isStaked = true)
    (hgenerator : s.config.generator = some generator)
    (hload : compatibleLoad q s key = .ok lockup) (hopen : lockup.astroportLpTransferred = none)
    (hunits : queryLpUnits q s pool lockup.lpUnitsLocked = .ok (poolUnits, lockupUnits))
    (hpending : q.pendingToken generator pool.lpToken = .ok response) :
    (lockupUnits = 0 ∧ res.claimableGeneratorProxyDebt = []) ∨
      claimableProxyDebts poolUnits lockupUnits lockup.generatorProxyDebt
        (response.pendingOnProxy.getD []) pool.generatorProxyPerShare =
          .ok res.claimableGeneratorProxyDebt := by
  simp only [queryLockupInfo, bind_eq_ok, SnapshotMap.load, Map.load_eq_ok, Except.ok.injEq] at h
  obtain ⟨pool', hpool', lockup', hload', ⟨lpUnits, claimable, proxies⟩, hpart, _, -, rfl⟩ := h
  obtain rfl := Option.some.inj (hpool.symm.trans hpool')
  obtain rfl := Except.ok.inj (hload.symm.trans hload')
  simp only [queryGeneratorPart, hopen, hunits, bind_eq_ok, Except.ok.injEq,
    Prod.mk.injEq] at hpart
  obtain ⟨⟨_, _⟩, ⟨rfl, rfl⟩, ⟨_, _⟩, hdebts, -, rfl, rfl⟩ := hpart
  unfold claimableDebts at hdebts
  split_ifs at hdebts with hcond
  · simp only [bind_eq_ok, okOr_eq_ok, Except.ok.injEq, Prod.mk.injEq] at hdebts
    obtain ⟨generator', hgenerator', response', hpending', _, -, _, -, ⟨_, _⟩, -, proxies',
      hproxies,
      -, rfl⟩ := hdebts
    obtain rfl := Option.some.inj (hgenerator.symm.trans hgenerator')
    obtain rfl := Except.ok.inj (hpending.symm.trans hpending')
    exact Or.inr hproxies
  · simp only [Except.ok.injEq, Prod.mk.injEq] at hdebts
    obtain ⟨-, rfl⟩ := hdebts
    refine Or.inl ⟨?_, rfl⟩
    by_contra hne
    exact hcond ⟨hstaked, hne⟩

/-! ### Runs -/

variable {E : Type} {x : Externals E}

/-- What an event transfers to a user of an asset. -/
def Event.received (user : Addr) (asset : AssetInfo) : Event → Nat
  | .sent msg => transferred [msg] user asset
  | .ntrnRewardReceived _ _ => 0

/-- What a user received of an asset so far. -/
def World.received (w : World E) (user : Addr) (asset : AssetInfo) : Nat :=
  w.count (Event.received user asset)

/-- Nothing was transferred between two worlds, and no lockup got a proxy debt. -/
structure NothingMoved (w w' : World E) : Prop where
  noDebts : NoDebts w'.storage
  received : ∀ user asset, w'.received user asset = w.received user asset

theorem NothingMoved.trans {u v w : World E} (h : NothingMoved u v) (h' : NothingMoved v w) :
    NothingMoved u w :=
  ⟨h'.noDebts, fun user asset => (h'.received user asset).trans (h.received user asset)⟩

theorem NothingMoved.respond {w : World E} {r : Response} (hs : NoDebts r.storage) :
    NothingMoved w (w.respond r) where
  noDebts := hs
  received user asset := by
    have hevents : (r.events.map (Event.received user asset)).sum = 0 := by
      unfold Response.events
      cases r.ntrnRewardReceived <;> simp [Event.received]
    exact (count_append (show (w.respond r).trace = w.trace ++ r.events from rfl)).trans (by
      rw [hevents, Nat.add_zero]
      rfl)

/-- No transaction transfers an asset. -/
theorem World.execute_nothingMoved {w w' : World E} {info : MessageInfo} {msg : ExecuteMsg}
    (hs : NoDebts w.storage) (h : w.execute x info msg = .ok w') : NothingMoved w w' := by
  obtain ⟨r, hr, hrun, -⟩ := execute_ok h
  obtain ⟨hstorage, hmsgs⟩ := execute_noDebts hs hr
  refine Calls.invariant_all (P := NothingMoved w) (Q := fun m : CosmosMsg => ∀ t, m ≠ .transfer t)
    ?_ ?_ (NothingMoved.respond hstorage) hmsgs hrun
  · intro v m ext hv hm _
    have hnone : NoTransfer [m] := by simpa [NoTransfer] using hm
    refine hv.trans ⟨hv.noDebts, fun user asset => ?_⟩
    exact (count_append rfl).trans (congrArg _ (hnone.transferred_eq user asset))
  · intro v c r hv hr
    obtain ⟨hstorage, hmsgs⟩ := handleCallback_noDebts hv.noDebts hr
    exact ⟨hv.trans (.respond hstorage), hmsgs⟩

/-- The lockup that a message pays: the reward callbacks of a claim and of a migration. -/
def ExecuteMsg.pays : ExecuteMsg → Option LockupKey
  | .callback (.withdrawUserLockupRewardsCallback poolType user duration _) =>
      some ⟨poolType, user, duration⟩
  | .callback (.transferAllRewardsBeforeMigrationCallback poolType user duration) =>
      some ⟨poolType, user, duration⟩
  | _ => none

/-- What every lockup was paid of every asset. -/
abbrev Payments := LockupKey → AssetInfo → Nat

/-- The payments after a message sent its messages. -/
def Payments.after (paid : Payments) (msg : ExecuteMsg) (msgs : List CosmosMsg) : Payments :=
  fun key asset =>
    paid key asset + if msg.pays = some key then transferred msgs key.user asset else 0

/-- The worlds in which a message of the lockdrop can be executed, within a transaction, too,
and what was paid before. A callback is a message that the contract sends to itself. -/
inductive Reached (x : Externals E) (start : World E) : World E → Payments → Prop
  | start : Reached x start start fun _ _ => 0
  /-- Time passes and the other contracts change, by a message of the lockdrop or not. -/
  | elsewhere {w : World E} {paid : Payments} (h : Reached x start w paid) (ext : E) (env : Env)
      (trace : List Event) :
      Reached x start { w with ext := ext, env := env, trace := trace } paid
  | migrated {w : World E} {paid : Payments} (h : Reached x start w paid)
      (pclLockdropContract : Addr) :
      Reached x start { w with storage := Lockdrop.migrate w.storage pclLockdropContract } paid
  | handled {w : World E} {paid : Payments} (h : Reached x start w paid) (info : MessageInfo)
      (msg : ExecuteMsg) (r : Response)
      (hr : execute (x.querier w.ext) w.storage w.env info msg = .ok r) :
      Reached x start (w.respond r) (paid.after msg r.messages)

/-- A callback is handled like a message of the contract to itself. -/
theorem Reached.callback {start w : World E} {paid : Payments} (h : Reached x start w paid)
    {c : CallbackMsg} {r : Response}
    (hr : handleCallback (x.querier w.ext) w.storage w.env c = .ok r) :
    ∃ paid', Reached x start (w.respond r) paid' := by
  have hself : execute (x.querier w.ext) w.storage w.env ⟨w.env.contract, []⟩ (.callback c) =
      .ok r := by
    simp only [execute, bind_eq_ok, rejectIf_eq_ok, exists_const]
    exact ⟨fun hne => hne rfl, hr⟩
  exact ⟨_, h.handled _ _ r hself⟩

/-- Every state of a run is among them. -/
theorem reached_run {start : World E} (as : List (Action E)) :
    ∃ paid, Reached x start (run (World.exec x) start as) paid := by
  refine run_invariant (fun w => ∃ paid, Reached x start w paid) ?_ ⟨_, .start⟩
  rintro w a w' ⟨paid, hw⟩ h
  cases a with
  | advance seconds blocks =>
      obtain rfl := Except.ok.inj h
      exact ⟨paid, hw.elsewhere w.ext _ w.trace⟩
  | drift ext =>
      obtain rfl := Except.ok.inj h
      exact ⟨paid, hw.elsewhere ext w.env w.trace⟩
  | migrate pclLockdropContract =>
      obtain rfl := Except.ok.inj h
      exact ⟨paid, hw.migrated pclLockdropContract⟩
  | execute info msg =>
      obtain ⟨r, hr, hrun, -⟩ := execute_ok h
      refine Calls.invariant_all (P := fun v : World E => ∃ paid', Reached x start v paid')
        (Q := fun _ => True) ?_ ?_ ⟨_, hw.handled info msg r hr⟩ (fun _ _ => trivial) hrun
      · rintro v m ext ⟨paid', hv⟩ - -
        exact ⟨paid', hv.elsewhere ext v.env _⟩
      · rintro v c r ⟨paid', hv⟩ hr
        exact ⟨hv.callback hr, fun _ _ => trivial⟩

/-- No lockup ever has a proxy debt, and none was ever paid. -/
theorem Reached.nothing {start w : World E} {paid : Payments} (h : Reached x start w paid)
    (hstart : NoDebts start.storage) :
    NoDebts w.storage ∧ ∀ key asset, paid key asset = 0 := by
  induction h with
  | start => exact ⟨hstart, fun _ _ => rfl⟩
  | elsewhere _ _ _ _ ih => exact ih
  | migrated _ _ ih => exact ⟨ih.1.of_eq rfl, ih.2⟩
  | handled _ info msg r hr ih =>
      obtain ⟨hstorage, hmsgs⟩ := execute_noDebts ih.1 hr
      refine ⟨hstorage, fun key asset => ?_⟩
      unfold Payments.after
      rw [ih.2, hmsgs.transferred_eq, ite_self]

theorem NoDebts.init {env : Env} {info : MessageInfo} {msg : InstantiateMsg}
    (h : instantiate env info msg = .ok s) : NoDebts s := by
  obtain rfl := instantiate_ok h
  intro key st hst
  cases hst

/-- The lockups of a staked pool and the rewards of its proxies, in every state and within
every transaction of every run. A callback that pays a lockup brings it to what its share is
worth of every credited asset exactly when that is nothing of any; and a claim pays what the
query reported just before exactly when no pending asset will be worth anything to it. -/
theorem proxy_rewards_paid_iff {env : Env} {info : MessageInfo} {msg : InstantiateMsg}
    {start w : World E} {paid : Payments} {key : LockupKey} {st : StoredLockup} {pool : PoolInfo}
    {generator : Addr} (hinit : instantiate env info msg = .ok start.storage)
    (hreached : Reached x start w paid)
    (hpool : w.storage.assetPools.mayLoad key.poolType = some pool)
    (hstaked : pool.isStaked = true) (hgenerator : w.storage.config.generator = some generator)
    (hst : w.storage.lockupInfo.mayLoad key = some st)
    (hopen : st.core.astroportLpTransferred = none) :
    (∀ c r share, (ExecuteMsg.callback c).pays = some key →
      handleCallback (x.querier w.ext) w.storage w.env c = .ok r →
      astroportLpShare (x.querier w.ext) generator pool st.core.lpUnitsLocked = .ok share →
        ((∀ asset ∈ pool.generatorProxyPerShare.map Prod.fst,
            paid key asset + transferred r.messages key.user asset =
              pool.proxyReward share asset) ↔
          ∀ asset ∈ pool.generatorProxyPerShare.map Prod.fst,
            pool.proxyReward share asset = 0)) ∧
    (∀ res poolUnits lockupUnits response funds withdraw w',
      queryLockupInfo (x.querier w.ext) w.storage key = .ok res →
      queryLpUnits (x.querier w.ext) w.storage pool st.core.lpUnitsLocked =
        .ok (poolUnits, lockupUnits) →
      (x.querier w.ext).pendingToken generator pool.lpToken = .ok response →
      w.execute x ⟨key.user, funds⟩ (.claimRewardsAndOptionallyUnlock key.poolType key.duration
        withdraw) = .ok w' →
        ((∀ asset, w'.received key.user asset = w.received key.user asset +
            res.claimableGeneratorProxyDebt.valueOf asset) ↔
          ∀ reward ∈ response.pendingOnProxy.getD [],
            pendingAtomics pool.generatorProxyPerShare poolUnits
              (response.pendingOnProxy.getD []) reward.info * lockupUnits /
                FixedPoint.fractional = 0)) := by
  obtain ⟨hnoDebts, hpaid⟩ := hreached.nothing (NoDebts.init hinit)
  constructor
  · intro c r share hpays hr hshare
    -- the callback transfers nothing, and neither did any payment before
    have htransferred := (handleCallback_noDebts hnoDebts hr).2.transferred_eq key.user
    simp only [hpaid, htransferred, Nat.add_zero, eq_comm (a := 0)]
  · intro res poolUnits lockupUnits response funds withdraw w' hres hunits hpending hclaim
    have hmoved := World.execute_nothingMoved hnoDebts hclaim
    obtain ⟨lockup, rfl, hdebts⟩ := hnoDebts key st hst
    have hload : compatibleLoad (x.querier w.ext) w.storage key = .ok lockup := by
      simp only [compatibleLoad, bind_eq_ok, Map.load_eq_ok]
      exact ⟨_, hst, rfl⟩
    -- the balance stays, so what was reported has to be nothing
    have hreported : (∀ asset, w'.received key.user asset = w.received key.user asset +
        res.claimableGeneratorProxyDebt.valueOf asset) ↔
        ∀ asset, res.claimableGeneratorProxyDebt.valueOf asset = 0 := by
      refine forall_congr' fun asset => ?_
      rw [hmoved.received]
      omega
    rw [hreported]
    rcases queryLockupInfo_proxies hres hpool hstaked hgenerator hload hopen hunits hpending with
      ⟨rfl, hnil⟩ | hloop
    · simp [hnil, RestrictedVector.valueOf, RestrictedVector.load]
    · rw [hdebts] at hloop
      exact claimableProxyDebts_eq_zero hloop

/-! ### A proxy reward that is lost -/

/-- The small chain with a proxy: its pending rewards and what the lockdrop has of them. -/
structure ProxyExt where
  base : SampleExt
  pendingProxy : Nat
  proxyBalance : Nat

/-- The answers of the small chain, with a reward that is pending on the proxy. -/
def ProxyExt.querier (e : ProxyExt) : Querier :=
  { e.base.querier with
    pendingToken := fun _ _ => .ok ⟨0, some [⟨.token "proxy", e.pendingProxy⟩]⟩
    queryPool := fun _ => .ok e.proxyBalance }

/-- A claim sends what is pending on the proxy. -/
def ProxyExt.exec (e : ProxyExt) (msg : CosmosMsg) : Except StdError ProxyExt := do
  let base ← e.base.exec msg
  match msg with
  | .claimRewards _ _ => .ok ⟨base, 0, e.proxyBalance + e.pendingProxy⟩
  | _ => .ok { e with base := base }

/-- The small chain with a proxy as the contracts around the lockdrop. -/
def proxyExternals : Externals ProxyExt := ⟨ProxyExt.querier, ProxyExt.exec⟩

/-- A lockdrop right after `instantiate`. -/
def proxyStart : World ProxyExt where
  storage := sampleInstantiateMsg.storage ⟨"owner", []⟩
  ext := ⟨⟨∅, ∅, 0⟩, 0, 0⟩
  env := ⟨0, 1, "lockdrop"⟩
  trace := []

/-- The auction locks 10 units for Alice and stakes the LP tokens, and 20 units of a reward
are pending on the proxy. -/
def proxyRun : List (Action ProxyExt) :=
  [.execute ⟨"owner", []⟩ (.setTokenInfo "atom_lp" "usdc_lp" "generator"),
    .advance 150 10,
    .execute ⟨"auction", []⟩ (.increaseLockupFor "alice" .atom 10 1),
    .advance 100 10,
    .execute ⟨"atom_lp", []⟩ (.receive ⟨"auction", 10, some (.initializePool .atom 100)⟩),
    .drift ⟨⟨(∅ : Map Addr Nat).save "atom_lp" 10, ∅, 0⟩, 20, 0⟩]

/-- Alice claims and does not unlock. -/
def aliceClaims : Action ProxyExt :=
  .execute ⟨"alice", []⟩ (.claimRewardsAndOptionallyUnlock .atom 1 false)

/-- The pool after Alice's claim: 20 units were credited to 10 shares. -/
def proxyPool : PoolInfo where
  lpToken := "atom_lp"
  amountInLockups := 10
  incentivesShare := 100
  weightedAmount := 10
  generatorNtrnPerShare := ⟨0⟩
  generatorProxyPerShare := [(.token "proxy", ⟨2 * FixedPoint.fractional⟩)]
  isStaked := true

/-- Alice's state after her claim, in which she may unlock. -/
def proxyClaimed : World ProxyExt :=
  run (World.exec proxyExternals) proxyStart (proxyRun ++ [aliceClaims])

/-- After Alice's claim she unlocks, and the callback goes through: 20 units were credited to her
share, and she leaves without them. -/
theorem proxy_rewards_paid_iff_sample :
    ∃ paid r, Reached proxyExternals proxyStart proxyClaimed paid ∧
      handleCallback (proxyExternals.querier proxyClaimed.ext) proxyClaimed.storage
        proxyClaimed.env (.withdrawUserLockupRewardsCallback .atom "alice" 1 true) = .ok r ∧
      ((∀ asset ∈ proxyPool.generatorProxyPerShare.map Prod.fst,
          paid ⟨.atom, "alice", 1⟩ asset + transferred r.messages "alice" asset =
            proxyPool.proxyReward 10 asset) ↔
        ∀ asset ∈ proxyPool.generatorProxyPerShare.map Prod.fst,
          proxyPool.proxyReward 10 asset = 0) := by
  obtain ⟨paid, hreached⟩ : ∃ paid, Reached proxyExternals proxyStart proxyClaimed paid :=
    reached_run _
  have hok : (handleCallback (proxyExternals.querier proxyClaimed.ext) proxyClaimed.storage
      proxyClaimed.env (.withdrawUserLockupRewardsCallback .atom "alice" 1 true)).isOk = true := by
    decide +kernel
  obtain ⟨r, hr⟩ := exists_ok_of_isOk hok
  have hpays := (@proxy_rewards_paid_iff ProxyExt proxyExternals ⟨0, 1, "lockdrop"⟩
    ⟨"owner", []⟩ sampleInstantiateMsg proxyStart proxyClaimed paid ⟨.atom, "alice", 1⟩
    (.v2 ⟨10, none, false, 0, 0, [], 251⟩) proxyPool "generator" rfl hreached (by decide) rfl
    rfl rfl rfl).1
  exact ⟨paid, r, hreached, hr, hpays _ r 10 rfl hr (by decide)⟩

/-- The query reports 20 units of the proxy's reward for Alice, and her claim in the same
block credits all of them to her share and pays her none. -/
theorem proxy_rewards_lost :
    instantiate ⟨0, 1, "lockdrop"⟩ ⟨"owner", []⟩ sampleInstantiateMsg = .ok proxyStart.storage ∧
      ∃ w, run (World.exec proxyExternals) proxyStart proxyRun = w ∧
        (queryLockupInfo (proxyExternals.querier w.ext) w.storage ⟨.atom, "alice", 1⟩).map
          LockUpInfoResponse.claimableGeneratorProxyDebt = .ok [(.token "proxy", 20)] ∧
        ∃ w', World.exec proxyExternals w aliceClaims = .ok w' ∧
          w'.storage.assetPools.mayLoad .atom = some proxyPool ∧
          astroportLpShare (proxyExternals.querier w'.ext) "generator" proxyPool 10 = .ok 10 ∧
          proxyPool.proxyReward 10 (.token "proxy") = 20 ∧
          w'.received "alice" (.token "proxy") = 0 := by
  refine ⟨rfl, _, rfl, by decide, _, ok_of_isOk _ (by decide), ?_⟩
  decide

end NeutronTge.Lockdrop
