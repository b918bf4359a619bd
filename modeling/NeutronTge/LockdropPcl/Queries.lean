import NeutronTge.LockdropPcl.Rewards
import NeutronTge.Shares.Reports

/-!
# NeutronTge.LockdropPcl.Queries

What the PCL lockdrop reports about a lockup and about a user. The rewards that a lockup could
claim are projected: the query books the pending rewards in memory, without collecting them,
and subtracts the lockup's debts (`projectRewards_ok`). The report about a user adds the
reports about his lockups up (`queryUserInfo_ok`).
-/

namespace NeutronTge.LockdropPcl

open CosmWasm Astroport Shares
open Lockdrop (PoolType LockupKey)

/-- What `query_lockup_info` answers about a lockup. -/
structure LockUpInfoResponse where
  poolType : PoolType
  lpUnitsLocked : Nat
  withdrawalFlag : Bool
  ntrnRewards : Nat
  duration : Nat
  incentivesDebt : RestrictedVector AssetInfo Nat
  claimableIncentivesDebt : RestrictedVector AssetInfo Nat
  unlockTimestamp : Nat
  astroportLpUnits : Option Nat
  astroportLpToken : Addr
  astroportLpTransferred : Option Nat
  deriving Repr, DecidableEq

/-- What `query_user_info` answers about a user. -/
structure UserInfoResponse where
  totalNtrnRewards : Nat
  ntrnTransferred : Bool
  lockupInfos : List LockUpInfoResponse
  claimableIncentivesDebt : RestrictedVector AssetInfo Nat
  lockupPositionsIndex : Nat
  deriving Repr, DecidableEq

section Queries

variable (q : Querier) (s : Storage)

/-- The LP tokens of the pool, by raw queries. -/
def rawLpBalance (pool : PoolInfo) : Except StdError Nat :=
  if pool.isStaked then q.rawIncentivesDeposit s.config.incentives pool.lpToken
  else q.rawBalance pool.lpToken

/-- One pending reward in the loop of `query_lockup_info`: it is booked for the LP tokens
`balance`, and what a lockup with `units` of them can claim is entered. -/
def projectReward (units balance : Nat) (debts : RestrictedVector AssetInfo Nat)
    (st : RestrictedVector AssetInfo Decimal × RestrictedVector AssetInfo Nat) (reward : Asset) :
    Except StdError (RestrictedVector AssetInfo Decimal × RestrictedVector AssetInfo Nat) := do
  let increment ← FixedPoint.fromRatio 128 reward.amount balance
  let perShare ← st.1.updateDecimal reward.info increment
  -- `update` returns the new value
  let total ← ((perShare.load reward.info).getD FixedPoint.zero).checkedMulUint units
  let debt ← Uint.checkedSub total ((debts.load reward.info).getD 0)
  let claimable ← st.2.updateUint reward.info debt
  .ok (perShare, claimable)

/-- The rewards that an open lockup with `units` of the pool's LP tokens could claim. -/
def claimableRewards (pool : PoolInfo) (lockup : LockupInfo) (units balance : Nat) :
    Except StdError (RestrictedVector AssetInfo Nat) :=
  if pool.isStaked = true ∧ units ≠ 0 then do
    let pending ← q.pendingRewards s.config.incentives pool.lpToken
    let (_, claimable) ← pending.foldlM (projectReward units balance lockup.incentivesDebt)
      (pool.incentivesRewardsPerShare, [])
    .ok claimable
  else .ok []

/-- The LP tokens of a lockup and its claimable rewards: a lockup that left has what it took,
and no rewards. -/
def lockupPosition (pool : PoolInfo) (lockup : LockupInfo) :
    Except StdError (Nat × RestrictedVector AssetInfo Nat) :=
  match lockup.astroportLpTransferred with
  | some astroportLpTransferred => .ok (astroportLpTransferred, [])
  | none => do
      let balance ← rawLpBalance q s pool
      let share ← Uint.checkedDiv (lockup.lpUnitsLocked * balance) pool.amountInLockups
      let units ← Uint.tryInto 128 share
      let claimable ← claimableRewards q s pool lockup units balance
      .ok (units, claimable)

/-- The one-time reward that is reported: it is computed when none is stored. -/
def reportedNtrnRewards (key : LockupKey) (pool : PoolInfo) (lockup : LockupInfo) :
    Except StdError Nat :=
  if lockup.ntrnRewards = 0 then lockupIncentives s key lockup.lpUnitsLocked pool
  else .ok lockup.ntrnRewards

/-- `query_lockup_info`. -/
def queryLockupInfo (key : LockupKey) : Except StdError LockUpInfoResponse := do
  let pool ← s.assetPools.load key.poolType
  let lockup ← s.lockupInfo.load key
  let (units, claimable) ← lockupPosition q s pool lockup
  let ntrnRewards ← reportedNtrnRewards s key pool lockup
  .ok
    { poolType := key.poolType
      lpUnitsLocked := lockup.lpUnitsLocked
      withdrawalFlag := lockup.withdrawalFlag
      ntrnRewards := ntrnRewards
      duration := key.duration
      incentivesDebt := lockup.incentivesDebt
      claimableIncentivesDebt := claimable
      unlockTimestamp := lockup.unlockTimestamp
      astroportLpUnits := some units
      astroportLpToken := pool.lpToken
      astroportLpTransferred := lockup.astroportLpTransferred }

/-- One lockup in the loop of `query_user_info`: the one-time rewards, the reports and the
claimable rewards so far. -/
def addLockup : Nat × List LockUpInfoResponse × RestrictedVector AssetInfo Nat → LockupKey →
    Except StdError (Nat × List LockUpInfoResponse × RestrictedVector AssetInfo Nat) :=
  addReport (queryLockupInfo q s) LockUpInfoResponse.ntrnRewards fun claimable lockupInfo =>
    lockupInfo.claimableIncentivesDebt.foldlM
      (fun claimable e => claimable.updateUint e.1 e.2) claimable

/-- `query_user_info`. -/
def queryUserInfo (user : Addr) : Except StdError UserInfoResponse := do
  let userInfo := (s.userInfo.mayLoad user).getD UserInfo.default
  let (total, lockupInfos, claimable) ← (userLockupKeys s user).foldlM (addLockup q s) (0, [], [])
  .ok
    { totalNtrnRewards := total
      ntrnTransferred := userInfo.ntrnTransferred
      lockupInfos := lockupInfos
      claimableIncentivesDebt := claimable
      lockupPositionsIndex := userInfo.lockupPositionsIndex }

end Queries

variable {q : Querier} {s : Storage}

/-! ### The projection -/

/-- The atomics per LP token of an asset once its pending reward is booked. -/
def bookedAtomics (perShare : RestrictedVector AssetInfo Decimal) (balance : Nat) (a : Asset) :
    Nat :=
  perShare.atomicsOf a.info + a.amount * FixedPoint.fractional / balance

/-- What the projection of one reward needs: nothing overflows, and the debt is not more than
what the lockup has accrued. -/
structure Projectable (units balance : Nat) (debts : RestrictedVector AssetInfo Nat)
    (perShare : RestrictedVector AssetInfo Decimal) (a : Asset) : Prop where
  booked_lt : bookedAtomics perShare balance a < 2 ^ 128
  accrued_lt : bookedAtomics perShare balance a * units / FixedPoint.fractional < 2 ^ 128
  debt_le : debts.valueOf a.info ≤
    bookedAtomics perShare balance a * units / FixedPoint.fractional

/-- What the projection enters for a reward. -/
def projectedAmount (units balance : Nat) (debts : RestrictedVector AssetInfo Nat)
    (perShare : RestrictedVector AssetInfo Decimal) (a : Asset) : Nat :=
  bookedAtomics perShare balance a * units / FixedPoint.fractional - debts.valueOf a.info

section Projection

variable {units balance : Nat} {debts : RestrictedVector AssetInfo Nat}

/-- One reward: it is booked and entered, and the other assets stay as they are. -/
theorem projectReward_ok {perShare : RestrictedVector AssetInfo Decimal}
    {claimable : RestrictedVector AssetInfo Nat} {a : Asset} (hbalance : 0 < balance)
    (h : Projectable units balance debts perShare a) (hnew : claimable.valueOf a.info = 0) :
    ∃ perShare' claimable',
      projectReward units balance debts (perShare, claimable) a = .ok (perShare', claimable') ∧
      (∀ asset, asset ≠ a.info → perShare'.atomicsOf asset = perShare.atomicsOf asset) ∧
      ∀ asset, claimable'.valueOf asset = claimable.valueOf asset +
        if asset = a.info then projectedAmount units balance debts perShare a else 0 := by
  have hbooked := h.booked_lt
  unfold bookedAtomics at hbooked
  have hincrement : FixedPoint.fromRatio 128 a.amount balance =
      .ok ⟨a.amount * FixedPoint.fractional / balance⟩ :=
    FixedPoint.fromRatio_eq_ok.mpr ⟨hbalance, by omega, rfl⟩
  obtain ⟨perShare', hupdate⟩ : ∃ v, perShare.updateDecimal a.info
      ⟨a.amount * FixedPoint.fractional / balance⟩ = .ok v :=
    RestrictedVector.updateDecimal_ok hbooked
  have hatomics := RestrictedVector.atomicsOf_updateDecimal hupdate
  have hvalue : ((perShare'.load a.info).getD FixedPoint.zero).atomics =
      bookedAtomics perShare balance a := by
    have hself := hatomics a.info
    rw [if_pos rfl] at hself
    exact hself
  have htotal : ((perShare'.load a.info).getD FixedPoint.zero).checkedMulUint units =
      .ok (bookedAtomics perShare balance a * units / FixedPoint.fractional) := by
    rw [FixedPoint.checkedMulUint_eq_ok, hvalue, Nat.mul_comm]
    exact ⟨h.accrued_lt, rfl⟩
  have hdebt : Uint.checkedSub
      (bookedAtomics perShare balance a * units / FixedPoint.fractional)
      ((debts.load a.info).getD 0) = .ok (projectedAmount units balance debts perShare a) :=
    Uint.checkedSub_eq_ok.mpr ⟨h.debt_le, rfl⟩
  -- the asset is listed once, so nothing is entered for it yet
  have hfits : claimable.valueOf a.info + projectedAmount units balance debts perShare a <
      2 ^ 128 := by
    rw [hnew, Nat.zero_add]
    exact lt_of_le_of_lt (Nat.sub_le _ _) h.accrued_lt
  obtain ⟨claimable', hentered⟩ := RestrictedVector.updateUint_ok hfits
  refine ⟨perShare', claimable', ?_, fun asset hasset => ?_,
    RestrictedVector.valueOf_updateUint hentered⟩
  · unfold projectReward
    simp only [bind_eq_ok]
    exact ⟨_, hincrement, perShare', hupdate, _, htotal, _, hdebt, claimable', hentered, rfl⟩
  · rw [hatomics, if_neg hasset, Nat.add_zero]

/-- The loop over the pending rewards, for a list that names each asset at most once. -/
theorem projectRewards_ok (hbalance : 0 < balance) : ∀ {pending : List Asset}
    {perShare : RestrictedVector AssetInfo Decimal} {claimable : RestrictedVector AssetInfo Nat},
    (pending.map Asset.info).Nodup →
    (∀ a ∈ pending, Projectable units balance debts perShare a) →
    (∀ a ∈ pending, claimable.valueOf a.info = 0) →
      ∃ st', pending.foldlM (projectReward units balance debts) (perShare, claimable) =
          .ok st' ∧
        (∀ a ∈ pending, st'.2.valueOf a.info = projectedAmount units balance debts perShare a) ∧
        ∀ asset, asset ∉ pending.map Asset.info →
          st'.2.valueOf asset = claimable.valueOf asset := by
  intro pending
  induction pending with
  | nil =>
      intro perShare claimable _ _ _
      exact ⟨_, rfl, fun a ha => absurd ha List.not_mem_nil, fun _ _ => rfl⟩
  | cons b pending ih =>
      intro perShare claimable hnodup hall hnew
      rw [List.map_cons, List.nodup_cons] at hnodup
      obtain ⟨hfresh, hnodup⟩ := hnodup
      obtain ⟨perShare₁, claimable₁, hfirst, hothers, hentered⟩ := projectReward_ok hbalance
        (hall b List.mem_cons_self) (hnew b List.mem_cons_self)
      -- the first reward leaves what the others are computed from as it was
      have hne : ∀ a ∈ pending, a.info ≠ b.info :=
        fun a ha heq => hfresh (heq ▸ List.mem_map_of_mem ha)
      have hbooked : ∀ a ∈ pending,
          bookedAtomics perShare₁ balance a = bookedAtomics perShare balance a := by
        intro a ha
        unfold bookedAtomics
        rw [hothers a.info (hne a ha)]
      have hall₁ : ∀ a ∈ pending, Projectable units balance debts perShare₁ a := by
        intro a ha
        obtain ⟨hlt, hlt', hle⟩ := hall a (List.mem_cons_of_mem _ ha)
        rw [← hbooked a ha] at hlt hlt' hle
        exact ⟨hlt, hlt', hle⟩
      have hnew₁ : ∀ a ∈ pending, claimable₁.valueOf a.info = 0 := by
        intro a ha
        rw [hentered, if_neg (hne a ha), Nat.add_zero]
        exact hnew a (List.mem_cons_of_mem _ ha)
      obtain ⟨st', hrest, hvalues, hothers'⟩ := ih hnodup hall₁ hnew₁
      refine ⟨st', foldlM_cons_ok.mpr ⟨_, hfirst, hrest⟩, fun a ha => ?_, fun asset hasset => ?_⟩
      · rcases List.mem_cons.mp ha with rfl | ha
        · rw [hothers' a.info hfresh, hentered, if_pos rfl, hnew a List.mem_cons_self,
            Nat.zero_add]
        · rw [hvalues a ha, projectedAmount, hbooked a ha, projectedAmount]
      · rw [List.map_cons, List.mem_cons, not_or] at hasset
        rw [hothers' asset hasset.2, hentered, if_neg hasset.1, Nat.add_zero]

end Projection

/-- The report about a lockup, from its parts. -/
theorem queryLockupInfo_of_parts {key : LockupKey} {pool : PoolInfo} {lockup : LockupInfo}
    {units ntrnRewards : Nat} {claimable : RestrictedVector AssetInfo Nat}
    (hpool : s.assetPools.mayLoad key.poolType = some pool)
    (hlockup : s.lockupInfo.mayLoad key = some lockup)
    (hposition : lockupPosition q s pool lockup = .ok (units, claimable))
    (hntrn : reportedNtrnRewards s key pool lockup = .ok ntrnRewards) :
    ∃ r, queryLockupInfo q s key = .ok r ∧ r.claimableIncentivesDebt = claimable := by
  have hreport : queryLockupInfo q s key = .ok
      { poolType := key.poolType
        lpUnitsLocked := lockup.lpUnitsLocked
        withdrawalFlag := lockup.withdrawalFlag
        ntrnRewards := ntrnRewards
        duration := key.duration
        incentivesDebt := lockup.incentivesDebt
        claimableIncentivesDebt := claimable
        unlockTimestamp := lockup.unlockTimestamp
        astroportLpUnits := some units
        astroportLpToken := pool.lpToken
        astroportLpTransferred := lockup.astroportLpTransferred } := by
    unfold queryLockupInfo
    simp only [bind_eq_ok, SnapshotMap.load, Map.load_eq_ok]
    exact ⟨pool, hpool, lockup, hlockup, _, hposition, ntrnRewards, hntrn, rfl⟩
  exact ⟨_, hreport, rfl⟩

/-! ### The report about a user -/

/-- The rewards that are reported for a lockup name each asset once. -/
theorem claimableRewards_nodup {pool : PoolInfo} {lockup : LockupInfo} {units balance : Nat}
    {claimable : RestrictedVector AssetInfo Nat}
    (h : claimableRewards q s pool lockup units balance = .ok claimable) :
    (claimable.map Prod.fst).Nodup := by
  unfold claimableRewards at h
  split_ifs at h
  · simp only [bind_eq_ok, Except.ok.injEq] at h
    obtain ⟨pending, -, ⟨perShare, claimable'⟩, hloop, rfl⟩ := h
    refine foldlM_invariant (fun st : RestrictedVector AssetInfo Decimal ×
      RestrictedVector AssetInfo Nat => (st.2.map Prod.fst).Nodup) ?_ ?_ hloop
    · exact List.nodup_nil
    · intro st st' reward _ hst hstep
      simp only [projectReward, bind_eq_ok, Except.ok.injEq] at hstep
      obtain ⟨_, -, _, -, _, -, _, -, entered, hentered, rfl⟩ := hstep
      exact (RestrictedVector.nodup_update hst hentered).1
  · obtain rfl := Except.ok.inj h
    exact List.nodup_nil

theorem queryLockupInfo_nodup {key : LockupKey} {r : LockUpInfoResponse}
    (h : queryLockupInfo q s key = .ok r) : (r.claimableIncentivesDebt.map Prod.fst).Nodup := by
  unfold queryLockupInfo at h
  simp only [bind_eq_ok, Except.ok.injEq] at h
  obtain ⟨pool, -, lockup, -, ⟨units, claimable⟩, hposition, _, -, rfl⟩ := h
  show (claimable.map Prod.fst).Nodup
  unfold lockupPosition at hposition
  split at hposition
  · simp only [Except.ok.injEq, Prod.mk.injEq] at hposition
    obtain ⟨-, rfl⟩ := hposition
    exact List.nodup_nil
  · simp only [bind_eq_ok, Except.ok.injEq, Prod.mk.injEq] at hposition
    obtain ⟨_, -, _, -, _, -, _, hclaimable, -, rfl⟩ := hposition
    exact claimableRewards_nodup hclaimable

/-- What the reports say that a user can claim of an asset, together. -/
def claimableOf (asset : AssetInfo) (reports : List LockUpInfoResponse) : Nat :=
  (reports.map fun r => r.claimableIncentivesDebt.valueOf asset).sum

/-- The reports about the lockups of a user, in the order of their keys. -/
def ReportsOf (q : Querier) (s : Storage) (user : Addr) : List LockUpInfoResponse → Prop :=
  Reports (queryLockupInfo q s) (userLockupKeys s user)

/-- The rewards of one report are entered asset by asset. -/
theorem enter_ok {key : LockupKey} {r : LockUpInfoResponse}
    {claimable claimable' : RestrictedVector AssetInfo Nat} (hr : queryLockupInfo q s key = .ok r)
    (h : r.claimableIncentivesDebt.foldlM (fun claimable e => claimable.updateUint e.1 e.2)
      claimable = .ok claimable') (asset : AssetInfo) :
    claimable'.valueOf asset =
      claimable.valueOf asset + r.claimableIncentivesDebt.valueOf asset := by
  rw [RestrictedVector.valueOf_merge asset h,
    RestrictedVector.totalOf_eq_valueOf (queryLockupInfo_nodup hr)]

/-- The report about a user lists the reports about his lockups, and adds their claimable
rewards up asset by asset. -/
theorem queryUserInfo_ok {user : Addr} {r : UserInfoResponse}
    (h : queryUserInfo q s user = .ok r) :
    ReportsOf q s user r.lockupInfos ∧
      ∀ asset, r.claimableIncentivesDebt.valueOf asset = claimableOf asset r.lockupInfos := by
  unfold queryUserInfo at h
  simp only [bind_eq_ok, Except.ok.injEq] at h
  obtain ⟨⟨total, lockupInfos, claimable⟩, hloop, rfl⟩ := h
  obtain ⟨hall, -, hvalues⟩ := addReports_ok RestrictedVector.valueOf
    (fun r => r.claimableIncentivesDebt.valueOf) (fun _ _ _ _ => enter_ok) (fun _ => rfl) hloop
  exact ⟨hall, hvalues⟩

end NeutronTge.LockdropPcl
