import NeutronTge.Lockdrop.RewardOrder
import NeutronTge.Shares.Reports

/-!
# NeutronTge.Lockdrop.Queries

What the lockdrop reports about a user. `query_user_info` adds up the reports about his lockups
(`queryUserInfo_ok`), and the one-time reward it adds up is the one that a claim computes and
stores in the same state (`ReportsOf.total`). `query_user_info_with_lockups_list` only reads
what is stored.
-/

namespace NeutronTge.Lockdrop

open CosmWasm Astroport Shares

/-- What `query_user_info` answers about a user. -/
structure UserInfoResponse where
  totalNtrnRewards : Nat
  ntrnTransferred : Bool
  lockupInfos : List LockUpInfoResponse
  claimableGeneratorNtrnDebt : Nat
  lockupPositionsIndex : Nat
  deriving Repr, DecidableEq

/-- The name of a lockup in a list. -/
structure LockUpInfoSummary where
  poolType : PoolType
  duration : Nat
  deriving Repr, DecidableEq

/-- What `query_user_info_with_lockups_list` answers about a user. -/
structure UserInfoWithListResponse where
  totalNtrnRewards : Nat
  ntrnTransferred : Bool
  lockupInfos : List LockUpInfoSummary
  lockupPositionsIndex : Nat
  deriving Repr, DecidableEq

section Queries

variable (q : Querier) (s : Storage)

/-- One lockup in the loop of `query_user_info`: the one-time rewards, the reports and the
claimable base rewards so far. -/
def addLockup : Nat × List LockUpInfoResponse × Nat → LockupKey →
    Except StdError (Nat × List LockUpInfoResponse × Nat) :=
  addReport (queryLockupInfo q s) LockUpInfoResponse.ntrnRewards fun claimable lockupInfo =>
    Uint.checkedAdd 128 claimable lockupInfo.claimableGeneratorAstroDebt

/-- `query_user_info`. -/
def queryUserInfo (user : Addr) : Except StdError UserInfoResponse := do
  let userInfo := (s.userInfo.mayLoad user).getD UserInfo.default
  let (total, lockupInfos, claimable) ← (userLockupKeys s user).foldlM (addLockup q s) (0, [], 0)
  .ok
    { totalNtrnRewards := total
      ntrnTransferred := userInfo.ntrnTransferred
      lockupInfos := lockupInfos
      claimableGeneratorNtrnDebt := claimable
      lockupPositionsIndex := userInfo.lockupPositionsIndex }

/-- `query_user_info_with_lockups_list`. -/
def queryUserInfoWithLockupsList (user : Addr) : UserInfoWithListResponse :=
  let userInfo := (s.userInfo.mayLoad user).getD UserInfo.default
  { totalNtrnRewards := userInfo.totalNtrnRewards
    ntrnTransferred := userInfo.ntrnTransferred
    lockupInfos := (userLockupKeys s user).map fun key => ⟨key.poolType, key.duration⟩
    lockupPositionsIndex := userInfo.lockupPositionsIndex }

end Queries

variable {q : Querier} {s s' : Storage}

/-! ### The report about a user -/

/-- The reports about the lockups of a user, in the order of their keys. -/
def ReportsOf (q : Querier) (s : Storage) (user : Addr) : List LockUpInfoResponse → Prop :=
  Reports (queryLockupInfo q s) (userLockupKeys s user)

/-- The report about a user lists the reports about his lockups, and adds their rewards up. -/
theorem queryUserInfo_ok {user : Addr} {r : UserInfoResponse}
    (h : queryUserInfo q s user = .ok r) :
    ReportsOf q s user r.lockupInfos ∧
      r.ntrnTransferred = (s.user user).ntrnTransferred ∧
      r.totalNtrnRewards = (r.lockupInfos.map LockUpInfoResponse.ntrnRewards).sum ∧
      r.claimableGeneratorNtrnDebt =
        (r.lockupInfos.map LockUpInfoResponse.claimableGeneratorAstroDebt).sum := by
  unfold queryUserInfo at h
  simp only [bind_eq_ok, Except.ok.injEq] at h
  obtain ⟨⟨total, lockupInfos, claimable⟩, hloop, rfl⟩ := h
  obtain ⟨hall, htotal, hclaimable⟩ := addReports_ok (fun c (_ : Unit) => c)
    (fun r _ => r.claimableGeneratorAstroDebt)
    (fun _ _ _ _ _ hadd _ => (Uint.checkedAdd_eq_ok.mp hadd).2) (fun _ => rfl) hloop
  exact ⟨hall, rfl, htotal, hclaimable ()⟩

/-! ### The one-time reward -/

/-- The one-time reward of a lockup: the stored one, or the one that is expected. -/
def ntrnRewardsOf (q : Querier) (s : Storage) (key : LockupKey) : Except StdError Nat := do
  let pool ← s.assetPools.load key.poolType
  let lockup ← compatibleLoad q s key
  queryNtrnRewards s key pool lockup

/-- It is what the report about the lockup says. -/
theorem queryLockupInfo_ntrnRewards {key : LockupKey} {r : LockUpInfoResponse}
    (h : queryLockupInfo q s key = .ok r) : ntrnRewardsOf q s key = .ok r.ntrnRewards := by
  unfold queryLockupInfo at h
  simp only [bind_eq_ok, Except.ok.injEq] at h
  obtain ⟨pool, hpool, lockup, hlockup, _, -, ntrnRewards, hrewards, rfl⟩ := h
  unfold ntrnRewardsOf
  simp only [bind_eq_ok]
  exact ⟨pool, hpool, lockup, hlockup, hrewards⟩

/-- A lockup is stored with its one-time reward: the reward of no lockup is another one. -/
theorem ntrnRewardsOf_save {key : LockupKey} {pool : PoolInfo} {lockup : LockupInfoV2}
    {reward : Nat} (hpool : s.assetPools.load key.poolType = .ok pool)
    (hlockup : compatibleLoad q s key = .ok lockup) (hzero : lockup.ntrnRewards = 0)
    (hreward : lockupIncentives s key lockup.lpUnitsLocked pool = .ok reward) (k : LockupKey) :
    ntrnRewardsOf q { s with
      lockupInfo := s.lockupInfo.save key (.v2 { lockup with ntrnRewards := reward }) } k =
        ntrnRewardsOf q s k := by
  by_cases hk : k = key
  · subst hk
    -- the reward is read from the lockup now, unless it is zero and computed again
    have hload : compatibleLoad q { s with
        lockupInfo := s.lockupInfo.save k (.v2 { lockup with ntrnRewards := reward }) } k =
          .ok { lockup with ntrnRewards := reward } := by
      unfold compatibleLoad
      rw [Map.load_eq_ok.mpr (Map.mayLoad_save _ _ _)]
      rfl
    have hnow : ntrnRewardsOf q s k = .ok reward := by
      unfold ntrnRewardsOf
      simp only [bind_eq_ok]
      refine ⟨pool, hpool, lockup, hlockup, ?_⟩
      unfold queryNtrnRewards
      rw [if_pos hzero, hreward]
    rw [hnow]
    unfold ntrnRewardsOf
    simp only [bind_eq_ok]
    refine ⟨pool, hpool, _, hload, ?_⟩
    unfold queryNtrnRewards
    split_ifs with hnone
    · exact hreward
    · rfl
  · have hother : (s.lockupInfo.save key (.v2 { lockup with ntrnRewards := reward })).load k =
        s.lockupInfo.load k := by
      unfold Map.load
      rw [Map.mayLoad_save_ne hk]
    unfold ntrnRewardsOf compatibleLoad
    dsimp only
    rw [hother]
    rfl

/-- The loop of a claim computes the reward that is reported, and changes no other. -/
theorem updateLockupReward_ntrnRewardsOf {key : LockupKey} {reward : Nat}
    (h : updateLockupReward q s key = .ok (reward, s')) :
    ntrnRewardsOf q s key = .ok reward ∧ ∀ k, ntrnRewardsOf q s' k = ntrnRewardsOf q s k := by
  unfold updateLockupReward at h
  simp only [bind_eq_ok] at h
  obtain ⟨pool, hpool, lockup, hlockup, h⟩ := h
  unfold ntrnRewardsOf
  simp only [bind_eq_ok]
  split_ifs at h with hzero
  · simp only [bind_eq_ok, Except.ok.injEq, Prod.mk.injEq] at h
    obtain ⟨_, hreward, rfl, rfl⟩ := h
    refine ⟨⟨pool, hpool, lockup, hlockup, ?_⟩, ntrnRewardsOf_save hpool hlockup hzero hreward⟩
    unfold queryNtrnRewards
    rw [if_pos hzero, hreward]
  · simp only [Except.ok.injEq, Prod.mk.injEq] at h
    obtain ⟨rfl, rfl⟩ := h
    refine ⟨⟨pool, hpool, lockup, hlockup, ?_⟩, fun _ => rfl⟩
    unfold queryNtrnRewards
    rw [if_neg hzero]

/-- A claim in the state of the reports computes their total. -/
theorem ReportsOf.total {user : Addr} {reports : List LockUpInfoResponse} {total : Nat}
    (h : ReportsOf q s user reports)
    (hupdate : updateUserLockupPositionsAndCalcRewards q s user = .ok (total, s')) :
    total = (reports.map LockUpInfoResponse.ntrnRewards).sum := by
  unfold updateUserLockupPositionsAndCalcRewards at hupdate
  have htotal : total = ((userLockupKeys s user).map fun key =>
      (ntrnRewardsOf q s key).toOption.getD 0).sum := by
    -- the rewards that are stored on the way change none of the others
    refine addAmounts_total (P := fun t => ∀ k, ntrnRewardsOf q t k = ntrnRewardsOf q s k) ?_
      (fun _ => rfl) hupdate
    intro t key reward t' _ ht hreward
    obtain ⟨hrewards, hsame⟩ := updateLockupReward_ntrnRewardsOf hreward
    refine ⟨?_, fun k => (hsame k).trans (ht k)⟩
    rw [← ht key, hrewards]
    rfl
  rw [htotal]
  refine h.sum_eq fun key r hr => ?_
  rw [queryLockupInfo_ntrnRewards hr]
  rfl

end NeutronTge.Lockdrop
