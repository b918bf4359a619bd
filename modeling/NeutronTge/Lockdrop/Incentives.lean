import Mathlib.Tactic.Ring
import NeutronTge.Lockdrop.Ledger

/-!
# NeutronTge.Lockdrop.Incentives

The one-time incentives are divided in two steps: every pool gets its share of them, and
every lockup gets its part of the pool's share by its weight. The pool keeps the sum of the
weights as a running total that is rounded at every change, while a reward uses the weight
of the whole position, rounded once. The division stays within the incentives as long as
the running total is not smaller than the sum of the weights (`Weighted`). A withdrawal
keeps it so; an increase of an existing position keeps it so when the weights of its parts
add up to the weight of the whole. `split_deposit_overallocates` has one that does not.
-/

namespace NeutronTge.Lockdrop

open CosmWasm Astroport

/-! ### Weights -/

/-- The weight of a position when `calculate_weight` finds its duration. -/
def Config.weight (config : Config) (units duration : Nat) : Nat :=
  match config.lockupRewardsInfo.find? fun i => i.duration = duration with
  | some info =>
      units * (FixedPoint.fractional + info.coefficient.atomics) / FixedPoint.fractional
  | none => 0

theorem calculateWeight_ok {units duration weight : Nat} {config : Config}
    (h : calculateWeight units duration config = .ok weight) :
    weight = config.weight units duration := by
  unfold calculateWeight at h
  simp only [bind_eq_ok, okOr_eq_ok, FixedPoint.add_eq_ok, FixedPoint.checkedMulUint_eq_ok] at h
  obtain ⟨info, hinfo, _, ⟨-, rfl⟩, -, rfl⟩ := h
  simp only [Config.weight, hinfo, FixedPoint.one]

theorem Config.SameTerms.weight {c c' : Config} (h : c.SameTerms c') (units duration : Nat) :
    c'.weight units duration = c.weight units duration := by
  unfold Config.weight
  rw [h.lockupRewardsInfo]

@[simp] theorem Config.weight_zero (config : Config) (duration : Nat) :
    config.weight 0 duration = 0 := by
  unfold Config.weight
  split <;> simp

/-- Taking units away takes at least their own weight away. -/
theorem Config.weight_sub_le (config : Config) {units amount : Nat} (duration : Nat)
    (h : amount ≤ units) :
    config.weight (units - amount) duration ≤
      config.weight units duration - config.weight amount duration := by
  unfold Config.weight
  split
  · rw [Nat.sub_mul]
    exact floor_sub_le (Nat.mul_le_mul_right _ h)
  · exact Nat.zero_le _

/-! ### The books of the incentives -/

namespace Storage

/-- The weights of the lockups of a pool. -/
def weightSum (s : Storage) (p : PoolType) : Nat :=
  s.lockupInfo.sum fun k st =>
    if k.poolType = p then s.config.weight st.core.lpUnitsLocked k.duration else 0

/-- `weighted_amount` of a pool. -/
def weightedIn (s : Storage) (p : PoolType) : Nat :=
  (s.assetPools.mayLoad p).elim 0 PoolInfo.weightedAmount

/-- `incentives_share` of a pool. -/
def shareOf (s : Storage) (p : PoolType) : Nat :=
  (s.assetPools.mayLoad p).elim 0 PoolInfo.incentivesShare

/-- The reward that `update_user_lockup_positions_and_calc_rewards` computes for a lockup. -/
def rewardOf (q : Querier) (s : Storage) (key : LockupKey) : Nat :=
  (updateLockupReward q s key).toOption.elim 0 Prod.fst

end Storage

/-- Every lockup is part of its pool's weight, no pool has more than its part of the total
share, and no reward was computed yet. -/
structure Weighted (s : Storage) : Prop where
  weights : ∀ p, s.weightSum p ≤ s.weightedIn p
  shares : s.shareOf .atom + s.shareOf .usdc ≤ s.state.totalIncentivesShare
  unrewarded : ∀ k st, s.lockupInfo.mayLoad k = some st → st.ntrnRewards = 0

/-! ### The rewards of a weighted state -/

section Rewards

variable {q : Querier} {s : Storage}

/-- A reward is the lockup's part, by weight, of the pool's part, by share. -/
theorem lockupIncentives_mul_le {key : LockupKey} {units reward : Nat} {pool : PoolInfo}
    (h : lockupIncentives s key units pool = .ok reward) :
    reward * (s.state.totalIncentivesShare * pool.weightedAmount) ≤
        pool.incentivesShare * s.config.weight units key.duration * s.config.lockdropIncentives ∧
      (s.state.totalIncentivesShare = 0 ∨ pool.weightedAmount = 0 → reward = 0) := by
  unfold lockupIncentives calculateAstroIncentivesForLockup at h
  rw [bind_eq_ok] at h
  obtain ⟨weight, hweight, h⟩ := h
  obtain rfl := calculateWeight_ok hweight
  split_ifs at h with hzero
  · obtain rfl := Except.ok.inj h
    simp
  · simp only [bind_eq_ok, Uint.checkedMul_eq_ok, FixedPoint.checkedMulUint_eq_ok] at h
    obtain ⟨_, ⟨-, rfl⟩, _, ⟨-, rfl⟩, ratio, hratio, -, rfl⟩ := h
    obtain ⟨-, -, hatomics⟩ := FixedPoint.fromRatio_eq_ok.mp hratio
    refine ⟨?_, fun hz => absurd hz hzero⟩
    refine Nat.le_of_mul_le_mul_right ?_ FixedPoint.fractional_pos
    -- undo the two divisions, the outer one first
    generalize hT : s.state.totalIncentivesShare * pool.weightedAmount = den at hatomics ⊢
    generalize pool.incentivesShare * s.config.weight units key.duration = num at hatomics ⊢
    have houter : s.config.lockdropIncentives * ratio.atomics / FixedPoint.fractional *
        FixedPoint.fractional ≤ s.config.lockdropIncentives * ratio.atomics :=
      Nat.div_mul_le_self _ _
    have hinner : ratio.atomics * den ≤ num * FixedPoint.fractional := by
      rw [hatomics]
      exact Nat.div_mul_le_self _ _
    calc s.config.lockdropIncentives * ratio.atomics / FixedPoint.fractional * den *
          FixedPoint.fractional
        = s.config.lockdropIncentives * ratio.atomics / FixedPoint.fractional *
          FixedPoint.fractional * den := by ring
      _ ≤ s.config.lockdropIncentives * ratio.atomics * den := Nat.mul_le_mul_right _ houter
      _ = s.config.lockdropIncentives * (ratio.atomics * den) := by ring
      _ ≤ s.config.lockdropIncentives * (num * FixedPoint.fractional) :=
          Nat.mul_le_mul_left _ hinner
      _ = num * s.config.lockdropIncentives * FixedPoint.fractional := by ring

/-- The reward of a lockup that has none stored. -/
theorem rewardOf_mul_le (h : Weighted s) {key : LockupKey} {st : StoredLockup}
    (hst : s.lockupInfo.mayLoad key = some st) :
    s.rewardOf q key * (s.state.totalIncentivesShare * s.weightedIn key.poolType) ≤
        s.shareOf key.poolType * s.config.weight st.core.lpUnitsLocked key.duration *
          s.config.lockdropIncentives ∧
      (s.state.totalIncentivesShare = 0 ∨ s.weightedIn key.poolType = 0 →
        s.rewardOf q key = 0) := by
  unfold Storage.rewardOf
  cases hupdate : updateLockupReward q s key with
  | error e => simp [Except.toOption]
  | ok res =>
      obtain ⟨reward, s'⟩ := res
      change reward * _ ≤ _ ∧ (_ → reward = 0)
      cases updateLockupReward_ok hupdate with
      | stored st' hst' hne => exact absurd (h.unrewarded key st' hst') hne
      | computed st' pool info _ hst' _ hpool hreward =>
          obtain rfl := Option.some.inj (hst.symm.trans hst')
          rw [Storage.weightedIn, Storage.shareOf, hpool, Option.elim_some, Option.elim_some]
          exact lockupIncentives_mul_le hreward

/-- The rewards of one pool stay within its part of the incentives. -/
theorem sum_rewardOf_pool (h : Weighted s) (p : PoolType) :
    s.lockupInfo.sum (fun k _ => if k.poolType = p then s.rewardOf q k else 0) *
        s.state.totalIncentivesShare ≤ s.shareOf p * s.config.lockdropIncentives := by
  rcases Nat.eq_zero_or_pos (s.weightedIn p) with hzero | hpos
  · have hnone : s.lockupInfo.sum (fun k _ => if k.poolType = p then s.rewardOf q k else 0) =
        s.lockupInfo.sum fun _ _ => 0 := by
      refine Map.sum_congr fun k st hst => ?_
      split_ifs with hp
      · subst hp
        exact (rewardOf_mul_le h hst).2 (Or.inr hzero)
      · rfl
    rw [hnone, Map.sum_zero, Nat.zero_mul]
    exact Nat.zero_le _
  · refine Nat.le_of_mul_le_mul_right ?_ hpos
    calc s.lockupInfo.sum (fun k _ => if k.poolType = p then s.rewardOf q k else 0) *
          s.state.totalIncentivesShare * s.weightedIn p
        = s.lockupInfo.sum fun k _ => (if k.poolType = p then s.rewardOf q k else 0) *
            (s.state.totalIncentivesShare * s.weightedIn p) := by
          rw [Map.sum_mul_right, Nat.mul_assoc]
      _ ≤ s.lockupInfo.sum fun k st =>
            (if k.poolType = p then s.config.weight st.core.lpUnitsLocked k.duration else 0) *
              (s.shareOf p * s.config.lockdropIncentives) := by
          refine Map.sum_le_sum fun k st hst => ?_
          split_ifs with hp
          · subst hp
            refine (rewardOf_mul_le h hst).1.trans (le_of_eq ?_)
            ring
          · simp
      _ = s.weightSum p * (s.shareOf p * s.config.lockdropIncentives) := by
          rw [Map.sum_mul_right]
          rfl
      _ ≤ s.weightedIn p * (s.shareOf p * s.config.lockdropIncentives) :=
          Nat.mul_le_mul_right _ (h.weights p)
      _ = s.shareOf p * s.config.lockdropIncentives * s.weightedIn p := Nat.mul_comm _ _

/-- The rewards of all lockups stay within the incentives. -/
theorem Weighted.sum_rewardOf_le (h : Weighted s) :
    s.lockupInfo.sum (fun k _ => s.rewardOf q k) ≤ s.config.lockdropIncentives := by
  have hsplit : s.lockupInfo.sum (fun k _ => s.rewardOf q k) =
      s.lockupInfo.sum (fun k _ => if k.poolType = .atom then s.rewardOf q k else 0) +
        s.lockupInfo.sum (fun k _ => if k.poolType = .usdc then s.rewardOf q k else 0) := by
    rw [← Map.sum_add]
    refine Map.sum_congr fun k st _ => ?_
    cases k.poolType <;> simp
  rcases Nat.eq_zero_or_pos s.state.totalIncentivesShare with hzero | hpos
  · have hnone : s.lockupInfo.sum (fun k _ => s.rewardOf q k) =
        s.lockupInfo.sum fun _ _ => 0 :=
      Map.sum_congr fun k st hst => (rewardOf_mul_le h hst).2 (Or.inl hzero)
    rw [hnone, Map.sum_zero]
    exact Nat.zero_le _
  · refine Nat.le_of_mul_le_mul_right ?_ hpos
    have hatom := sum_rewardOf_pool (q := q) h .atom
    have husdc := sum_rewardOf_pool (q := q) h .usdc
    rw [hsplit, Nat.add_mul]
    calc _ ≤ s.shareOf .atom * s.config.lockdropIncentives +
          s.shareOf .usdc * s.config.lockdropIncentives := Nat.add_le_add hatom husdc
      _ = (s.shareOf .atom + s.shareOf .usdc) * s.config.lockdropIncentives :=
          (Nat.add_mul ..).symm
      _ ≤ s.state.totalIncentivesShare * s.config.lockdropIncentives :=
          Nat.mul_le_mul_right _ h.shares
      _ = s.config.lockdropIncentives * s.state.totalIncentivesShare := Nat.mul_comm _ _

end Rewards

/-! ### Steps -/

section Steps

variable {env : Env} {info : MessageInfo} {s s' : Storage}

theorem weightedIn_save {p : PoolType} {pool : PoolInfo} {height : Nat}
    (h : s'.assetPools = s.assetPools.save p pool height) (p' : PoolType) :
    s'.weightedIn p' = if p' = p then pool.weightedAmount else s.weightedIn p' := by
  unfold Storage.weightedIn
  rw [h]
  split_ifs with hp
  · rw [hp, SnapshotMap.mayLoad_save, Option.elim_some]
  · rw [SnapshotMap.mayLoad_save_ne hp]

theorem shareOf_save {p : PoolType} {pool : PoolInfo} {height : Nat}
    (h : s'.assetPools = s.assetPools.save p pool height) (p' : PoolType) :
    s'.shareOf p' = if p' = p then pool.incentivesShare else s.shareOf p' := by
  unfold Storage.shareOf
  rw [h]
  split_ifs with hp
  · rw [hp, SnapshotMap.mayLoad_save, Option.elim_some]
  · rw [SnapshotMap.mayLoad_save_ne hp]

/-- A write to a pool that keeps its share. -/
theorem shareOf_save_same {p : PoolType} {pool pool' : PoolInfo} {height : Nat}
    (hpool : s.assetPools.mayLoad p = some pool)
    (h : s'.assetPools = s.assetPools.save p pool' height)
    (hshare : pool'.incentivesShare = pool.incentivesShare) (p' : PoolType) :
    s'.shareOf p' = s.shareOf p' := by
  rw [shareOf_save h, hshare]
  split_ifs with hp
  · rw [hp, Storage.shareOf, hpool, Option.elim_some]
  · rfl

/-- The parts of the grown position weigh as much as the whole. -/
def AddsUp (s : Storage) (key : LockupKey) (amount : Nat) : Prop :=
  ∀ st, s.lockupInfo.mayLoad key = some st →
    s.config.weight (st.core.lpUnitsLocked + amount) key.duration =
      s.config.weight st.core.lpUnitsLocked key.duration + s.config.weight amount key.duration

theorem unrewarded_save {key : LockupKey} {lockup : LockupInfoV2}
    (h : s'.lockupInfo = s.lockupInfo.save key (.v2 lockup)) (hrewards : lockup.ntrnRewards = 0)
    (hs : ∀ k st, s.lockupInfo.mayLoad k = some st → st.ntrnRewards = 0) :
    ∀ k st, s'.lockupInfo.mayLoad k = some st → st.ntrnRewards = 0 := by
  intro k st hst
  rw [h, Map.mayLoad_save_eq] at hst
  split_ifs at hst
  · obtain rfl := Option.some.inj hst
    exact hrewards
  · exact hs k st hst

theorem Increases.weightSum {key : LockupKey} {amount : Nat} {pool : PoolInfo} {weight : Nat}
    {lockup : LockupInfoV2} {userInfo : UserInfo}
    (h : Increases s s' env info key amount pool weight lockup userInfo)
    (hadds : AddsUp s key amount) (p : PoolType) :
    s'.weightSum p = s.weightSum p +
      if key.poolType = p then s.config.weight amount key.duration else 0 := by
  unfold Storage.weightSum
  rw [h.lockupInfo, h.config]
  have hposition := h.position
  cases hposition with
  | grown st _ hst hcore =>
      have hsum := Map.sum_save_old hst (.v2 lockup) fun k st =>
        if k.poolType = p then s.config.weight st.core.lpUnitsLocked k.duration else 0
      have hadds := hadds st hst
      simp only [StoredLockup.core_v2, hcore] at hsum
      split_ifs at hsum ⊢ <;> omega
  | opened _ hnone hcore =>
      rw [Map.sum_save_new hnone, StoredLockup.core_v2, hcore, Nat.add_comm]

theorem Increases.weighted {key : LockupKey} {amount : Nat} {pool : PoolInfo} {weight : Nat}
    {lockup : LockupInfoV2} {userInfo : UserInfo}
    (h : Increases s s' env info key amount pool weight lockup userInfo)
    (hadds : AddsUp s key amount) (hs : Weighted s) : Weighted s' where
  weights p := by
    have hp := hs.weights p
    rw [h.weightSum hadds, weightedIn_save h.assetPools, calculateWeight_ok h.weight_eq]
    by_cases hpool : key.poolType = p
    · subst hpool
      rw [Storage.weightedIn, h.pool_eq, Option.elim_some] at hp
      simp only [if_true]
      omega
    · rw [if_neg hpool, if_neg (Ne.symm hpool)]
      exact hp
  shares := by
    rw [shareOf_save_same h.pool_eq h.assetPools rfl, shareOf_save_same h.pool_eq h.assetPools rfl,
      h.state]
    exact hs.shares
  unrewarded := by
    refine unrewarded_save h.lockupInfo ?_ hs.unrewarded
    have hposition := h.position
    cases hposition with
    | grown st _ hst _ hrewards => exact hrewards.trans (hs.unrewarded key st hst)
    | opened _ _ _ hrewards => exact hrewards

theorem Withdraws.weightSum_le {key : LockupKey} {amount : Nat} {pool : PoolInfo} {weight : Nat}
    {st : StoredLockup} {lockup : LockupInfoV2}
    (h : Withdraws s s' env info key amount pool weight st lockup) (p : PoolType) :
    s'.weightSum p + (if key.poolType = p then s.config.weight amount key.duration else 0) ≤
      s.weightSum p := by
  have hunits : lockup.core.lpUnitsLocked = st.core.lpUnitsLocked - amount :=
    congrArg LockupCore.lpUnitsLocked h.remaining
  have hsub := s.config.weight_sub_le key.duration h.units_le
  have hmono : s.config.weight amount key.duration ≤
      s.config.weight st.core.lpUnitsLocked key.duration := by
    have hle := h.units_le
    unfold Config.weight
    split
    · exact Nat.div_le_div_right (Nat.mul_le_mul_right _ hle)
    · exact Nat.le_refl _
  have hposition := h.position
  unfold Storage.weightSum
  rw [h.config]
  generalize s'.userInfo = users at hposition
  generalize s'.lockupInfo = lockups at hposition
  cases hposition with
  | deleted hzero =>
      have hsum := Map.sum_remove h.lockup_eq fun k st =>
        if k.poolType = p then s.config.weight st.core.lpUnitsLocked k.duration else 0
      split_ifs at hsum ⊢ <;> omega
  | kept =>
      have hsum := Map.sum_save_old h.lockup_eq (.v2 lockup) fun k st =>
        if k.poolType = p then s.config.weight st.core.lpUnitsLocked k.duration else 0
      simp only [StoredLockup.core_v2, hunits] at hsum
      split_ifs at hsum ⊢ <;> omega

theorem Withdraws.weighted {key : LockupKey} {amount : Nat} {pool : PoolInfo} {weight : Nat}
    {st : StoredLockup} {lockup : LockupInfoV2}
    (h : Withdraws s s' env info key amount pool weight st lockup) (hs : Weighted s) :
    Weighted s' where
  weights p := by
    have hp := hs.weights p
    have hsum := h.weightSum_le p
    have hweight := h.weight_le
    rw [weightedIn_save h.assetPools]
    rw [calculateWeight_ok h.weight_eq] at hweight ⊢
    by_cases hpool : key.poolType = p
    · subst hpool
      rw [Storage.weightedIn, h.pool_eq, Option.elim_some] at hp
      simp only [if_true] at hsum ⊢
      omega
    · rw [if_neg hpool] at hsum
      rw [if_neg (Ne.symm hpool)]
      omega
  shares := by
    rw [shareOf_save_same h.pool_eq h.assetPools rfl, shareOf_save_same h.pool_eq h.assetPools rfl,
      h.state]
    exact hs.shares
  unrewarded := by
    have hposition := h.position
    generalize s'.userInfo = users at hposition
    generalize hlockups : s'.lockupInfo = lockups at hposition
    cases hposition with
    | deleted =>
        intro k st' hst'
        rw [Map.mayLoad_remove_eq] at hst'
        split_ifs at hst'
        exact hs.unrewarded k st' hst'
    | kept =>
        rw [← hlockups]
        exact unrewarded_save hlockups (h.rewards.trans (hs.unrewarded key st h.lockup_eq))
          hs.unrewarded

theorem Initializes.weighted {p : PoolType} {incentivesShare amount : Nat} {pool : PoolInfo}
    {msgs : List CosmosMsg} (h : Initializes s s' env p incentivesShare amount pool msgs)
    (hs : Weighted s) : Weighted s' where
  weights p' := by
    have hp := hs.weights p'
    obtain rfl := h.storage
    rw [weightedIn_save rfl]
    split_ifs with heq
    · subst heq
      rwa [Storage.weightedIn, h.pool_eq, Option.elim_some] at hp
    · exact hp
  shares := by
    have hshares := hs.shares
    have hpools : s'.assetPools = s.assetPools.save p
        { pool with incentivesShare := incentivesShare, isStaked := true } env.height := by
      rw [h.storage]
    have hstate : s'.state.totalIncentivesShare =
        s.state.totalIncentivesShare + incentivesShare := by rw [h.storage]
    rw [shareOf_save hpools, shareOf_save hpools, hstate]
    dsimp only
    cases p
    · rw [if_neg (by decide), if_pos rfl]
      omega
    · rw [if_pos rfl, if_neg (by decide)]
      omega
  unrewarded := by
    obtain rfl := h.storage
    exact hs.unrewarded

theorem Reconfigures.weighted (h : Reconfigures s s') (hs : Weighted s) : Weighted s' where
  weights p := by
    have hp := hs.weights p
    unfold Storage.weightSum Storage.weightedIn at hp ⊢
    simp only [h.lockupInfo, h.assetPools, h.terms.weight]
    exact hp
  shares := by
    have hshares := hs.shares
    unfold Storage.shareOf at hshares ⊢
    rw [h.assetPools, h.state]
    exact hshares
  unrewarded := by
    rw [h.lockupInfo]
    exact hs.unrewarded

/-- Without lockups the pools can start from scratch. -/
theorem weighted_of_empty (hlockups : s.lockupInfo = ∅)
    (hshares : ∀ p, s.shareOf p = 0) : Weighted s where
  weights p := by
    unfold Storage.weightSum
    rw [hlockups, Map.sum_empty]
    exact Nat.zero_le _
  shares := by
    rw [hshares, hshares]
    exact Nat.zero_le _
  unrewarded k st hst := by
    rw [hlockups, Map.mayLoad_empty] at hst
    cases hst

end Steps

/-! ### Runs -/

variable {E : Type} {x : Externals E}

/-- A transaction of the lockdrop phase: nobody claims yet, the token info is only set
while nothing is locked, and an increase of an existing position adds up. -/
def Additive (w : World E) : Action E → Prop
  | .execute _ (.increaseLockupFor user poolType amount duration) =>
      AddsUp w.storage ⟨poolType, user, duration⟩ amount
  | .execute _ (.withdrawFromLockup _ _ _ _) => True
  | .execute _ (.receive _) => True
  | .execute _ (.setTokenInfo _ _ _) => w.storage.lockupInfo = ∅
  | .execute _ msg => msg.reconfigures = true
  | _ => True

theorem shareOf_setTokenInfo {s s' : Storage} {atomToken usdcToken : Addr} {height : Nat}
    (h : s'.assetPools = (s.assetPools.save .atom (.initial atomToken) height).save .usdc
      (.initial usdcToken) height) (p : PoolType) : s'.shareOf p = 0 := by
  unfold Storage.shareOf
  rw [h]
  cases p with
  | usdc =>
      rw [SnapshotMap.mayLoad_save]
      rfl
  | atom =>
      rw [SnapshotMap.mayLoad_save_ne (by decide), SnapshotMap.mayLoad_save]
      rfl

theorem Weighted.execute {w w' : World E} {info : MessageInfo} {msg : ExecuteMsg}
    (h : Weighted w.storage) (hadditive : Additive w (.execute info msg))
    (hexec : w.execute x info msg = .ok w') : Weighted w'.storage := by
  obtain ⟨r, hr, hrun, hsender⟩ := execute_ok hexec
  obtain ⟨-, heffect⟩ := execute_effect hsender hr
  have hmessages : External r.messages → Weighted r.storage → Weighted w'.storage := by
    intro hext hweighted
    obtain ⟨ext, -, rfl⟩ := externals_ok hext hrun
    exact hweighted
  cases heffect with
  | increase key amount pool weight lockup userInfo hmsgs hinc =>
      exact hmessages (.of_nil hmsgs) (hinc.weighted hadditive h)
  | withdraw key amount pool weight st lockup hmsgs hwith =>
      exact hmessages (.of_nil hmsgs) (hwith.weighted h)
  | initPool poolType incentivesShare sender amount pool hauction hinit =>
      exact hmessages hinit.external (hinit.weighted h)
  | setTokenInfo atomToken usdcToken generator hmsgs hstorage =>
      refine hmessages (.of_nil hmsgs) (weighted_of_empty ?_ fun p => ?_)
      · rw [hstorage]
        exact hadditive
      · have hpools : r.storage.assetPools =
            (w.storage.assetPools.save .atom (.initial atomToken) w.env.height).save .usdc
              (.initial usdcToken) w.env.height := by rw [hstorage]
        exact shareOf_setTokenInfo hpools p
  | reconfigure msg hmsg hmsgs hsame =>
      exact hmessages (.of_nil hmsgs) (hsame.weighted h)
  | claim => cases hadditive
  | migrate => cases hadditive

theorem Weighted.exec {w w' : World E} {a : Action E} (h : Weighted w.storage)
    (hadditive : Additive w a) (hexec : World.exec x w a = .ok w') : Weighted w'.storage := by
  cases a with
  | advance seconds blocks =>
      obtain rfl := Except.ok.inj hexec
      exact h
  | drift ext =>
      obtain rfl := Except.ok.inj hexec
      exact h
  | migrate pclLockdropContract =>
      obtain rfl := Except.ok.inj hexec
      have hsame : Reconfigures w.storage (Lockdrop.migrate w.storage pclLockdropContract) :=
        ⟨.refl _, rfl, rfl, rfl, rfl, rfl⟩
      exact hsame.weighted h
  | execute info msg => exact h.execute hadditive hexec

theorem Weighted.init {env : Env} {info : MessageInfo} {msg : InstantiateMsg} {s : Storage}
    (h : instantiate env info msg = .ok s) : Weighted s := by
  obtain rfl := instantiate_ok h
  exact weighted_of_empty rfl fun p => rfl

/-- The rewards of all lockups stay within the incentives, in every state of a run in
which every increase of an existing position adds up. -/
theorem rewards_within_incentives {env : Env} {info : MessageInfo} {msg : InstantiateMsg}
    {w : World E} {as : List (Action E)} (q : Querier)
    (hinit : instantiate env info msg = .ok w.storage)
    (h : Along (World.exec x) Additive w as) :
    (run (World.exec x) w as).storage.lockupInfo.sum
        (fun k _ => (run (World.exec x) w as).storage.rewardOf q k) ≤
      (run (World.exec x) w as).storage.config.lockdropIncentives :=
  (run_invariant_along (fun v : World E => Weighted v.storage)
    (fun _ _ _ hv ha hok => Weighted.exec hv ha hok) (Weighted.init hinit) h).sum_rewardOf_le

/-! ### A division that adds up and one that does not -/

/-- A lockdrop in which a lockup of duration 1 weighs one and a half times its units. -/
def halfWeightMsg : InstantiateMsg :=
  { sampleInstantiateMsg with lockupRewardsInfo := [⟨1, ⟨FixedPoint.fractional / 2⟩⟩] }

/-- The lockdrop with these weights, right after `instantiate`. -/
def halfWeightStart : World SampleExt where
  storage := halfWeightMsg.storage ⟨"owner", []⟩
  ext := ⟨∅, ∅, 0⟩
  env := ⟨0, 1, "lockdrop"⟩
  trace := []

/-- The lockdrop with the given deposits and 100 NTRN of incentives, after the windows
closed and both pools got the same share. -/
def halfWeightRun (deposits : List (Action SampleExt)) : List (Action SampleExt) :=
  [.execute ⟨"owner", []⟩ (.setTokenInfo "atom_lp" "usdc_lp" "generator"),
    .execute ⟨"owner", [⟨untrnDenom, 100⟩]⟩ .increaseNTRNIncentives,
    .advance 150 10] ++ deposits ++
  [.advance 100 10,
    .execute ⟨"atom_lp", []⟩ (.receive ⟨"auction", 2, some (.initializePool .atom 1)⟩),
    .execute ⟨"usdc_lp", []⟩ (.receive ⟨"auction", 2, some (.initializePool .usdc 1)⟩)]

/-- The total of the rewards at the end of a run. -/
def World.rewards (w : World SampleExt) : Nat :=
  w.storage.lockupInfo.sum fun k _ => w.storage.rewardOf (sampleExternals.querier w.ext) k

/-- Bob's position grows by an even amount, which adds up. -/
theorem rewards_within_incentives_sample :
    (run (World.exec sampleExternals) halfWeightStart (halfWeightRun
      [.execute ⟨"auction", []⟩ (.increaseLockupFor "alice" .atom 2 1),
        .execute ⟨"auction", []⟩ (.increaseLockupFor "bob" .usdc 1 1),
        .execute ⟨"auction", []⟩ (.increaseLockupFor "bob" .usdc 2 1)])).rewards ≤
      (run (World.exec sampleExternals) halfWeightStart (halfWeightRun
        [.execute ⟨"auction", []⟩ (.increaseLockupFor "alice" .atom 2 1),
          .execute ⟨"auction", []⟩ (.increaseLockupFor "bob" .usdc 1 1),
          .execute ⟨"auction", []⟩
            (.increaseLockupFor "bob" .usdc 2 1)])).storage.config.lockdropIncentives :=
  rewards_within_incentives _ (show instantiate ⟨0, 1, "lockdrop"⟩ ⟨"owner", []⟩
    halfWeightMsg = .ok halfWeightStart.storage from rfl) (by
      have hnew : ∀ {s : Storage} {key : LockupKey} {amount : Nat},
          s.lockupInfo.mayLoad key = none → AddsUp s key amount := by
        intro s key amount hnone st hst
        rw [hnone] at hst
        cases hst
      refine ⟨rfl, rfl, trivial, hnew (by decide), hnew (by decide), ?_, trivial, trivial,
        trivial, trivial⟩
      intro st hst
      obtain rfl : _ = st := Option.some.inj hst
      decide)

/-- Alice locks two units at once and Bob locks one unit twice. The pool of Bob counts each
of his units with weight one, his reward counts both with weight three. -/
theorem split_deposit_overallocates :
    instantiate ⟨0, 1, "lockdrop"⟩ ⟨"owner", []⟩ halfWeightMsg = .ok halfWeightStart.storage ∧
      ∃ w, run (World.exec sampleExternals) halfWeightStart (halfWeightRun
          [.execute ⟨"auction", []⟩ (.increaseLockupFor "alice" .atom 2 1),
            .execute ⟨"auction", []⟩ (.increaseLockupFor "bob" .usdc 1 1),
            .execute ⟨"auction", []⟩ (.increaseLockupFor "bob" .usdc 1 1)]) = w ∧
        w.storage.config.closing ≤ w.env.time ∧ w.rewards = 125 ∧
        w.storage.config.lockdropIncentives = 100 := by
  refine ⟨rfl, _, rfl, ?_⟩
  decide

end NeutronTge.Lockdrop
