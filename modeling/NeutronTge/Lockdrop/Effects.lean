import NeutronTge.Lockdrop.Chain

/-!
# NeutronTge.Lockdrop.Effects

What each function of the lockdrop does when it succeeds: one lemma for every function,
which says everything the later modules need. They cite these lemmas and never unfold a
handler.
-/

namespace NeutronTge.Lockdrop

open CosmWasm Astroport Shares

variable {q : Querier} {s s' : Storage}

/-! ### Windows -/

theorem lockWindowEnd_ok {config : Config} {t : Nat} (h : lockWindowEnd config = .ok t) :
    t = config.initTimestamp + config.lockWindow :=
  (Uint.add_eq_ok.mp h).2

theorem windowsEnd_ok {config : Config} {t : Nat} (h : windowsEnd config = .ok t) :
    t = config.initTimestamp + config.lockWindow + config.withdrawalWindow := by
  simp only [windowsEnd, bind_eq_ok, Uint.add_eq_ok] at h
  obtain ⟨lockEnd, hlock, -, rfl⟩ := h
  rw [lockWindowEnd_ok hlock]

/-- The time at which both windows are over. -/
def Config.closing (config : Config) : Nat :=
  config.initTimestamp + config.lockWindow + config.withdrawalWindow

/-- The terms of the lockdrop, which no message changes. -/
structure Config.SameTerms (c c' : Config) : Prop where
  initTimestamp : c'.initTimestamp = c.initTimestamp
  lockWindow : c'.lockWindow = c.lockWindow
  withdrawalWindow : c'.withdrawalWindow = c.withdrawalWindow
  maxPositionsPerUser : c'.maxPositionsPerUser = c.maxPositionsPerUser
  lockupRewardsInfo : c'.lockupRewardsInfo = c.lockupRewardsInfo

theorem Config.SameTerms.refl (c : Config) : c.SameTerms c := ⟨rfl, rfl, rfl, rfl, rfl⟩

theorem Config.SameTerms.trans {a b c : Config} (h : a.SameTerms b) (h' : b.SameTerms c) :
    a.SameTerms c :=
  ⟨h'.initTimestamp.trans h.initTimestamp, h'.lockWindow.trans h.lockWindow,
    h'.withdrawalWindow.trans h.withdrawalWindow,
    h'.maxPositionsPerUser.trans h.maxPositionsPerUser,
    h'.lockupRewardsInfo.trans h.lockupRewardsInfo⟩

theorem Config.SameTerms.of_eq {c c' : Config} (h : c' = c) : c.SameTerms c' := by
  rw [h]
  exact .refl c

theorem Config.SameTerms.closing {c c' : Config} (h : c.SameTerms c') :
    c'.closing = c.closing := by
  simp only [Config.closing, h.initTimestamp, h.lockWindow, h.withdrawalWindow]

/-! ### Loading -/

/-- A loaded lockup says what the stored entry says. -/
theorem compatibleLoad_ok {key : LockupKey} {lockup : LockupInfoV2}
    (h : compatibleLoad q s key = .ok lockup) :
    ∃ st, s.lockupInfo.mayLoad key = some st ∧ st.core = lockup.core ∧
      st.ntrnRewards = lockup.ntrnRewards := by
  unfold compatibleLoad at h
  simp only [bind_eq_ok, Map.load_eq_ok] at h
  obtain ⟨st, hst, h⟩ := h
  refine ⟨st, hst, ?_⟩
  cases st with
  | v2 info =>
      obtain rfl := Except.ok.inj h
      exact ⟨rfl, rfl⟩
  | v1 old =>
      simp only [bind_eq_ok, Except.ok.injEq] at h
      obtain ⟨_, -, _, -, rfl⟩ := h
      exact ⟨rfl, rfl⟩

/-- A lockup of the present version is loaded as it is stored. -/
theorem compatibleLoad_v2 {key : LockupKey} {info lockup : LockupInfoV2}
    (hst : s.lockupInfo.mayLoad key = some (.v2 info))
    (h : compatibleLoad q s key = .ok lockup) : lockup = info := by
  unfold compatibleLoad at h
  simp only [bind_eq_ok, Map.load_eq_ok] at h
  obtain ⟨st, hst', h⟩ := h
  obtain rfl := Option.some.inj (hst.symm.trans hst')
  exact (Except.ok.inj h).symm

theorem compatibleMayLoad_ok {key : LockupKey} {found : Option LockupInfoV2}
    (h : compatibleMayLoad q s key = .ok found) :
    match found with
    | some lockup => compatibleLoad q s key = .ok lockup
    | none => s.lockupInfo.mayLoad key = none := by
  unfold compatibleMayLoad at h
  split at h
  · rw [map_eq_ok] at h
    obtain ⟨lockup, hload, rfl⟩ := h
    exact hload
  · rename_i hhas
    obtain rfl := Except.ok.inj h
    simpa [Map.has] using hhas

/-! ### Locking and withdrawing -/

/-- What `increasedTotal` and `decreasedTotal` do, with a missing entry read as zero. -/
theorem increasedTotal_ok {total : Option Nat} {amount new : Nat}
    (h : increasedTotal total amount = .ok new) : new = total.getD 0 + amount := by
  cases total with
  | none =>
      obtain rfl := Except.ok.inj h
      simp
  | some la =>
      obtain ⟨-, rfl⟩ := Uint.checkedAdd_eq_ok.mp h
      simp

theorem decreasedTotal_ok {total : Option Nat} {amount new : Nat}
    (h : decreasedTotal total amount = .ok new) : new = total.getD 0 - amount := by
  cases total with
  | none =>
      obtain rfl := Except.ok.inj h
      simp
  | some la =>
      obtain ⟨-, rfl⟩ := Uint.checkedSub_eq_ok.mp h
      simp

/-- The user record with the default for a missing entry. -/
def Storage.user (s : Storage) (addr : Addr) : UserInfo :=
  (s.userInfo.mayLoad addr).getD UserInfo.default

theorem user_congr (h : s'.userInfo = s.userInfo) (u : Addr) : s'.user u = s.user u := by
  unfold Storage.user
  rw [h]

theorem user_save {u : Addr} {userInfo : UserInfo}
    (h : s'.userInfo = s.userInfo.save u userInfo) (v : Addr) :
    s'.user v = if v = u then userInfo else s.user v := by
  unfold Storage.user
  rw [h, Map.mayLoad_save_eq]
  split_ifs <;> rfl

/-- How the position of an increase came about: an existing one grew, or the user got one
more position. -/
inductive Increased (s : Storage) (key : LockupKey) (amount : Nat) :
    LockupInfoV2 → UserInfo → Prop
  | grown (st : StoredLockup) (lockup : LockupInfoV2)
      (hst : s.lockupInfo.mayLoad key = some st)
      (hcore : lockup.core =
        { st.core with lpUnitsLocked := st.core.lpUnitsLocked + amount })
      (hrewards : lockup.ntrnRewards = st.ntrnRewards) :
      Increased s key amount lockup (s.user key.user)
  | opened (lockup : LockupInfoV2) (hnone : s.lockupInfo.mayLoad key = none)
      (hcore : lockup.core =
        ⟨amount, none, false, 0, s.config.closing + key.duration⟩)
      (hrewards : lockup.ntrnRewards = 0)
      (hroom : s.config.maxPositionsPerUser ≠ (s.user key.user).lockupPositionsIndex) :
      Increased s key amount lockup
        { s.user key.user with
          lockupPositionsIndex := (s.user key.user).lockupPositionsIndex + 1 }

theorem increasePosition_ok {key : LockupKey} {amount : Nat} {lockup : LockupInfoV2}
    {userInfo : UserInfo}
    (h : increasePosition q s key (s.user key.user) amount = .ok (lockup, userInfo)) :
    Increased s key amount lockup userInfo := by
  unfold increasePosition at h
  rw [bind_eq_ok] at h
  obtain ⟨found, hfound, h⟩ := h
  cases found with
  | some li =>
      obtain ⟨st, hst, hcore, hrewards⟩ := compatibleLoad_ok (compatibleMayLoad_ok hfound)
      simp only [bind_eq_ok, Uint.checkedAdd_eq_ok, Except.ok.injEq, Prod.mk.injEq] at h
      obtain ⟨_, ⟨-, rfl⟩, rfl, rfl⟩ := h
      refine Increased.grown st _ hst ?_ hrewards.symm
      rw [hcore]
      rfl
  | none =>
      have hnone : s.lockupInfo.mayLoad key = none := compatibleMayLoad_ok hfound
      simp only [bind_eq_ok, rejectIf_eq_ok, exists_const, Uint.add_eq_ok, Except.ok.injEq,
        Prod.mk.injEq] at h
      obtain ⟨hroom, _, ⟨-, rfl⟩, lockEnd, hlock, _, ⟨-, rfl⟩, _, ⟨-, rfl⟩, rfl, rfl⟩ := h
      refine Increased.opened _ hnone ?_ rfl hroom
      rw [lockWindowEnd_ok hlock]
      simp only [LockupInfoV2.core, Config.closing, LockupCore.mk.injEq, true_and]
      omega

/-- Everything a successful `IncreaseLockupFor` does. -/
structure Increases (s s' : Storage) (env : Env) (info : MessageInfo) (key : LockupKey)
    (amount : Nat) (pool : PoolInfo) (weight : Nat) (lockup : LockupInfoV2)
    (userInfo : UserInfo) : Prop where
  sender : info.sender = s.config.auctionContract
  early : env.time < s.config.initTimestamp + s.config.lockWindow
  pool_eq : s.assetPools.mayLoad key.poolType = some pool
  weight_eq : calculateWeight amount key.duration s.config = .ok weight
  position : Increased s key amount lockup userInfo
  config : s'.config = s.config
  state : s'.state = s.state
  pclLockdropContract : s'.pclLockdropContract = s.pclLockdropContract
  lockupInfo : s'.lockupInfo = s.lockupInfo.save key (.v2 lockup)
  userInfo_eq : s'.userInfo = s.userInfo.save key.user userInfo
  assetPools : s'.assetPools = s.assetPools.save key.poolType
    { pool with
      weightedAmount := pool.weightedAmount + weight
      amountInLockups := pool.amountInLockups + amount } env.height
  totals : s'.totalUserLockupAmount = s.totalUserLockupAmount.save (key.poolType, key.user)
    ((s.totalUserLockupAmount.mayLoad (key.poolType, key.user)).getD 0 + amount) env.height

theorem handleIncreaseLockup_ok {env : Env} {info : MessageInfo} {userAddress : Addr}
    {poolType : PoolType} {duration amount : Nat} {r : Response}
    (h : handleIncreaseLockup q s env info userAddress poolType duration amount = .ok r) :
    r.messages = [] ∧ r.ntrnRewardReceived = none ∧ ∃ pool weight lockup userInfo,
      Increases s r.storage env info ⟨poolType, userAddress, duration⟩ amount pool weight
        lockup userInfo := by
  unfold handleIncreaseLockup at h
  simp only [bind_eq_ok, rejectIf_eq_ok, exists_const, not_not, SnapshotMap.load,
    Map.load_eq_ok, Uint.checkedAdd_eq_ok, Except.ok.injEq] at h
  obtain ⟨hsender, closed, hclosed, hearly, -, pool, hpool, -, weight, hweight, _, ⟨-, rfl⟩,
    _, ⟨-, rfl⟩, ⟨lockup, userInfo⟩, hposition, total, htotal, rfl⟩ := h
  refine ⟨rfl, rfl, pool, weight, lockup, userInfo, ?_⟩
  rw [lockWindowEnd_ok hclosed] at hearly
  constructor
  · exact hsender
  · exact Nat.lt_of_not_le hearly
  · exact hpool
  · exact hweight
  · exact increasePosition_ok hposition
  · rfl
  · rfl
  · rfl
  · rfl
  · rfl
  · rfl
  · rw [← increasedTotal_ok htotal]
    rfl

/-- What is left of a position after a withdrawal: nothing, and the user has one position
less, or the rest. -/
inductive Remains (s : Storage) (key : LockupKey) (lockup : LockupInfoV2) :
    Map LockupKey StoredLockup → Map Addr UserInfo → Prop
  | deleted (hzero : lockup.lpUnitsLocked = 0)
      (hindex : 1 ≤ (s.user key.user).lockupPositionsIndex) :
      Remains s key lockup (s.lockupInfo.remove key)
        (s.userInfo.save key.user
          { s.user key.user with
            lockupPositionsIndex := (s.user key.user).lockupPositionsIndex - 1 })
  | kept (hpos : 0 < lockup.lpUnitsLocked) :
      Remains s key lockup (s.lockupInfo.save key (.v2 lockup)) s.userInfo

theorem storeRemaining_ok {key : LockupKey} {lockup : LockupInfoV2}
    (h : storeRemaining s key lockup = .ok s') :
    Remains s key lockup s'.lockupInfo s'.userInfo ∧ s'.config = s.config ∧
      s'.state = s.state ∧ s'.assetPools = s.assetPools ∧
      s'.totalUserLockupAmount = s.totalUserLockupAmount ∧
      s'.pclLockdropContract = s.pclLockdropContract := by
  unfold storeRemaining at h
  split at h
  · rename_i hzero
    simp only [bind_eq_ok, Uint.sub_eq_ok, Except.ok.injEq] at h
    obtain ⟨_, ⟨hle, rfl⟩, rfl⟩ := h
    exact ⟨Remains.deleted hzero hle, rfl, rfl, rfl, rfl, rfl⟩
  · rename_i hpos
    obtain rfl := Except.ok.inj h
    exact ⟨Remains.kept (Nat.pos_of_ne_zero hpos), rfl, rfl, rfl, rfl, rfl⟩

/-- Everything a successful `WithdrawFromLockup` does. -/
structure Withdraws (s s' : Storage) (env : Env) (info : MessageInfo) (key : LockupKey)
    (amount : Nat) (pool : PoolInfo) (weight : Nat) (st : StoredLockup)
    (lockup : LockupInfoV2) : Prop where
  sender : info.sender = s.config.auctionContract
  early : env.time < s.config.closing
  amount_pos : 0 < amount
  pool_eq : s.assetPools.mayLoad key.poolType = some pool
  lockup_eq : s.lockupInfo.mayLoad key = some st
  weight_eq : calculateWeight amount key.duration s.config = .ok weight
  units_le : amount ≤ st.core.lpUnitsLocked
  weight_le : weight ≤ pool.weightedAmount
  amount_le : amount ≤ pool.amountInLockups
  remaining : lockup.core =
    { st.core with
      lpUnitsLocked := st.core.lpUnitsLocked - amount
      withdrawalFlag := decide (s.config.initTimestamp + s.config.lockWindow ≤ env.time) }
  rewards : lockup.ntrnRewards = st.ntrnRewards
  position : Remains s key lockup s'.lockupInfo s'.userInfo
  config : s'.config = s.config
  state : s'.state = s.state
  pclLockdropContract : s'.pclLockdropContract = s.pclLockdropContract
  assetPools : s'.assetPools = s.assetPools.save key.poolType
    { pool with
      weightedAmount := pool.weightedAmount - weight
      amountInLockups := pool.amountInLockups - amount } env.height
  totals : s'.totalUserLockupAmount = s.totalUserLockupAmount.save (key.poolType, key.user)
    ((s.totalUserLockupAmount.mayLoad (key.poolType, key.user)).getD 0 - amount) env.height

theorem handleWithdrawFromLockup_ok {env : Env} {info : MessageInfo} {userAddress : Addr}
    {poolType : PoolType} {duration amount : Nat} {r : Response}
    (h : handleWithdrawFromLockup q s env info userAddress poolType duration amount = .ok r) :
    r.messages = [] ∧ r.ntrnRewardReceived = none ∧ ∃ pool weight st lockup,
      Withdraws s r.storage env info ⟨poolType, userAddress, duration⟩ amount pool weight st
        lockup := by
  unfold handleWithdrawFromLockup at h
  simp only [bind_eq_ok, rejectIf_eq_ok, exists_const, not_not, SnapshotMap.load,
    Map.load_eq_ok, Uint.checkedSub_eq_ok, Except.ok.injEq] at h
  obtain ⟨hsender, closed, hclosed, hearly, hamount, pool, hpool, loaded, hload, hflag, -, -,
    -, -, -, -, -, lockEnd, hlockEnd, _, ⟨hunits, rfl⟩, weight, hweight, _, ⟨hweightLe, rfl⟩,
    _, ⟨hamountLe, rfl⟩, t, hstore, total, htotal, rfl⟩ := h
  obtain ⟨st, hst, hcore, hrewards⟩ := compatibleLoad_ok hload
  obtain ⟨hremains, hconfig, hstate, hpools, htotals, hpcl⟩ := storeRemaining_ok hstore
  have hflag' : loaded.withdrawalFlag = false := by simpa using hflag
  refine ⟨rfl, rfl, pool, weight, st,
    { loaded with
      lpUnitsLocked := loaded.lpUnitsLocked - amount
      withdrawalFlag := loaded.withdrawalFlag || decide (lockEnd ≤ env.time) }, ?_⟩
  rw [windowsEnd_ok hclosed] at hearly
  have hunits' : st.core.lpUnitsLocked = loaded.lpUnitsLocked := by rw [hcore]; rfl
  constructor
  · exact hsender
  · exact Nat.lt_of_not_le hearly
  · exact Nat.pos_of_ne_zero hamount
  · exact hpool
  · exact hst
  · exact hweight
  · rw [hunits']
    exact hunits
  · exact hweightLe
  · exact hamountLe
  · rw [hcore]
    simp only [LockupInfoV2.core, hflag', Bool.false_or, lockWindowEnd_ok hlockEnd]
  · exact hrewards.symm
  · exact hremains
  · exact hconfig
  · exact hstate
  · exact hpcl
  · rw [← hpools]
    rfl
  · rw [← htotals, ← decreasedTotal_ok htotal]
    rfl

/-! ### The one-time rewards -/

/-- A step that only computes and stores one-time rewards: what it leaves alone. -/
structure SameBooks (s s' : Storage) : Prop extends SameLedger StoredLockup.core s.config s'.config
    s.state s'.state s.assetPools s'.assetPools s.totalUserLockupAmount s'.totalUserLockupAmount
    s.lockupInfo s'.lockupInfo where
  pclLockdropContract : s'.pclLockdropContract = s.pclLockdropContract
  index : ∀ u, (s'.user u).lockupPositionsIndex = (s.user u).lockupPositionsIndex
  transferred : ∀ u, (s.user u).ntrnTransferred = true → (s'.user u).ntrnTransferred = true

namespace SameBooks

theorem refl (s : Storage) : SameBooks s s := ⟨.refl, rfl, fun _ => rfl, fun _ => id⟩

theorem trans {s t u : Storage} (h : SameBooks s t) (h' : SameBooks t u) : SameBooks s u where
  toSameLedger := h.toSameLedger.trans h'.toSameLedger
  pclLockdropContract := h'.pclLockdropContract.trans h.pclLockdropContract
  index u := (h'.index u).trans (h.index u)
  transferred u := h'.transferred u ∘ h.transferred u

/-- A lockup that is stored was stored, with the same core. -/
theorem wasStored (h : SameBooks s s') {k : LockupKey} {st' : StoredLockup}
    (hst : s'.lockupInfo.mayLoad k = some st') :
    ∃ st, s.lockupInfo.mayLoad k = some st ∧ st.core = st'.core := by
  have hk := h.lockups k
  rw [hst] at hk
  obtain ⟨st, hst', hcore⟩ := Option.map_eq_some_iff.mp hk.symm
  exact ⟨st, hst', hcore⟩

/-- Storing a lockup with the same core. -/
theorem saveLockup {key : LockupKey} {st : StoredLockup} {info : LockupInfoV2}
    (hst : s.lockupInfo.mayLoad key = some st) (hcore : info.core = st.core) :
    SameBooks s { s with lockupInfo := s.lockupInfo.save key (.v2 info) } where
  toSameLedger := .saveLockup hst hcore
  pclLockdropContract := rfl
  index _ := rfl
  transferred _ := id

/-- Storing a user with the same number of positions, who is paid if he was before. -/
theorem saveUser {user : Addr} {userInfo : UserInfo}
    (hindex : userInfo.lockupPositionsIndex = (s.user user).lockupPositionsIndex)
    (htransferred : (s.user user).ntrnTransferred = true → userInfo.ntrnTransferred = true) :
    SameBooks s { s with userInfo := s.userInfo.save user userInfo } where
  toSameLedger := .refl
  pclLockdropContract := rfl
  index u := by
    rw [@user_save s { s with userInfo := s.userInfo.save user userInfo } user userInfo rfl]
    split_ifs with hu
    · rw [hu, hindex]
    · rfl
  transferred u := by
    rw [@user_save s { s with userInfo := s.userInfo.save user userInfo } user userInfo rfl]
    split_ifs with hu
    · rw [hu]
      exact htransferred
    · exact id

end SameBooks

theorem user_eq_of_load {user : Addr} {userInfo : UserInfo}
    (h : s.userInfo.mayLoad user = some userInfo) : s.user user = userInfo := by
  rw [Storage.user, h, Option.getD_some]

/-- How one lockup got its reward: it was stored before, or it is computed and stored. -/
inductive Rewarded (s : Storage) (key : LockupKey) : Nat → Storage → Prop
  | stored (st : StoredLockup) (hst : s.lockupInfo.mayLoad key = some st)
      (hne : st.ntrnRewards ≠ 0) : Rewarded s key st.ntrnRewards s
  | computed (st : StoredLockup) (pool : PoolInfo) (info : LockupInfoV2) (reward : Nat)
      (hst : s.lockupInfo.mayLoad key = some st) (hzero : st.ntrnRewards = 0)
      (hpool : s.assetPools.mayLoad key.poolType = some pool)
      (hreward : lockupIncentives s key st.core.lpUnitsLocked pool = .ok reward)
      (hcore : info.core = st.core) (hinfo : info.ntrnRewards = reward) :
      Rewarded s key reward { s with lockupInfo := s.lockupInfo.save key (.v2 info) }

theorem updateLockupReward_ok {key : LockupKey} {reward : Nat}
    (h : updateLockupReward q s key = .ok (reward, s')) : Rewarded s key reward s' := by
  unfold updateLockupReward at h
  simp only [bind_eq_ok, SnapshotMap.load, Map.load_eq_ok] at h
  obtain ⟨pool, hpool, lockup, hload, h⟩ := h
  obtain ⟨st, hst, hcore, hrewards⟩ := compatibleLoad_ok hload
  split_ifs at h with hzero
  · simp only [bind_eq_ok, Except.ok.injEq, Prod.mk.injEq] at h
    obtain ⟨_, hreward, rfl, rfl⟩ := h
    refine Rewarded.computed st pool _ _ hst (hrewards.trans hzero) hpool ?_ hcore.symm rfl
    rw [hcore]
    exact hreward
  · simp only [Except.ok.injEq, Prod.mk.injEq] at h
    obtain ⟨rfl, rfl⟩ := h
    rw [← hrewards] at hzero ⊢
    exact Rewarded.stored st hst hzero

theorem Rewarded.sameBooks {key : LockupKey} {reward : Nat} (h : Rewarded s key reward s') :
    SameBooks s s' := by
  cases h with
  | stored => exact SameBooks.refl s
  | computed st pool info _ hst _ _ _ hcore => exact SameBooks.saveLockup hst hcore

theorem updateUserLockupPositionsAndCalcRewards_sameBooks {user : Addr} {total : Nat}
    (h : updateUserLockupPositionsAndCalcRewards q s user = .ok (total, s')) :
    SameBooks s s' := by
  unfold updateUserLockupPositionsAndCalcRewards at h
  exact addAmounts_relation .refl (fun _ _ _ => SameBooks.trans)
    (fun _ _ _ _ _ hupdate => (updateLockupReward_ok hupdate).sameBooks) h

theorem Rewarded.userInfo {key : LockupKey} {reward : Nat} (h : Rewarded s key reward s') :
    s'.userInfo = s.userInfo := by
  cases h <;> rfl

theorem updateUserLockupPositionsAndCalcRewards_userInfo {user : Addr} {total : Nat}
    (h : updateUserLockupPositionsAndCalcRewards q s user = .ok (total, s')) :
    s'.userInfo = s.userInfo := by
  unfold updateUserLockupPositionsAndCalcRewards at h
  exact addAmounts_invariant (P := fun t => t.userInfo = s.userInfo)
    (fun _ _ _ _ _ ht hupdate => (updateLockupReward_ok hupdate).userInfo.trans ht) rfl h

/-- Messages to other contracts. -/
def External (msgs : List CosmosMsg) : Prop := ∀ m ∈ msgs, ∀ c, m ≠ .callback c

theorem External.of_nil {msgs : List CosmosMsg} (h : msgs = []) : External msgs := by
  rw [h]
  exact fun m hm => absurd hm List.not_mem_nil

/-- After messages to other contracts the storage is the handler's. -/
theorem externals_storage {E : Type} {x : Externals E} {n : Nat} {msgs : List CosmosMsg}
    {w w' : World E} (hext : External msgs) (hrun : msgs.foldlM (dispatch x n) w = .ok w') :
    w'.storage = w.storage := by
  obtain ⟨ext, -, rfl⟩ := externals_ok hext hrun
  rfl

theorem airdropMsgs_ok {user : Addr} {rewards : Nat} {msgs : List CosmosMsg}
    (h : airdropMsgs q s user rewards = .ok msgs) :
    (∀ m ∈ msgs, ∃ amount, m = .burnFrom s.config.creditsContract user amount) ∧
      msgs.length ≤ 1 := by
  unfold airdropMsgs at h
  rw [bind_eq_ok] at h
  obtain ⟨balance, -, h⟩ := h
  split_ifs at h
  · simp only [bind_eq_ok, claimAirdropTokensWithMultiplierMsg, Except.ok.injEq] at h
    obtain ⟨_, ⟨_, -, _, -, _, -, _, -, amount, -, rfl⟩, rfl⟩ := h
    refine ⟨?_, le_refl 1⟩
    intro m hm
    exact ⟨amount, List.mem_singleton.mp hm⟩
  · obtain rfl := Except.ok.inj h
    simp

/-- How the one-time reward is paid: not again, or the flag is set and the messages pay
the stored total and burn the airdrop. -/
inductive PaysNtrn (s : Storage) (user : Addr) (userInfo : UserInfo) :
    Storage → List CosmosMsg → Prop
  | already (hflag : userInfo.ntrnTransferred = true) : PaysNtrn s user userInfo s []
  | now (airdrop : List CosmosMsg) (hflag : userInfo.ntrnTransferred = false)
      (hairdrop : ∀ m ∈ airdrop, ∃ amount, m = .burnFrom s.config.creditsContract user amount)
      (hone : airdrop.length ≤ 1) : PaysNtrn s user userInfo
        { s with userInfo := s.userInfo.save user { userInfo with ntrnTransferred := true } }
        (lockdropRewardMsg user userInfo.totalNtrnRewards ++ airdrop)

theorem payNtrnRewards_ok {user : Addr} {userInfo : UserInfo} {msgs : List CosmosMsg}
    (h : payNtrnRewards q s user userInfo = .ok (s', msgs)) :
    PaysNtrn s user userInfo s' msgs := by
  unfold payNtrnRewards at h
  split_ifs at h with hflag
  · simp only [Except.ok.injEq, Prod.mk.injEq] at h
    obtain ⟨rfl, rfl⟩ := h
    exact PaysNtrn.already hflag
  · simp only [bind_eq_ok, Except.ok.injEq, Prod.mk.injEq] at h
    obtain ⟨airdrop, hairdrop, rfl, rfl⟩ := h
    obtain ⟨hburns, hone⟩ := airdropMsgs_ok hairdrop
    exact PaysNtrn.now airdrop (by simpa using hflag) hburns hone

theorem PaysNtrn.sameBooks {user : Addr} {userInfo : UserInfo} {msgs : List CosmosMsg}
    (h : PaysNtrn s user userInfo s' msgs)
    (hindex : userInfo.lockupPositionsIndex = (s.user user).lockupPositionsIndex) :
    SameBooks s s' := by
  cases h with
  | already => exact SameBooks.refl s
  | now => exact SameBooks.saveUser hindex fun _ => rfl

theorem PaysNtrn.transferred {user : Addr} {userInfo : UserInfo} {msgs : List CosmosMsg}
    (h : PaysNtrn s user userInfo s' msgs) (huser : s.user user = userInfo) :
    (s'.user user).ntrnTransferred = true := by
  cases h with
  | already hflag => rw [huser, hflag]
  | now =>
      unfold Storage.user
      dsimp only
      rw [Map.mayLoad_save, Option.getD_some]

/-- The messages of the one-time reward: a payment to the user and a burn of his tokens. -/
theorem PaysNtrn.mem {user : Addr} {userInfo : UserInfo} {msgs : List CosmosMsg}
    (h : PaysNtrn s user userInfo s' msgs) {m : CosmosMsg} (hm : m ∈ msgs) :
    (∃ coin, m = .bankSend .lockdropReward user coin) ∨
      ∃ credits amount, m = .burnFrom credits user amount := by
  cases h with
  | already => cases hm
  | now airdrop _ hairdrop =>
      rcases List.mem_append.mp hm with hm | hm
      · unfold lockdropRewardMsg at hm
        split_ifs at hm
        · exact Or.inl ⟨_, List.mem_singleton.mp hm⟩
        · cases hm
      · obtain ⟨amount, rfl⟩ := hairdrop m hm
        exact Or.inr ⟨_, amount, rfl⟩

/-! ### The generator -/

/-- Everything `update_pool_on_dual_rewards_claim` does. -/
structure Books (q : Querier) (s s' : Storage) (env : Env) (poolType : PoolType)
    (pool : PoolInfo) (generator : Addr) (deposit received : Nat)
    (proxyPerShare : RestrictedVector AssetInfo Decimal) : Prop where
  pool_eq : s.assetPools.mayLoad poolType = some pool
  generator_eq : s.config.generator = some generator
  deposit_eq : q.deposit generator pool.lpToken = .ok deposit
  deposit_pos : 0 < deposit
  storage : s' = { s with
    assetPools := s.assetPools.save poolType
      { pool with
        generatorNtrnPerShare :=
          ⟨pool.generatorNtrnPerShare.atomics + received * FixedPoint.fractional / deposit⟩
        generatorProxyPerShare := proxyPerShare } env.height }

theorem updatePoolOnDualRewardsClaim_ok {env : Env} {poolType : PoolType} {prev : Nat}
    {prevProxy : List Asset} {r : Response}
    (h : updatePoolOnDualRewardsClaim q s env poolType prev prevProxy = .ok r) :
    r.messages = [] ∧ ∃ pool generator deposit received proxyPerShare,
      r.ntrnRewardReceived = some (poolType, received) ∧
        Books q s r.storage env poolType pool generator deposit received proxyPerShare := by
  unfold updatePoolOnDualRewardsClaim at h
  simp only [bind_eq_ok, SnapshotMap.load, Map.load_eq_ok, okOr_eq_ok, Uint.checkedSub_eq_ok,
    FixedPoint.checkedAdd_eq_ok, Except.ok.injEq] at h
  obtain ⟨pool, hpool, generator, hgenerator, _, -, deposit, hdeposit, balance, -, _,
    ⟨-, rfl⟩, increment, hincrement, _, ⟨-, rfl⟩, proxyPerShare, -, rfl⟩ := h
  obtain ⟨hpos, -, hatomics⟩ := FixedPoint.fromRatio_eq_ok.mp hincrement
  refine ⟨rfl, pool, generator, deposit, balance - prev, proxyPerShare, rfl, ?_⟩
  exact ⟨hpool, hgenerator, hdeposit, hpos, by rw [hatomics]⟩

/-- The messages that collect a pool's rewards: none, or the claim and its booking. -/
theorem claimGeneratorRewards_ok {config : Config} {poolType : PoolType} {lpToken : Addr}
    {msgs : List CosmosMsg} (h : claimGeneratorRewards q config poolType lpToken = .ok msgs) :
    msgs = [] ∨ ∃ generator prev prevProxy,
      msgs = [.claimRewards generator [lpToken],
        .callback (.updatePoolOnDualRewardsClaim poolType prev prevProxy)] := by
  unfold claimGeneratorRewards at h
  simp only [bind_eq_ok] at h
  obtain ⟨generator, -, pending, -, h⟩ := h
  split_ifs at h
  · simp only [bind_eq_ok, Except.ok.injEq] at h
    obtain ⟨_, -, balance, -, rfl⟩ := h
    exact Or.inr ⟨generator, balance, _, rfl⟩
  · exact Or.inl (Except.ok.inj h).symm

/-- A share of a pool: its LP balance is read, and someone has locked something. -/
theorem astroportLpShare_ok {generator : Addr} {pool : PoolInfo} {units share : Nat}
    (h : astroportLpShare q generator pool units = .ok share) :
    ∃ balance, lpBalance q generator pool = .ok balance ∧ pool.amountInLockups ≠ 0 ∧
      share = units * balance / pool.amountInLockups := by
  unfold astroportLpShare at h
  simp only [bind_eq_ok, Uint.checkedDiv_eq_ok, Uint.tryInto_eq_ok] at h
  obtain ⟨balance, hbalance, _, ⟨hne, rfl⟩, -, rfl⟩ := h
  exact ⟨balance, hbalance, hne, rfl⟩

theorem accruedNtrn_ok {pool : PoolInfo} {share debt accrued pending : Nat}
    (h : accruedNtrn pool share debt = .ok (accrued, pending)) :
    accrued = pool.generatorNtrnPerShare.atomics * share / FixedPoint.fractional ∧
      debt ≤ accrued ∧ pending = accrued - debt := by
  unfold accruedNtrn at h
  simp only [bind_eq_ok, Uint.checkedSub_eq_ok, Except.ok.injEq, Prod.mk.injEq] at h
  obtain ⟨lpAmount, hlp, product, hproduct, _, ⟨hle, rfl⟩, rfl, rfl⟩ := h
  exact ⟨FixedPoint.checkedMul_ofUint_floor hlp hproduct, hle, rfl⟩

/-! ### Closing a lockup -/

/-- Everything `closeLockup` does. -/
structure Closes (s s' : Storage) (height : Nat) (key : LockupKey) (pool : PoolInfo)
    (lockup : LockupInfoV2) (astroportLpAmount : Nat) : Prop where
  units_le : lockup.lpUnitsLocked ≤ pool.amountInLockups
  config : s'.config = s.config
  state : s'.state = s.state
  userInfo : s'.userInfo = s.userInfo
  pclLockdropContract : s'.pclLockdropContract = s.pclLockdropContract
  assetPools : s'.assetPools = s.assetPools.save key.poolType
    { pool with amountInLockups := pool.amountInLockups - lockup.lpUnitsLocked } height
  totals : s'.totalUserLockupAmount = s.totalUserLockupAmount.save (key.poolType, key.user)
    ((s.totalUserLockupAmount.mayLoad (key.poolType, key.user)).getD 0 -
      lockup.lpUnitsLocked) height
  lockupInfo : s'.lockupInfo = s.lockupInfo.save key
    (.v2 { lockup with astroportLpTransferred := some astroportLpAmount })

theorem closeLockup_ok {height : Nat} {key : LockupKey} {pool : PoolInfo}
    {lockup : LockupInfoV2} {amount : Nat}
    (h : closeLockup s height key pool lockup amount = .ok s') :
    Closes s s' height key pool lockup amount := by
  unfold closeLockup at h
  simp only [bind_eq_ok, Uint.checkedSub_eq_ok, Except.ok.injEq] at h
  obtain ⟨_, ⟨hle, rfl⟩, total, htotal, rfl⟩ := h
  rw [decreasedTotal_ok htotal]
  exact ⟨hle, rfl, rfl, rfl, rfl, rfl, rfl, rfl⟩

/-- What the reward callback does to a lockup: it is stored with new debts, and closed
when its owner unlocks. -/
inductive StoresOrCloses (s : Storage) (height : Nat) (key : LockupKey) (pool : PoolInfo)
    (lockup : LockupInfoV2) (amount : Nat) : Bool → Storage → List CosmosMsg → Prop
  | stored : StoresOrCloses s height key pool lockup amount false
      { s with lockupInfo := s.lockupInfo.save key (.v2 lockup) } []
  | closed (s' : Storage) (hcloses : Closes s s' height key pool lockup amount) :
      StoresOrCloses s height key pool lockup amount true s'
        [.lpTransfer pool.lpToken key.user amount]

theorem storeOrClose_ok {height : Nat} {key : LockupKey} {pool : PoolInfo}
    {lockup : LockupInfoV2} {amount : Nat} {withdraw : Bool} {msgs : List CosmosMsg}
    (h : storeOrClose s height key pool lockup amount withdraw = .ok (s', msgs)) :
    StoresOrCloses s height key pool lockup amount withdraw s' msgs := by
  unfold storeOrClose at h
  cases withdraw with
  | false =>
      simp only [Bool.false_eq_true, if_false, Except.ok.injEq, Prod.mk.injEq] at h
      obtain ⟨rfl, rfl⟩ := h
      exact StoresOrCloses.stored
  | true =>
      simp only [if_true, bind_eq_ok, Except.ok.injEq, Prod.mk.injEq] at h
      obtain ⟨t, hclose, rfl, rfl⟩ := h
      exact StoresOrCloses.closed t (closeLockup_ok hclose)

/-- What the reward callback pays for a lockup: nothing before the pool is staked, and
then what its share has accrued beyond its debt. -/
inductive PaysRewards (key : LockupKey) (lockup : LockupInfoV2) (pool : PoolInfo)
    (generator : Addr) (share : Nat) (withdraw : Bool) : LockupInfoV2 → List CosmosMsg → Prop
  | unstaked (hstaked : pool.isStaked = false) :
      PaysRewards key lockup pool generator share withdraw lockup []
  | staked (rewardToken : String) (proxy : List Asset) (lockup' : LockupInfoV2) (accrued : Nat)
      (hstaked : pool.isStaked = true)
      (haccrued : accrued =
        pool.generatorNtrnPerShare.atomics * share / FixedPoint.fractional)
      (hdebt : lockup.generatorNtrnDebt ≤ accrued)
      (hcore : lockup'.core = { lockup.core with generatorNtrnDebt := accrued })
      (hrewards : lockup'.ntrnRewards = lockup.ntrnRewards) :
      PaysRewards key lockup pool generator share withdraw lockup'
        (baseRewardMsg key.poolType key.user rewardToken (accrued - lockup.generatorNtrnDebt) ++
          proxy.map (fun asset => .transfer (asset.intoMsg key.user)) ++
          if withdraw then [.generatorWithdraw generator pool.lpToken share] else [])

theorem lockupRewards_ok {key : LockupKey} {lockup lockup' : LockupInfoV2} {pool : PoolInfo}
    {userInfo : UserInfo} {generator : Addr} {share : Nat} {withdraw : Bool}
    {msgs : List CosmosMsg}
    (h : lockupRewards q key lockup pool userInfo generator share withdraw =
      .ok (lockup', msgs)) :
    PaysRewards key lockup pool generator share withdraw lockup' msgs := by
  unfold lockupRewards at h
  split at h
  · rename_i hstaked
    unfold stakedRewards at h
    simp only [bind_eq_ok, rejectIf_eq_ok, exists_const, Except.ok.injEq, Prod.mk.injEq] at h
    obtain ⟨rewardToken, -, ⟨accrued, pending⟩, haccrued, ⟨debts, proxy⟩, -, -, rfl, rfl⟩ := h
    obtain ⟨heq, hle, rfl⟩ := accruedNtrn_ok haccrued
    exact PaysRewards.staked rewardToken proxy _ accrued hstaked heq hle rfl rfl
  · rename_i hstaked
    simp only [Except.ok.injEq, Prod.mk.injEq] at h
    obtain ⟨rfl, rfl⟩ := h
    exact PaysRewards.unstaked (by simpa using hstaked)

/-- The base reward of a pool is one payment to the user, if any. -/
theorem mem_baseRewardMsg {poolType : PoolType} {user : Addr} {token : String} {pending : Nat}
    {m : CosmosMsg} (hm : m ∈ baseRewardMsg poolType user token pending) :
    ∃ coin, m = .bankSend (.generatorReward poolType) user coin := by
  unfold baseRewardMsg at hm
  split_ifs at hm
  · exact ⟨_, List.mem_singleton.mp hm⟩
  · cases hm

/-- The messages that pay a lockup's rewards: payments to the user, transfers of the proxy
rewards and, when the lockup leaves, the withdrawal of its LP tokens. -/
theorem PaysRewards.mem {key : LockupKey} {lockup lockup' : LockupInfoV2} {pool : PoolInfo}
    {generator : Addr} {share : Nat} {withdraw : Bool} {msgs : List CosmosMsg}
    (h : PaysRewards key lockup pool generator share withdraw lockup' msgs) {m : CosmosMsg}
    (hm : m ∈ msgs) :
    (∃ coin, m = .bankSend (.generatorReward key.poolType) key.user coin) ∨
      (∃ transfer, m = .transfer transfer) ∨
      withdraw = true ∧ m = .generatorWithdraw generator pool.lpToken share := by
  cases h with
  | unstaked => cases hm
  | staked rewardToken proxy _ accrued =>
      rcases List.mem_append.mp hm with hm | hm
      · rcases List.mem_append.mp hm with hm | hm
        · exact Or.inl (mem_baseRewardMsg hm)
        · obtain ⟨asset, -, rfl⟩ := List.mem_map.mp hm
          exact Or.inr (Or.inl ⟨_, rfl⟩)
      · split_ifs at hm with hwithdraw
        · exact Or.inr (Or.inr ⟨hwithdraw, List.mem_singleton.mp hm⟩)
        · cases hm

/-- Paying rewards changes a lockup's debt only. -/
theorem PaysRewards.core {key : LockupKey} {lockup lockup' : LockupInfoV2} {pool : PoolInfo}
    {generator : Addr} {share : Nat} {withdraw : Bool} {msgs : List CosmosMsg}
    (h : PaysRewards key lockup pool generator share withdraw lockup' msgs) :
    ∃ debt, lockup'.core = { lockup.core with generatorNtrnDebt := debt } := by
  cases h with
  | unstaked => exact ⟨lockup.generatorNtrnDebt, rfl⟩
  | staked _ _ _ accrued _ _ _ hcore => exact ⟨accrued, hcore⟩

/-- The lockup after its rewards were paid has the units and the state it had. -/
theorem PaysRewards.lockup {key : LockupKey} {lockup lockup' : LockupInfoV2}
    {pool : PoolInfo} {generator : Addr} {share : Nat} {withdraw : Bool}
    {msgs : List CosmosMsg}
    (h : PaysRewards key lockup pool generator share withdraw lockup' msgs) :
    lockup'.lpUnitsLocked = lockup.lpUnitsLocked ∧
      lockup'.astroportLpTransferred = lockup.astroportLpTransferred ∧
      lockup'.ntrnRewards = lockup.ntrnRewards := by
  cases h with
  | unstaked => exact ⟨rfl, rfl, rfl⟩
  | staked _ _ _ _ _ _ _ hcore hrewards =>
      exact ⟨congrArg LockupCore.lpUnitsLocked hcore,
        congrArg LockupCore.astroportLpTransferred hcore, hrewards⟩

/-! ### The callbacks -/

/-- Everything the reward callback of a claim does. -/
structure PaysOut (q : Querier) (s s' : Storage) (height : Nat) (key : LockupKey)
    (withdraw : Bool) (msgs : List CosmosMsg) (pool : PoolInfo) (lockup lockup' : LockupInfoV2)
    (generator : Addr) (share : Nat) (t : Storage)
    (rewardMsgs exitMsgs ntrnMsgs : List CosmosMsg) : Prop where
  pool_eq : s.assetPools.mayLoad key.poolType = some pool
  lockup_eq : compatibleLoad q s key = .ok lockup
  generator_eq : s.config.generator = some generator
  share_eq : astroportLpShare q generator pool lockup.lpUnitsLocked = .ok share
  rewards : PaysRewards key lockup pool generator share withdraw lockup' rewardMsgs
  exits : StoresOrCloses s height key pool lockup' share withdraw t exitMsgs
  ntrn : PaysNtrn t key.user (s.user key.user) s' ntrnMsgs
  messages : msgs = rewardMsgs ++ exitMsgs ++ ntrnMsgs

theorem callbackWithdrawUserRewards_ok {env : Env} {key : LockupKey} {withdraw : Bool}
    {r : Response} (h : callbackWithdrawUserRewards q s env key withdraw = .ok r) :
    r.ntrnRewardReceived = none ∧ ∃ pool lockup lockup' generator share t rewardMsgs exitMsgs
      ntrnMsgs, PaysOut q s r.storage env.height key withdraw r.messages pool lockup lockup'
        generator share t rewardMsgs exitMsgs ntrnMsgs := by
  unfold callbackWithdrawUserRewards at h
  simp only [bind_eq_ok, SnapshotMap.load, Map.load_eq_ok, okOr_eq_ok, Except.ok.injEq] at h
  obtain ⟨pool, hpool, lockup, hlockup, generator, hgenerator, share, hshare,
    ⟨lockup', rewardMsgs⟩, hrewards, ⟨t, exitMsgs⟩, hexits, ⟨t', ntrnMsgs⟩, hntrn, rfl⟩ := h
  refine ⟨rfl, pool, lockup, lockup', generator, share, t, rewardMsgs, exitMsgs, ntrnMsgs, ?_⟩
  exact ⟨hpool, hlockup, hgenerator, hshare, lockupRewards_ok hrewards, storeOrClose_ok hexits,
    payNtrnRewards_ok hntrn, rfl⟩

/-- A lockup that leaves sends its LP tokens to the user. -/
theorem StoresOrCloses.mem {height : Nat} {key : LockupKey} {pool : PoolInfo}
    {lockup : LockupInfoV2} {amount : Nat} {withdraw : Bool} {msgs : List CosmosMsg}
    (h : StoresOrCloses s height key pool lockup amount withdraw s' msgs) {m : CosmosMsg}
    (hm : m ∈ msgs) : withdraw = true ∧ m = .lpTransfer pool.lpToken key.user amount := by
  cases h with
  | stored => cases hm
  | closed => exact ⟨rfl, List.mem_singleton.mp hm⟩

/-- The users are the same after the lockup was stored or closed. -/
theorem StoresOrCloses.userInfo {height : Nat} {key : LockupKey} {pool : PoolInfo}
    {lockup : LockupInfoV2} {amount : Nat} {withdraw : Bool} {msgs : List CosmosMsg}
    (h : StoresOrCloses s height key pool lockup amount withdraw s' msgs) :
    s'.userInfo = s.userInfo := by
  cases h with
  | stored => rfl
  | closed _ hcloses => exact hcloses.userInfo

/-- The messages of the reward callback. -/
theorem PaysOut.mem {height : Nat} {key : LockupKey} {withdraw : Bool} {msgs : List CosmosMsg}
    {pool : PoolInfo} {lockup lockup' : LockupInfoV2} {generator : Addr} {share : Nat}
    {t : Storage} {rewardMsgs exitMsgs ntrnMsgs : List CosmosMsg}
    (h : PaysOut q s s' height key withdraw msgs pool lockup lockup' generator share t
      rewardMsgs exitMsgs ntrnMsgs) {m : CosmosMsg} (hm : m ∈ msgs) :
    (∃ coin, m = .bankSend (.generatorReward key.poolType) key.user coin) ∨
      (∃ transfer, m = .transfer transfer) ∨
      (withdraw = true ∧ m = .generatorWithdraw generator pool.lpToken share) ∨
      (withdraw = true ∧ m = .lpTransfer pool.lpToken key.user share) ∨
      (∃ coin, m = .bankSend .lockdropReward key.user coin) ∨
      ∃ credits amount, m = .burnFrom credits key.user amount := by
  rw [h.messages] at hm
  rcases List.mem_append.mp hm with hm | hm
  · rcases List.mem_append.mp hm with hm | hm
    · rcases h.rewards.mem hm with hreward | htransfer | hunstake
      · exact Or.inl hreward
      · exact Or.inr (Or.inl htransfer)
      · exact Or.inr (Or.inr (Or.inl hunstake))
    · exact Or.inr (Or.inr (Or.inr (Or.inl (h.exits.mem hm))))
  · exact Or.inr (Or.inr (Or.inr (Or.inr (h.ntrn.mem hm))))

theorem PaysOut.external {height : Nat} {key : LockupKey} {withdraw : Bool}
    {msgs : List CosmosMsg} {pool : PoolInfo} {lockup lockup' : LockupInfoV2}
    {generator : Addr} {share : Nat} {t : Storage} {rewardMsgs exitMsgs ntrnMsgs : List CosmosMsg}
    (h : PaysOut q s s' height key withdraw msgs pool lockup lockup' generator share t
      rewardMsgs exitMsgs ntrnMsgs) : External msgs := by
  intro m hm c
  rcases h.mem hm with ⟨coin, rfl⟩ | ⟨transfer, rfl⟩ | ⟨-, rfl⟩ | ⟨-, rfl⟩ | ⟨coin, rfl⟩ |
    ⟨credits, amount, rfl⟩ <;> exact CosmosMsg.noConfusion

/-- `callback_init_migrate_lockup_to_pcl_pools` skips a closed lockup and otherwise starts
the migration of an open one. -/
inductive StartsMigration (s : Storage) (key : LockupKey) : List CosmosMsg → Prop
  | skipped (st : StoredLockup) (hst : s.lockupInfo.mayLoad key = some st)
      (hclosed : st.core.astroportLpTransferred ≠ none) : StartsMigration s key []
  | started (st : StoredLockup) (msgs : List CosmosMsg)
      (hst : s.lockupInfo.mayLoad key = some st)
      (hopen : st.core.astroportLpTransferred = none)
      (hmsgs : msgs = [] ∨ ∃ generator lpToken prev prevProxy,
        msgs = [.claimRewards generator [lpToken],
          .callback (.updatePoolOnDualRewardsClaim key.poolType prev prevProxy)]) :
      StartsMigration s key (msgs ++ [.callback (.transferAllRewardsBeforeMigrationCallback
        key.poolType key.user key.duration)])

theorem queryLockupInfo_ok {key : LockupKey} {res : LockUpInfoResponse}
    (h : queryLockupInfo q s key = .ok res) :
    ∃ st, s.lockupInfo.mayLoad key = some st ∧
      res.astroportLpTransferred = st.core.astroportLpTransferred := by
  unfold queryLockupInfo at h
  simp only [bind_eq_ok, Except.ok.injEq] at h
  obtain ⟨pool, -, lockup, hload, ⟨_, _, _⟩, -, _, -, rfl⟩ := h
  obtain ⟨st, hst, hcore, -⟩ := compatibleLoad_ok hload
  refine ⟨st, hst, ?_⟩
  rw [hcore]
  rfl

theorem callbackInitMigrateLockupToPclPools_ok {key : LockupKey} {r : Response}
    (h : callbackInitMigrateLockupToPclPools q s key = .ok r) :
    r.storage = s ∧ r.ntrnRewardReceived = none ∧ StartsMigration s key r.messages := by
  unfold callbackInitMigrateLockupToPclPools at h
  rw [bind_eq_ok] at h
  obtain ⟨res, hres, h⟩ := h
  obtain ⟨st, hst, htransferred⟩ := queryLockupInfo_ok hres
  rw [htransferred] at h
  split_ifs at h with hsome
  · obtain rfl := Except.ok.inj h
    refine ⟨rfl, rfl, StartsMigration.skipped st hst ?_⟩
    exact Option.isSome_iff_ne_none.mp hsome
  · simp only [bind_eq_ok, Except.ok.injEq] at h
    obtain ⟨pool, -, msgs, hmsgs, rfl⟩ := h
    refine ⟨rfl, rfl, StartsMigration.started st msgs hst (by simpa using hsome) ?_⟩
    rcases claimGeneratorRewards_ok hmsgs with hnil | ⟨generator, prev, prevProxy, heq⟩
    · exact Or.inl hnil
    · exact Or.inr ⟨generator, pool.lpToken, prev, prevProxy, heq⟩

/-- Everything the reward callback of a migration does. The lockup keeps its old debt. -/
structure TransfersAll (q : Querier) (s s' : Storage) (key : LockupKey)
    (rewardMsgs : List CosmosMsg) (pool : PoolInfo) (lockup : LockupInfoV2) (generator : Addr)
    (share accrued : Nat) (rewardToken : String) (proxy : List Asset)
    (ntrnMsgs : List CosmosMsg) : Prop where
  pool_eq : s.assetPools.mayLoad key.poolType = some pool
  lockup_eq : compatibleLoad q s key = .ok lockup
  generator_eq : s.config.generator = some generator
  share_eq : astroportLpShare q generator pool lockup.lpUnitsLocked = .ok share
  accrued_eq : accrued = pool.generatorNtrnPerShare.atomics * share / FixedPoint.fractional
  debt_le : lockup.generatorNtrnDebt ≤ accrued
  ntrn : PaysNtrn s key.user (s.user key.user) s' ntrnMsgs
  messages : rewardMsgs =
    baseRewardMsg key.poolType key.user rewardToken (accrued - lockup.generatorNtrnDebt) ++
      proxy.map (fun asset => .transfer (asset.intoMsg key.user)) ++ ntrnMsgs

theorem callbackTransferAllRewardsBeforeMigration_ok {key : LockupKey} {r : Response}
    (h : callbackTransferAllRewardsBeforeMigration q s key = .ok r) :
    r.ntrnRewardReceived = none ∧ ∃ rewardMsgs pool lockup generator share accrued rewardToken
      proxy ntrnMsgs, TransfersAll q s r.storage key rewardMsgs pool lockup generator share
        accrued rewardToken proxy ntrnMsgs ∧
      r.messages = rewardMsgs ++ [.callback (.withdrawUserLockupCallback key.poolType key.user
        key.duration generator pool.lpToken share)] := by
  unfold callbackTransferAllRewardsBeforeMigration at h
  simp only [bind_eq_ok, SnapshotMap.load, Map.load_eq_ok, okOr_eq_ok, Except.ok.injEq] at h
  obtain ⟨pool, hpool, lockup, hlockup, generator, hgenerator, share, hshare, rewardToken, -,
    ⟨accrued, pending⟩, haccrued, ⟨_, proxy⟩, -, ⟨t, ntrnMsgs⟩, hntrn, rfl⟩ := h
  obtain ⟨heq, hle, rfl⟩ := accruedNtrn_ok haccrued
  refine ⟨rfl, _, pool, lockup, generator, share, accrued, rewardToken, proxy, ntrnMsgs, ?_, rfl⟩
  exact ⟨hpool, hlockup, hgenerator, hshare, heq, hle, payNtrnRewards_ok hntrn, rfl⟩

/-- The messages that pay a lockup's rewards before it migrates. -/
theorem TransfersAll.mem {key : LockupKey} {rewardMsgs : List CosmosMsg} {pool : PoolInfo}
    {lockup : LockupInfoV2} {generator : Addr} {share accrued : Nat} {rewardToken : String}
    {proxy : List Asset} {ntrnMsgs : List CosmosMsg}
    (h : TransfersAll q s s' key rewardMsgs pool lockup generator share accrued rewardToken
      proxy ntrnMsgs) {m : CosmosMsg} (hm : m ∈ rewardMsgs) :
    (∃ coin, m = .bankSend (.generatorReward key.poolType) key.user coin) ∨
      (∃ transfer, m = .transfer transfer) ∨
      (∃ coin, m = .bankSend .lockdropReward key.user coin) ∨
      ∃ credits amount, m = .burnFrom credits key.user amount := by
  rw [h.messages] at hm
  rcases List.mem_append.mp hm with hm | hm
  · rcases List.mem_append.mp hm with hm | hm
    · exact Or.inl (mem_baseRewardMsg hm)
    · obtain ⟨asset, -, rfl⟩ := List.mem_map.mp hm
      exact Or.inr (Or.inl ⟨_, rfl⟩)
  · exact Or.inr (Or.inr (h.ntrn.mem hm))

theorem TransfersAll.external {key : LockupKey} {rewardMsgs : List CosmosMsg} {pool : PoolInfo}
    {lockup : LockupInfoV2} {generator : Addr} {share accrued : Nat} {rewardToken : String}
    {proxy : List Asset} {ntrnMsgs : List CosmosMsg}
    (h : TransfersAll q s s' key rewardMsgs pool lockup generator share accrued rewardToken
      proxy ntrnMsgs) : External rewardMsgs := by
  intro m hm c
  rcases h.mem hm with ⟨coin, rfl⟩ | ⟨transfer, rfl⟩ | ⟨coin, rfl⟩ | ⟨credits, amount, rfl⟩ <;>
    exact CosmosMsg.noConfusion

/-- Everything the exit callback of a migration does. -/
structure WithdrawsLockup (q : Querier) (s s' : Storage) (height : Nat) (key : LockupKey)
    (generator lpToken : Addr) (amount : Nat) (msgs : List CosmosMsg) (pool : PoolInfo)
    (lockup : LockupInfoV2) : Prop where
  pool_eq : s.assetPools.mayLoad key.poolType = some pool
  lockup_eq : compatibleLoad q s key = .ok lockup
  closes : Closes s s' height key pool lockup amount
  messages : ∃ pair ntrnBalance denom balance, q.minter lpToken = .ok pair ∧ msgs =
    [.generatorWithdraw generator lpToken amount, .withdrawLiquidity lpToken pair amount,
      .callback (.migrateUserLockupToPCLPairCallback key.poolType key.user key.duration
        ntrnBalance denom balance)]

theorem callbackWithdrawUserLockup_ok {env : Env} {key : LockupKey} {generator lpToken : Addr}
    {amount : Nat} {r : Response}
    (h : callbackWithdrawUserLockup q s env key generator lpToken amount = .ok r) :
    r.ntrnRewardReceived = none ∧ ∃ pool lockup, WithdrawsLockup q s r.storage env.height key
      generator lpToken amount r.messages pool lockup := by
  unfold callbackWithdrawUserLockup at h
  simp only [bind_eq_ok, SnapshotMap.load, Map.load_eq_ok, okOr_eq_ok, Except.ok.injEq] at h
  obtain ⟨pair, hpair, assets, -, denom, -, ntrnBalance, -, balance, -, lockup, hlockup, pool,
    hpool, t, hclose, rfl⟩ := h
  exact ⟨rfl, pool, lockup, hpool, hlockup, closeLockup_ok hclose,
    ⟨pair, ntrnBalance, denom, balance, hpair, rfl⟩⟩

/-- The last callback of a migration only sends a message: the user and the lockup as they
are stored go to the PCL lockdrop. -/
theorem callbackMigrateUserLockupToPclPair_ok {key : LockupKey} {prevNtrn prevPaired : Nat}
    {denom : String} {r : Response}
    (h : callbackMigrateUserLockupToPclPair q s key prevNtrn denom prevPaired = .ok r) :
    r.storage = s ∧ r.ntrnRewardReceived = none ∧ ∃ pclLockdrop funds lockup stake,
      s.pclLockdropContract = some pclLockdrop ∧ compatibleLoad q s key = .ok lockup ∧
      r.messages = [.migrateXYKLiquidity pclLockdrop funds key.poolType key.user key.duration
        (s.user key.user) lockup stake] := by
  unfold callbackMigrateUserLockupToPclPair at h
  simp only [bind_eq_ok, okOr_eq_ok, Except.ok.injEq] at h
  obtain ⟨lockup, hlockup, ntrn, -, _, -, paired, -, _, -, pclLockdrop, hpcl, pool, -, generator,
    -, staked, -, rfl⟩ := h
  exact ⟨rfl, rfl, pclLockdrop, _, lockup, _, hpcl, hlockup, rfl⟩

/-! ### Claims and migrations -/

/-- How the total reward of a user is found: it was stored before, or it is computed. -/
inductive FindsTotal (q : Querier) (s : Storage) (user : Addr) (userInfo : UserInfo) :
    Nat → Storage → Prop
  | stored (hne : userInfo.totalNtrnRewards ≠ 0) :
      FindsTotal q s user userInfo userInfo.totalNtrnRewards s
  | computed (total : Nat) (s' : Storage) (hzero : userInfo.totalNtrnRewards = 0)
      (hupdate : updateUserLockupPositionsAndCalcRewards q s user = .ok (total, s')) :
      FindsTotal q s user userInfo total s'

theorem FindsTotal.sameBooks {user : Addr} {userInfo : UserInfo} {total : Nat}
    (h : FindsTotal q s user userInfo total s') : SameBooks s s' := by
  cases h with
  | stored => exact SameBooks.refl s
  | computed _ _ _ hupdate => exact updateUserLockupPositionsAndCalcRewards_sameBooks hupdate

theorem FindsTotal.user {user : Addr} {userInfo : UserInfo} {total : Nat}
    (h : FindsTotal q s user userInfo total s') (u : Addr) : s'.user u = s.user u := by
  cases h with
  | stored => rfl
  | computed _ _ _ hupdate =>
      exact user_congr (updateUserLockupPositionsAndCalcRewards_userInfo hupdate) u

/-- Everything the handler of `ClaimRewardsAndOptionallyUnlock` does. -/
structure StartsClaim (q : Querier) (s s' : Storage) (env : Env) (key : LockupKey)
    (withdraw : Bool) (msgs : List CosmosMsg) (userInfo : UserInfo) (total : Nat)
    (t : Storage) (st : StoredLockup) (collect : List CosmosMsg) : Prop where
  late : s.config.closing ≤ env.time
  user_eq : s.userInfo.mayLoad key.user = some userInfo
  finds : FindsTotal q s key.user userInfo total t
  storage : s' = { t with
    userInfo := t.userInfo.save key.user { userInfo with totalNtrnRewards := total } }
  lockup_eq : s'.lockupInfo.mayLoad key = some st
  lockup_open : st.core.astroportLpTransferred = none
  unlocked : withdraw = true → st.core.unlockTimestamp ≤ env.time
  collect_eq : collect = [] ∨ ∃ generator lpToken prev prevProxy,
    collect = [.claimRewards generator [lpToken],
      .callback (.updatePoolOnDualRewardsClaim key.poolType prev prevProxy)]
  messages : msgs = collect ++
    [.callback (.withdrawUserLockupRewardsCallback key.poolType key.user key.duration withdraw)]

theorem claimMessages_ok {poolType : PoolType} {pool : PoolInfo} {userInfo : UserInfo}
    {withdraw : Bool} {msgs : List CosmosMsg}
    (h : claimMessages q s poolType pool userInfo withdraw = .ok msgs) :
    msgs = [] ∨ ∃ generator lpToken prev prevProxy,
      msgs = [.claimRewards generator [lpToken],
        .callback (.updatePoolOnDualRewardsClaim poolType prev prevProxy)] := by
  unfold claimMessages at h
  split_ifs at h
  · rcases claimGeneratorRewards_ok h with hnil | ⟨generator, prev, prevProxy, heq⟩
    · exact Or.inl hnil
    · exact Or.inr ⟨generator, pool.lpToken, prev, prevProxy, heq⟩
  · simp only [bind_eq_ok, rejectIf_eq_ok, exists_const, Except.ok.injEq] at h
    exact Or.inl h.2.symm

theorem userNtrnRewards_ok {user : Addr} {userInfo : UserInfo} {total : Nat}
    (h : userNtrnRewards q s user userInfo = .ok (total, s')) :
    FindsTotal q s user userInfo total s' := by
  unfold userNtrnRewards at h
  split_ifs at h with hzero
  · exact FindsTotal.computed total s' hzero h
  · simp only [Except.ok.injEq, Prod.mk.injEq] at h
    obtain ⟨rfl, rfl⟩ := h
    exact FindsTotal.stored hzero

theorem handleClaimRewardsAndUnlockForLockup_ok {env : Env} {info : MessageInfo}
    {poolType : PoolType} {duration : Nat} {withdraw : Bool} {r : Response}
    (h : handleClaimRewardsAndUnlockForLockup q s env info poolType duration withdraw = .ok r) :
    r.ntrnRewardReceived = none ∧ ∃ userInfo total t st collect,
      StartsClaim q s r.storage env ⟨poolType, info.sender, duration⟩ withdraw r.messages
        userInfo total t st collect := by
  unfold handleClaimRewardsAndUnlockForLockup at h
  simp only [bind_eq_ok, rejectIf_eq_ok, exists_const, SnapshotMap.load, Map.load_eq_ok,
    Except.ok.injEq] at h
  obtain ⟨closed, hclosed, hlate, pool, hpool, userInfo, huser, ⟨total, t⟩, htotal, lockup,
    hload, hunlock, hopen, collect, hcollect, rfl⟩ := h
  obtain ⟨st, hst, hcore, -⟩ := compatibleLoad_ok hload
  rw [windowsEnd_ok hclosed] at hlate
  refine ⟨rfl, userInfo, total, t, st, collect, ?_⟩
  constructor
  · exact Nat.le_of_not_lt hlate
  · exact huser
  · exact userNtrnRewards_ok htotal
  · rfl
  · exact hst
  · rw [hcore]
    change lockup.astroportLpTransferred = none
    simpa using hopen
  · intro hwithdraw
    rw [hcore]
    exact Nat.le_of_not_lt fun hlt => hunlock ⟨hwithdraw, hlt⟩
  · exact claimMessages_ok hcollect
  · rfl

/-- The claim handler changes one-time rewards only. -/
theorem StartsClaim.sameBooks {env : Env} {key : LockupKey} {withdraw : Bool}
    {msgs : List CosmosMsg} {userInfo : UserInfo} {total : Nat} {t : Storage}
    {st : StoredLockup} {collect : List CosmosMsg}
    (h : StartsClaim q s s' env key withdraw msgs userInfo total t st collect) :
    SameBooks s s' := by
  have hfinds := h.finds.sameBooks
  have huser := user_eq_of_load h.user_eq
  rw [h.storage]
  refine hfinds.trans (SameBooks.saveUser ?_ ?_)
  · rw [hfinds.index, huser]
  · rw [h.finds.user, huser]
    exact id

/-- The handler of a migration changes one-time rewards only, and sends one callback for
every lockup of the user. -/
theorem handleMigrateLiquidityToPclPools_ok {info : MessageInfo} {raw : Option Addr}
    {r : Response} (h : handleMigrateLiquidityToPclPools q s info raw = .ok r) :
    r.ntrnRewardReceived = none ∧ SameBooks s r.storage ∧
      ∀ m ∈ r.messages, ∃ key : LockupKey, m = .callback
        (.initMigrateLockupToPCLPoolsCallback key.poolType key.user key.duration) := by
  unfold handleMigrateLiquidityToPclPools storeNtrnRewards at h
  simp only [bind_eq_ok, Map.load_eq_ok, Except.ok.injEq] at h
  obtain ⟨userInfo, huser, t, hstore, rfl⟩ := h
  refine ⟨rfl, ?_, ?_⟩
  · split_ifs at hstore with hzero
    · simp only [bind_eq_ok, Except.ok.injEq] at hstore
      obtain ⟨⟨total, t'⟩, hupdate, rfl⟩ := hstore
      have hsame := updateUserLockupPositionsAndCalcRewards_sameBooks hupdate
      have hsameUser := updateUserLockupPositionsAndCalcRewards_userInfo hupdate
      refine hsame.trans (SameBooks.saveUser ?_ ?_)
      · rw [hsame.index, user_eq_of_load huser]
      · rw [user_congr hsameUser, user_eq_of_load huser]
        exact id
    · obtain rfl := Except.ok.inj hstore
      exact SameBooks.refl s
  · intro m hm
    obtain ⟨key, -, rfl⟩ := List.mem_map.mp hm
    exact ⟨key, rfl⟩

/-! ### Administration -/

theorem instantiate_ok {env : Env} {info : MessageInfo} {msg : InstantiateMsg}
    (h : instantiate env info msg = .ok s) : s = msg.storage info := by
  unfold instantiate at h
  simp only [bind_eq_ok, rejectIf_eq_ok, exists_const, Except.ok.injEq] at h
  obtain ⟨-, -, -, -, -, hstorage⟩ := h
  exact hstorage.symm

/-- A step that only changes the owner, the auction, the generator or the incentives. -/
structure Reconfigures (s s' : Storage) : Prop where
  terms : s.config.SameTerms s'.config
  state : s'.state = s.state
  assetPools : s'.assetPools = s.assetPools
  userInfo : s'.userInfo = s.userInfo
  lockupInfo : s'.lockupInfo = s.lockupInfo
  totals : s'.totalUserLockupAmount = s.totalUserLockupAmount

/-- Everything a successful `InitializePool` does. -/
structure Initializes (s s' : Storage) (env : Env) (poolType : PoolType)
    (incentivesShare amount : Nat) (pool : PoolInfo) (msgs : List CosmosMsg) : Prop where
  pool_eq : s.assetPools.mayLoad poolType = some pool
  storage : s' = { s with
    assetPools := s.assetPools.save poolType
      { pool with incentivesShare := incentivesShare, isStaked := true } env.height
    state := ⟨s.state.totalIncentivesShare + incentivesShare⟩ }
  messages : ∃ generator height, s.config.generator = some generator ∧
    msgs = [.increaseAllowance pool.lpToken generator amount height,
      .sendDeposit pool.lpToken generator amount]

theorem Initializes.external {env : Env} {poolType : PoolType} {incentivesShare amount : Nat}
    {pool : PoolInfo} {msgs : List CosmosMsg}
    (h : Initializes s s' env poolType incentivesShare amount pool msgs) : External msgs := by
  obtain ⟨generator, height, -, rfl⟩ := h.messages
  intro m hm c
  simp only [List.mem_cons, List.not_mem_nil, or_false] at hm
  rcases hm with rfl | rfl <;> exact CosmosMsg.noConfusion

theorem receiveCw20_ok {env : Env} {info : MessageInfo} {msg : Cw20ReceiveMsg} {r : Response}
    (h : receiveCw20 s env info msg = .ok r) :
    r.ntrnRewardReceived = none ∧ msg.sender = s.config.auctionContract ∧
      ∃ poolType incentivesShare pool, msg.msg = some (.initializePool poolType incentivesShare) ∧
        Initializes s r.storage env poolType incentivesShare msg.amount pool r.messages := by
  unfold receiveCw20 at h
  simp only [bind_eq_ok, rejectIf_eq_ok, exists_const, okOr_eq_ok] at h
  obtain ⟨-, ⟨poolType, incentivesShare⟩, hmsg, h⟩ := h
  unfold handleInitializePool stakeMessages at h
  simp only [bind_eq_ok, rejectIf_eq_ok, exists_const, not_not, SnapshotMap.load,
    Map.load_eq_ok, okOr_eq_ok, Uint.checkedAdd_eq_ok, Except.ok.injEq] at h
  obtain ⟨hsender, pool, hpool, -, height, -, _, ⟨generator, hgenerator, rfl⟩, _, ⟨-, rfl⟩,
    rfl⟩ := h
  exact ⟨rfl, hsender, poolType, incentivesShare, pool, hmsg, hpool, rfl, generator, height,
    hgenerator, rfl⟩

/-- The messages of the owner and the one that adds incentives: no pool, lockup or user is
concerned. -/
def ExecuteMsg.reconfigures : ExecuteMsg → Bool
  | .increaseNTRNIncentives => true
  | .updateConfig _ => true
  | .proposeNewOwner _ _ => true
  | .dropOwnershipProposal => true
  | .claimOwnership => true
  | _ => false

/-- What the handler of each message does. -/
inductive Effect (q : Querier) (s : Storage) (env : Env) (info : MessageInfo) (r : Response) :
    ExecuteMsg → Prop
  | increase (key : LockupKey) (amount : Nat) (pool : PoolInfo) (weight : Nat)
      (lockup : LockupInfoV2) (userInfo : UserInfo) (hmsgs : r.messages = [])
      (h : Increases s r.storage env info key amount pool weight lockup userInfo) :
      Effect q s env info r (.increaseLockupFor key.user key.poolType amount key.duration)
  | withdraw (key : LockupKey) (amount : Nat) (pool : PoolInfo) (weight : Nat)
      (st : StoredLockup) (lockup : LockupInfoV2) (hmsgs : r.messages = [])
      (h : Withdraws s r.storage env info key amount pool weight st lockup) :
      Effect q s env info r (.withdrawFromLockup key.user key.poolType key.duration amount)
  | initPool (poolType : PoolType) (incentivesShare : Nat) (sender : Addr) (amount : Nat)
      (pool : PoolInfo) (hsender : sender = s.config.auctionContract)
      (h : Initializes s r.storage env poolType incentivesShare amount pool r.messages) :
      Effect q s env info r
        (.receive ⟨sender, amount, some (.initializePool poolType incentivesShare)⟩)
  | setTokenInfo (atomToken usdcToken generator : Addr) (hmsgs : r.messages = [])
      (h : r.storage = { s with
        assetPools := (s.assetPools.save .atom (.initial atomToken) env.height).save .usdc
          (.initial usdcToken) env.height
        config := { s.config with generator := some generator } }) :
      Effect q s env info r (.setTokenInfo atomToken usdcToken generator)
  | reconfigure (msg : ExecuteMsg) (hmsg : msg.reconfigures = true) (hmsgs : r.messages = [])
      (h : Reconfigures s r.storage)
      (hpcl : r.storage.pclLockdropContract = s.pclLockdropContract) :
      Effect q s env info r msg
  | claim (poolType : PoolType) (duration : Nat) (withdraw : Bool) (userInfo : UserInfo)
      (total : Nat) (t : Storage) (st : StoredLockup) (collect : List CosmosMsg)
      (h : StartsClaim q s r.storage env ⟨poolType, info.sender, duration⟩ withdraw r.messages
        userInfo total t st collect) :
      Effect q s env info r (.claimRewardsAndOptionallyUnlock poolType duration withdraw)
  | migrate (raw : Option Addr) (h : SameBooks s r.storage)
      (hmsgs : ∀ m ∈ r.messages, ∃ key : LockupKey, m = .callback
        (.initMigrateLockupToPCLPoolsCallback key.poolType key.user key.duration)) :
      Effect q s env info r (.migrateLiquidityToPCLPools raw)

/-- A message of somebody else than the contract: its effect, and no reward is booked by
the handler itself. -/
theorem execute_effect {env : Env} {info : MessageInfo} {msg : ExecuteMsg} {r : Response}
    (hsender : info.sender ≠ env.contract) (h : execute q s env info msg = .ok r) :
    r.ntrnRewardReceived = none ∧ Effect q s env info r msg := by
  cases msg with
  | increaseLockupFor userAddress poolType amount duration =>
      obtain ⟨hmsgs, hevent, pool, weight, lockup, userInfo, hinc⟩ := handleIncreaseLockup_ok h
      exact ⟨hevent, Effect.increase ⟨poolType, userAddress, duration⟩ amount pool weight lockup
        userInfo hmsgs hinc⟩
  | withdrawFromLockup userAddress poolType duration amount =>
      obtain ⟨hmsgs, hevent, pool, weight, st, lockup, hwith⟩ := handleWithdrawFromLockup_ok h
      exact ⟨hevent, Effect.withdraw ⟨poolType, userAddress, duration⟩ amount pool weight st
        lockup hmsgs hwith⟩
  | receive msg =>
      obtain ⟨hevent, hauction, poolType, incentivesShare, pool, hmsg, hinit⟩ := receiveCw20_ok h
      obtain ⟨sender, amount, _⟩ := msg
      obtain rfl := hmsg
      exact ⟨hevent, Effect.initPool poolType incentivesShare sender amount pool hauction hinit⟩
  | claimRewardsAndOptionallyUnlock poolType duration withdraw =>
      obtain ⟨hevent, userInfo, total, t, st, collect, hclaim⟩ :=
        handleClaimRewardsAndUnlockForLockup_ok h
      exact ⟨hevent, Effect.claim poolType duration withdraw userInfo total t st collect hclaim⟩
  | migrateLiquidityToPCLPools raw =>
      obtain ⟨hevent, hsame, hmsgs⟩ := handleMigrateLiquidityToPclPools_ok h
      exact ⟨hevent, Effect.migrate raw hsame hmsgs⟩
  | callback msg =>
      simp only [execute, bind_eq_ok, rejectIf_eq_ok, exists_const, not_not] at h
      exact absurd h.1 hsender
  | setTokenInfo atomToken usdcToken generator =>
      simp only [execute, handleSetTokenInfo, bind_eq_ok, rejectIf_eq_ok, exists_const,
        Except.ok.injEq] at h
      obtain ⟨-, rfl⟩ := h
      exact ⟨rfl, Effect.setTokenInfo atomToken usdcToken generator rfl rfl⟩
  | increaseNTRNIncentives =>
      simp only [execute, handleIncreasingNtrnIncentives, bind_eq_ok, rejectIf_eq_ok,
        exists_const, Except.ok.injEq] at h
      obtain ⟨_, -, -, coin, -, incentives, -, rfl⟩ := h
      exact ⟨rfl, Effect.reconfigure _ rfl rfl
        ⟨⟨rfl, rfl, rfl, rfl, rfl⟩, rfl, rfl, rfl, rfl, rfl⟩ rfl⟩
  | updateConfig newConfig =>
      simp only [execute, handleUpdateConfig, bind_eq_ok, rejectIf_eq_ok, exists_const,
        Except.ok.injEq] at h
      obtain ⟨-, -, rfl⟩ := h
      exact ⟨rfl, Effect.reconfigure _ rfl rfl
        ⟨⟨rfl, rfl, rfl, rfl, rfl⟩, rfl, rfl, rfl, rfl, rfl⟩ rfl⟩
  | proposeNewOwner owner expiresIn =>
      simp only [execute, bind_eq_ok, Except.ok.injEq] at h
      obtain ⟨p, -, rfl⟩ := h
      exact ⟨rfl, Effect.reconfigure _ rfl rfl
        ⟨.refl _, rfl, rfl, rfl, rfl, rfl⟩ rfl⟩
  | dropOwnershipProposal =>
      simp only [execute, bind_eq_ok, Except.ok.injEq] at h
      obtain ⟨_, -, rfl⟩ := h
      exact ⟨rfl, Effect.reconfigure _ rfl rfl
        ⟨.refl _, rfl, rfl, rfl, rfl, rfl⟩ rfl⟩
  | claimOwnership =>
      simp only [execute, bind_eq_ok, Except.ok.injEq] at h
      obtain ⟨owner, -, rfl⟩ := h
      exact ⟨rfl, Effect.reconfigure _ rfl rfl
        ⟨⟨rfl, rfl, rfl, rfl, rfl⟩, rfl, rfl, rfl, rfl, rfl⟩ rfl⟩

end NeutronTge.Lockdrop
