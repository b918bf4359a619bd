import NeutronTge.Lockdrop.Limits

/-!
# NeutronTge.Lockdrop.Binding

What binds a pool to its LP token and the generator. `SetTokenInfo` writes both pools anew.
Any other message keeps the LP token of a pool, never takes a staked pool back, only lets the
rewards per share grow, and changes the weight and the share of incentives in one way each;
the generator stays as long as a pool is staked (`pools_stay_bound`).
-/

namespace NeutronTge.Lockdrop

open CosmWasm Astroport

variable {E : Type} {x : Externals E} {q : Querier} {s s' t : Storage} {w w' : World E}

/-! ### Claims and migrations -/

/-- A pool grows: more rewards per share, and everything but the amount in lockups is the
same. -/
structure PoolInfo.Grows (pool pool' : PoolInfo) : Prop where
  lpToken : pool'.lpToken = pool.lpToken
  staked : pool'.isStaked = pool.isStaked
  weighted : pool'.weightedAmount = pool.weightedAmount
  share : pool'.incentivesShare = pool.incentivesShare
  ntrn : pool.generatorNtrnPerShare.atomics ≤ pool'.generatorNtrnPerShare.atomics
  proxy : ∀ asset, pool.generatorProxyPerShare.atomicsOf asset ≤
    pool'.generatorProxyPerShare.atomicsOf asset

theorem PoolInfo.Grows.refl (pool : PoolInfo) : pool.Grows pool :=
  ⟨rfl, rfl, rfl, rfl, le_rfl, fun _ => le_rfl⟩

theorem PoolInfo.Grows.trans {p₁ p₂ p₃ : PoolInfo} (h : p₁.Grows p₂) (h' : p₂.Grows p₃) :
    p₁.Grows p₃ where
  lpToken := h'.lpToken.trans h.lpToken
  staked := h'.staked.trans h.staked
  weighted := h'.weighted.trans h.weighted
  share := h'.share.trans h.share
  ntrn := h.ntrn.trans h'.ntrn
  proxy asset := (h.proxy asset).trans (h'.proxy asset)

/-- The configuration is the same, and the pools grow. -/
structure PoolsGrow (s s' : Storage) : Prop where
  config : s'.config = s.config
  pools : ∀ p pool, s.assetPools.mayLoad p = some pool →
    ∃ pool', s'.assetPools.mayLoad p = some pool' ∧ pool.Grows pool'
  absent : ∀ p, s.assetPools.mayLoad p = none → s'.assetPools.mayLoad p = none

section Saved

variable {p p' : PoolType} {pool pool' old : PoolInfo} {height : Nat}

/-- One pool is stored again: it is that pool, or another one that stays. -/
theorem saved_cases (hpool : s.assetPools.mayLoad p = some pool)
    (hpools : s'.assetPools = s.assetPools.save p pool' height)
    (hold : s.assetPools.mayLoad p' = some old) :
    (p' = p ∧ old = pool ∧ s'.assetPools.mayLoad p' = some pool') ∨
      (p' ≠ p ∧ s'.assetPools.mayLoad p' = some old) := by
  rw [hpools]
  by_cases hp : p' = p
  · subst hp
    exact .inl ⟨rfl, Option.some.inj (hold.symm.trans hpool), SnapshotMap.mayLoad_save ..⟩
  · rw [SnapshotMap.mayLoad_save_ne hp]
    exact .inr ⟨hp, hold⟩

theorem saved_absent (hpool : s.assetPools.mayLoad p = some pool)
    (hpools : s'.assetPools = s.assetPools.save p pool' height)
    (hnone : s.assetPools.mayLoad p' = none) : s'.assetPools.mayLoad p' = none := by
  have hp : p' ≠ p := by
    rintro rfl
    rw [hpool] at hnone
    cases hnone
  rw [hpools, SnapshotMap.mayLoad_save_ne hp, hnone]

end Saved

namespace PoolsGrow

theorem of_same (hconfig : s'.config = s.config) (hpools : s'.assetPools = s.assetPools) :
    PoolsGrow s s' :=
  ⟨hconfig, fun p pool hpool => ⟨pool, by rw [hpools, hpool], .refl pool⟩,
    fun p hp => by rw [hpools, hp]⟩

theorem trans (h : PoolsGrow s t) (h' : PoolsGrow t s') : PoolsGrow s s' where
  config := h'.config.trans h.config
  pools p pool hpool := by
    obtain ⟨pool', hpool', hgrows⟩ := h.pools p pool hpool
    obtain ⟨pool'', hpool'', hgrows'⟩ := h'.pools p pool' hpool'
    exact ⟨pool'', hpool'', hgrows.trans hgrows'⟩
  absent p hp := h'.absent p (h.absent p hp)

theorem lpTokenOf (h : PoolsGrow s s') (p : PoolType) : s'.lpTokenOf p = s.lpTokenOf p := by
  cases hpool : s.assetPools.mayLoad p with
  | none => rw [Storage.lpTokenOf, h.absent p hpool, Storage.lpTokenOf, hpool]
  | some pool =>
      obtain ⟨pool', hpool', hgrows⟩ := h.pools p pool hpool
      rw [lpTokenOf_of_mayLoad hpool', lpTokenOf_of_mayLoad hpool, hgrows.lpToken]

/-- One pool is stored again. -/
theorem of_save {p : PoolType} {pool pool' : PoolInfo} {height : Nat}
    (hconfig : s'.config = s.config) (hpool : s.assetPools.mayLoad p = some pool)
    (hpools : s'.assetPools = s.assetPools.save p pool' height) (hgrows : pool.Grows pool') :
    PoolsGrow s s' := by
  refine ⟨hconfig, fun p' old hold => ?_, fun p' => saved_absent hpool hpools⟩
  rcases saved_cases hpool hpools hold with ⟨-, rfl, hnew⟩ | ⟨-, hsame⟩
  · exact ⟨pool', hnew, hgrows⟩
  · exact ⟨old, hsame, .refl old⟩

end PoolsGrow

theorem SameBooks.poolsGrow (h : SameBooks s s') : PoolsGrow s s' :=
  .of_same h.config h.assetPools

/-- A lockup that is closed leaves its pool's rewards alone. -/
theorem Closes.poolsGrow {height : Nat} {key : LockupKey} {pool : PoolInfo}
    {lockup : LockupInfoV2} {amount : Nat} (h : Closes s s' height key pool lockup amount)
    (hpool : s.assetPools.mayLoad key.poolType = some pool) : PoolsGrow s s' :=
  .of_save h.config hpool h.assetPools ⟨rfl, rfl, rfl, rfl, le_rfl, fun _ => le_rfl⟩

theorem PaysNtrn.poolsGrow {user : Addr} {userInfo : UserInfo} {msgs : List CosmosMsg}
    (h : PaysNtrn s user userInfo s' msgs) : PoolsGrow s s' := by
  cases h with
  | already => exact .of_same rfl rfl
  | now => exact .of_same rfl rfl

theorem updatePool_poolsGrow {env : Env} {poolType : PoolType} {prev : Nat}
    {prevProxy : List Asset} {r : Response}
    (h : updatePoolOnDualRewardsClaim q s env poolType prev prevProxy = .ok r) :
    PoolsGrow s r.storage := by
  unfold updatePoolOnDualRewardsClaim at h
  simp only [bind_eq_ok, SnapshotMap.load, Map.load_eq_ok, FixedPoint.checkedAdd_eq_ok,
    Except.ok.injEq] at h
  obtain ⟨pool, hpool, _, -, _, -, _, -, _, -, _, -, increment, -, _, ⟨-, rfl⟩, proxyPerShare,
    hproxy, rfl⟩ := h
  exact .of_save rfl hpool rfl
    ⟨rfl, rfl, rfl, rfl, Nat.le_add_right _ _, bookBalances_le hproxy⟩

theorem handleCallback_poolsGrow {env : Env} {msg : CallbackMsg} {r : Response}
    (h : handleCallback q s env msg = .ok r) : PoolsGrow s r.storage := by
  cases msg with
  | updatePoolOnDualRewardsClaim => exact updatePool_poolsGrow h
  | withdrawUserLockupRewardsCallback =>
      obtain ⟨-, pool, lockup, lockup', generator, share, t, rewardMsgs, exitMsgs, ntrnMsgs,
        hpays⟩ := callbackWithdrawUserRewards_ok h
      have hexits := hpays.exits
      cases hexits with
      | stored =>
          have hntrn := hpays.ntrn.poolsGrow
          exact ⟨hntrn.config, hntrn.pools, hntrn.absent⟩
      | closed _ hcloses => exact (hcloses.poolsGrow hpays.pool_eq).trans hpays.ntrn.poolsGrow
  | initMigrateLockupToPCLPoolsCallback =>
      obtain ⟨hstorage, -⟩ := callbackInitMigrateLockupToPclPools_ok h
      exact .of_same (by rw [hstorage]) (by rw [hstorage])
  | transferAllRewardsBeforeMigrationCallback =>
      obtain ⟨-, _, _, _, _, _, _, _, _, _, htransfers, -⟩ :=
        callbackTransferAllRewardsBeforeMigration_ok h
      exact htransfers.ntrn.poolsGrow
  | withdrawUserLockupCallback =>
      obtain ⟨-, pool, lockup, hwithdraws⟩ := callbackWithdrawUserLockup_ok h
      exact hwithdraws.closes.poolsGrow hwithdraws.pool_eq
  | migrateUserLockupToPCLPairCallback =>
      obtain ⟨hstorage, -⟩ := callbackMigrateUserLockupToPclPair_ok h
      exact .of_same (by rw [hstorage]) (by rw [hstorage])

/-- The messages of a handler, with all that they lead to. -/
theorem dispatchAll_poolsGrow {n : Nat} {msgs : List CosmosMsg}
    (h : msgs.foldlM (dispatch x n) w = .ok w') : PoolsGrow w.storage w'.storage := by
  refine Calls.invariant_all (Q := fun _ => True)
    (P := fun v : World E => PoolsGrow w.storage v.storage) ?_ ?_ (.of_same rfl rfl)
    (fun _ _ => trivial) h
  · exact fun _ _ _ hv _ _ => hv
  · exact fun v c r hv hr => ⟨hv.trans (handleCallback_poolsGrow hr), fun _ _ => trivial⟩

/-! ### One message -/

/-- What a pool keeps: its LP token, that it is staked, and its rewards per share. -/
structure PoolInfo.Keeps (pool pool' : PoolInfo) : Prop where
  lpToken : pool'.lpToken = pool.lpToken
  staked : pool.isStaked = true → pool'.isStaked = true
  ntrn : pool.generatorNtrnPerShare.atomics ≤ pool'.generatorNtrnPerShare.atomics
  proxy : ∀ asset, pool.generatorProxyPerShare.atomicsOf asset ≤
    pool'.generatorProxyPerShare.atomicsOf asset

theorem PoolInfo.Keeps.refl (pool : PoolInfo) : pool.Keeps pool :=
  ⟨rfl, id, le_rfl, fun _ => le_rfl⟩

theorem PoolInfo.Keeps.trans {p₁ p₂ p₃ : PoolInfo} (h : p₁.Keeps p₂) (h' : p₂.Keeps p₃) :
    p₁.Keeps p₃ where
  lpToken := h'.lpToken.trans h.lpToken
  staked := h'.staked ∘ h.staked
  ntrn := h.ntrn.trans h'.ntrn
  proxy asset := (h.proxy asset).trans (h'.proxy asset)

theorem PoolInfo.Grows.keeps {pool pool' : PoolInfo} (h : pool.Grows pool') : pool.Keeps pool' :=
  ⟨h.lpToken, fun hstaked => h.staked.trans hstaked, h.ntrn, h.proxy⟩

/-- The weight of a pool after a message: only an amount that is locked or withdrawn moves
it. -/
inductive Weighs (config : Config) (p : PoolType) (n : Nat) : ExecuteMsg → Nat → Prop
  | increased (user : Addr) (amount duration weight : Nat)
      (hweight : calculateWeight amount duration config = .ok weight) :
      Weighs config p n (.increaseLockupFor user p amount duration) (n + weight)
  | withdrawn (user : Addr) (duration amount weight : Nat)
      (hweight : calculateWeight amount duration config = .ok weight) (hle : weight ≤ n) :
      Weighs config p n (.withdrawFromLockup user p duration amount) (n - weight)
  | same (msg : ExecuteMsg)
      (hmsg : ∀ user amount duration, msg ≠ .increaseLockupFor user p amount duration ∧
        msg ≠ .withdrawFromLockup user p duration amount) : Weighs config p n msg n

/-- The share of incentives of a pool after a message: only the auction sets it. -/
inductive SetsShare (auction : Addr) (p : PoolType) (n : Nat) : ExecuteMsg → Nat → Prop
  | set (amount incentivesShare : Nat) :
      SetsShare auction p n (.receive ⟨auction, amount, some (.initializePool p incentivesShare)⟩)
        incentivesShare
  | same (msg : ExecuteMsg)
      (hmsg : ∀ sender amount incentivesShare,
        msg ≠ .receive ⟨sender, amount, some (.initializePool p incentivesShare)⟩) :
      SetsShare auction p n msg n

/-- Some pool is staked. -/
def Storage.Staked (s : Storage) : Prop :=
  ∃ p pool, s.assetPools.mayLoad p = some pool ∧ pool.isStaked = true

/-- What a message keeps and what it changes of the pools and the generator. -/
structure Binds (s s' : Storage) (msg : ExecuteMsg) : Prop where
  generator : s.Staked → s'.config.generator = s.config.generator
  generatorSet : s.config.generator ≠ none → s'.config.generator ≠ none
  pools : ∀ p pool, s.assetPools.mayLoad p = some pool →
    ∃ pool', s'.assetPools.mayLoad p = some pool' ∧ pool.Keeps pool' ∧
      Weighs s.config p pool.weightedAmount msg pool'.weightedAmount ∧
      SetsShare s.config.auctionContract p pool.incentivesShare msg pool'.incentivesShare
  absent : ∀ p, s.assetPools.mayLoad p = none → s'.assetPools.mayLoad p = none

/-- The messages that move neither a weight nor a share. -/
def ExecuteMsg.Plain (msg : ExecuteMsg) : Prop :=
  (∀ user p amount duration, msg ≠ .increaseLockupFor user p amount duration ∧
    msg ≠ .withdrawFromLockup user p duration amount) ∧
  ∀ sender amount p incentivesShare,
    msg ≠ .receive ⟨sender, amount, some (.initializePool p incentivesShare)⟩

section Binds

variable {msg : ExecuteMsg}

/-- A plain message that lets the pools grow. -/
theorem PoolsGrow.binds (h : PoolsGrow s s') (hmsg : msg.Plain) : Binds s s' msg := by
  constructor
  · intro _
    rw [h.config]
  · rw [h.config]
    exact id
  · intro p pool hpool
    obtain ⟨pool', hpool', hgrows⟩ := h.pools p pool hpool
    refine ⟨pool', hpool', hgrows.keeps, ?_, ?_⟩
    · rw [hgrows.weighted]
      exact .same msg fun user amount duration => hmsg.1 user p amount duration
    · rw [hgrows.share]
      exact .same msg fun sender amount incentivesShare => hmsg.2 sender amount p incentivesShare
  · exact h.absent

/-- A message that stores one pool again. -/
theorem Binds.of_save {p : PoolType} {pool pool' : PoolInfo} {height : Nat}
    (hconfig : s'.config = s.config) (hpool : s.assetPools.mayLoad p = some pool)
    (hpools : s'.assetPools = s.assetPools.save p pool' height) (hkeeps : pool.Keeps pool')
    (hweighs : Weighs s.config p pool.weightedAmount msg pool'.weightedAmount)
    (hshared : SetsShare s.config.auctionContract p pool.incentivesShare msg pool'.incentivesShare)
    (hothers : ∀ p', p' ≠ p → ∀ n, Weighs s.config p' n msg n ∧
      SetsShare s.config.auctionContract p' n msg n) : Binds s s' msg := by
  constructor
  · intro _
    rw [hconfig]
  · rw [hconfig]
    exact id
  · intro p' old hold
    rcases saved_cases hpool hpools hold with ⟨rfl, rfl, hnew⟩ | ⟨hp, hsame⟩
    · exact ⟨pool', hnew, hkeeps, hweighs, hshared⟩
    · exact ⟨old, hsame, .refl old, (hothers p' hp _).1, (hothers p' hp _).2⟩
  · exact fun p' => saved_absent hpool hpools

theorem Increases.binds {env : Env} {info : MessageInfo} {key : LockupKey} {amount weight : Nat}
    {pool : PoolInfo} {lockup : LockupInfoV2} {userInfo : UserInfo}
    (h : Increases s s' env info key amount pool weight lockup userInfo) :
    Binds s s' (.increaseLockupFor key.user key.poolType amount key.duration) := by
  refine .of_save h.config h.pool_eq h.assetPools ⟨rfl, id, le_rfl, fun _ => le_rfl⟩
    (.increased _ _ _ _ h.weight_eq) (.same _ fun _ _ _ => nofun) ?_
  intro p hp n
  refine ⟨.same _ fun user amount' duration => ⟨?_, nofun⟩, .same _ fun _ _ _ => nofun⟩
  intro heq
  exact hp (ExecuteMsg.increaseLockupFor.inj heq).2.1.symm

theorem Withdraws.binds {env : Env} {info : MessageInfo} {key : LockupKey} {amount weight : Nat}
    {pool : PoolInfo} {st : StoredLockup} {lockup : LockupInfoV2}
    (h : Withdraws s s' env info key amount pool weight st lockup) :
    Binds s s' (.withdrawFromLockup key.user key.poolType key.duration amount) := by
  refine .of_save h.config h.pool_eq h.assetPools ⟨rfl, id, le_rfl, fun _ => le_rfl⟩
    (.withdrawn _ _ _ _ h.weight_eq h.weight_le) (.same _ fun _ _ _ => nofun) ?_
  intro p hp n
  refine ⟨.same _ fun user amount' duration => ⟨nofun, ?_⟩, .same _ fun _ _ _ => nofun⟩
  intro heq
  exact hp (ExecuteMsg.withdrawFromLockup.inj heq).2.1.symm

theorem Initializes.binds {env : Env} {p : PoolType} {incentivesShare amount : Nat}
    {pool : PoolInfo} {msgs : List CosmosMsg}
    (h : Initializes s s' env p incentivesShare amount pool msgs) :
    Binds s s' (.receive ⟨s.config.auctionContract, amount,
      some (.initializePool p incentivesShare)⟩) := by
  have hpools : s'.assetPools = s.assetPools.save p
      { pool with incentivesShare := incentivesShare, isStaked := true } env.height := by
    rw [h.storage]
  refine .of_save (by rw [h.storage]) h.pool_eq hpools
    ⟨rfl, fun _ => rfl, le_rfl, fun _ => le_rfl⟩ (.same _ fun _ _ _ => ⟨nofun, nofun⟩)
    (.set amount incentivesShare) ?_
  intro p' hp n
  refine ⟨.same _ fun _ _ _ => ⟨nofun, nofun⟩, .same _ fun sender amount' share heq => hp ?_⟩
  simp only [ExecuteMsg.receive.injEq, Cw20ReceiveMsg.mk.injEq, Option.some.injEq,
    Cw20HookMsg.initializePool.injEq] at heq
  exact heq.2.2.1.symm

/-- Some staked pool is found by `handle_update_config`. -/
theorem find_staked (h : s.Staked) :
    ((poolTypes s).find? fun p => (s.assetPools.mayLoad p).any PoolInfo.isStaked).isSome =
      true := by
  obtain ⟨p, pool, hpool, hstaked⟩ := h
  rw [List.find?_isSome]
  refine ⟨p, ?_, ?_⟩
  · refine List.mem_filter.mpr ⟨by cases p <;> decide, ?_⟩
    show (s.assetPools.mayLoad p).isSome = true
    rw [hpool]
    rfl
  · rw [hpool]
    exact hstaked

theorem handleUpdateConfig_generator {info : MessageInfo} {newConfig : UpdateConfigMsg}
    {r : Response} (hset : s.config.generator ≠ none)
    (h : handleUpdateConfig s info newConfig = .ok r) :
    r.storage.config.generator ≠ none ∧
      (s.Staked → r.storage.config.generator = s.config.generator) := by
  unfold handleUpdateConfig at h
  simp only [bind_eq_ok, rejectIf_eq_ok, exists_const, Except.ok.injEq] at h
  obtain ⟨-, hguard, rfl⟩ := h
  show (newConfig.generatorAddress <|> s.config.generator) ≠ none ∧
    (s.Staked → (newConfig.generatorAddress <|> s.config.generator) = s.config.generator)
  cases hnew : newConfig.generatorAddress with
  | none => exact ⟨hset, fun _ => rfl⟩
  | some generator =>
      refine ⟨Option.some_ne_none generator, fun hstaked => absurd ?_ hguard⟩
      exact ⟨by rw [hnew]; rfl, Option.isSome_iff_ne_none.mpr hset, find_staked hstaked⟩

/-- The generator is known as soon as the pools are: `SetTokenInfo` writes both. -/
def Storage.KnowsGenerator (s : Storage) : Prop :=
  s.config.generator ≠ none ∨ ∀ p, s.assetPools.mayLoad p = none

/-- The handlers that reconfigure the lockdrop leave its pools alone. -/
theorem reconfigures_binds {env : Env} {info : MessageInfo} {r : Response}
    (hs : s.KnowsGenerator)
    (hmsg : msg.reconfigures = true) (hpools : r.storage.assetPools = s.assetPools)
    (h : execute q s env info msg = .ok r) : Binds s r.storage msg := by
  have hplain : msg.Plain := by
    refine ⟨fun _ _ _ _ => ⟨?_, ?_⟩, fun _ _ _ _ => ?_⟩ <;>
    · rintro rfl
      cases hmsg
  have hgrows : PoolsGrow s { r.storage with config := s.config } := .of_same rfl hpools
  have hbinds := hgrows.binds hplain
  have hgenerator : (s.config.generator ≠ none → r.storage.config.generator ≠ none) ∧
      (s.config.generator ≠ none → s.Staked →
        r.storage.config.generator = s.config.generator) := by
    cases msg with
    | updateConfig newConfig =>
        exact ⟨fun hne => (handleUpdateConfig_generator hne h).1,
          fun hne => (handleUpdateConfig_generator hne h).2⟩
    | increaseNTRNIncentives =>
        simp only [execute, handleIncreasingNtrnIncentives, bind_eq_ok, rejectIf_eq_ok,
          exists_const, Except.ok.injEq] at h
        obtain ⟨_, -, -, _, -, _, -, rfl⟩ := h
        exact ⟨id, fun _ _ => rfl⟩
    | proposeNewOwner owner expiresIn =>
        simp only [execute, bind_eq_ok, Except.ok.injEq] at h
        obtain ⟨_, -, rfl⟩ := h
        exact ⟨id, fun _ _ => rfl⟩
    | dropOwnershipProposal =>
        simp only [execute, bind_eq_ok, Except.ok.injEq] at h
        obtain ⟨_, -, rfl⟩ := h
        exact ⟨id, fun _ _ => rfl⟩
    | claimOwnership =>
        simp only [execute, bind_eq_ok, Except.ok.injEq] at h
        obtain ⟨_, -, rfl⟩ := h
        exact ⟨id, fun _ _ => rfl⟩
    | _ => cases hmsg
  refine ⟨fun hstaked => hgenerator.2 ?_ hstaked, hgenerator.1, hbinds.pools, hbinds.absent⟩
  -- a staked pool is a pool, so a generator is set
  obtain ⟨p, pool, hpool, -⟩ := hstaked
  refine hs.resolve_right fun hnone => ?_
  rw [hnone p] at hpool
  cases hpool

theorem Binds.knowsGenerator (h : Binds s s' msg) (hs : s.KnowsGenerator) : s'.KnowsGenerator :=
  hs.imp h.generatorSet fun hnone p => h.absent p (hnone p)

theorem World.execute_binds {info : MessageInfo} (hs : w.storage.KnowsGenerator)
    (hmsg : ∀ atomToken usdcToken generator, msg ≠ .setTokenInfo atomToken usdcToken generator)
    (h : w.execute x info msg = .ok w') : Binds w.storage w'.storage msg := by
  obtain ⟨r, hr, hrun, hsender⟩ := execute_ok h
  obtain ⟨-, heffect⟩ := execute_effect hsender hr
  have hstorage : External r.messages → w'.storage = r.storage :=
    fun hext => externals_storage hext hrun
  cases heffect with
  | increase key amount pool weight lockup userInfo hmsgs hincreases =>
      rw [hstorage (.of_nil hmsgs)]
      exact hincreases.binds
  | withdraw key amount pool weight st lockup hmsgs hwithdraws =>
      rw [hstorage (.of_nil hmsgs)]
      exact hwithdraws.binds
  | initPool poolType incentivesShare sender amount pool hauction hinit =>
      rw [hstorage hinit.external, hauction]
      exact hinit.binds
  | setTokenInfo => exact absurd rfl (hmsg _ _ _)
  | reconfigure msg hreconfigures hmsgs hsame =>
      rw [hstorage (.of_nil hmsgs)]
      exact reconfigures_binds hs hreconfigures hsame.assetPools hr
  | claim poolType duration withdraw userInfo total t st collect hclaim =>
      have hstarts : PoolsGrow w.storage (w.respond r).storage := hclaim.sameBooks.poolsGrow
      exact (hstarts.trans (dispatchAll_poolsGrow hrun)).binds
        ⟨fun _ _ _ _ => ⟨ExecuteMsg.noConfusion, ExecuteMsg.noConfusion⟩,
          fun _ _ _ _ => ExecuteMsg.noConfusion⟩
  | migrate raw hsame hmsgs =>
      have hstarts : PoolsGrow w.storage (w.respond r).storage := hsame.poolsGrow
      exact (hstarts.trans (dispatchAll_poolsGrow hrun)).binds
        ⟨fun _ _ _ _ => ⟨ExecuteMsg.noConfusion, ExecuteMsg.noConfusion⟩,
          fun _ _ _ _ => ExecuteMsg.noConfusion⟩

end Binds

/-! ### Runs -/

/-- Not a message that writes both pools anew. -/
def Action.KeepsTokenInfo (a : Action E) : Prop :=
  ∀ info atomToken usdcToken generator,
    a ≠ .execute info (.setTokenInfo atomToken usdcToken generator)

/-- What is bound stays bound: the generator of a staked pool, and what a pool keeps. -/
structure Bound (s s' : Storage) : Prop where
  generator : s.Staked → s'.config.generator = s.config.generator
  pools : ∀ p pool, s.assetPools.mayLoad p = some pool →
    ∃ pool', s'.assetPools.mayLoad p = some pool' ∧ pool.Keeps pool'

namespace Bound

theorem refl (s : Storage) : Bound s s :=
  ⟨fun _ => rfl, fun _ pool hpool => ⟨pool, hpool, .refl pool⟩⟩

theorem staked (h : Bound s s') : s.Staked → s'.Staked := by
  rintro ⟨p, pool, hpool, hstaked⟩
  obtain ⟨pool', hpool', hkeeps⟩ := h.pools p pool hpool
  exact ⟨p, pool', hpool', hkeeps.staked hstaked⟩

theorem trans (h : Bound s t) (h' : Bound t s') : Bound s s' where
  generator hstaked := (h'.generator (h.staked hstaked)).trans (h.generator hstaked)
  pools p pool hpool := by
    obtain ⟨pool', hpool', hkeeps⟩ := h.pools p pool hpool
    obtain ⟨pool'', hpool'', hkeeps'⟩ := h'.pools p pool' hpool'
    exact ⟨pool'', hpool'', hkeeps.trans hkeeps'⟩

end Bound

theorem Binds.bound {msg : ExecuteMsg} (h : Binds s s' msg) : Bound s s' where
  generator := h.generator
  pools p pool hpool := by
    obtain ⟨pool', hpool', hkeeps, -⟩ := h.pools p pool hpool
    exact ⟨pool', hpool', hkeeps⟩

theorem exec_bound {a : Action E} (hs : w.storage.KnowsGenerator) (ha : a.KeepsTokenInfo)
    (h : w.exec x a = .ok w') : Bound w.storage w'.storage := by
  cases a with
  | advance seconds blocks =>
      obtain rfl := Except.ok.inj h
      exact .refl _
  | drift ext =>
      obtain rfl := Except.ok.inj h
      exact .refl _
  | migrate pclLockdropContract =>
      obtain rfl := Except.ok.inj h
      exact ⟨fun _ => rfl, fun _ pool hpool => ⟨pool, hpool, .refl pool⟩⟩
  | execute info msg =>
      refine (World.execute_binds hs ?_ h).bound
      rintro atomToken usdcToken generator rfl
      exact ha info atomToken usdcToken generator rfl

/-- `SetTokenInfo` names the generator together with the pools. -/
theorem exec_knowsGenerator {a : Action E} (hs : w.storage.KnowsGenerator)
    (h : w.exec x a = .ok w') : w'.storage.KnowsGenerator := by
  cases a with
  | advance seconds blocks =>
      obtain rfl := Except.ok.inj h
      exact hs
  | drift ext =>
      obtain rfl := Except.ok.inj h
      exact hs
  | migrate pclLockdropContract =>
      obtain rfl := Except.ok.inj h
      exact hs
  | execute info msg =>
      by_cases hset : ∃ atomToken usdcToken generator,
          msg = .setTokenInfo atomToken usdcToken generator
      · obtain ⟨atomToken, usdcToken, generator, rfl⟩ := hset
        obtain ⟨r, hr, hrun, hsender⟩ := execute_ok h
        obtain ⟨-, heffect⟩ := execute_effect hsender hr
        cases heffect with
        | setTokenInfo _ _ _ hmsgs hstorage =>
            rw [hmsgs] at hrun
            obtain rfl := Except.ok.inj hrun
            refine Or.inl ?_
            show r.storage.config.generator ≠ none
            rw [hstorage]
            exact Option.some_ne_none generator
        | reconfigure _ hmsg => cases hmsg
      · refine (World.execute_binds hs ?_ h).knowsGenerator hs
        exact fun atomToken usdcToken generator heq => hset ⟨atomToken, usdcToken, generator, heq⟩

theorem run_knowsGenerator {env : Env} {info : MessageInfo} {msg : InstantiateMsg} {w₀ : World E}
    (hinit : instantiate env info msg = .ok w₀.storage) (as : List (Action E)) :
    (run (World.exec x) w₀ as).storage.KnowsGenerator := by
  refine run_invariant (fun v : World E => v.storage.KnowsGenerator)
    (fun _ _ _ => exec_knowsGenerator) (Or.inr fun p => ?_)
  rw [instantiate_ok hinit]
  rfl

/-- From a state on, one message binds as `Binds` says, and in every later state the pools
and the generator are still bound. -/
structure StaysBound (x : Externals E) (w : World E) : Prop where
  message : ∀ {info : MessageInfo} {msg : ExecuteMsg} {w' : World E},
    (∀ atomToken usdcToken generator, msg ≠ .setTokenInfo atomToken usdcToken generator) →
    w.exec x (.execute info msg) = .ok w' → Binds w.storage w'.storage msg
  later : ∀ as : List (Action E),
    Along (World.exec x) (fun _ a => a.KeepsTokenInfo) w as →
    Bound w.storage (run (World.exec x) w as).storage

/-- Every reachable state of the lockdrop stays bound, as long as the token info is not set
again. -/
theorem pools_stay_bound {env : Env} {info : MessageInfo} {msg : InstantiateMsg} {w₀ : World E}
    (hinit : instantiate env info msg = .ok w₀.storage) (as : List (Action E)) :
    StaysBound x (run (World.exec x) w₀ as) := by
  have hknows := run_knowsGenerator (x := x) hinit as
  constructor
  · intro info' msg' w' hmsg h
    exact World.execute_binds hknows hmsg h
  · intro bs hbs
    refine run_relation_along (fun v : World E => v.storage.KnowsGenerator)
      (fun v v' : World E => Bound v.storage v'.storage) (fun v => .refl v.storage)
      (fun _ _ _ => Bound.trans) ?_ ?_ hknows hbs
    · exact fun _ _ _ hv _ h => exec_knowsGenerator hv h
    · exact fun _ _ _ hv ha h => exec_bound hv ha h

/-- The pools of a lockdrop with a staked pool and an open lockup. -/
theorem pools_stay_bound_sample :
    StaysBound sampleExternals (run (World.exec sampleExternals) sampleStart
      (sampleLock ++ sampleMigration)) :=
  pools_stay_bound (show instantiate ⟨0, 1, "lockdrop"⟩ ⟨"owner", []⟩ sampleInstantiateMsg =
    .ok sampleStart.storage from rfl) _

/-- Alice's position in the books of a lockdrop: what binds it. -/
def Storage.bindings (s : Storage) (p : PoolType) :
    Option Addr × Option (Addr × Bool × Nat × Nat) :=
  (s.config.generator, (s.assetPools.mayLoad p).map fun pool =>
    (pool.lpToken, pool.isStaked, pool.weightedAmount, pool.incentivesShare))

/-- Alice's lockup is open and not staked yet. -/
def lockedState : World SampleExt := run (World.exec sampleExternals) sampleStart sampleLock

/-- Alice's lockup is open and staked. -/
def stakedState : World SampleExt :=
  run (World.exec sampleExternals) sampleStart (sampleLock ++ sampleMigration.take 1)

/-- With an open lockup that is not staked yet the owner names another generator, and once it
is staked `SetTokenInfo` starts its pool from scratch. -/
theorem bindings_come_loose :
    instantiate ⟨0, 1, "lockdrop"⟩ ⟨"owner", []⟩ sampleInstantiateMsg = .ok sampleStart.storage ∧
    lockedState.storage.openSum .atom = 10 ∧
    lockedState.storage.bindings .atom = (some "generator", some ("atom_lp", false, 10, 0)) ∧
    (lockedState.exec sampleExternals
        (.execute ⟨"owner", []⟩ (.updateConfig ⟨none, some "other"⟩))).map
      (fun w => w.storage.bindings .atom) =
        .ok (some "other", some ("atom_lp", false, 10, 0)) ∧
    stakedState.storage.openSum .atom = 10 ∧
    stakedState.storage.bindings .atom = (some "generator", some ("atom_lp", true, 10, 100)) ∧
    (stakedState.exec sampleExternals
        (.execute ⟨"manager", []⟩ (.setTokenInfo "other_lp" "usdc_lp" "other"))).map
      (fun w => w.storage.bindings .atom) =
        .ok (some "other", some ("other_lp", false, 0, 0)) := by
  refine ⟨rfl, ?_, ?_, ?_, ?_, ?_, ?_⟩ <;> decide +kernel

end NeutronTge.Lockdrop
