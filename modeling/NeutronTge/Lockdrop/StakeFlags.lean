import NeutronTge.Lockdrop.StakedPool

/-!
# NeutronTge.Lockdrop.StakeFlags

The flag `stake` of the messages that hand lockups over to the PCL lockdrop. The last callback
of a migration decides it from the deposit that is left at the generator. In a staked pool
nothing is left exactly when the last lockup left (`Views.deposit_eq_zero`), so the flags say
which migration drained the pool (`Views.stakeFlags`).
-/

namespace NeutronTge.Lockdrop

open CosmWasm Astroport Shares

variable {E : Type} {x : Externals E} {w w' : World E} {key : LockupKey} {p : PoolType}

/-! ### The flags in the trace -/

/-- The flag of a message that hands a lockup of a pool over. -/
def Event.stakeFlag (p : PoolType) : Event → Option Bool
  | .sent (.migrateXYKLiquidity _ _ poolType _ _ _ _ stake) =>
      if poolType = p then some stake else none
  | _ => none

/-- The flags of the lockups of a pool that were handed over, in their order. -/
def World.stakeFlags (w : World E) (p : PoolType) : List Bool :=
  w.trace.filterMap (Event.stakeFlag p)

theorem stakeFlags_append {events : List Event} (h : w'.trace = w.trace ++ events) :
    w'.stakeFlags p = w.stakeFlags p ++ events.filterMap (Event.stakeFlag p) := by
  unfold World.stakeFlags
  rw [h, List.filterMap_append]

/-- A message without a flag. -/
abbrev CosmosMsg.Flagless (p : PoolType) (m : CosmosMsg) : Prop :=
  (Event.sent m).stakeFlag p = none

theorem Event.Moves.stakeFlag {e : Event} (h : e.Moves (CosmosMsg.Flagless p)) :
    e.stakeFlag p = none := by
  cases e with
  | ntrnRewardReceived => rfl
  | sent m =>
      cases m with
      | migrateXYKLiquidity => exact h rfl
      | _ => rfl

theorem stakeFlags_of_moves
    (h : Appends (Event.Moves (CosmosMsg.Flagless p)) w.trace w'.trace) :
    w'.stakeFlags p = w.stakeFlags p := by
  obtain ⟨events, htrace, hmoves⟩ := h
  rw [stakeFlags_append htrace, List.filterMap_eq_nil_iff.mpr fun e he => (hmoves e he).stakeFlag,
    List.append_nil]

/-- A migration hands its lockup over last. -/
theorem Migrates.stakeFlags {pclLockdrop user : Addr} {funds : List Coin} {poolType : PoolType}
    {duration : Nat} {userInfo : UserInfo} {lockup : LockupInfoV2} {stake : Bool}
    (h : Migrates x key w w')
    (hlast : w'.trace.getLast? = some (.sent (.migrateXYKLiquidity pclLockdrop funds poolType
      user duration userInfo lockup stake))) :
    w' = w ∨ w'.stakeFlags p = w.stakeFlags p ++ if key.poolType = p then [stake] else [] := by
  cases h with
  | skipped st hst hclosed hsame => exact Or.inl hsame
  | migrated st w₁ w₂ rewardMsgs pool lockup₁ generator share accrued rewardToken proxy ntrnMsgs
      pool' lockup' pair last hst hopen hcollects hpays hexits =>
      have hpaid : w₂.stakeFlags p = w.stakeFlags p :=
        stakeFlags_of_moves (hcollects.moves.trans hpays.moves)
      obtain ⟨pclLockdrop', funds', stake', -, rfl⟩ := hexits.last_eq
      have htrace := hexits.trace
      rw [htrace, List.getLast?_append] at hlast
      injection Option.some.inj hlast with hmsg
      injection hmsg with _ _ _ _ _ _ _ hstake
      right
      rw [stakeFlags_append htrace, hpaid, ← hstake]
      simp only [List.filterMap_cons, List.filterMap_nil, Event.stakeFlag]
      split_ifs <;> rfl

/-! ### How the flag is decided -/

/-- The last message of a migration: the lockup is to be staked if its pool has no deposit at
the generator any more. -/
structure SendsLast (x : Externals E) (key : LockupKey) (w' : World E) (v : World E)
    (generator pclLockdrop : Addr) (pool : PoolInfo) (staked : Nat) (funds : List Coin)
    (userInfo : UserInfo) (lockup : LockupInfoV2) : Prop where
  generator_eq : w'.storage.config.generator = some generator
  pool_eq : w'.storage.assetPools.mayLoad key.poolType = some pool
  deposit_eq : (x.querier v.ext).deposit generator pool.lpToken = .ok staked
  exec : x.exec v.ext (.migrateXYKLiquidity pclLockdrop funds key.poolType key.user key.duration
    userInfo lockup (staked = 0)) = .ok w'.ext
  trace : w'.trace = v.trace ++ [.sent (.migrateXYKLiquidity pclLockdrop funds key.poolType
    key.user key.duration userInfo lockup (staked = 0))]

section Callbacks

variable {n : Nat}

theorem migrateUserLockup_last {ntrn paired : Nat} {denom : String}
    (h : dispatch x n w (.callback (.migrateUserLockupToPCLPairCallback key.poolType key.user
      key.duration ntrn denom paired)) = .ok w') :
    ∃ v generator pclLockdrop pool staked funds userInfo lockup,
      SendsLast x key w' v generator pclLockdrop pool staked funds userInfo lockup := by
  obtain ⟨m, r, hr, hrun⟩ := dispatch_callback h
  simp only [handleCallback, callbackMigrateUserLockupToPclPair, bind_eq_ok, okOr_eq_ok,
    SnapshotMap.load, Map.load_eq_ok, Except.ok.injEq] at hr
  obtain ⟨lockup, -, _, -, _, -, _, -, _, -, pclLockdrop, -, pool, hpool, generator, hgenerator,
    staked, hstaked, rfl⟩ := hr
  obtain ⟨ext, hexec, rfl⟩ := dispatch_external (fun _ => CosmosMsg.noConfusion)
    (foldlM_singleton_ok.mp hrun)
  exact ⟨w.respond _, generator, pclLockdrop, pool, staked, _, _, lockup, hgenerator, hpool,
    hstaked, hexec, rfl⟩

theorem withdrawUserLockup_last {generator lpToken : Addr} {share : Nat}
    (h : dispatch x n w (.callback (.withdrawUserLockupCallback key.poolType key.user
      key.duration generator lpToken share)) = .ok w') :
    ∃ v generator pclLockdrop pool staked funds userInfo lockup,
      SendsLast x key w' v generator pclLockdrop pool staked funds userInfo lockup := by
  obtain ⟨m, r, hr, hrun⟩ := dispatch_callback h
  obtain ⟨-, pool, lockup, hwithdraws⟩ := callbackWithdrawUserLockup_ok hr
  obtain ⟨pair, ntrnBalance, denom, balance, -, hmsgs⟩ := hwithdraws.messages
  rw [hmsgs] at hrun
  obtain ⟨w₁, -, hrun⟩ := foldlM_cons_ok.mp hrun
  obtain ⟨w₂, -, hrun⟩ := foldlM_cons_ok.mp hrun
  exact migrateUserLockup_last (foldlM_singleton_ok.mp hrun)

theorem transferAllRewards_last
    (h : dispatch x n w (.callback (.transferAllRewardsBeforeMigrationCallback key.poolType
      key.user key.duration)) = .ok w') :
    ∃ v generator pclLockdrop pool staked funds userInfo lockup,
      SendsLast x key w' v generator pclLockdrop pool staked funds userInfo lockup := by
  obtain ⟨m, r, hr, hrun⟩ := dispatch_callback h
  obtain ⟨-, rewardMsgs, pool, lockup, generator, share, accrued, rewardToken, proxy, ntrnMsgs, -,
    hmsgs⟩ := callbackTransferAllRewardsBeforeMigration_ok hr
  rw [hmsgs] at hrun
  obtain ⟨w₁, -, hrun⟩ := foldlM_append_ok.mp hrun
  exact withdrawUserLockup_last (foldlM_singleton_ok.mp hrun)

theorem initMigrate_last
    (h : dispatch x n w (.callback (.initMigrateLockupToPCLPoolsCallback key.poolType key.user
      key.duration)) = .ok w') :
    w' = w ∨ ∃ v generator pclLockdrop pool staked funds userInfo lockup,
      SendsLast x key w' v generator pclLockdrop pool staked funds userInfo lockup := by
  obtain ⟨m, r, hr, hrun⟩ := dispatch_callback h
  obtain ⟨hstorage, hevent, hstarts⟩ := callbackInitMigrateLockupToPclPools_ok hr
  have hrespond : w.respond r = w := by
    simp only [World.respond, Response.events, hevent, hstorage, List.append_nil]
  rw [hrespond] at hrun
  generalize r.messages = msgs at hrun hstarts
  cases hstarts with
  | skipped => exact Or.inl (Except.ok.inj hrun).symm
  | started st collect hst hopen hcollect =>
      obtain ⟨w₁, -, hrun⟩ := foldlM_append_ok.mp hrun
      exact Or.inr (transferAllRewards_last (foldlM_singleton_ok.mp hrun))

end Callbacks

/-! ### A pool that is drained -/

/-- Every stored lockup of a pool left. -/
def Storage.Drained (s : Storage) (p : PoolType) : Prop :=
  ∀ k core, k.poolType = p → s.coreOf k = some core → core.astroportLpTransferred ≠ none

theorem drained_congr {s s' : Storage}
    (h : ∀ k, k.poolType = p → s'.coreOf k = s.coreOf k) : s'.Drained p ↔ s.Drained p := by
  have hiff : ∀ k core, k.poolType = p →
      (s'.coreOf k = some core ↔ s.coreOf k = some core) := fun k core hk => by rw [h k hk]
  exact ⟨fun hd k core hk hcore => hd k core hk ((hiff k core hk).mpr hcore),
    fun hd k core hk hcore => hd k core hk ((hiff k core hk).mp hcore)⟩

variable {c : PoolSetup E} {rp₀ rp rp' : RewardPool LockupKey}

/-- The reward pool at the start: the lockups have units, and the generator has LP tokens of
theirs. -/
structure PoolSetup.Funded (c : PoolSetup E) (rp₀ : RewardPool LockupKey) : Prop where
  units : ∀ k ∈ c.keys, (rp₀.lots k).released = none → 0 < (rp₀.lots k).units
  deposit : 0 < rp₀.deposit

theorem PoolSetup.Steps.fair (hsteps : c.Steps rp rp') : rp.Fair c.keys rp' :=
  RewardPool.fair_steps (RewardPool.fair_refl rp) hsteps

namespace Views

/-- The lockups that a pool shows are those that are stored. -/
theorem drained_iff (hfunded : c.Funded rp₀) (hsteps : c.Steps rp₀ rp) (h : Views c w rp) :
    w.storage.Drained c.poolType ↔ rp.total c.keys = 0 := by
  have hfair := PoolSetup.Steps.fair hsteps
  constructor
  · intro hdrained
    refine Finset.sum_eq_zero fun k hk => ?_
    obtain ⟨core, hcore⟩ := h.core_of_mem hk
    have hleft := hdrained k core ((h.keys k).mp hk).1 hcore
    obtain ⟨amount, hamount⟩ := Option.ne_none_iff_exists'.mp hleft
    exact Lot.live_of_closed ((h.lots k hk core hcore).2.1.trans hamount) _
  · intro htotal k core hp hcore hopen
    have hk : k ∈ c.keys := (h.keys k).mpr ⟨hp, by rw [hcore]; rfl⟩
    have hreleased : (rp.lots k).released = none := (h.lots k hk core hcore).2.1.trans hopen
    have hreleased₀ : (rp₀.lots k).released = none := by
      cases hrel : (rp₀.lots k).released with
      | none => rfl
      | some a =>
          rw [hfair.once k a hrel] at hreleased
          cases hreleased
    have hunits := hfunded.units k hk hreleased₀
    have hle : rp.liveUnits k ≤ rp.total c.keys := RewardPool.liveUnits_le_total hk
    rw [RewardPool.liveUnits, Lot.live_of_open hreleased, hfair.units_eq] at hle
    omega

/-- Lockups that left do not come back. -/
theorem drained_mono (h : Views c w rp) (hsteps : c.Steps rp rp') (h' : Views c w' rp')
    (hdrained : w.storage.Drained c.poolType) : w'.storage.Drained c.poolType := by
  intro k core hp hcore
  have hk : k ∈ c.keys := (h'.keys k).mpr ⟨hp, by rw [hcore]; rfl⟩
  obtain ⟨core₀, hcore₀⟩ := h.core_of_mem hk
  obtain ⟨amount, hamount⟩ := Option.ne_none_iff_exists'.mp (hdrained k core₀ hp hcore₀)
  have hleft := (PoolSetup.Steps.fair hsteps).once k amount
    ((h.lots k hk core₀ hcore₀).2.1.trans hamount)
  rw [(h'.lots k hk core hcore).2.1] at hleft
  rw [hleft]
  exact Option.some_ne_none _

/-- A pool that once had open lockups is drained exactly when its deposit is. -/
theorem deposit_eq_zero (hfunded : c.Funded rp₀) (hsteps : c.Steps rp₀ rp) (h : Views c w rp)
    (hsteps' : c.Steps rp rp') (h' : Views c w' rp')
    (hopen : ¬ w.storage.Drained c.poolType) :
    rp'.deposit = 0 ↔ w'.storage.Drained c.poolType := by
  rw [h.drained_iff hfunded hsteps] at hopen
  rw [h'.drained_iff hfunded (hsteps.trans hsteps')]
  have htotal : 0 < rp₀.total c.keys :=
    (PoolSetup.Steps.fair hsteps).total_pos hfunded.deposit (Nat.pos_of_ne_zero hopen)
  exact (PoolSetup.Steps.fair (hsteps.trans hsteps')).deposit_eq_zero hfunded.deposit htotal

end Views

/-- What a migration says about staking: the flag of a lockup of the pool tells whether the
deposit is gone. -/
theorem Views.stakeFlags {n : Nat} (hgen : c.Honest x) (h' : Views c w' rp')
    {pclLockdrop user : Addr} {funds : List Coin} {poolType : PoolType} {duration : Nat}
    {userInfo : UserInfo} {lockup : LockupInfoV2} {stake : Bool}
    (h : dispatch x n w (.callback (.initMigrateLockupToPCLPoolsCallback key.poolType key.user
      key.duration)) = .ok w') (hne : w' ≠ w)
    (hlast : w'.trace.getLast? = some (.sent (.migrateXYKLiquidity pclLockdrop funds poolType
      user duration userInfo lockup stake))) :
    (w'.stakeFlags c.poolType =
      w.stakeFlags c.poolType ++ if key.poolType = c.poolType then [stake] else []) ∧
      (key.poolType = c.poolType → stake = decide (rp'.deposit = 0)) := by
  refine ⟨((migrates_ok h).stakeFlags hlast).resolve_left hne, fun hkey => ?_⟩
  obtain ⟨v, generator, pclLockdrop', pool, staked, funds', userInfo', lockup', hsends⟩ :=
    (initMigrate_last h).resolve_left hne
  rw [hsends.trace, List.getLast?_append] at hlast
  injection Option.some.inj hlast with hmsg
  injection hmsg with _ _ _ _ _ _ _ hstake
  have hgenerator := Option.some.inj (hsends.generator_eq.symm.trans h'.generator)
  obtain ⟨pool', hpool', -, htoken, -, -⟩ := h'.pool
  have hpool := hsends.pool_eq
  rw [hkey] at hpool
  obtain rfl := Option.some.inj (hpool.symm.trans hpool')
  -- the query came before the last message, which does not touch the deposit
  have hdeposit : c.deposit w'.ext = c.deposit v.ext :=
    hgen.neutral _ _ _ ⟨fun _ _ => CosmosMsg.noConfusion, fun _ _ => CosmosMsg.noConfusion⟩
      hsends.exec
  have hquery := hsends.deposit_eq
  rw [htoken, hgenerator, hgen.deposit] at hquery
  rw [← hstake, ← Except.ok.inj hquery, ← hdeposit, h'.deposit]

end NeutronTge.Lockdrop
