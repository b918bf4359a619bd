import NeutronTge.Lockdrop.Ledger

/-!
# NeutronTge.Lockdrop.Division

What a user gets of the one-time incentives. `userIncentives` is the sum over his lockups
of their parts, computed with the present shares and weights. `SameDivision` relates two
storages in which all these parts are the same: every step of a claim is of this kind, so
a user who was not paid before is paid `userIncentives` whenever he claims.
-/

namespace NeutronTge.Lockdrop

open CosmWasm Astroport Shares

variable {q : Querier} {s s' t : Storage}

namespace Storage

/-- The part of a lockup, zero when it cannot be computed. -/
def incentivesOf (s : Storage) (key : LockupKey) : Nat :=
  match s.assetPools.mayLoad key.poolType, s.lockupInfo.mayLoad key with
  | some pool, some st =>
      (lockupIncentives s key st.core.lpUnitsLocked pool).toOption.getD 0
  | _, _ => 0

/-- The parts of all lockups of a user. -/
def userIncentives (s : Storage) (u : Addr) : Nat :=
  s.lockupInfo.sum fun k _ => if k.user = u then s.incentivesOf k else 0

end Storage

theorem incentivesOf_eq {key : LockupKey} {st : StoredLockup} {pool : PoolInfo} {reward : Nat}
    (hst : s.lockupInfo.mayLoad key = some st)
    (hpool : s.assetPools.mayLoad key.poolType = some pool)
    (hreward : lockupIncentives s key st.core.lpUnitsLocked pool = .ok reward) :
    s.incentivesOf key = reward := by
  simp only [Storage.incentivesOf, hst, hpool, hreward]
  rfl

/-! ### Steps that keep the parts -/

/-- The data the parts depend on are the same. -/
structure SameDivision (s s' : Storage) : Prop where
  config : s'.config = s.config
  state : s'.state = s.state
  pools : ∀ p, (s'.assetPools.mayLoad p).map (fun pool =>
      (pool.weightedAmount, pool.incentivesShare)) =
    (s.assetPools.mayLoad p).map fun pool => (pool.weightedAmount, pool.incentivesShare)
  units : ∀ k, (s'.coreOf k).map LockupCore.lpUnitsLocked =
    (s.coreOf k).map LockupCore.lpUnitsLocked

namespace SameDivision

theorem refl (s : Storage) : SameDivision s s := ⟨rfl, rfl, fun _ => rfl, fun _ => rfl⟩

theorem trans (h : SameDivision s t) (h' : SameDivision t s') : SameDivision s s' :=
  ⟨h'.config.trans h.config, h'.state.trans h.state, fun p => (h'.pools p).trans (h.pools p),
    fun k => (h'.units k).trans (h.units k)⟩

theorem incentivesOf (h : SameDivision s s') (k : LockupKey) :
    s'.incentivesOf k = s.incentivesOf k := by
  have hpool := h.pools k.poolType
  have hunits := h.units k
  unfold Storage.incentivesOf Storage.coreOf at *
  cases hp : s.assetPools.mayLoad k.poolType <;>
    cases hp' : s'.assetPools.mayLoad k.poolType <;>
    cases hst : s.lockupInfo.mayLoad k <;> cases hst' : s'.lockupInfo.mayLoad k <;>
    simp only [hp, hp', hst, hst', Option.map_some, Option.map_none, Option.some.injEq,
      reduceCtorEq, Prod.mk.injEq] at hpool hunits ⊢
  unfold lockupIncentives
  rw [h.config, h.state, hunits, hpool.1, hpool.2]

theorem userIncentives (h : SameDivision s s') (u : Addr) :
    s'.userIncentives u = s.userIncentives u :=
  Map.sum_eq_of_mayLoad fun k => by
    have hunits := congrArg Option.isSome (h.units k)
    simp only [Storage.coreOf, Option.isSome_map] at hunits
    rw [h.incentivesOf]
    cases hst : s.lockupInfo.mayLoad k <;> cases hst' : s'.lockupInfo.mayLoad k <;>
      simp_all

/-- A lockup is stored again with the units it had. -/
theorem saveLockup {key : LockupKey} {core : LockupCore} {info : LockupInfoV2}
    (hcore : s.coreOf key = some core) (hunits : info.lpUnitsLocked = core.lpUnitsLocked)
    (hlockups : s'.lockupInfo = s.lockupInfo.save key (.v2 info)) (k : LockupKey) :
    (s'.coreOf k).map LockupCore.lpUnitsLocked = (s.coreOf k).map LockupCore.lpUnitsLocked := by
  rw [coreOf_save hlockups]
  split_ifs with hk
  · rw [hk, hcore, Option.map_some, Option.map_some, ← hunits]
    rfl
  · rfl

/-- A pool is stored again with the weight and the share it had. -/
theorem savePool {p : PoolType} {pool pool' : PoolInfo} {height : Nat}
    (hpool : s.assetPools.mayLoad p = some pool)
    (hpools : s'.assetPools = s.assetPools.save p pool' height)
    (hweight : pool'.weightedAmount = pool.weightedAmount)
    (hshare : pool'.incentivesShare = pool.incentivesShare) (p' : PoolType) :
    (s'.assetPools.mayLoad p').map (fun pool => (pool.weightedAmount, pool.incentivesShare)) =
      (s.assetPools.mayLoad p').map fun pool => (pool.weightedAmount, pool.incentivesShare) := by
  rw [hpools]
  by_cases hp : p' = p
  · rw [hp, SnapshotMap.mayLoad_save, hpool, Option.map_some, Option.map_some, hweight, hshare]
  · rw [SnapshotMap.mayLoad_save_ne hp]

end SameDivision

theorem SameBooks.sameDivision (h : SameBooks s s') : SameDivision s s' :=
  ⟨h.config, h.state, fun p => by rw [h.assetPools],
    fun k => congrArg (Option.map LockupCore.lpUnitsLocked) (h.lockups k)⟩

theorem Books.sameDivision {env : Env} {p : PoolType} {pool : PoolInfo} {generator : Addr}
    {deposit received : Nat} {proxyPerShare : RestrictedVector AssetInfo Decimal}
    (h : Books q s s' env p pool generator deposit received proxyPerShare) :
    SameDivision s s' := by
  obtain rfl := h.storage
  exact ⟨rfl, rfl, SameDivision.savePool h.pool_eq rfl rfl rfl, fun _ => rfl⟩

theorem Closes.sameDivision {height : Nat} {key : LockupKey} {pool : PoolInfo}
    {lockup : LockupInfoV2} {amount : Nat} {core : LockupCore}
    (h : Closes s s' height key pool lockup amount)
    (hpool : s.assetPools.mayLoad key.poolType = some pool) (hcore : s.coreOf key = some core)
    (hunits : lockup.lpUnitsLocked = core.lpUnitsLocked) : SameDivision s s' := by
  refine ⟨h.config, h.state, SameDivision.savePool hpool h.assetPools rfl rfl,
    SameDivision.saveLockup hcore ?_ h.lockupInfo⟩
  exact hunits

/-! ### The total of a user -/

/-- The durations of a user's lockups of one pool, as a sum over all lockups. -/
theorem sum_storedDurations (s : Storage) (p : PoolType) (u : Addr) :
    ((storedDurations s.lockupInfo p u).map fun d => s.incentivesOf ⟨p, u, d⟩).sum =
      s.lockupInfo.sum fun k _ =>
        if k.poolType = p ∧ k.user = u then s.incentivesOf k else 0 := by
  have hperm : (storedDurations s.lockupInfo p u).Perm ((s.lockupInfo.keys.filter
      fun k => k.poolType = p ∧ k.user = u).map LockupKey.duration) :=
    List.perm_insertionSort _ _
  rw [(hperm.map _).sum_eq, List.map_map, ← Map.sum_filter_keys]
  refine congrArg List.sum (List.map_congr_left fun k hk => ?_)
  obtain ⟨rfl, rfl⟩ : k.poolType = p ∧ k.user = u := by simpa using (List.mem_filter.mp hk).2
  rfl

/-- A pool that does not exist gives nothing. -/
theorem sum_incentives_no_pool {p : PoolType} (hnone : s.assetPools.primary.has p = false)
    (u : Addr) : (s.lockupInfo.sum fun k _ =>
      if k.poolType = p ∧ k.user = u then s.incentivesOf k else 0) = 0 := by
  have hpool : s.assetPools.mayLoad p = none := by
    change s.assetPools.primary.mayLoad p = none
    simpa [Map.has] using hnone
  refine Eq.trans (Map.sum_congr fun k st _ => ?_) (Map.sum_zero s.lockupInfo)
  split_ifs with hk
  · obtain ⟨rfl, -⟩ := hk
    simp only [Storage.incentivesOf, hpool]
  · rfl

/-- The keys the loop visits are the user's lockups, pool by pool. -/
theorem sum_userLockupKeys (s : Storage) (u : Addr) :
    ((userLockupKeys s u).map s.incentivesOf).sum = s.userIncentives u := by
  have hpool : ∀ p, (((if s.assetPools.primary.has p then [p] else []).flatMap fun p =>
        (storedDurations s.lockupInfo p u).map fun d => (⟨p, u, d⟩ : LockupKey)).map
          s.incentivesOf).sum =
      s.lockupInfo.sum fun k _ =>
        if k.poolType = p ∧ k.user = u then s.incentivesOf k else 0 := by
    intro p
    cases hhas : s.assetPools.primary.has p with
    | true =>
        rw [← sum_storedDurations]
        simp [List.map_map, Function.comp_def]
    | false =>
        rw [sum_incentives_no_pool hhas]
        rfl
  have hkeys : userLockupKeys s u =
      ((if s.assetPools.primary.has .atom then [PoolType.atom] else []).flatMap fun p =>
        (storedDurations s.lockupInfo p u).map fun d => (⟨p, u, d⟩ : LockupKey)) ++
      ((if s.assetPools.primary.has .usdc then [PoolType.usdc] else []).flatMap fun p =>
        (storedDurations s.lockupInfo p u).map fun d => (⟨p, u, d⟩ : LockupKey)) := by
    unfold userLockupKeys storedKeys storedPools PoolType.all
    rw [List.filter_cons, List.filter_cons, List.filter_nil]
    split_ifs <;> simp
  rw [hkeys, List.map_append, List.sum_append, hpool, hpool, ← Map.sum_add]
  refine Map.sum_congr fun k st _ => ?_
  cases k.poolType <;> simp

/-- Every lockup the loop visits belongs to the user. -/
theorem user_of_mem_userLockupKeys {u : Addr} {k : LockupKey} (h : k ∈ userLockupKeys s u) :
    k.user = u := by
  obtain ⟨p, -, hk⟩ := List.mem_flatMap.mp h
  obtain ⟨d, -, rfl⟩ := List.mem_map.mp hk
  rfl

/-- The rewards stored for a user's lockups are the present parts. -/
def UpToDate (s : Storage) (u : Addr) : Prop :=
  ∀ k st, k.user = u → s.lockupInfo.mayLoad k = some st →
    st.ntrnRewards = 0 ∨ st.ntrnRewards = s.incentivesOf k

/-- One lockup of the loop contributes its part. -/
theorem Rewarded.incentivesOf {key : LockupKey} {reward : Nat} (h : Rewarded s key reward s')
    (hdate : UpToDate s key.user) :
    reward = s.incentivesOf key ∧ UpToDate s' key.user := by
  have hsame := h.sameBooks.sameDivision
  cases h with
  | stored st hst hne => exact ⟨(hdate key st rfl hst).resolve_left hne, hdate⟩
  | computed st pool info _ hst _ hpool hreward _ hinfo =>
      have heq := incentivesOf_eq hst hpool hreward
      refine ⟨heq.symm, fun k st' hk hst' => ?_⟩
      rw [hsame.incentivesOf]
      dsimp only at hst'
      rw [Map.mayLoad_save_eq] at hst'
      split_ifs at hst' with hkey
      · obtain rfl := Option.some.inj hst'
        rw [hkey, heq]
        exact Or.inr hinfo
      · exact hdate k st' hk hst'

/-- The total of a user is the sum of the parts of his lockups. -/
theorem updateUserLockupPositionsAndCalcRewards_total {u : Addr} {total : Nat}
    (h : updateUserLockupPositionsAndCalcRewards q s u = .ok (total, s'))
    (hdate : UpToDate s u) : total = s.userIncentives u := by
  unfold updateUserLockupPositionsAndCalcRewards at h
  rw [← sum_userLockupKeys]
  refine addAmounts_total (P := fun t => UpToDate t u ∧ t.incentivesOf = s.incentivesOf) ?_
    ⟨hdate, rfl⟩ h
  rintro t key reward t' hkey ⟨hdate, hparts⟩ hupdate
  have hrewarded := updateLockupReward_ok hupdate
  obtain rfl := user_of_mem_userLockupKeys hkey
  obtain ⟨hreward, hdate'⟩ := hrewarded.incentivesOf hdate
  have hsame : t'.incentivesOf = t.incentivesOf :=
    funext hrewarded.sameBooks.sameDivision.incentivesOf
  exact ⟨hreward.trans (congrFun hparts key), hdate', hsame.trans hparts⟩

end NeutronTge.Lockdrop
