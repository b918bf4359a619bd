import Mathlib.Algebra.BigOperators.Option
import NeutronTge.Shares.RewardPool
import NeutronTge.LockdropPcl.Ledger
import NeutronTge.LockdropPcl.Rewards

/-!
# NeutronTge.LockdropPcl.Solvency

The rewards of the PCL lockdrop are covered. For every pool and every reward asset the
contract shows a `RewardPool`: the lots are the lockups of the pool, and one more lot holds
the units of lockups that were stored over, which nobody can take out. A claim settles the
assets that are listed, an exit may leave others unsettled, and neither makes the pool
insolvent. Before a pool is staked nothing is credited, so lockups may still come in.
-/

namespace NeutronTge.LockdropPcl

open CosmWasm Astroport Shares
open Lockdrop (PoolType LockupKey)

variable {E : Type} {x : Externals E} {w w' w₁ : World E} {b b' : Payments}

/-! ### The incentives contracts -/

/-- What the incentives contracts know of the lockdrop. -/
structure Incentives (E : Type) where
  /-- Its deposit of an LP token at an incentives contract. -/
  deposit : E → Addr → Addr → Nat
  /-- All that it received of an asset for an LP token. -/
  received : E → Addr → AssetInfo → Nat

/-- The messages that change the deposit of an LP token at an incentives contract. -/
def CosmosMsg.MovesDeposit (incentives lpToken : Addr) : CosmosMsg → Prop
  | .incentivesWithdraw i lp _ => i = incentives ∧ lp = lpToken
  | .sendDeposit lp i _ => i = incentives ∧ lp = lpToken
  | _ => False

/-- The incentives contracts say what the deposits are, and only the lockdrop's own messages
change them. The rewards of a claim are what its balances grow by, and the list of pending
rewards names each asset at most once. -/
structure Incentives.Honest (c : Incentives E) (x : Externals E) : Prop where
  answers : ∀ e incentives lp amount, (x.querier e).deposit incentives lp = .ok amount →
    amount = c.deposit e incentives lp
  withdraw : ∀ e e' incentives lp amount,
    x.exec e (.incentivesWithdraw incentives lp amount) = .ok e' →
      amount ≤ c.deposit e incentives lp ∧
        c.deposit e' incentives lp = c.deposit e incentives lp - amount
  neutral : ∀ e e' m incentives lp, ¬ m.MovesDeposit incentives lp → x.exec e m = .ok e' →
    c.deposit e' incentives lp = c.deposit e incentives lp
  claims : ∀ e e' incentives lp asset after,
    x.exec e (.claimRewards incentives [lp]) = .ok e' →
    (x.querier e').queryPool asset = .ok after →
      ∃ before, (x.querier e).queryPool asset = .ok before ∧
        after + c.received e lp asset ≤ before + c.received e' lp asset
  received_le : ∀ e e' m lp asset, x.exec e m = .ok e' →
    c.received e lp asset ≤ c.received e' lp asset
  pending : ∀ e incentives lp pending,
    (x.querier e).pendingRewards incentives lp = .ok pending → (pending.map Asset.info).Nodup

namespace Incentives.Honest

variable {c : Incentives E}

theorem neutral_run (hc : c.Honest x) {incentives lp : Addr} {msgs : List CosmosMsg} {e e' : E}
    (hmsgs : ∀ m ∈ msgs, ¬ m.MovesDeposit incentives lp)
    (h : msgs.foldlM x.exec e = .ok e') :
    c.deposit e' incentives lp = c.deposit e incentives lp :=
  foldlM_unchanged (fun t => c.deposit t incentives lp)
    (fun t t' m hm => hc.neutral t t' m _ _ (hmsgs m hm)) h

theorem received_run (hc : c.Honest x) {msgs : List CosmosMsg} {e e' : E} (lp : Addr)
    (asset : AssetInfo) (h : msgs.foldlM x.exec e = .ok e') :
    c.received e lp asset ≤ c.received e' lp asset :=
  foldlM_invariant (fun t => c.received e lp asset ≤ c.received t lp asset) (Nat.le_refl _)
    (fun t t' m _ ht hexec => ht.trans (hc.received_le t t' m lp asset hexec)) h

end Incentives.Honest

/-! ### What a claim moves -/

section PaysOut

variable {q : Querier} {s s' t : Storage} {height share : Nat} {key : LockupKey}
variable {withdraw : Bool} {msgs rewardMsgs exitMsgs ntrnMsgs : List CosmosMsg} {pool : PoolInfo}
variable {lockup lockup' : LockupInfo} {e e' : E}

/-- A claim touches no other deposit than that of its pool. -/
theorem PaysOut.neutral {incentives lp : Addr}
    (h : PaysOut q s s' height key withdraw msgs pool lockup lockup' share t rewardMsgs exitMsgs
      ntrnMsgs) (hne : s.config.incentives = incentives → pool.lpToken ≠ lp) :
    ∀ m ∈ msgs, ¬ m.MovesDeposit incentives lp := by
  intro m hm hmoves
  rcases h.mem hm with ⟨transfer, rfl⟩ | ⟨-, rfl⟩ | ⟨-, rfl⟩ | hntrn
  · exact hmoves
  · exact hne hmoves.1 hmoves.2
  · exact hmoves
  · rcases h.ntrn.mem hntrn with ⟨coin, rfl⟩ | ⟨credits, amount, rfl⟩ <;> exact hmoves

/-- The exit of a lockup takes its share out of the deposit, when the pool is staked. -/
theorem PaysOut.deposit {c : Incentives E} (hc : c.Honest x)
    (h : PaysOut q s s' height key withdraw msgs pool lockup lockup' share t rewardMsgs exitMsgs
      ntrnMsgs) (hstaked : pool.isStaked = true) (hrun : msgs.foldlM x.exec e = .ok e') :
    c.deposit e' s.config.incentives pool.lpToken =
      c.deposit e s.config.incentives pool.lpToken - if withdraw then share else 0 := by
  have hexits : ∀ m ∈ exitMsgs, ¬ m.MovesDeposit s.config.incentives pool.lpToken := by
    intro m hm hmoves
    obtain ⟨-, rfl⟩ := h.exits.mem hm
    exact hmoves
  have hntrn : ∀ m ∈ ntrnMsgs, ¬ m.MovesDeposit s.config.incentives pool.lpToken := by
    intro m hm hmoves
    rcases h.ntrn.mem hm with ⟨coin, rfl⟩ | ⟨credits, amount, rfl⟩ <;> exact hmoves
  rw [h.messages] at hrun
  obtain ⟨e₂, hrun, hrun₃⟩ := foldlM_append_ok.mp hrun
  obtain ⟨e₁, hrun₁, hrun₂⟩ := foldlM_append_ok.mp hrun
  rw [hc.neutral_run hntrn hrun₃, hc.neutral_run hexits hrun₂]
  have hrewards := h.rewards
  cases hrewards with
  | unstaked hno =>
      rw [hstaked] at hno
      cases hno
  | staked rewards debts pending =>
      obtain ⟨e₀, hpay, hunstake⟩ := foldlM_append_ok.mp hrun₁
      have htransfers : ∀ m ∈ pending.map (fun a => CosmosMsg.transfer (a.intoMsg key.user)),
          ¬ m.MovesDeposit s.config.incentives pool.lpToken := by
        intro m hm hmoves
        obtain ⟨a, -, rfl⟩ := List.mem_map.mp hm
        exact hmoves
      rw [← hc.neutral_run htransfers hpay]
      cases withdraw with
      | false =>
          obtain rfl := Except.ok.inj hunstake
          rfl
      | true => exact (hc.withdraw _ _ _ _ _ (foldlM_singleton_ok.mp hunstake)).2

/-- The open units of the pool after a claim for an open lockup. -/
theorem PaysOut.openSum
    (h : PaysOut q s s' height key withdraw msgs pool lockup lockup' share t rewardMsgs exitMsgs
      ntrnMsgs) (hopen : lockup.astroportLpTransferred = none) :
    s'.openSum key.poolType + (if withdraw then lockup.lpUnitsLocked else 0) =
      s.openSum key.poolType := by
  cases withdraw with
  | false =>
      exact sumWhere_congr (fun k : LockupKey => k.poolType = key.poolType)
        fun k _ => h.still.units k
  | true =>
      have hmoves := h.moves hopen
      have hsum : s'.openSum key.poolType + _ = s.openSum key.poolType + _ :=
        sumWhere_move (fun k : LockupKey => k.poolType = key.poolType) hmoves.others
      have hunits := hmoves.units
      rw [if_pos rfl, if_pos rfl] at hsum
      rw [if_pos rfl]
      omega

end PaysOut

/-! ### The reward pool of an asset -/

/-- A lockup as a lot of the reward pool of an asset. -/
def LockupCore.lot (asset : AssetInfo) (core : LockupCore) : Lot :=
  ⟨core.lpUnitsLocked, core.incentivesDebt.valueOf asset, core.astroportLpTransferred⟩

/-- The lots of a pool: its lockups, and one for the units that were stored over. -/
def Storage.lots (s : Storage) (p : PoolType) : Finset (Option LockupKey) :=
  Finset.insertNone (s.lockupInfo.keys.toFinset.filter fun k => k.poolType = p)

/-- The reward pool that a world shows for an asset. What was received before the run counts
as paid. -/
def rewardPool (c : Incentives E) (before : Addr → AssetInfo → Nat) (w : World E)
    (b : Payments) (p : PoolType) (pool : PoolInfo) (asset : AssetInfo) :
    RewardPool (Option LockupKey) where
  lots
    | none => ⟨pool.amountInLockups - w.storage.openSum p, 0, none⟩
    | some k => if k.poolType = p then (w.storage.coreOf k).elim ⟨0, 0, none⟩
        (LockupCore.lot asset) else ⟨0, 0, none⟩
  deposit := c.deposit w.ext w.storage.config.incentives pool.lpToken
  perShare := pool.incentivesRewardsPerShare.atomicsOf asset
  received := c.received w.ext pool.lpToken asset
  paid := b.pool p asset + before pool.lpToken asset

section Lots

variable {s s' : Storage} {p : PoolType}

theorem mem_lockups {k : LockupKey} :
    k ∈ s.lockupInfo.keys.toFinset.filter (fun k => k.poolType = p) ↔
      k.poolType = p ∧ (s.coreOf k).isSome = true := by
  rw [Finset.mem_filter, List.mem_toFinset, Map.mem_keys_iff, Storage.coreOf,
    Option.isSome_map, Option.isSome_iff_exists, and_comm]

theorem some_mem_lots {k : LockupKey} :
    some k ∈ s.lots p ↔ k.poolType = p ∧ (s.coreOf k).isSome = true := by
  rw [Storage.lots, Finset.some_mem_insertNone, mem_lockups]

theorem lots_congr (h : ∀ k, k.poolType = p → (s'.coreOf k).isSome = (s.coreOf k).isSome) :
    s'.lots p = s.lots p := by
  unfold Storage.lots
  congr 1
  ext k
  rw [mem_lockups, mem_lockups]
  constructor
  · rintro ⟨hk, hstored⟩
    exact ⟨hk, h k hk ▸ hstored⟩
  · rintro ⟨hk, hstored⟩
    exact ⟨hk, (h k hk).symm ▸ hstored⟩

theorem openSum_congr (h : ∀ k, k.poolType = p → s'.unitsOf k = s.unitsOf k) :
    s'.openSum p = s.openSum p :=
  sumWhere_congr _ h

end Lots

section RewardPools

variable {c : Incentives E} {before : Addr → AssetInfo → Nat} {p : PoolType} {pool : PoolInfo}
variable {asset : AssetInfo}

theorem rewardPool_lots {k : LockupKey} {core : LockupCore} (hk : k.poolType = p)
    (h : w.storage.coreOf k = some core) :
    (rewardPool c before w b p pool asset).lots (some k) = core.lot asset := by
  simp only [rewardPool, hk, if_true, h, Option.elim_some]

theorem rewardPool_liveUnits {k : LockupKey} (hk : k.poolType = p) :
    (rewardPool c before w b p pool asset).liveUnits (some k) = w.storage.unitsOf k := by
  rw [unitsOf_eq]
  unfold RewardPool.liveUnits
  simp only [rewardPool, hk, if_true]
  cases w.storage.coreOf k <;> rfl

/-- The units of all lots are the pool's amount. -/
theorem rewardPool_total (hledger : w.storage.openSum p ≤ pool.amountInLockups) :
    (rewardPool c before w b p pool asset).total (w.storage.lots p) = pool.amountInLockups := by
  have hsum : w.storage.openSum p =
      ∑ k ∈ w.storage.lockupInfo.keys.toFinset.filter (fun k => k.poolType = p),
        w.storage.unitsOf k := by
    refine groupSum_eq fun k => ?_
    rw [mem_lockups, Storage.coreOf, Option.isSome_map]
    rfl
  have hrest : (rewardPool c before w b p pool asset).liveUnits none =
      pool.amountInLockups - w.storage.openSum p := rfl
  have hlockups : ∑ k ∈ w.storage.lockupInfo.keys.toFinset.filter (fun k => k.poolType = p),
      (rewardPool c before w b p pool asset).liveUnits (some k) = w.storage.openSum p :=
    (Finset.sum_congr rfl fun k hk => rewardPool_liveUnits (mem_lockups.mp hk).1).trans hsum.symm
  unfold RewardPool.total Storage.lots
  rw [Finset.sum_insertNone, hrest, hlockups]
  omega

/-- The share of an open lockup. -/
theorem rewardPool_share (hledger : w.storage.openSum p ≤ pool.amountInLockups)
    {k : LockupKey} {core : LockupCore} (hk : k.poolType = p)
    (hcore : w.storage.coreOf k = some core) (hopen : core.astroportLpTransferred = none) :
    (rewardPool c before w b p pool asset).share (w.storage.lots p) (some k) =
      core.lpUnitsLocked * c.deposit w.ext w.storage.config.incentives pool.lpToken /
        pool.amountInLockups := by
  unfold RewardPool.share
  rw [rewardPool_total hledger, rewardPool_liveUnits hk, unitsOf_of_core hcore,
    LockupCore.openUnits_of_open hopen]
  rfl

/-- What the share of an open lockup has accrued. -/
theorem rewardPool_accrued (hledger : w.storage.openSum p ≤ pool.amountInLockups)
    {k : LockupKey} {core : LockupCore} (hk : k.poolType = p)
    (hcore : w.storage.coreOf k = some core) (hopen : core.astroportLpTransferred = none) :
    (rewardPool c before w b p pool asset).accrued (w.storage.lots p) FixedPoint.fractional
        (some k) =
      accruedOf pool.incentivesRewardsPerShare
        (core.lpUnitsLocked * c.deposit w.ext w.storage.config.incentives pool.lpToken /
          pool.amountInLockups) asset := by
  unfold RewardPool.accrued accruedOf
  rw [rewardPool_share hledger hk hcore hopen]
  rfl

end RewardPools

/-! ### What holds of a pool -/

/-- A pool whose rewards are covered, for every asset. -/
structure PoolCovers (c : Incentives E) (before : Addr → AssetInfo → Nat) (w : World E)
    (b : Payments) (p : PoolType) (pool : PoolInfo) : Prop where
  ledger : w.storage.openSum p ≤ pool.amountInLockups
  fresh : pool.isStaked = false → ∀ asset, b.pool p asset = 0 ∧
    ∀ k core, k.poolType = p → w.storage.coreOf k = some core →
      core.incentivesDebt.valueOf asset = 0
  solvent : ∀ asset, (rewardPool c before w b p pool asset).Solvent (w.storage.lots p)
    FixedPoint.fractional

namespace PoolCovers

variable {c : Incentives E} {before : Addr → AssetInfo → Nat} {p : PoolType}
variable {pool pool' : PoolInfo}

/-- A pool for which nothing was credited or paid. -/
theorem of_fresh (hledger : w.storage.openSum p ≤ pool.amountInLockups)
    (hperShare : ∀ asset, pool.incentivesRewardsPerShare.atomicsOf asset = 0)
    (hreceived : ∀ asset, before pool.lpToken asset ≤ c.received w.ext pool.lpToken asset)
    (hpaid : ∀ asset, b.pool p asset = 0)
    (hdebt : ∀ asset k core, k.poolType = p → w.storage.coreOf k = some core →
      core.incentivesDebt.valueOf asset = 0) : PoolCovers c before w b p pool where
  ledger := hledger
  fresh _ asset := ⟨hpaid asset, hdebt asset⟩
  solvent asset := by
    refine RewardPool.solvent_of_fresh (hperShare asset) (fun o ho => ?_) ?_
    · cases o with
      | none => rfl
      | some k =>
          obtain ⟨hk, hstored⟩ := some_mem_lots.mp ho
          obtain ⟨core, hcore⟩ := Option.isSome_iff_exists.mp hstored
          rw [rewardPool_lots hk hcore]
          exact hdebt asset k core hk hcore
    · show b.pool p asset + before pool.lpToken asset ≤ c.received w.ext pool.lpToken asset
      rw [hpaid, Nat.zero_add]
      exact hreceived asset

/-- A step that the pool does not notice. -/
theorem frame (h : PoolCovers c before w b p pool)
    (hcores : ∀ k, k.poolType = p → w'.storage.coreOf k = w.storage.coreOf k)
    (hdeposit : c.deposit w'.ext w'.storage.config.incentives pool.lpToken =
      c.deposit w.ext w.storage.config.incentives pool.lpToken)
    (hreceived : ∀ asset,
      c.received w.ext pool.lpToken asset ≤ c.received w'.ext pool.lpToken asset)
    (hpaid : ∀ asset, b'.pool p asset = b.pool p asset) :
    PoolCovers c before w' b' p pool where
  ledger := by
    rw [openSum_congr fun k hk => unitsOf_congr (hcores k hk)]
    exact h.ledger
  fresh hstaked asset := by
    obtain ⟨hzero, hdebts⟩ := h.fresh hstaked asset
    refine ⟨(hpaid asset).trans hzero, fun k core hk hcore => ?_⟩
    exact hdebts k core hk (hcores k hk ▸ hcore)
  solvent asset := by
    have hlots : w'.storage.lots p = w.storage.lots p :=
      lots_congr fun k hk => congrArg Option.isSome (hcores k hk)
    have hsum := openSum_congr fun k hk => unitsOf_congr (hcores k hk)
    rw [hlots]
    refine (h.solvent asset).congr (fun o => ?_) hdeposit rfl (hreceived asset)
      (congrArg (· + _) (hpaid asset))
    cases o with
    | none => simp only [rewardPool, hsum]
    | some k =>
        simp only [rewardPool]
        split_ifs with hk
        · rw [hcores k hk]
        · rfl

/-- The pool's rewards are claimed and booked. -/
theorem booked (hc : c.Honest x) (h : PoolCovers c before w b p pool) {pending : List Asset}
    {ext : E} {s : Storage} {deposit : Nat} {perShare : RestrictedVector AssetInfo Decimal}
    {trace : List CosmosMsg} (hstaked : pool.isStaked = true)
    (hpending : (x.querier w.ext).pendingRewards w.storage.config.incentives pool.lpToken =
      .ok pending)
    (hclaim : x.exec w.ext (.claimRewards w.storage.config.incentives [pool.lpToken]) = .ok ext)
    (hbooks : Books (x.querier ext) w.storage s w.env p (pending.map fun asset =>
      { asset with amount := ((x.querier w.ext).queryPool asset.info).toOption.getD 0 })
      pool deposit perShare) :
    PoolCovers c before { w with storage := s, ext := ext, trace := trace } b p
      { pool with incentivesRewardsPerShare := perShare } := by
  obtain rfl := hbooks.storage
  have hdeposit : c.deposit ext w.storage.config.incentives pool.lpToken =
      c.deposit w.ext w.storage.config.incentives pool.lpToken :=
    hc.neutral w.ext ext (.claimRewards w.storage.config.incentives [pool.lpToken]) _ _ id hclaim
  have hnodup : ((pending.map fun asset => { asset with
      amount := ((x.querier w.ext).queryPool asset.info).toOption.getD 0 }).map
        Asset.info).Nodup := by
    rw [List.map_map]
    exact hc.pending _ _ _ _ hpending
  obtain ⟨hothers, hbooked⟩ := bookBalances_ok hnodup hbooks.perShare_eq
  refine ⟨h.ledger, fun hno => ?_, fun asset => ?_⟩
  · rw [hstaked] at hno
    cases hno
  by_cases hmem : asset ∈ (pending.map fun asset => { asset with
      amount := ((x.querier w.ext).queryPool asset.info).toOption.getD 0 }).map Asset.info
  · obtain ⟨prev, hprev, rfl⟩ := List.mem_map.mp hmem
    obtain ⟨after, hafter, hgrown, -, hatomics⟩ := hbooked prev hprev
    obtain ⟨first, hfirst, hreceived⟩ := hc.claims _ _ _ _ _ _ hclaim hafter
    have hamount : prev.amount = first := by
      obtain ⟨asset, -, rfl⟩ := List.mem_map.mp hprev
      simp only [hfirst]
      rfl
    rw [hamount] at hgrown
    rw [hamount, hc.answers _ _ _ _ hbooks.deposit_eq, hdeposit] at hatomics
    have hsolvent := RewardPool.solvent_accrue (h.solvent prev.info) (after - first)
    -- the incentives contract sent at least what the balance grew by
    have hle : ((rewardPool c before w b p pool prev.info).accrue FixedPoint.fractional
        (after - first)).received ≤ c.received ext pool.lpToken prev.info := by
      show c.received w.ext pool.lpToken prev.info + (after - first) ≤ _
      omega
    exact hsolvent.congr (fun _ => rfl) hdeposit hatomics hle rfl
  · have hle := hc.received_le _ _ _ pool.lpToken asset hclaim
    exact (h.solvent asset).congr (fun _ => rfl) hdeposit (hothers asset hmem) hle rfl

/-- A lockup of a staked pool settles the assets of a list: its reward pool for an asset did
so, if the asset was on the list. -/
theorem settles (h : PoolCovers c before w b p pool) {asset : AssetInfo} {k : LockupKey}
    {lockup lockup' : LockupInfo} {assets : List AssetInfo} {pending : List Asset} {paid : Nat}
    (hk : k.poolType = p) (hcore : w.storage.coreOf k = some lockup.core)
    (hopen : lockup.astroportLpTransferred = none)
    (hsettled : Settled pool.incentivesRewardsPerShare
      (lockup.lpUnitsLocked * c.deposit w.ext w.storage.config.incentives pool.lpToken /
        pool.amountInLockups) assets (lockup.incentivesDebt, [])
        (lockup'.incentivesDebt, pending))
    (hpaid : paid + lockup.incentivesDebt.valueOf asset =
      lockup'.incentivesDebt.valueOf asset) :
    ∃ rp : RewardPool (Option LockupKey), rp.Solvent (w.storage.lots p) FixedPoint.fractional ∧
      rp.lots (some k) =
        ⟨lockup.lpUnitsLocked, lockup'.incentivesDebt.valueOf asset, none⟩ ∧
      (∀ o, o ≠ some k → rp.lots o = (rewardPool c before w b p pool asset).lots o) ∧
      rp.deposit = (rewardPool c before w b p pool asset).deposit ∧
      rp.perShare = (rewardPool c before w b p pool asset).perShare ∧
      rp.received = (rewardPool c before w b p pool asset).received ∧
      rp.paid = (rewardPool c before w b p pool asset).paid + paid ∧
      rp.share (w.storage.lots p) (some k) = lockup.lpUnitsLocked *
        c.deposit w.ext w.storage.config.incentives pool.lpToken / pool.amountInLockups := by
  have hmem : some k ∈ w.storage.lots p := some_mem_lots.mpr ⟨hk, by rw [hcore]; rfl⟩
  have hlot : (rewardPool c before w b p pool asset).lots (some k) = lockup.core.lot asset :=
    rewardPool_lots hk hcore
  have hshare := @rewardPool_share E w b c before p pool asset h.ledger k lockup.core hk hcore
    hopen
  have haccrued := @rewardPool_accrued E w b c before p pool asset h.ledger k lockup.core hk
    hcore hopen
  have hdebt := hsettled.debt asset
  dsimp only at hdebt
  -- an asset that is not listed, or was never credited, leaves the lockup's debt alone
  by_cases hlisted : asset ∈ assets ∧ pool.incentivesRewardsPerShare.atomicsOf asset ≠ 0
  · rw [if_pos hlisted] at hdebt
    refine ⟨(rewardPool c before w b p pool asset).settle (w.storage.lots p)
      FixedPoint.fractional (some k), RewardPool.solvent_settle (h.solvent asset) hmem ?_, ?_,
      fun o ho => RewardPool.settle_lots_of_ne _ _ ho, rfl, rfl, rfl, ?_, ?_⟩
    · rw [hlot]
      exact hopen
    · rw [RewardPool.settle_lots_self, hlot, haccrued, hdebt]
      exact congrArg (Lot.mk _ _) hopen
    · rw [RewardPool.settle_paid, haccrued, hlot]
      show _ + (_ - lockup.incentivesDebt.valueOf asset) = _
      rw [hdebt] at hpaid
      have heq : paid = accruedOf pool.incentivesRewardsPerShare (lockup.lpUnitsLocked *
        c.deposit w.ext w.storage.config.incentives pool.lpToken / pool.amountInLockups) asset -
          lockup.incentivesDebt.valueOf asset := by omega
      rw [heq]
      rfl
    · rw [RewardPool.share_settle]
      exact hshare
  · rw [if_neg hlisted] at hdebt
    refine ⟨rewardPool c before w b p pool asset, h.solvent asset, ?_, fun _ _ => rfl, rfl, rfl,
      rfl, ?_, hshare⟩
    · rw [hlot, hdebt]
      exact congrArg (Lot.mk _ _) hopen
    · omega

/-- The reward callback of a claim for a lockup of the pool. -/
theorem pays (hc : c.Honest x) (h : PoolCovers c before w b p pool) {key : LockupKey}
    {withdraw : Bool} {msgs : List CosmosMsg} {lockup lockup' : LockupInfo} {share : Nat}
    {t : Storage} {rewardMsgs exitMsgs ntrnMsgs : List CosmosMsg}
    (hpays : Pays x w w' key withdraw msgs pool lockup lockup' share t rewardMsgs exitMsgs
      ntrnMsgs) (hkey : key.poolType = p) (hopen : lockup.astroportLpTransferred = none)
    (hcredit : pool.isStaked = false →
      ∀ asset, pool.incentivesRewardsPerShare.atomicsOf asset = 0)
    (hreceived : ∀ asset, before pool.lpToken asset ≤ c.received w.ext pool.lpToken asset)
    (hpaid : ∀ asset, b'.pool p asset = b.pool p asset + transferred (fun t => t.info = asset)
      msgs) :
    PoolCovers c before w' b' p { pool with
      amountInLockups := pool.amountInLockups - if withdraw then lockup.lpUnitsLocked else 0 } := by
  have hout := hpays.paysOut
  obtain ⟨assets, pending, hlists, hsettled, htransfers⟩ := hout.settles
  obtain ⟨hcore', hothers⟩ := hout.coreOf
  have hcore : w.storage.coreOf key = some lockup.core := coreOf_of_load hout.lockup_eq
  have hsum := hout.openSum hopen
  rw [hkey] at hsum
  have hamount := h.ledger
  have hunits : (if withdraw then lockup.lpUnitsLocked else 0) ≤ w.storage.openSum p :=
    hsum ▸ Nat.le_add_left _ _
  have hgrows : ∀ asset,
      c.received w.ext pool.lpToken asset ≤ c.received w'.ext pool.lpToken asset :=
    fun asset => hc.received_run _ _ hpays.exec
  have hdebts : ∀ asset, transferred (fun t => t.info = asset) msgs +
      lockup.incentivesDebt.valueOf asset = lockup'.incentivesDebt.valueOf asset :=
    fun asset => htransfers _ asset (by simp)
  have hledger : w'.storage.openSum p ≤ pool.amountInLockups -
      if withdraw then lockup.lpUnitsLocked else 0 := by omega
  rcases hlists with ⟨hunstaked, rfl⟩ | ⟨hstaked, -⟩
  · -- nothing was ever credited, so nothing is paid
    have hsame : ∀ asset, lockup'.incentivesDebt.valueOf asset =
        lockup.incentivesDebt.valueOf asset := fun asset => by
      have hdebt := hsettled.debt asset
      rwa [if_neg fun h => absurd h.1 List.not_mem_nil] at hdebt
    have hfresh := h.fresh hunstaked
    refine of_fresh hledger (hcredit hunstaked) (fun asset => (hreceived asset).trans
      (hgrows asset)) (fun asset => ?_) fun asset k core hk hk' => ?_
    · have hzero := (hfresh asset).1
      have hnone := hdebts asset
      rw [hsame] at hnone
      rw [hpaid]
      omega
    · by_cases hkk : k = key
      · subst hkk
        obtain rfl := Option.some.inj (hcore'.symm.trans hk')
        exact (hsame asset).trans ((hfresh asset).2 _ _ hk hcore)
      · exact (hfresh asset).2 k core hk (hothers k hkk ▸ hk')
  · obtain ⟨balance, hbalance, -, hshare⟩ := astroportLpShare_ok hout.share_eq
    rw [lpBalance, if_pos hstaked] at hbalance
    rw [hc.answers _ _ _ _ hbalance] at hshare
    have hdeposit := hout.deposit hc hstaked hpays.exec
    rw [hshare] at hsettled
    have hconfig := hout.config
    have hlots : w'.storage.lots p = w.storage.lots p := by
      refine lots_congr fun k _ => ?_
      by_cases hk : k = key
      · rw [hk, hcore', hcore]
        rfl
      · rw [hothers k hk]
    refine ⟨hledger, fun hno => ?_, fun asset => ?_⟩
    · rw [hstaked] at hno
      cases hno
    obtain ⟨rp, hsolvent, hself, hrest, hdep, hper, hrec, hrpPaid, hrpShare⟩ :=
      h.settles hkey hcore hopen hsettled (hdebts asset)
    have hmem : some key ∈ w.storage.lots p := some_mem_lots.mpr ⟨hkey, by rw [hcore]; rfl⟩
    -- the lots other than this one
    have hlotsOf : ∀ o, o ≠ some key → (rewardPool c before w' b' p { pool with
        amountInLockups := pool.amountInLockups - if withdraw then lockup.lpUnitsLocked else 0 }
        asset).lots o = rp.lots o := by
      intro o ho
      rw [hrest o ho]
      cases o with
      | none =>
          have hrest : pool.amountInLockups - (if withdraw then lockup.lpUnitsLocked else 0) -
              w'.storage.openSum p = pool.amountInLockups - w.storage.openSum p := by omega
          simp only [rewardPool, hrest]
      | some k =>
          simp only [rewardPool]
          rw [hothers k fun hk => ho (congrArg some hk)]
    have hselfOf := @rewardPool_lots E w' b' c before p { pool with
        amountInLockups := pool.amountInLockups - if withdraw then lockup.lpUnitsLocked else 0 }
      asset key _ hkey hcore'
    have hpaidOf : b'.pool p asset + before pool.lpToken asset = rp.paid := by
      rw [hrpPaid, hpaid]
      show _ = b.pool p asset + before pool.lpToken asset + _
      omega
    rw [hlots]
    cases withdraw with
    | false =>
        refine hsolvent.congr (fun o => ?_) ?_ hper.symm (hrec ▸ hgrows asset) hpaidOf
        · by_cases ho : o = some key
          · rw [ho, hself, hselfOf]
            exact congrArg (Lot.mk _ _) hopen
          · exact hlotsOf o ho
        · rw [hdep]
          show c.deposit w'.ext w'.storage.config.incentives pool.lpToken = _
          rw [hconfig, hdeposit]
          rfl
    | true =>
        refine (RewardPool.solvent_leave hsolvent hmem).congr (fun o => ?_) ?_ hper.symm
          (hrec ▸ hgrows asset) hpaidOf
        · by_cases ho : o = some key
          · rw [ho, RewardPool.leave_lots_self, hself, hrpShare, ← hshare, hselfOf]
            rfl
          · rw [RewardPool.leave_lots_of_ne _ _ ho]
            exact hlotsOf o ho
        · rw [RewardPool.leave_deposit, hrpShare, ← hshare, hdep]
          show c.deposit w'.ext w'.storage.config.incentives pool.lpToken = _
          rw [hconfig, hdeposit]
          rfl

end PoolCovers

end NeutronTge.LockdropPcl
