import NeutronTge.Shares.Alike
import NeutronTge.Shares.Departures
import NeutronTge.LockdropPcl.Coverage

/-!
# NeutronTge.LockdropPcl.Exits

How the lockups of a staked pool leave the PCL lockdrop. The incentives contract may list
other rewards than those that were credited, so a lockup may leave unpaid, and a pool may have
units that were stored over; neither costs anybody his LP tokens (`exits_shared`). Whoever
leaves gets at least the share he had when the pool was staked, and for each reward asset an
open lockup has earned its part of what arrived, which a claim pays whenever the asset is
listed.
-/

namespace NeutronTge.LockdropPcl

open CosmWasm Astroport Shares
open Lockdrop (PoolType LockupKey untrnDenom)

variable {E : Type} {x : Externals E} {w w' w₀ w₁ : World E} {b b' : Payments}
variable {c : Incentives E} {p : PoolType} {pool pool' pool₀ : PoolInfo} {asset : AssetInfo}

/-- The lockups of a pool. -/
def Storage.lockupsOf (s : Storage) (p : PoolType) : Finset LockupKey :=
  s.lockupInfo.keys.toFinset.filter fun k => k.poolType = p

/-- The LP tokens that the lockups of a pool have left with. -/
def Storage.lpLeft (s : Storage) (p : PoolType) : Nat :=
  ∑ k ∈ s.lockupsOf p, (s.leftWith k).getD 0

/-- The LP tokens of a pool that are staked. -/
def stakedLp (c : Incentives E) (w : World E) (pool : PoolInfo) : Nat :=
  c.deposit w.ext w.storage.config.incentives pool.lpToken

/-- A claim sends the rewards that were pending, and nothing else sends rewards. -/
structure Incentives.Exact (c : Incentives E) (x : Externals E) : Prop where
  sends : ∀ e e' incentives lp asset before after,
    x.exec e (.claimRewards incentives [lp]) = .ok e' →
    (x.querier e).queryPool asset = .ok before → (x.querier e').queryPool asset = .ok after →
      after + c.received e lp asset = before + c.received e' lp asset
  unlisted : ∀ e e' incentives lp asset pending,
    (x.querier e).pendingRewards incentives lp = .ok pending →
    asset ∉ pending.map Asset.info →
    x.exec e (.claimRewards incentives [lp]) = .ok e' →
      c.received e' lp asset = c.received e lp asset
  quiet : ∀ e e' m lp asset,
    (∀ incentives lps, m = .claimRewards incentives lps → lp ∉ lps) → x.exec e m = .ok e' →
      c.received e' lp asset = c.received e lp asset

/-- Nobody disturbs the run, and no rewards come in but by claims. -/
def Calm (c : Incentives E) (w : World E) (a : Action E) : Prop :=
  Undisturbed c w a ∧ ∀ ext, a = .drift ext →
    ∀ lp asset, c.received ext lp asset = c.received w.ext lp asset

/-! ### The messages that move LP tokens -/

/-- Whether a message moves LP tokens of a pool. Rewards are paid by `transfer`, whatever asset
they are of. -/
def CosmosMsg.touchesLp (lpToken : Addr) : CosmosMsg → Bool
  | .incentivesWithdraw _ token _ => token = lpToken
  | .lpTransfer token _ _ => token = lpToken
  | .sendDeposit token _ _ => token = lpToken
  | _ => false

/-- The messages so far that moved LP tokens of a pool. -/
def World.lpMoved (w : World E) (lpToken : Addr) : List CosmosMsg :=
  w.trace.filter (CosmosMsg.touchesLp lpToken)

/-- The messages of a lockup that leaves a staked pool: its LP tokens are unstaked and sent to
its owner. -/
inductive LeavesBy (lpToken : Addr) (k : LockupKey) (amount : Nat) : List CosmosMsg → Prop
  | unlocked (incentives : Addr) : LeavesBy lpToken k amount
      [.incentivesWithdraw incentives lpToken amount, .lpTransfer lpToken k.user amount]

/-- What the lockups of a pool have left with since `w₀`. -/
def leftSince (p : PoolType) (w₀ w : World E) (k : LockupKey) : Option Nat :=
  if k.poolType = p ∧ w₀.storage.leftWith k = none then w.storage.leftWith k else none

/-- What a step sends of the LP tokens of a pool: nothing, or those of a lockup that leaves. -/
inductive Delivers (p : PoolType) (lpToken : Addr) (w w' : World E) : Prop
  | nothing (hmoved : w'.lpMoved lpToken = w.lpMoved lpToken)
      (hleft : ∀ k, k.poolType = p → w'.storage.leftWith k = w.storage.leftWith k)
  | leaves (k : LockupKey) (amount : Nat) (part : List CosmosMsg) (hk : k.poolType = p)
      (hstays : w.storage.leftWith k = none) (hpart : LeavesBy lpToken k amount part)
      (hmoved : w'.lpMoved lpToken = w.lpMoved lpToken ++ part)
      (hleft : ∀ j, j.poolType = p →
        w'.storage.leftWith j = if j = k then some amount else w.storage.leftWith j)

theorem lpMoved_append {lp : Addr} {msgs : List CosmosMsg} (h : w'.trace = w.trace ++ msgs) :
    w'.lpMoved lp = w.lpMoved lp ++ msgs.filter (CosmosMsg.touchesLp lp) := by
  unfold World.lpMoved
  rw [h, List.filter_append]

theorem lpMoved_quiet {lp : Addr} {msgs : List CosmosMsg} (h : w'.trace = w.trace ++ msgs)
    (hquiet : ∀ m ∈ msgs, m.touchesLp lp = false) : w'.lpMoved lp = w.lpMoved lp := by
  rw [lpMoved_append h, List.filter_eq_nil_iff.mpr fun m hm => by
    rw [hquiet m hm]
    exact Bool.false_ne_true, List.append_nil]

/-! ### The pool that a world shows -/

/-- The reward pool of an asset, without the payments. -/
def shown (c : Incentives E) (w : World E) (p : PoolType) (pool : PoolInfo) (asset : AssetInfo) :
    RewardPool (Option LockupKey) :=
  rewardPool c (fun _ _ => 0) w .none p pool asset

theorem shown_released {k : LockupKey} (hk : k.poolType = p) :
    ((shown c w p pool asset).lots (some k)).released = w.storage.leftWith k := by
  simp only [shown, rewardPool, hk, if_true, Storage.leftWith]
  cases w.storage.coreOf k <;> rfl

theorem releasedSum_shown :
    (shown c w p pool asset).releasedSum (w.storage.lots p) = w.storage.lpLeft p := by
  unfold RewardPool.releasedSum Storage.lots Storage.lpLeft
  rw [Finset.sum_insertNone]
  have hnone : ((shown c w p pool asset).lots none).released.getD 0 = 0 := rfl
  rw [hnone, Nat.zero_add]
  refine Finset.sum_congr rfl fun k hk => ?_
  rw [shown_released (mem_lockups.mp hk).1]

/-- A step that the lockups of the pool do not notice. -/
theorem shown_alike (hcores : ∀ k, k.poolType = p → w'.storage.coreOf k = w.storage.coreOf k)
    (hdeposit : stakedLp c w' pool = stakedLp c w pool)
    (hreceived : c.received w'.ext pool.lpToken asset = c.received w.ext pool.lpToken asset) :
    (shown c w p pool asset).Alike (shown c w' p pool asset) := by
  have hlots : ∀ o, (shown c w' p pool asset).lots o = (shown c w p pool asset).lots o := by
    intro o
    cases o with
    | none =>
        have hsum := openSum_congr fun k hk => unitsOf_congr (hcores k hk)
        simp only [shown, rewardPool, hsum]
    | some k =>
        simp only [shown, rewardPool]
        split_ifs with hk
        · rw [hcores k hk]
        · rfl
  exact ⟨fun o => by rw [hlots], fun o => by rw [hlots], hdeposit.symm, rfl, hreceived.symm⟩

/-- What a step does to a staked pool. -/
structure Shifts (c : Incentives E) (p : PoolType) (asset : AssetInfo) (w w' : World E)
    (pool pool' : PoolInfo) : Prop where
  pool_eq : w'.storage.assetPools.mayLoad p = some pool'
  staked : pool'.isStaked = true
  lpToken : pool'.lpToken = pool.lpToken
  lots : w'.storage.lots p = w.storage.lots p
  moves : (shown c w p pool asset).Moves (w.storage.lots p) FixedPoint.fractional
    (shown c w' p pool' asset)
  delivers : Delivers p pool.lpToken w w'

namespace Shifts

theorem frame (hpool : w'.storage.assetPools.mayLoad p = some pool)
    (hstaked : pool.isStaked = true)
    (hcores : ∀ k, k.poolType = p → w'.storage.coreOf k = w.storage.coreOf k)
    (hdeposit : stakedLp c w' pool = stakedLp c w pool)
    (hreceived : c.received w'.ext pool.lpToken asset = c.received w.ext pool.lpToken asset)
    (hmoved : w'.lpMoved pool.lpToken = w.lpMoved pool.lpToken) :
    Shifts c p asset w w' pool pool where
  pool_eq := hpool
  staked := hstaked
  lpToken := rfl
  lots := lots_congr fun k hk => congrArg Option.isSome (hcores k hk)
  moves := .stays (shown_alike hcores hdeposit hreceived)
  delivers := .nothing hmoved fun k hk => by
    rw [Storage.leftWith, hcores k hk]
    rfl

/-- The rewards of the pool are claimed and booked. -/
theorem books (hc : c.Honest x) (he : c.Exact x) {pending : List Asset} {ext : E} {s : Storage}
    {deposit : Nat} {perShare : RestrictedVector AssetInfo Decimal} {trace : List CosmosMsg}
    (hstaked : pool.isStaked = true)
    (hpending : (x.querier w.ext).pendingRewards w.storage.config.incentives pool.lpToken =
      .ok pending)
    (hclaim : x.exec w.ext (.claimRewards w.storage.config.incentives [pool.lpToken]) = .ok ext)
    (hbooks : Books (x.querier ext) w.storage s w.env p (pending.map fun asset =>
      { asset with amount := ((x.querier w.ext).queryPool asset.info).toOption.getD 0 })
      pool deposit perShare)
    (hmoved : trace.filter (CosmosMsg.touchesLp pool.lpToken) = w.lpMoved pool.lpToken) :
    Shifts c p asset w { w with storage := s, ext := ext, trace := trace } pool
      { pool with incentivesRewardsPerShare := perShare } := by
  obtain rfl := hbooks.storage
  have hdeposit : c.deposit ext w.storage.config.incentives pool.lpToken =
      c.deposit w.ext w.storage.config.incentives pool.lpToken :=
    hc.neutral w.ext ext (.claimRewards w.storage.config.incentives [pool.lpToken]) _ _ id hclaim
  have hinfos : (pending.map fun asset => { asset with
      amount := ((x.querier w.ext).queryPool asset.info).toOption.getD 0 }).map Asset.info =
        pending.map Asset.info := by
    rw [List.map_map]
    rfl
  have hnodup := hc.pending _ _ _ _ hpending
  obtain ⟨hothers, hbooked⟩ := bookBalances_ok (hinfos ▸ hnodup) hbooks.perShare_eq
  refine ⟨SnapshotMap.mayLoad_save _ _ _ _, hstaked, rfl, rfl, ?_,
    .nothing hmoved fun _ _ => rfl⟩
  by_cases hmem : asset ∈ pending.map Asset.info
  · rw [← hinfos] at hmem
    obtain ⟨prev, hprev, rfl⟩ := List.mem_map.mp hmem
    obtain ⟨after, hafter, hgrown, hpos, hatomics⟩ := hbooked prev hprev
    obtain ⟨first, hfirst, -⟩ := hc.claims _ _ _ _ _ _ hclaim hafter
    have hsent := he.sends _ _ _ _ _ _ _ hclaim hfirst hafter
    -- the balance noted before the claim is the one the incentives contract added to
    have hamount : prev.amount = first := by
      obtain ⟨asset, -, rfl⟩ := List.mem_map.mp hprev
      simp only [hfirst]
      rfl
    rw [hamount] at hgrown
    rw [hc.answers _ _ _ _ hbooks.deposit_eq, hdeposit] at hpos
    rw [hamount, hc.answers _ _ _ _ hbooks.deposit_eq, hdeposit] at hatomics
    have hreceived : c.received w.ext pool.lpToken prev.info + (after - first) =
        c.received ext pool.lpToken prev.info := by omega
    exact .accrues (after - first) hpos
      ⟨fun _ => rfl, fun _ => rfl, hdeposit.symm, hatomics.symm, hreceived⟩
  · have hreceived := he.unlisted _ _ _ _ _ _ hpending hmem hclaim
    have hatomics := hothers asset (hinfos ▸ hmem)
    exact .stays ⟨fun _ => rfl, fun _ => rfl, hdeposit.symm, hatomics.symm, hreceived.symm⟩

/-- Rewards are collected, for this pool or another one. -/
theorem gathers {before : Addr → AssetInfo → Nat} {poolType : PoolType} (hc : c.Honest x)
    (he : c.Exact x) (hcovers : Covers c before w b)
    (hpool : w.storage.assetPools.mayLoad p = some pool) (hstaked : pool.isStaked = true)
    (hgathers : Gathers x poolType w w') : ∃ pool', Shifts c p asset w w' pool pool' := by
  cases hgathers with
  | nothing =>
      exact ⟨pool, frame hpool hstaked (fun _ _ => rfl) rfl rfl rfl⟩
  | booked pool₁ pending ext s deposit perShare hstaked₁ hpending hclaim hbooks =>
      have hmoved : (w.trace ++ [CosmosMsg.claimRewards w.storage.config.incentives
          [pool₁.lpToken]]).filter (CosmosMsg.touchesLp pool.lpToken) = w.lpMoved pool.lpToken := by
        rw [List.filter_append]
        exact List.append_nil _
      by_cases hp : p = poolType
      · subst hp
        obtain rfl := Option.some.inj (hpool.symm.trans hbooks.pool_eq)
        exact ⟨_, books hc he hstaked hpending hclaim hbooks hmoved⟩
      · have htoken := hcovers.tokens _ _ _ _ hp hpool hbooks.pool_eq
        obtain rfl := hbooks.storage
        refine ⟨pool, frame ?_ hstaked (fun _ _ => rfl) ?_ ?_ hmoved⟩
        · exact (SnapshotMap.mayLoad_save_ne hp _ _ _).trans hpool
        · exact hc.neutral _ _ _ _ _ id hclaim
        · refine he.quiet _ _ _ _ _ (fun incentives lps hm hmem => ?_) hclaim
          obtain ⟨-, rfl⟩ := CosmosMsg.claimRewards.inj hm
          exact htoken (List.mem_singleton.mp hmem)

end Shifts

/-! ### Claims -/

section Pays

variable {key : LockupKey} {withdraw : Bool} {msgs rewardMsgs exitMsgs ntrnMsgs : List CosmosMsg}
variable {lockup lockup' : LockupInfo} {share : Nat} {t : Storage}

/-- The reward callback claims no rewards. -/
theorem Pays.quiet (he : c.Exact x)
    (hpays : Pays x w w' key withdraw msgs pool lockup lockup' share t rewardMsgs exitMsgs
      ntrnMsgs) (lp : Addr) (asset : AssetInfo) :
    c.received w'.ext lp asset = c.received w.ext lp asset := by
  have hout := hpays.paysOut
  refine foldlM_invariant (fun e => c.received e lp asset = c.received w.ext lp asset) rfl
    (fun e e' m hm heq hexec => ?_) hpays.exec
  refine (he.quiet _ _ _ _ _ (fun incentives lps hclaim => ?_) hexec).trans heq
  subst hclaim
  rcases hout.mem hm with ⟨transfer, h⟩ | ⟨-, h⟩ | ⟨-, h⟩ | hntrn
  · cases h
  · cases h
  · cases h
  · rcases hout.ntrn.mem hntrn with ⟨coin, h⟩ | ⟨credits, amount, h⟩ <;> cases h

/-- The reward callback moves no LP tokens of another pool. -/
theorem PaysOut.unmoved {q : Querier} {s s' : Storage} {height : Nat} {lp : Addr}
    (h : PaysOut q s s' height key withdraw msgs pool lockup lockup' share t rewardMsgs exitMsgs
      ntrnMsgs) (hne : pool.lpToken ≠ lp) : ∀ m ∈ msgs, m.touchesLp lp = false := by
  intro m hm
  rcases h.mem hm with ⟨transfer, rfl⟩ | ⟨-, rfl⟩ | ⟨-, rfl⟩ | hntrn
  · rfl
  · exact decide_eq_false hne
  · exact decide_eq_false hne
  · rcases h.ntrn.mem hntrn with ⟨coin, rfl⟩ | ⟨credits, amount, rfl⟩ <;> rfl

/-- The reward callback of a staked pool moves the LP tokens of its own lockup, when it
unlocks. -/
theorem PaysOut.moved {q : Querier} {s s' : Storage} {height : Nat}
    (h : PaysOut q s s' height key withdraw msgs pool lockup lockup' share t rewardMsgs exitMsgs
      ntrnMsgs) (hstaked : pool.isStaked = true) :
    msgs.filter (CosmosMsg.touchesLp pool.lpToken) =
      if withdraw then [.incentivesWithdraw s.config.incentives pool.lpToken share,
        .lpTransfer pool.lpToken key.user share] else [] := by
  have hntrn : ntrnMsgs.filter (CosmosMsg.touchesLp pool.lpToken) = [] := by
    refine List.filter_eq_nil_iff.mpr fun m hm => ?_
    rcases h.ntrn.mem hm with ⟨coin, rfl⟩ | ⟨credits, amount, rfl⟩ <;> exact Bool.false_ne_true
  have hrewards := h.rewards
  have hexits := h.exits
  rw [h.messages, List.filter_append, List.filter_append, hntrn, List.append_nil]
  cases hrewards with
  | unstaked hno =>
      rw [hstaked] at hno
      cases hno
  | staked rewards debts pending =>
      have htransfers : (pending.map fun a => CosmosMsg.transfer (a.intoMsg key.user)).filter
          (CosmosMsg.touchesLp pool.lpToken) = [] := by
        refine List.filter_eq_nil_iff.mpr fun m hm => ?_
        obtain ⟨a, -, rfl⟩ := List.mem_map.mp hm
        exact Bool.false_ne_true
      rw [List.filter_append, htransfers, List.nil_append]
      cases hexits with
      | stored => rfl
      | closed => simp [CosmosMsg.touchesLp]

/-- The lots after a claim for a lockup of the pool: all but its own are the same. -/
theorem shown_lots_pays (c : Incentives E) (asset : AssetInfo)
    (hpays : Pays x w w' key withdraw msgs pool lockup lockup' share t rewardMsgs exitMsgs
      ntrnMsgs) (hkey : key.poolType = p) (hopen : lockup.astroportLpTransferred = none)
    (hledger : w.storage.openSum p ≤ pool.amountInLockups)
    (hamount : pool'.amountInLockups =
      pool.amountInLockups - if withdraw then lockup.lpUnitsLocked else 0) :
    (shown c w p pool asset).lots (some key) = lockup.core.lot asset ∧
      (shown c w' p pool' asset).lots (some key) = LockupCore.lot asset { lockup.core with
        incentivesDebt := lockup'.incentivesDebt
        astroportLpTransferred :=
          if withdraw then some share else lockup.astroportLpTransferred } ∧
      ∀ o, o ≠ some key → (shown c w' p pool' asset).lots o = (shown c w p pool asset).lots o := by
  have hout := hpays.paysOut
  obtain ⟨hcore', hothers⟩ := hout.coreOf
  have hsum := hout.openSum hopen
  rw [hkey] at hsum
  refine ⟨rewardPool_lots hkey (coreOf_of_load hout.lockup_eq), rewardPool_lots hkey hcore',
    fun o ho => ?_⟩
  cases o with
  | none =>
      have hrest : pool'.amountInLockups - w'.storage.openSum p =
          pool.amountInLockups - w.storage.openSum p := by omega
      simp only [shown, rewardPool, hrest]
  | some k =>
      simp only [shown, rewardPool]
      rw [hothers k fun hk => ho (congrArg some hk)]

/-- A claim for a lockup of the pool moves its lot: it stays, or it leaves with its share. -/
theorem moves_pays (hc : c.Honest x) (he : c.Exact x)
    (hpays : Pays x w w' key withdraw msgs pool lockup lockup' share t rewardMsgs exitMsgs
      ntrnMsgs) (hkey : key.poolType = p) (hopen : lockup.astroportLpTransferred = none)
    (hstaked : pool.isStaked = true) (hledger : w.storage.openSum p ≤ pool.amountInLockups)
    (hamount : pool'.amountInLockups =
      pool.amountInLockups - if withdraw then lockup.lpUnitsLocked else 0)
    (htoken : pool'.lpToken = pool.lpToken)
    (hperShare : pool'.incentivesRewardsPerShare = pool.incentivesRewardsPerShare) :
    (shown c w p pool asset).Moves (w.storage.lots p) FixedPoint.fractional
      (shown c w' p pool' asset) := by
  have hout := hpays.paysOut
  obtain ⟨hold, hnew, hothers⟩ := shown_lots_pays c asset hpays hkey hopen hledger hamount
  have hcore : w.storage.coreOf key = some lockup.core := coreOf_of_load hout.lockup_eq
  have hmem : some key ∈ w.storage.lots p := some_mem_lots.mpr ⟨hkey, by rw [hcore]; rfl⟩
  have hreceived : (shown c w' p pool' asset).received = (shown c w p pool asset).received := by
    show c.received w'.ext pool'.lpToken asset = c.received w.ext pool.lpToken asset
    rw [htoken]
    exact hpays.quiet he _ _
  have hperShare' : (shown c w' p pool' asset).perShare = (shown c w p pool asset).perShare :=
    congrArg (fun v => v.atomicsOf asset) hperShare
  obtain ⟨balance, hbalance, -, hshare⟩ := astroportLpShare_ok hout.share_eq
  rw [lpBalance, if_pos hstaked] at hbalance
  rw [hc.answers _ _ _ _ hbalance] at hshare
  have hdeposit : (shown c w' p pool' asset).deposit =
      (shown c w p pool asset).deposit - if withdraw then share else 0 := by
    show c.deposit w'.ext w'.storage.config.incentives pool'.lpToken = _
    rw [hout.config, htoken, hout.deposit hc hstaked hpays.exec]
    rfl
  -- a claim alone changes the debts only, which `stays` does not look at
  cases withdraw with
  | false =>
      refine .stays ⟨fun o => ?_, fun o => ?_, hdeposit.symm, hperShare'.symm, hreceived.symm⟩
      · by_cases ho : o = some key
        · rw [ho, hold, hnew]
          rfl
        · rw [hothers o ho]
      · by_cases ho : o = some key
        · rw [ho, hold, hnew]
          rfl
        · rw [hothers o ho]
  | true =>
      have hpart : (shown c w p pool asset).share (w.storage.lots p) (some key) = share := by
        rw [hshare]
        exact rewardPool_share hledger hkey hcore hopen
      refine .leaves (some key) hmem ?_ ⟨fun o => ?_, fun o => ?_, ?_, hperShare'.symm,
        hreceived.symm⟩
      · rw [hold]
        exact hopen
      · by_cases ho : o = some key
        · rw [ho, RewardPool.leave_lots_self, hold, hnew]
          rfl
        · rw [RewardPool.leave_lots_of_ne _ _ ho, hothers o ho]
      · by_cases ho : o = some key
        · rw [ho, RewardPool.leave_lots_self, hnew, hpart]
          rfl
        · rw [RewardPool.leave_lots_of_ne _ _ ho, hothers o ho]
      · rw [RewardPool.leave_deposit, hpart, hdeposit, if_pos rfl]

/-- The reward callback of a claim, for a lockup of this pool or of another one. -/
theorem Shifts.pays {before : Addr → AssetInfo → Nat} {pool₁ : PoolInfo} (hc : c.Honest x)
    (he : c.Exact x) (hcovers : Covers c before w b)
    (hpool : w.storage.assetPools.mayLoad p = some pool) (hstaked : pool.isStaked = true)
    (hopen : lockup.astroportLpTransferred = none)
    (hpays : Pays x w w' key withdraw msgs pool₁ lockup lockup' share t rewardMsgs exitMsgs
      ntrnMsgs) : ∃ pool', Shifts c p asset w w' pool pool' := by
  have hout := hpays.paysOut
  obtain ⟨hself, hpools⟩ := hout.assetPools
  obtain ⟨hcore', hothers⟩ := hout.coreOf
  have hcore : w.storage.coreOf key = some lockup.core := coreOf_of_load hout.lockup_eq
  by_cases hp : p = key.poolType
  · subst hp
    obtain rfl := Option.some.inj (hpool.symm.trans hout.pool_eq)
    have hmoved : w'.lpMoved pool.lpToken = _ := lpMoved_append hpays.trace
    rw [hout.moved hstaked] at hmoved
    refine ⟨_, hself, hstaked, rfl, ?_, moves_pays hc he hpays rfl hopen hstaked
      (hcovers.pools _ _ hpool).ledger rfl rfl rfl, ?_⟩
    · refine lots_congr fun k _ => ?_
      by_cases hk : k = key
      · rw [hk, hcore', hcore]
        rfl
      · rw [hothers k hk]
    -- what left: this lockup if it was unlocked, and nothing else
    · have hleft : ∀ k, w'.storage.leftWith k =
          if k = key then if withdraw then some share else none else w.storage.leftWith k := by
        intro k
        split_ifs with hk hwithdraw
        · rw [hk, leftWith_of_core hcore']
          exact if_pos hwithdraw
        · rw [hk, leftWith_of_core hcore']
          exact (if_neg hwithdraw).trans hopen
        · rw [Storage.leftWith, hothers k hk]
          rfl
      have hstays : w.storage.leftWith key = none := (leftWith_of_core hcore).trans hopen
      cases withdraw with
      | false =>
          refine .nothing (hmoved.trans (List.append_nil _)) fun k _ => (hleft k).trans ?_
          by_cases hk : k = key
          · rw [if_pos hk, hk, hstays]
            rfl
          · exact if_neg hk
      | true =>
          exact .leaves key share _ rfl hstays (.unlocked _) hmoved fun k _ => hleft k
  · refine ⟨pool, frame ((hpools p hp).trans hpool) hstaked (fun k hk => ?_) ?_
      (hpays.quiet he _ _) (lpMoved_quiet hpays.trace (hout.unmoved ?_))⟩
    · exact hothers k fun heq => hp (by rw [← hk, heq])
    · rw [stakedLp, hout.config]
      exact hc.neutral_run (hout.neutral fun _ =>
        hcovers.tokens _ _ _ _ (Ne.symm hp) hout.pool_eq hpool) hpays.exec
    · exact hcovers.tokens _ _ _ _ (Ne.symm hp) hout.pool_eq hpool

end Pays

/-! ### Transactions and runs -/

/-- A pool that was staked in `w₀`, as it is in `w`. -/
structure Pooled (c : Incentives E) (p : PoolType) (pool₀ : PoolInfo) (asset : AssetInfo)
    (w₀ w : World E) (pool : PoolInfo) : Prop where
  pool_eq : w.storage.assetPools.mayLoad p = some pool
  staked : pool.isStaked = true
  lpToken : pool.lpToken = pool₀.lpToken
  lots : w.storage.lots p = w₀.storage.lots p
  follows : (shown c w₀ p pool₀ asset).Follows (w₀.storage.lots p) FixedPoint.fractional
    (shown c w p pool asset)
  delivered : ∃ msgs, w.lpMoved pool₀.lpToken = w₀.lpMoved pool₀.lpToken ++ msgs ∧
    SentFor (LeavesBy pool₀.lpToken) (leftSince p w₀ w) msgs

namespace Pooled

theorem refl (hpool : w.storage.assetPools.mayLoad p = some pool)
    (hstaked : pool.isStaked = true) : Pooled c p pool asset w w pool where
  pool_eq := hpool
  staked := hstaked
  lpToken := rfl
  lots := rfl
  follows := .refl _
  delivered := by
    refine ⟨[], (List.append_nil _).symm, .nobody fun k => ?_⟩
    unfold leftSince
    split_ifs with hk
    · exact hk.2
    · rfl

/-- Who had left when the pool was looked at, has left now. -/
theorem leftWith_none (h : Pooled c p pool₀ asset w₀ w pool) {k : LockupKey}
    (hk : k.poolType = p) (hstays : w.storage.leftWith k = none) :
    w₀.storage.leftWith k = none := by
  cases hleft : w₀.storage.leftWith k with
  | none => rfl
  | some amount =>
      have honce := h.follows.fair.once (some k) amount ((shown_released hk).trans hleft)
      rw [shown_released hk, hstays] at honce
      cases honce

theorem shift (h : Pooled c p pool₀ asset w₀ w pool) (hshift : Shifts c p asset w w' pool pool') :
    Pooled c p pool₀ asset w₀ w' pool' where
  pool_eq := hshift.pool_eq
  staked := hshift.staked
  lpToken := hshift.lpToken.trans h.lpToken
  lots := hshift.lots.trans h.lots
  follows := h.follows.move (h.lots ▸ hshift.moves)
  delivered := by
    obtain ⟨msgs, hmsgs, hsent⟩ := h.delivered
    have hdelivers := hshift.delivers
    rw [h.lpToken] at hdelivers
    cases hdelivers with
    | nothing hmoved hleft =>
        refine ⟨msgs, hmoved.trans hmsgs, hsent.congr fun k => ?_⟩
        unfold leftSince
        split_ifs with hk
        · exact hleft k hk.1
        · rfl
    | leaves k amount part hk hstays hpart hmoved hleft =>
        have hstayed := h.leftWith_none hk hstays
        refine ⟨msgs ++ part, by rw [hmoved, hmsgs, List.append_assoc],
          hsent.leave (k := k) ?_ hpart fun j => ?_⟩
        · rw [leftSince, if_pos ⟨hk, hstayed⟩, hstays]
        · unfold leftSince
          split_ifs with hj hjk hjk
          · rw [hleft j hj.1, if_pos hjk]
          · rw [hleft j hj.1, if_neg hjk]
          · exact absurd (hjk ▸ ⟨hk, hstayed⟩) hj
          · rfl

variable {before : Addr → AssetInfo → Nat}

/-- A claim up to its reward callback. -/
theorem collected (hc : c.Honest x) (he : c.Exact x) (hcovers : Covers c before w b)
    (h : Pooled c p pool₀ asset w₀ w pool) {info : MessageInfo} {poolType : PoolType}
    {duration : Nat} {withdraw : Bool}
    (hcollected : w.collected x info poolType duration withdraw = .ok w₁) :
    ∃ pool₁, Pooled c p pool₀ asset w₀ w₁ pool₁ := by
  obtain ⟨r, opened, collect, hstarts, hgathers⟩ := collected_ok hcollected
  have hsame := hstarts.sameBooks
  have hincentives := congrArg Config.incentives hsame.config
  have hresponds : Shifts c p asset w (w.respond r) pool pool := by
    refine .frame ?_ h.staked (fun k _ => hsame.lockups k) ?_ rfl rfl
    · exact (congrArg (fun m => m.mayLoad p) hsame.assetPools).trans h.pool_eq
    · exact congrArg (fun incentives => c.deposit w.ext incentives pool.lpToken) hincentives
  have hr : Covers c before (w.respond r) b :=
    hcovers.frame hsame.lockups hsame.assetPools hincentives (fun _ _ => rfl)
      fun _ _ => Nat.le_refl _
  obtain ⟨pool₁, hshift⟩ := Shifts.gathers hc he hr hresponds.pool_eq h.staked hgathers
  exact ⟨pool₁, (h.shift hresponds).shift hshift⟩

theorem claims (hc : c.Honest x) (he : c.Exact x) (hcovers : Covers c before w b)
    (h : Pooled c p pool₀ asset w₀ w pool) {info : MessageInfo} {poolType : PoolType}
    {duration : Nat} {withdraw : Bool}
    (hexec : w.execute x info (.claimRewardsAndOptionallyUnlock poolType duration withdraw) =
      .ok w') : ∃ pool', Pooled c p pool₀ asset w₀ w' pool' := by
  obtain ⟨w₁, hcollected, hpay⟩ := execute_collected hexec
  obtain ⟨pool₁, h₁⟩ := h.collected hc he hcovers hcollected
  obtain ⟨msgs, pool₂, lockup, lockup', share, t, rewardMsgs, exitMsgs, ntrnMsgs, hpays⟩ :=
    pays_ok ⟨poolType, info.sender, duration⟩ hpay
  obtain ⟨pool', hshift⟩ := Shifts.pays hc he (hcovers.collected hc hcollected) h₁.pool_eq
    h₁.staked (collected_open hcollected hpays.paysOut.lockup_eq) hpays
  exact ⟨pool', h₁.shift hshift⟩

/-- A lockup comes into another pool. -/
theorem migrates (hc : c.Honest x) (he : c.Exact x) (hcovers : Covers c before w b)
    (h : Pooled c p pool₀ asset w₀ w pool) {key : LockupKey} {funds : List Coin}
    {userInfo : Lockdrop.UserInfo} {lockup : Lockdrop.LockupInfoV2} {stake : Bool} {pair : Addr}
    {ext : E} {msgs : List CosmosMsg} {prev balance : Nat} {pool₁ : PoolInfo} {weight : Nat}
    (hmigrates : Migrates x w w' key funds userInfo lockup stake pair ext msgs prev balance pool₁
      weight) (hp : p ≠ key.poolType) : Pooled c p pool₀ asset w₀ w' pool := by
  have hfinishes := hmigrates.finishes
  have hcores := coreOf_save hfinishes.lockupInfo
  have htoken := hcovers.tokens _ _ _ _ (Ne.symm hp) hfinishes.pool_eq h.pool_eq
  have hmsgs : ∀ m ∈ msgs, m = .sendDeposit pool₁.lpToken w.storage.config.incentives balance := by
    intro m hm
    rw [hfinishes.messages] at hm
    split_ifs at hm
    · exact List.mem_singleton.mp hm
    · cases hm
  refine h.shift (.frame ?_ h.staked (fun k hk => ?_) ?_ ?_ ?_)
  · rw [hfinishes.assetPools, if_neg hp]
    exact h.pool_eq
  · rw [hcores, if_neg]
    exact fun heq => hp (by rw [← hk, heq])
  · rw [stakedLp, hfinishes.config]
    refine (hc.neutral_run (fun m hm hmoves => ?_) hmigrates.exec).trans
      (hc.neutral w.ext ext _ _ _ id hmigrates.provides)
    rw [hmsgs m hm] at hmoves
    exact htoken hmoves.2
  · refine foldlM_invariant (fun e => c.received e pool.lpToken asset =
      c.received w.ext pool.lpToken asset) ?_ (fun e e' m hm heq hexec => ?_) hmigrates.exec
    · exact he.quiet _ _ _ _ _ (fun _ _ hclaim => by cases hclaim) hmigrates.provides
    · refine (he.quiet _ _ _ _ _ (fun _ _ hclaim => ?_) hexec).trans heq
      rw [hmsgs m hm] at hclaim
      cases hclaim
  · refine lpMoved_quiet hmigrates.trace fun m hm => ?_
    rcases List.mem_cons.mp hm with rfl | hm
    · rfl
    · rw [hmsgs m hm]
      exact decide_eq_false htoken

/-- A message of the owner. The incentives contract is replaced only when nothing is staked. -/
theorem administers (hc : c.Honest x) (hcovers : Covers c before w b)
    (h : Pooled c p pool₀ asset w₀ w pool) {info : MessageInfo} {msg : ExecuteMsg}
    (hmsg : msg.administers = true) (hsame : Administers w w')
    (hexec : w.execute x info msg = .ok w') : Pooled c p pool₀ asset w₀ w' pool := by
  refine h.shift (.frame ?_ h.staked (fun k _ => coreOf_congr hsame.lockupInfo k) ?_ ?_ ?_)
  · rw [hsame.assetPools]
    exact h.pool_eq
  · rw [stakedLp, stakedLp, hsame.ext]
    rcases administers_incentives hexec hmsg with heq | hchecked
    · rw [heq]
    · have hnone := (hc.answers _ _ _ _ (hchecked p pool h.pool_eq)).symm
      by_cases hincentives : w'.storage.config.incentives = w.storage.config.incentives
      · rw [hincentives]
      · rw [hnone, hcovers.elsewhere p pool _ h.pool_eq hincentives]
  · rw [hsame.ext]
  · exact congrArg (List.filter _) hsame.trace

theorem exec {a : Action E} (hc : c.Honest x) (he : c.Exact x) (hcovers : Covers c before w b)
    (h : Pooled c p pool₀ asset w₀ w pool) (hcalm : Calm c w a)
    (hexec : World.exec x w a = .ok w') : ∃ pool', Pooled c p pool₀ asset w₀ w' pool' := by
  obtain ⟨hundisturbed, hquiet⟩ := hcalm
  cases a with
  | advance seconds blocks =>
      obtain rfl := Except.ok.inj hexec
      exact ⟨pool, h.shift (.frame h.pool_eq h.staked (fun _ _ => rfl) rfl rfl rfl)⟩
  | drift ext =>
      obtain rfl := Except.ok.inj hexec
      exact ⟨pool, h.shift (.frame h.pool_eq h.staked (fun _ _ => rfl) (hundisturbed.1 _ _)
        (hquiet ext rfl _ _) rfl)⟩
  | execute info msg =>
      replace hexec : w.execute x info msg = .ok w' := hexec
      cases execute_effect hexec with
      | administer _ hmsg hsame => exact ⟨pool, h.administers hc hcovers hmsg hsame hexec⟩
      | claim poolType duration withdraw => exact h.claims hc he hcovers hexec
      | migrate key userInfo lockup stake pair ext msgs prev balance pool₁ weight hsender
          hmigrates =>
          have hunstaked := hundisturbed pool₁ hmigrates.finishes.pool_eq
          refine ⟨pool, h.migrates hc he hcovers hmigrates fun hp => ?_⟩
          subst hp
          obtain rfl := Option.some.inj (h.pool_eq.symm.trans hmigrates.finishes.pool_eq)
          rw [h.staked] at hunstaked
          cases hunstaked

theorem run_ok (hc : c.Honest x) (he : c.Exact x) (hcovers : Covers c before w₀ b)
    (hpool : w₀.storage.assetPools.mayLoad p = some pool₀) (hstaked : pool₀.isStaked = true)
    {as : List (Action E)} (has : Along (World.exec x) (Calm c) w₀ as) :
    Covers c before (run (World.exec x) w₀ as)
        (history (World.exec x) Payments.after w₀ b as) ∧
      ∃ pool, Pooled c p pool₀ asset w₀ (run (World.exec x) w₀ as) pool := by
  refine history_invariant_along
    (fun w b => Covers c before w b ∧ ∃ pool, Pooled c p pool₀ asset w₀ w pool) ?_
    ⟨hcovers, pool₀, .refl hpool hstaked⟩ has
  rintro w a w' b ⟨hw, pool, h⟩ hcalm hexec
  exact ⟨hw.exec hc hcalm.1 hexec, h.exec hc he hw hcalm hexec⟩

end Pooled

/-! ### How the lockups leave -/

/-- How the lockups of a pool left between `w₀`, when it was staked, and `w`. -/
structure FairExits (c : Incentives E) (p : PoolType) (pool₀ : PoolInfo) (w₀ w : World E) :
    Prop where
  /-- Who left, left once. -/
  once : ∀ k amount, k.poolType = p → w₀.storage.leftWith k = some amount →
    w.storage.leftWith k = some amount
  /-- Who left since then left with at least his share at that time. -/
  share_le : ∀ k core amount, k.poolType = p → w₀.storage.coreOf k = some core →
    core.astroportLpTransferred = none → w.storage.leftWith k = some amount →
      core.lpUnitsLocked * stakedLp c w₀ pool₀ / pool₀.amountInLockups ≤ amount
  /-- What he left with was sent: the messages that moved LP tokens of the pool since then are
  those of the lockups that left since then, each of them once. -/
  delivered : ∃ msgs, w.lpMoved pool₀.lpToken = w₀.lpMoved pool₀.lpToken ++ msgs ∧
    SentFor (LeavesBy pool₀.lpToken) (leftSince p w₀ w) msgs
  /-- Every LP token is still staked or left with a lockup. -/
  conserved : stakedLp c w pool₀ + w.storage.lpLeft p =
    stakedLp c w₀ pool₀ + w₀.storage.lpLeft p
  /-- When no units were stored over, the last lockup takes the rest. -/
  drained : w₀.storage.openSum p = pool₀.amountInLockups → 0 < pool₀.amountInLockups →
    (∀ k ∈ w₀.storage.lockupsOf p, w.storage.leftWith k ≠ none) → stakedLp c w pool₀ = 0

/-- An amount is what a lockup of `w₀` should get of the rewards `received` with its share of the
LP tokens that were staked. -/
def EarnsPart (c : Incentives E) (pool₀ : PoolInfo) (w₀ : World E) (core : LockupCore)
    (received amount : Nat) : Prop :=
  AtLeastPart FixedPoint.fractional
    (core.lpUnitsLocked * stakedLp c w₀ pool₀ / pool₀.amountInLockups) (stakedLp c w₀ pool₀)
    received amount

/-- The lockdrop received this much of an asset for the pool. -/
def receivedSince (c : Incentives E) (pool₀ : PoolInfo) (asset : AssetInfo) (w₀ w : World E) :
    Nat :=
  c.received w.ext pool₀.lpToken asset - c.received w₀.ext pool₀.lpToken asset

namespace Pooled

variable {before : Addr → AssetInfo → Nat}

theorem fairExits (hcovers : Covers c before w₀ b)
    (hpool : w₀.storage.assetPools.mayLoad p = some pool₀)
    (h : Pooled c p pool₀ asset w₀ w pool) : FairExits c p pool₀ w₀ w := by
  have hfair := h.follows.fair
  have hledger := (hcovers.pools p pool₀ hpool).ledger
  have hdeposit : (shown c w p pool asset).deposit = stakedLp c w pool₀ := by
    rw [stakedLp, ← h.lpToken]
    rfl
  constructor
  · intro k amount hk hleft
    rw [← shown_released hk] at hleft ⊢
    exact hfair.once (some k) amount hleft
  · intro k core amount hk hcore hopen hleft
    have hmem : some k ∈ w₀.storage.lots p := some_mem_lots.mpr ⟨hk, by rw [hcore]; rfl⟩
    have hshare := @rewardPool_share E w₀ .none c (fun _ _ => 0) p pool₀ asset hledger k core hk
      hcore hopen
    have hnone : w₀.storage.leftWith k = none := by
      rw [Storage.leftWith, hcore]
      exact hopen
    rw [← shown_released hk] at hleft hnone
    exact hshare ▸ hfair.released_ge (some k) hmem amount hnone hleft
  · exact h.delivered
  · have hconserved := hfair.conserved
    rw [← h.lots, releasedSum_shown, h.lots, releasedSum_shown, hdeposit] at hconserved
    exact hconserved
  · intro hbooks hpos hall
    have htotal := @rewardPool_total E w₀ .none c (fun _ _ => 0) p pool₀ asset hledger
    rw [← hdeposit]
    refine hfair.drained (htotal ▸ hpos) (Finset.sum_eq_zero fun o ho => ?_)
    cases o with
    | none =>
        -- the lot without an owner had no units, and units do not change
        have hunits : ((shown c w p pool asset).lots none).units = 0 := by
          rw [hfair.units_eq]
          show pool₀.amountInLockups - w₀.storage.openSum p = 0
          omega
        exact (Lot.live_of_open rfl _).trans hunits
    | some k =>
        obtain ⟨hk, hstored⟩ := some_mem_lots.mp ho
        obtain ⟨amount, hleft⟩ := Option.ne_none_iff_exists'.mp
          (hall k (mem_lockups.mpr ⟨hk, hstored⟩))
        exact Lot.live_of_closed ((shown_released hk).trans hleft) _

/-- What an open lockup has accrued is its part. -/
theorem atLeastPart (hstart : Covers c before w₀ b)
    (hpool : w₀.storage.assetPools.mayLoad p = some pool₀) (hcovers : Covers c before w b')
    (h : Pooled c p pool₀ asset w₀ w pool) {k : LockupKey} {core core' : LockupCore}
    (hk : k.poolType = p) (hcore : w₀.storage.coreOf k = some core)
    (hcore' : w.storage.coreOf k = some core') (hopen : core'.astroportLpTransferred = none) :
    EarnsPart c pool₀ w₀ core (receivedSince c pool₀ asset w₀ w)
      (accruedOf pool.incentivesRewardsPerShare
        (core'.lpUnitsLocked * stakedLp c w pool / pool.amountInLockups) asset) := by
  have hmem : some k ∈ w₀.storage.lots p := some_mem_lots.mpr ⟨hk, by rw [hcore]; rfl⟩
  have hreleased : ((shown c w p pool asset).lots (some k)).released = none := by
    rw [shown_released hk, Storage.leftWith, hcore']
    exact hopen
  have hopen₀ : core.astroportLpTransferred = none := by
    cases hleft : core.astroportLpTransferred with
    | none => rfl
    | some amount =>
        have honce := h.follows.fair.once (some k) amount
          (by rw [shown_released hk, Storage.leftWith, hcore]; exact hleft)
        rw [hreleased] at honce
        cases honce
  have hge := h.follows.accrued_ge (by decide) hmem hreleased
  have hshare := @rewardPool_share E w₀ .none c (fun _ _ => 0) p pool₀ asset
    (hstart.pools p pool₀ hpool).ledger k core hk hcore hopen₀
  have haccrued := @rewardPool_accrued E w .none c (fun _ _ => 0) p pool asset
    (hcovers.pools p pool h.pool_eq).ledger k core' hk hcore' hopen
  have hreceived : (shown c w p pool asset).received - (shown c w₀ p pool₀ asset).received =
      receivedSince c pool₀ asset w₀ w := by
    rw [receivedSince, ← h.lpToken]
    show c.received w.ext pool.lpToken asset - c.received w₀.ext pool₀.lpToken asset = _
    rw [h.lpToken]
  rw [hreceived, ← h.lots] at hge
  unfold shown at hge
  rw [haccrued, h.lots, hshare] at hge
  exact hge

end Pooled

/-- The incentives contract lists an asset among the rewards of an LP token. -/
def IsListed (q : Querier) (incentives lpToken : Addr) (asset : AssetInfo) : Prop :=
  ∃ rewards, q.rewardInfo incentives lpToken = .ok rewards ∧ asset ∈ rewards.map RewardType.asset

/-- What a claim has paid a lockup of an asset in the end is its part, if the asset is
listed. -/
theorem Pooled.claim_pays {before : Addr → AssetInfo → Nat} (hc : c.Honest x) (he : c.Exact x)
    (hstart : Covers c before w₀ b) (hpool : w₀.storage.assetPools.mayLoad p = some pool₀)
    (hcovers : Covers c before w b') (h : Pooled c p pool₀ asset w₀ w pool) {info : MessageInfo}
    {duration : Nat} {withdraw : Bool} {core : LockupCore}
    (hcore : w₀.storage.coreOf ⟨p, info.sender, duration⟩ = some core)
    (hcollected : w.collected x info p duration withdraw = .ok w₁)
    (hexec : w.execute x info (.claimRewardsAndOptionallyUnlock p duration withdraw) = .ok w')
    (hlists : IsListed (x.querier w₁.ext) w₁.storage.config.incentives pool₀.lpToken asset) :
    EarnsPart c pool₀ w₀ core (receivedSince c pool₀ asset w₀ w')
      ((b'.claimed ⟨p, info.sender, duration⟩ (w'.trace.drop w.trace.length)).lockup
        ⟨p, info.sender, duration⟩ asset) := by
  have hcovers' := hcovers.claims hc hexec
  obtain ⟨w₂, hcollected₂, hpay⟩ := execute_collected hexec
  obtain rfl := Except.ok.inj (hcollected.symm.trans hcollected₂)
  obtain ⟨pool₁, h₁⟩ := h.collected hc he hcovers hcollected
  obtain ⟨msgs, pool₂, lockup, lockup', share, t, rewardMsgs, exitMsgs, ntrnMsgs, hpays⟩ :=
    pays_ok ⟨p, info.sender, duration⟩ hpay
  have hout := hpays.paysOut
  obtain rfl := Option.some.inj (h₁.pool_eq.symm.trans hout.pool_eq)
  have hopen := collected_open hcollected hout.lockup_eq
  have hpart := h₁.atLeastPart hstart hpool (hcovers.collected hc hcollected) rfl hcore
    (coreOf_of_load hout.lockup_eq) hopen
  have hreceived : receivedSince c pool₀ asset w₀ w' = receivedSince c pool₀ asset w₀ w₁ := by
    unfold receivedSince
    rw [hpays.quiet he]
  -- the share of the reward callback is the one of the reward pool
  obtain ⟨balance, hbalance, -, hshare⟩ := astroportLpShare_ok hout.share_eq
  rw [lpBalance, if_pos h₁.staked] at hbalance
  rw [hc.answers _ _ _ _ hbalance] at hshare
  have hdebt := hcovers'.accounted.debt _ _ hout.coreOf.1 asset
  rw [hreceived, hdebt]
  refine hpart.mono ?_
  show accruedOf pool₁.incentivesRewardsPerShare (lockup.lpUnitsLocked *
    c.deposit w₁.ext w₁.storage.config.incentives pool₁.lpToken / pool₁.amountInLockups) asset ≤
      lockup'.incentivesDebt.valueOf asset
  rw [← hshare]
  obtain ⟨assets, pending, hassets, hsettled, -⟩ := hout.settles
  have hsettles := hsettled.debt asset
  dsimp only at hsettles
  obtain ⟨rewards, hrewards, hmem⟩ := hlists
  rw [← h₁.lpToken] at hrewards
  by_cases hzero : pool₁.incentivesRewardsPerShare.atomicsOf asset = 0
  · rw [accruedOf, hzero, Nat.zero_mul, Nat.zero_div]
    exact Nat.zero_le _
  · rcases hassets with ⟨hunstaked, -⟩ | ⟨-, rewards', hrewards', rfl⟩
    · rw [h₁.staked] at hunstaked
      cases hunstaked
    · obtain rfl := Except.ok.inj (hrewards.symm.trans hrewards')
      rw [hsettles, if_pos ⟨hmem, hzero⟩]

/-- How the rewards of an asset are shared between `w₀`, when the pool was staked, and `w`. -/
structure SharedRewards (x : Externals E) (c : Incentives E) (p : PoolType) (pool₀ : PoolInfo)
    (asset : AssetInfo) (w₀ w : World E) (b : Payments) : Prop where
  /-- What an open lockup has accrued is its part, whatever is listed. -/
  earned : ∀ k core core' pool, k.poolType = p → w₀.storage.coreOf k = some core →
    w.storage.coreOf k = some core' → core'.astroportLpTransferred = none →
    w.storage.assetPools.mayLoad p = some pool →
      EarnsPart c pool₀ w₀ core (receivedSince c pool₀ asset w₀ w)
        (accruedOf pool.incentivesRewardsPerShare
          (core'.lpUnitsLocked * stakedLp c w pool / pool.amountInLockups) asset)
  /-- A claim, with or without an unlock, has paid the part in the end, if the asset is listed
  when the reward callback runs. -/
  claimed : ∀ info duration withdraw w₁ w' core,
    w₀.storage.coreOf ⟨p, info.sender, duration⟩ = some core →
    w.collected x info p duration withdraw = .ok w₁ →
    w.execute x info (.claimRewardsAndOptionallyUnlock p duration withdraw) = .ok w' →
    IsListed (x.querier w₁.ext) w₁.storage.config.incentives pool₀.lpToken asset →
      EarnsPart c pool₀ w₀ core (receivedSince c pool₀ asset w₀ w')
        ((b.claimed ⟨p, info.sender, duration⟩ (w'.trace.drop w.trace.length)).lockup
          ⟨p, info.sender, duration⟩ asset)

/-- From any state of a run in which a pool is staked: in every order of claims and unlocks, with
any rewards and whatever the incentives contract lists, the lockups of the pool leave with at
least their shares, nothing is lost, and each of them earns its part of every reward asset. -/
theorem exits_shared {env : Env} {info₀ : MessageInfo} {msg : InstantiateMsg} (hc : c.Honest x)
    (he : c.Exact x) (hstart : instantiate env info₀ msg = .ok w.storage)
    (htokens : msg.atomToken ≠ msg.usdcToken)
    (hdeposit : ∀ incentives lp, c.deposit w.ext incentives lp = 0) {as bs : List (Action E)}
    (has : Along (World.exec x) (Undisturbed c) w as)
    (hbs : Along (World.exec x) (Calm c) (run (World.exec x) w as) bs)
    (hpool : (run (World.exec x) w as).storage.assetPools.mayLoad p = some pool₀)
    (hstaked : pool₀.isStaked = true) :
    FairExits c p pool₀ (run (World.exec x) w as) (run (World.exec x) w (as ++ bs)) ∧
      ∀ asset, SharedRewards x c p pool₀ asset (run (World.exec x) w as)
        (run (World.exec x) w (as ++ bs)) (payments x w (as ++ bs)) := by
  have hstaking := (Covers.of_instantiate hstart htokens hdeposit).run_ok hc has
  have hall : ∀ asset, _ ∧ ∃ pool, Pooled c p pool₀ asset _ _ pool :=
    fun asset => Pooled.run_ok hc he hstaking hpool hstaked hbs
  rw [run_append, payments, history_append]
  constructor
  · obtain ⟨-, pool, h⟩ := hall (.nativeToken untrnDenom)
    exact h.fairExits hstaking hpool
  · intro asset
    obtain ⟨hcovers, pool, h⟩ := hall asset
    constructor
    · intro k core core' pool' hk hcore hcore' hopen hpool'
      obtain rfl := Option.some.inj (h.pool_eq.symm.trans hpool')
      exact h.atLeastPart hstaking hpool hcovers hk hcore hcore' hopen
    · intro info duration withdraw w₁ w' core hcore hcollected hexec hlists
      exact h.claim_pays hc he hstaking hpool hcovers hcore hcollected hexec hlists

/-! ### Alice and Bob -/

section Receive

variable {lpToken lp : Addr}

theorem receivedOf_receives_unlisted : ∀ (as : List Asset) (e : SampleExt),
    asset ∉ as.map Asset.info →
      (as.foldl (SampleExt.receive lpToken) e).receivedOf lp asset = e.receivedOf lp asset := by
  intro as
  induction as with
  | nil => exact fun e _ => rfl
  | cons a as ih =>
      intro e hnot
      rw [List.map_cons, List.mem_cons, not_or] at hnot
      rw [List.foldl_cons, ih _ hnot.2, receivedOf_receive, if_neg fun h => hnot.1 h.2,
        Nat.add_zero]

theorem receivedOf_receives_ne (hne : lp ≠ lpToken) : ∀ (as : List Asset) (e : SampleExt),
    (as.foldl (SampleExt.receive lpToken) e).receivedOf lp asset = e.receivedOf lp asset := by
  intro as
  induction as with
  | nil => exact fun e => rfl
  | cons a as ih =>
      intro e
      rw [List.foldl_cons, ih, receivedOf_receive, if_neg fun h => hne h.1, Nat.add_zero]

theorem receivedOf_claims_ne : ∀ (lpTokens : List Addr) (e : SampleExt), lp ∉ lpTokens →
    (lpTokens.foldl SampleExt.claim e).receivedOf lp asset = e.receivedOf lp asset := by
  intro lpTokens
  induction lpTokens with
  | nil => exact fun e _ => rfl
  | cons lpToken lpTokens ih =>
      intro e hnot
      rw [List.mem_cons, not_or] at hnot
      rw [List.foldl_cons, ih _ hnot.2]
      exact receivedOf_receives_ne hnot.1 (e.pendingOf lpToken)
        { e with pending := e.pending.save lpToken [] }

end Receive

theorem listedOnce_exact : sampleIncentives.Exact listedOnce where
  sends e e' incentives lp asset before after h hbefore hafter := by
    obtain rfl := Except.ok.inj h
    obtain rfl := Except.ok.inj hbefore
    obtain rfl := Except.ok.inj hafter
    exact balance_receives lp asset (e.pendingOf lp) { e with pending := e.pending.save lp [] }
  unlisted e e' incentives lp asset pending hpending hnot h := by
    obtain rfl := Except.ok.inj h
    simp only [listedOnce] at hpending
    split_ifs at hpending
    obtain rfl := Except.ok.inj hpending
    exact receivedOf_receives_unlisted (e.pendingOf lp)
      { e with pending := e.pending.save lp [] } hnot
  quiet e e' m lp asset hm h := by
    show e'.receivedOf lp asset = e.receivedOf lp asset
    cases m with
    | claimRewards i lpTokens =>
        obtain rfl := Except.ok.inj h
        exact receivedOf_claims_ne lpTokens e (hm i lpTokens rfl)
    | incentivesWithdraw i l n =>
        simp only [listedOnce, SampleExt.exec, bind_eq_ok, Except.ok.injEq] at h
        obtain ⟨_, -, _, -, rfl⟩ := h
        rfl
    | sendDeposit l i n =>
        simp only [listedOnce, SampleExt.exec, bind_eq_ok, Except.ok.injEq] at h
        obtain ⟨_, -, _, -, rfl⟩ := h
        rfl
    | lpTransfer l user n =>
        simp only [listedOnce, SampleExt.exec, bind_eq_ok, Except.ok.injEq] at h
        obtain ⟨_, -, rfl⟩ := h
        rfl
    | transfer msg =>
        simp only [listedOnce, SampleExt.exec, bind_eq_ok, Except.ok.injEq] at h
        obtain ⟨_, -, rfl⟩ := h
        rfl
    | _ =>
        obtain rfl := Except.ok.inj h
        rfl

/-- Alice's and Bob's lockups come in, and the pool is staked. -/
def sampleStaking : List (Action SampleExt) :=
  [sampleMigration "alice" 20 false, sampleMigration "bob" 10 true]

/-- 12 rewards arrive, and Alice claims her part. -/
def sampleRewards : List (Action SampleExt) :=
  [.advance 100 10,
    .drift { (run (World.exec listedOnce) sampleStart sampleStaking).ext with
      pending := Map.save ∅ "usdc_pcl" [⟨astro, 12⟩], listed := [.int astro] },
    .execute ⟨"alice", []⟩ (.claimRewardsAndOptionallyUnlock .usdc 1 false)]

/-- Bob unlocks when nothing is listed any more. -/
def sampleExits : List (Action SampleExt) :=
  sampleRewards ++
    [.drift { (run (World.exec listedOnce) sampleStart (sampleStaking ++ sampleRewards)).ext with
      listed := [] }, bobUnlocks]

/-- Bob leaves without rewards, but with his 20 of the 60 LP tokens. -/
theorem exits_shared_sample :
    FairExits sampleIncentives .usdc ⟨"usdc_pcl", 60, 0, 60, [], true⟩
        (run (World.exec listedOnce) sampleStart sampleStaking)
        (run (World.exec listedOnce) sampleStart (sampleStaking ++ sampleExits)) ∧
      (run (World.exec listedOnce) sampleStart (sampleStaking ++ sampleExits)).storage.leftWith
        ⟨.usdc, "bob", 1⟩ = some 20 := by
  have hstart : instantiate ⟨0, 1, "lockdrop_pcl"⟩ ⟨"owner", []⟩ sampleInstantiateMsg =
      .ok sampleStart.storage := rfl
  have hstaking : Along (World.exec listedOnce) (Undisturbed sampleIncentives) sampleStart
      sampleStaking := by
    refine ⟨fun pool hpool => ?_, fun pool hpool => ?_, trivial⟩
    · obtain rfl := Option.some.inj hpool
      rfl
    · obtain rfl := Option.some.inj hpool
      rfl
  have hexits : Along (World.exec listedOnce) (Calm sampleIncentives)
      (run (World.exec listedOnce) sampleStart sampleStaking) sampleExits := by
    have hdrift : ∀ {w : World SampleExt} {ext : SampleExt},
        (∀ incentives lp, ext.deposit incentives lp = w.ext.deposit incentives lp) →
        (∀ lp asset, ext.receivedOf lp asset = w.ext.receivedOf lp asset) →
          Calm sampleIncentives w (.drift ext) := by
      intro w ext hdeposit hreceived
      refine ⟨⟨hdeposit, fun lp asset => (hreceived lp asset).symm.le⟩, fun ext' heq => ?_⟩
      obtain rfl := Action.drift.inj heq
      exact hreceived
    refine (along_append (World.exec listedOnce)).mpr ⟨⟨⟨trivial, fun _ h => by cases h⟩,
      hdrift (fun _ _ => rfl) fun _ _ => rfl, ⟨trivial, fun _ h => by cases h⟩, trivial⟩, ?_⟩
    rw [← run_append]
    exact ⟨hdrift (fun _ _ => rfl) fun _ _ => rfl, ⟨trivial, fun _ h => by cases h⟩, trivial⟩
  have hpool : (run (World.exec listedOnce) sampleStart sampleStaking).storage.assetPools.mayLoad
      .usdc = some ⟨"usdc_pcl", 60, 0, 60, [], true⟩ := by
    decide +kernel
  exact ⟨(exits_shared listedOnce_honest listedOnce_exact hstart (by decide)
    (fun incentives lp => by
      show (if incentives = "incentives" then 0 else 0) = 0
      split_ifs <;> rfl) hstaking hexits hpool rfl).1, by decide +kernel⟩

end NeutronTge.LockdropPcl
