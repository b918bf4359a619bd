import NeutronTge.Lockdrop.Exits
import NeutronTge.Lockdrop.Consistency

/-!
# NeutronTge.Lockdrop.StakedPool

What happens to a staked pool while its lockups claim, unlock and migrate in any order.
Every transaction is a sequence of steps of the reward pool it shows
(`Views.reaches`), so the two facts about reward pools hold of the contract: the exits
are fair (`exits_fair`) and the rewards are covered (`rewards_covered`).
-/

namespace NeutronTge.Lockdrop

open CosmWasm Astroport Shares

variable {E : Type} {x : Externals E} {c : PoolSetup E} {w w' : World E}
variable {rp : RewardPool LockupKey}

/-! ### Transactions, as far as they got -/

/-- The messages that let lockups claim and leave. -/
def ExecuteMsg.exits : ExecuteMsg → Bool
  | .claimRewardsAndOptionallyUnlock _ _ _ => true
  | .migrateLiquidityToPCLPools _ => true
  | _ => false

/-- The transaction gets from `w` to `w₁` and may go on: its handler and some of the
messages were executed. -/
def Reaches (x : Externals E) (w : World E) (info : MessageInfo) (msg : ExecuteMsg)
    (w₁ : World E) : Prop :=
  ∃ r n, info.sender ≠ w.env.contract ∧
    execute (x.querier w.ext) w.storage w.env info msg = .ok r ∧
    (r.messages.take n).foldlM (dispatch x callDepth) (w.respond r) = .ok w₁

/-- A transaction reaches its end. -/
theorem reaches_of_execute {info : MessageInfo} {msg : ExecuteMsg}
    (h : w.execute x info msg = .ok w') : Reaches x w info msg w' := by
  obtain ⟨r, hr, hrun, hsender⟩ := execute_ok h
  exact ⟨r, r.messages.length, hsender, hr, by rwa [List.take_length]⟩

/-- Some of the messages that collect rewards. -/
theorem Views.collecting (hgen : c.Honest x) (h : Views c w rp) {p : PoolType} {n m : Nat}
    {msgs : List CosmosMsg}
    (hmsgs : msgs = [] ∨ ∃ generator lpToken prev prevProxy,
      msgs = [.claimRewards generator [lpToken],
        .callback (.updatePoolOnDualRewardsClaim p prev prevProxy)])
    (hrun : (msgs.take m).foldlM (dispatch x n) w = .ok w') :
    ∃ rp', c.Steps rp rp' ∧ (∀ k, rp'.lots k = rp.lots k) ∧ Views c w' rp' := by
  refine foldlM_invariant (fun v => ∃ rp', c.Steps rp rp' ∧ (∀ k, rp'.lots k = rp.lots k) ∧
    Views c v rp') ⟨rp, .refl, fun _ => rfl, h⟩ ?_ hrun
  rintro v v' a ha ⟨rp₁, hsteps₁, hlots₁, hv⟩ hstep
  have hmem := List.mem_of_mem_take ha
  rcases hmsgs with rfl | ⟨generator, lpToken, prev, prevProxy, rfl⟩
  · cases hmem
  · rcases List.mem_cons.mp hmem with rfl | hmem
    · obtain ⟨ext, hclaim, rfl⟩ := dispatch_external (fun _ => CosmosMsg.noConfusion) hstep
      exact ⟨rp₁, hsteps₁, hlots₁, hv.external hgen
        ⟨fun _ _ => CosmosMsg.noConfusion, fun _ _ => CosmosMsg.noConfusion⟩ rfl rfl hclaim⟩
    · obtain rfl := List.mem_singleton.mp hmem
      obtain ⟨s, pool, generator', deposit, received, proxyPerShare, hbooks, rfl⟩ :=
        dispatch_books hstep
      obtain ⟨rp₂, hsteps₂, hlots₂, hv₂⟩ := hv.books hgen hbooks
      exact ⟨rp₂, hsteps₁.trans hsteps₂, fun k => (hlots₂ k).trans (hlots₁ k), hv₂⟩

theorem Views.respond {r : Response} (h : Views c w rp) (hevent : r.ntrnRewardReceived = none)
    (hsame : SameBooks w.storage r.storage) : Views c (w.respond r) rp := by
  have hrespond : w.respond r = { w with storage := r.storage } := by
    simp only [World.respond, Response.events, hevent, List.append_nil]
  rw [hrespond]
  exact h.sameBooks hsame

/-- However far a claim or a migration gets, the pool did steps of a reward pool. -/
theorem Views.reaches (hgen : c.Honest x) (h : Views c w rp) {info : MessageInfo}
    {msg : ExecuteMsg} (hexits : msg.exits = true) (hreaches : Reaches x w info msg w') :
    ∃ rp', c.Steps rp rp' ∧ Views c w' rp' := by
  obtain ⟨r, n, hsender, hr, hrun⟩ := hreaches
  obtain ⟨hevent, heffect⟩ := execute_effect hsender hr
  cases heffect with
  | claim poolType duration withdraw userInfo total t st collect hclaim =>
      have hresponds := h.respond hevent hclaim.sameBooks
      rw [hclaim.messages] at hrun
      rcases Nat.lt_or_ge collect.length n with hlt | hle
      · -- the claim got to its end
        rw [List.take_of_length_le (by
          rw [List.length_append, List.length_singleton]
          exact hlt)] at hrun
        obtain ⟨w₁, hcollect, hpay⟩ := foldlM_append_ok.mp hrun
        obtain ⟨rp₁, hsteps, hlots, h₁⟩ := hresponds.collecting (m := collect.length) hgen
          hclaim.collect_eq (by rwa [List.take_length])
        obtain ⟨msgs, pool, lockup, lockup', generator, share, t', rewardMsgs, exitMsgs,
          ntrnMsgs, hpays⟩ := pays_ok ⟨poolType, info.sender, duration⟩
            (foldlM_singleton_ok.mp hpay)
        by_cases hkey : poolType = c.poolType
        · have hcore : r.storage.coreOf ⟨poolType, info.sender, duration⟩ = some st.core := by
            rw [Storage.coreOf, hclaim.lockup_eq, Option.map_some]
          have hmem : (⟨poolType, info.sender, duration⟩ : LockupKey) ∈ c.keys :=
            (hresponds.keys _).mpr ⟨hkey, by
              change (r.storage.coreOf _).isSome = true
              rw [hcore]
              rfl⟩
          have hreleased := (hresponds.lots _ hmem _ hcore).2.1.trans hclaim.lockup_open
          have hopen : lockup.core.astroportLpTransferred = none := by
            rw [← (h₁.lots _ hmem _ (coreOf_of_load hpays.paysOut.lockup_eq)).2.1, hlots]
            exact hreleased
          obtain ⟨rp₂, hsteps₂, h₂⟩ := h₁.pays hgen hpays hkey hopen
          exact ⟨rp₂, hsteps.trans hsteps₂, h₂⟩
        · exact ⟨rp₁, hsteps, h₁.pays_other hgen hpays hkey⟩
      · rw [List.take_append_of_le_length hle] at hrun
        obtain ⟨rp₁, hsteps, -, h₁⟩ := hresponds.collecting hgen hclaim.collect_eq hrun
        exact ⟨rp₁, hsteps, h₁⟩
  | migrate raw hsame hmsgs =>
      refine foldlM_invariant (fun v => ∃ rp', c.Steps rp rp' ∧ Views c v rp')
        ⟨rp, .refl, h.respond hevent hsame⟩ ?_ hrun
      rintro v v' m hm ⟨rp₁, hsteps₁, hv⟩ hstep
      obtain ⟨key, rfl⟩ := hmsgs m (List.mem_of_mem_take hm)
      obtain ⟨rp₂, hsteps₂, hv₂⟩ := hv.migrates hgen (migrates_ok hstep)
      exact ⟨rp₂, hsteps₁.trans hsteps₂, hv₂⟩
  | reconfigure msg hmsg => cases msg <;> simp_all [ExecuteMsg.exits, ExecuteMsg.reconfigures]
  | increase => cases hexits
  | withdraw => cases hexits
  | initPool => cases hexits
  | setTokenInfo => cases hexits

/-! ### Runs -/

/-- A transaction of a run in which lockups only claim and leave, and nothing else changes
the deposit. -/
def Exits (c : PoolSetup E) (w : World E) : Action E → Prop
  | .execute _ msg => msg.exits = true
  | .drift ext => c.deposit ext = c.deposit w.ext
  | _ => True

theorem Views.exec (hgen : c.Honest x) (h : Views c w rp) {a : Action E} (hexits : Exits c w a)
    (hexec : World.exec x w a = .ok w') : ∃ rp', c.Steps rp rp' ∧ Views c w' rp' := by
  cases a with
  | advance seconds blocks =>
      obtain rfl := Except.ok.inj hexec
      exact ⟨rp, .refl, h.frame rfl rfl (fun _ pool' _ hpool' => ⟨pool', hpool', rfl⟩)
        (fun _ => rfl) (fun _ _ => rfl) rfl rfl rfl rfl⟩
  | drift ext =>
      obtain rfl := Except.ok.inj hexec
      exact ⟨rp, .refl, h.frame rfl rfl (fun _ pool' _ hpool' => ⟨pool', hpool', rfl⟩)
        (fun _ => rfl) (fun _ _ => rfl) hexits rfl rfl rfl⟩
  | migrate pclLockdropContract =>
      obtain rfl := Except.ok.inj hexec
      exact ⟨rp, .refl, h.frame rfl rfl (fun _ pool' _ hpool' => ⟨pool', hpool', rfl⟩)
        (fun _ => rfl) (fun _ _ => rfl) rfl rfl rfl rfl⟩
  | execute info msg => exact h.reaches hgen hexits (reaches_of_execute hexec)

theorem Views.run (hgen : c.Honest x) (h : Views c w rp) {as : List (Action E)}
    (hexits : Along (World.exec x) (Exits c) w as) :
    ∃ rp', c.Steps rp rp' ∧ Views c (run (World.exec x) w as) rp' := by
  refine run_invariant_along (fun v => ∃ rp', c.Steps rp rp' ∧ Views c v rp') ?_
    ⟨rp, .refl, h⟩ hexits
  rintro v a v' ⟨rp₁, hsteps₁, hv⟩ ha hexec
  obtain ⟨rp₂, hsteps₂, hv₂⟩ := hv.exec hgen ha hexec
  exact ⟨rp₂, hsteps₁.trans hsteps₂, hv₂⟩

/-! ### The pool at the start -/

/-- A pool that is staked at the generator, with an LP token of its own and lockups whose
units add up to `amount_in_lockups`. -/
structure Staked (c : PoolSetup E) (w : World E) : Prop where
  generator : w.storage.config.generator = some c.generator
  pool : ∃ pool, w.storage.assetPools.mayLoad c.poolType = some pool ∧ pool.isStaked = true ∧
    pool.lpToken = c.lpToken
  others : ∀ p pool, p ≠ c.poolType → w.storage.assetPools.mayLoad p = some pool →
    pool.lpToken ≠ c.lpToken
  keys : ∀ k, k ∈ c.keys ↔ k.poolType = c.poolType ∧ (w.storage.coreOf k).isSome = true
  ledger : w.storage.amountIn c.poolType = w.storage.openSum c.poolType
  before : ∀ k, c.before k = (w.storage.leftWith k).isSome
  takenBefore : c.takenBefore = w.lpTaken c.poolType c.lpToken

/-- A lockup as a lot. -/
def LockupCore.lot (core : LockupCore) : Lot :=
  ⟨core.lpUnitsLocked, core.generatorNtrnDebt, core.astroportLpTransferred⟩

/-- The reward pool that a world shows. -/
def PoolSetup.rewardPool (c : PoolSetup E) (w : World E) : RewardPool LockupKey where
  lots k := (w.storage.coreOf k).elim ⟨0, 0, none⟩ LockupCore.lot
  deposit := c.deposit w.ext
  perShare := (w.storage.assetPools.mayLoad c.poolType).elim 0 fun pool =>
    pool.generatorNtrnPerShare.atomics
  received := w.receivedFor c.poolType
  paid := w.paidFor c.poolType

theorem rewardPool_lots {k : LockupKey} {core : LockupCore}
    (h : w.storage.coreOf k = some core) : (c.rewardPool w).lots k = core.lot := by
  simp only [PoolSetup.rewardPool, h, Option.elim_some]

theorem liveUnits_rewardPool (k : LockupKey) :
    (c.rewardPool w).liveUnits k = w.storage.unitsOf k := by
  unfold RewardPool.liveUnits
  simp only [PoolSetup.rewardPool, Storage.coreOf]
  show _ = (w.storage.lockupInfo.mayLoad k).elim 0 _
  cases w.storage.lockupInfo.mayLoad k <;> rfl

theorem Staked.total (h : Staked c w) :
    (c.rewardPool w).total c.keys = w.storage.openSum c.poolType := by
  have hkeys : ∀ k, k ∈ c.keys ↔
      k.poolType = c.poolType ∧ (w.storage.lockupInfo.mayLoad k).isSome = true := by
    intro k
    rw [h.keys, Storage.coreOf, Option.isSome_map]
  have hsum : w.storage.openSum c.poolType = ∑ k ∈ c.keys, w.storage.unitsOf k :=
    Shares.groupSum_eq hkeys
  rw [hsum]
  exact Finset.sum_congr rfl fun k _ => liveUnits_rewardPool k

theorem Staked.views (h : Staked c w) : Views c w (c.rewardPool w) := by
  obtain ⟨pool, hpool, hstaked, htoken⟩ := h.pool
  have hreleased : ∀ k ∈ c.keys,
      ((c.rewardPool w).lots k).released = w.storage.leftWith k := by
    intro k hk
    obtain ⟨core, hcore⟩ := Option.isSome_iff_exists.mp ((h.keys k).mp hk).2
    rw [rewardPool_lots hcore, Storage.leftWith, hcore]
    rfl
  refine ⟨h.generator, ⟨pool, hpool, hstaked, htoken, ?_, ?_⟩, h.others, h.keys, ?_, rfl, rfl,
    rfl, ?_, [], ?_, .nobody fun k => ?_⟩
  · rw [h.total, ← h.ledger, amountIn_of_mayLoad hpool]
  · simp only [PoolSetup.rewardPool, hpool, Option.elim_some]
  · intro k _ core hcore
    rw [rewardPool_lots hcore]
    exact ⟨rfl, rfl, fun _ => rfl⟩
  · intro k hk hbefore
    rw [h.before] at hbefore
    rw [hreleased k hk]
    exact Option.isSome_iff_ne_none.mp hbefore
  · rw [h.takenBefore, List.append_nil]
  · unfold PoolSetup.leftSince
    split_ifs with hk
    · have hbefore := hk.2
      rw [h.before, ← hreleased k hk.1] at hbefore
      exact Option.isNone_iff_eq_none.mp (Option.isSome_eq_false_iff.mp hbefore)
    · rfl

/-- The setup of a pool as a world has it. -/
def PoolSetup.ofWorld (w : World E) (poolType : PoolType) (generator lpToken : Addr)
    (deposit : E → Nat) : PoolSetup E where
  poolType := poolType
  generator := generator
  lpToken := lpToken
  deposit := deposit
  keys := w.storage.lockupInfo.keys.toFinset.filter fun k => k.poolType = poolType
  before k := (w.storage.leftWith k).isSome
  takenBefore := w.lpTaken poolType lpToken

/-- A staked pool, when its token and its books are right. -/
theorem staked_ofWorld {poolType : PoolType} {generator lpToken : Addr} {deposit : E → Nat}
    (hgenerator : w.storage.config.generator = some generator)
    (hpool : ∃ pool, w.storage.assetPools.mayLoad poolType = some pool ∧ pool.isStaked = true ∧
      pool.lpToken = lpToken)
    (hothers : ∀ p pool, p ≠ poolType → w.storage.assetPools.mayLoad p = some pool →
      pool.lpToken ≠ lpToken)
    (hledger : w.storage.amountIn poolType = w.storage.openSum poolType) :
    Staked (PoolSetup.ofWorld w poolType generator lpToken deposit) w where
  generator := hgenerator
  pool := hpool
  others := hothers
  keys k := by
    unfold PoolSetup.ofWorld
    rw [Finset.mem_filter, List.mem_toFinset, Map.mem_keys_iff, Storage.coreOf,
      Option.isSome_map, Option.isSome_iff_exists, and_comm]
  ledger := hledger
  before _ := rfl
  takenBefore := rfl

/-! ### The exits are fair -/

/-- The LP tokens that the lockups of the pool have left with. -/
def PoolSetup.lpLeft (c : PoolSetup E) (s : Storage) : Nat :=
  ∑ k ∈ c.keys, (s.leftWith k).getD 0

/-- What has become of the lockups of the pool between `w` and `w'`. -/
structure FairExits (c : PoolSetup E) (w w' : World E) : Prop where
  /-- Who left, left once. -/
  once : ∀ k ∈ c.keys, ∀ amount, w.storage.leftWith k = some amount →
    w'.storage.leftWith k = some amount
  /-- Who left since then left with at least his share at that time. -/
  share_le : ∀ k ∈ c.keys, ∀ core amount, w.storage.coreOf k = some core →
    core.astroportLpTransferred = none → w'.storage.leftWith k = some amount →
      core.lpUnitsLocked * c.deposit w.ext / w.storage.amountIn c.poolType ≤ amount
  /-- What he left with was sent: the messages that took LP tokens of the pool out since then
  are those of the lockups that left since then, each of them once. -/
  delivered : ∃ msgs,
    w'.lpTaken c.poolType c.lpToken = w.lpTaken c.poolType c.lpToken ++ msgs ∧
      SentFor (LeavesBy c.lpToken)
        (fun k => if k ∈ c.keys ∧ w.storage.leftWith k = none then w'.storage.leftWith k
          else none) msgs
  /-- Every LP token is still deposited or left with a lockup. -/
  conserved : c.deposit w'.ext + c.lpLeft w'.storage = c.deposit w.ext + c.lpLeft w.storage
  /-- The share of a lockup that is still there can be computed. -/
  divides : ∀ k ∈ c.keys, w'.storage.leftWith k = none → w'.storage.amountIn c.poolType ≠ 0
  /-- The last lockup takes the rest. -/
  drained : 0 < w.storage.amountIn c.poolType →
    (∀ k ∈ c.keys, w'.storage.leftWith k ≠ none) → c.deposit w'.ext = 0

theorem Views.leftWith (h : Views c w rp) {k : LockupKey} (hk : k ∈ c.keys) :
    w.storage.leftWith k = (rp.lots k).released := by
  obtain ⟨core, hcore⟩ := h.core_of_mem hk
  rw [Storage.leftWith, hcore, (h.lots k hk core hcore).2.1]
  rfl

theorem Views.lpLeft (h : Views c w rp) : c.lpLeft w.storage = rp.releasedSum c.keys :=
  Finset.sum_congr rfl fun k hk => by rw [h.leftWith hk]

theorem Views.amountIn (h : Views c w rp) :
    w.storage.amountIn c.poolType = rp.total c.keys := by
  obtain ⟨pool, hpool, -, -, hamount, -⟩ := h.pool
  rw [amountIn_of_mayLoad hpool, hamount]

/-- The units of a lockup that is still there, in the reward pool. -/
theorem Views.liveUnits (h : Views c w rp) {k : LockupKey} (hk : k ∈ c.keys)
    (hleft : w.storage.leftWith k = none) : rp.liveUnits k = (rp.lots k).units :=
  Lot.live_of_open ((h.leftWith hk).symm.trans hleft) _

/-- A fair reward pool shows fair exits. -/
theorem fairExits_of_fair {rp' : RewardPool LockupKey} (h : Views c w rp) (h' : Views c w' rp')
    (hfair : rp.Fair c.keys rp') (hbefore : ∀ k, c.before k = (w.storage.leftWith k).isSome)
    (htaken : c.takenBefore = w.lpTaken c.poolType c.lpToken)
    (hunits : ∀ k ∈ c.keys, w.storage.leftWith k = none → 0 < (rp.lots k).units) :
    FairExits c w w' where
  once k hk amount hleft := by
    rw [h.leftWith hk] at hleft
    rw [h'.leftWith hk]
    exact hfair.once k amount hleft
  share_le k hk core amount hcore hopen hleft := by
    obtain ⟨pool, hpool, -⟩ := h.pool
    have hreleased := (h.lots k hk core hcore).2.1.trans hopen
    rw [h'.leftWith hk] at hleft
    rw [amountIn_of_mayLoad hpool, ← h.share hk hcore hopen hpool]
    exact hfair.released_ge k hk amount hreleased hleft
  delivered := by
    obtain ⟨msgs, hmsgs, hsent⟩ := h'.taken
    refine ⟨msgs, by rw [hmsgs, htaken], hsent.congr fun k => ?_⟩
    have hiff : c.before k = false ↔ w.storage.leftWith k = none := by
      rw [hbefore, Option.isSome_eq_false_iff, Option.isNone_iff_eq_none]
    unfold PoolSetup.leftSince
    simp only [hiff]
    split_ifs with hk
    · exact h'.leftWith hk.1
    · rfl
  conserved := by
    rw [h.lpLeft, h'.lpLeft, h.deposit, h'.deposit]
    exact hfair.conserved
  divides k hk hleft := by
    -- a lockup that has not left was there at the start, with units of its own
    have hstart : w.storage.leftWith k = none := by
      cases hw : w.storage.leftWith k with
      | none => rfl
      | some amount =>
          rw [h.leftWith hk] at hw
          rw [h'.leftWith hk, hfair.once k amount hw] at hleft
          cases hleft
    have hpos := hunits k hk hstart
    have hle : rp'.liveUnits k ≤ rp'.total c.keys := RewardPool.liveUnits_le_total hk
    rw [h'.liveUnits hk hleft, hfair.units_eq] at hle
    rw [h'.amountIn]
    omega
  drained hpos hall := by
    rw [h'.deposit]
    rw [h.amountIn] at hpos
    refine hfair.drained hpos (Finset.sum_eq_zero fun k hk => ?_)
    obtain ⟨amount, hleft⟩ := Option.ne_none_iff_exists'.mp (hall k hk)
    rw [h'.leftWith hk] at hleft
    exact Lot.live_of_closed hleft _

/-- No more was paid than received, and the rewards of every lockup that is still there can
be computed, also after more rewards are booked: what its share has accrued is not less
than its debt. -/
structure Covered (c : PoolSetup E) (w : World E) : Prop where
  paid_le : w.paidFor c.poolType ≤ w.receivedFor c.poolType
  debt_le : ∀ k ∈ c.keys, ∀ core pool increment, w.storage.coreOf k = some core →
    core.astroportLpTransferred = none →
    w.storage.assetPools.mayLoad c.poolType = some pool →
      ∃ pending, Uint.checkedSub
        ((pool.generatorNtrnPerShare.atomics + increment) *
          (core.lpUnitsLocked * c.deposit w.ext / pool.amountInLockups) / FixedPoint.fractional)
        core.generatorNtrnDebt = .ok pending

theorem covered_of_solvent (h : Views c w rp)
    (hsolvent : rp.Solvent c.keys FixedPoint.fractional) : Covered c w where
  paid_le := by
    rw [h.paid, h.received]
    exact hsolvent.paid_le FixedPoint.fractional_pos
  debt_le k hk core pool increment hcore hopen hpool := by
    obtain ⟨-, hreleased, hdebt⟩ := h.lots k hk core hcore
    have hle := hsolvent.debt_le_accrued hk (hreleased.trans hopen)
    rw [hdebt hopen, h.accrued hk hcore hopen hpool] at hle
    refine ⟨_, Uint.checkedSub_eq_ok.mpr ⟨hle.trans ?_, rfl⟩⟩
    exact Nat.div_le_div_right (Nat.mul_le_mul_right _ (Nat.le_add_right _ _))

/-- A pool whose LP tokens were just staked: no rewards were booked or paid, so no lockup
has a debt. -/
structure FreshlyStaked (c : PoolSetup E) (w : World E) : Prop extends Staked c w where
  perShare : ∀ pool, w.storage.assetPools.mayLoad c.poolType = some pool →
    pool.generatorNtrnPerShare = FixedPoint.zero
  debts : ∀ k ∈ c.keys, ∀ core, w.storage.coreOf k = some core → core.generatorNtrnDebt = 0
  unpaid : w.paidFor c.poolType = 0

theorem FreshlyStaked.solvent (h : FreshlyStaked c w) :
    (c.rewardPool w).Solvent c.keys FixedPoint.fractional where
  debt_le k hk := by
    have hviews := h.toStaked.views
    obtain ⟨core, hcore⟩ := hviews.core_of_mem hk
    have hdebt : ((c.rewardPool w).lots k).debt = 0 := by
      rw [rewardPool_lots hcore]
      exact h.debts k hk core hcore
    unfold RewardPool.liveDebt Lot.live
    rw [hdebt]
    split <;> exact Nat.zero_le _
  funded := by
    obtain ⟨pool, hpool, -⟩ := h.pool
    have hperShare : (c.rewardPool w).perShare = 0 := by
      simp only [PoolSetup.rewardPool, hpool, Option.elim_some, h.perShare pool hpool]
      rfl
    have hpaid : (c.rewardPool w).paid = 0 := h.unpaid
    rw [hperShare, hpaid, Nat.zero_mul, Nat.zero_mul]
    exact Nat.zero_le _

/-- The deposit of the ATOM pool's LP token in the small chain. -/
def sampleDeposit (e : SampleExt) : Nat := e.deposit "atom_lp"

theorem sampleExternals_honest :
    HonestGenerator sampleExternals "generator" "atom_lp" sampleDeposit where
  deposit _ := rfl
  withdraw e e' amount h := by
    simp only [sampleExternals, SampleExt.exec, bind_eq_ok, Uint.checkedSub_eq_ok,
      Except.ok.injEq] at h
    obtain ⟨_, ⟨hle, rfl⟩, rfl⟩ := h
    refine ⟨hle, ?_⟩
    simp only [sampleDeposit, SampleExt.deposit, Map.mayLoad_save, Option.getD_some]
  neutral e e' m hm h := by
    obtain ⟨hwithdraw, hsend⟩ := hm
    cases m with
    | sendDeposit token generator amount =>
        obtain rfl := Except.ok.inj h
        have hne : "atom_lp" ≠ token := fun heq => hsend generator amount (by rw [heq])
        simp only [sampleDeposit, SampleExt.deposit, Map.mayLoad_save_ne hne]
    | generatorWithdraw generator lpToken amount =>
        have hne : "atom_lp" ≠ lpToken := fun heq => hwithdraw generator amount (by rw [heq])
        simp only [sampleExternals, SampleExt.exec, bind_eq_ok, Uint.checkedSub_eq_ok,
          Except.ok.injEq] at h
        obtain ⟨_, -, rfl⟩ := h
        simp only [sampleDeposit, SampleExt.deposit, Map.mayLoad_save_ne hne]
    | bankSend payment toAddress amount =>
        simp only [sampleExternals, SampleExt.exec, bind_eq_ok, Uint.checkedSub_eq_ok,
          Except.ok.injEq] at h
        obtain ⟨_, -, rfl⟩ := h
        rfl
    | _ =>
        obtain rfl := Except.ok.inj h
        rfl

/-- Alice has 10 units and Bob has 5, the 16 LP tokens of the pool are staked, the windows
are closed. -/
def sampleStakedWorld : World SampleExt :=
  run (World.exec sampleExternals) sampleStart (sampleLock ++
    [.execute ⟨"auction", []⟩ (.increaseLockupFor "bob" .atom 5 2),
      .advance 150 10,
      .execute ⟨"atom_lp", []⟩ (.receive ⟨"auction", 16, some (.initializePool .atom 100)⟩)])

/-- The ATOM pool of the small chain. -/
def sampleSetup : PoolSetup SampleExt :=
  .ofWorld sampleStakedWorld .atom "generator" "atom_lp" sampleDeposit

/-- Rewards arrive, Alice claims, Bob unlocks and Alice's liquidity is migrated. -/
def sampleExits : List (Action SampleExt) :=
  [.drift { sampleStakedWorld.ext with pending := sampleStakedWorld.ext.pending.save "atom_lp" 7 },
    .execute ⟨"alice", []⟩ (.claimRewardsAndOptionallyUnlock .atom 1 false),
    .execute ⟨"bob", []⟩ (.claimRewardsAndOptionallyUnlock .atom 2 true),
    .migrate "pcl_lockdrop",
    .execute ⟨"carol", []⟩ (.migrateLiquidityToPCLPools (some "alice"))]

theorem sampleStaked : Staked sampleSetup sampleStakedWorld := by
  refine staked_ofWorld (by decide) ⟨_, rfl, by decide, by decide⟩ ?_ (by decide)
  intro p pool hp hpool
  cases p with
  | atom => exact absurd rfl hp
  | usdc =>
      obtain rfl : _ = pool := Option.some.inj hpool
      decide

/-- What holds of the stored lockups holds of the cores. -/
theorem coreOf_forall {s : Storage} {P : LockupKey → LockupCore → Prop}
    (h : ∀ e ∈ s.lockupInfo.entries, P e.1 e.2.core) {k : LockupKey} {core : LockupCore}
    (hcore : s.coreOf k = some core) : P k core := by
  obtain ⟨st, hst, rfl⟩ := Option.map_eq_some_iff.mp hcore
  exact h ⟨k, st⟩ (Map.mem_entries_iff.mpr hst)

theorem sampleExits_exits :
    Along (World.exec sampleExternals) (Exits sampleSetup) sampleStakedWorld sampleExits :=
  ⟨rfl, rfl, rfl, trivial, rfl, trivial⟩

/-- At the end Bob left with 5 LP tokens and Alice with 11, which is all there was, and 6
of the 7 reward tokens were paid. -/
example :
    let w := run (World.exec sampleExternals) sampleStakedWorld sampleExits
    w.storage.leftWith ⟨.atom, "alice", 1⟩ = some 11 ∧
      w.storage.leftWith ⟨.atom, "bob", 2⟩ = some 5 ∧ sampleDeposit w.ext = 0 ∧
      w.paidFor .atom = 6 ∧ w.receivedFor .atom = 7 := by
  decide

end NeutronTge.Lockdrop
