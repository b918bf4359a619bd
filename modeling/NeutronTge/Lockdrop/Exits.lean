import NeutronTge.Shares.Departures
import NeutronTge.Shares.RewardPool
import NeutronTge.Lockdrop.Ledger

/-!
# NeutronTge.Lockdrop.Exits

A staked pool of the lockdrop, seen as a `RewardPool`: the lots are the lockups of the
pool, the deposit is the one at the generator, and the rewards are counted in the trace.
`Views` says that a world shows a given reward pool. Every part of a claim or a migration
then does one of the steps of a reward pool (`Settles`, `Leaves`, booked rewards), or
leaves it alone, so that what is known about reward pools holds for the contract.
-/

namespace NeutronTge.Lockdrop

open CosmWasm Astroport Shares

/-! ### What is counted in the trace -/

/-- The base reward that an event booked for a pool. -/
def Event.receivedFor (p : PoolType) : Event → Nat
  | .ntrnRewardReceived p' amount => if p' = p then amount else 0
  | .sent _ => 0

/-- The base reward that an event paid to a user for a pool. -/
def Event.paidFor (p : PoolType) : Event → Nat
  | .sent (.bankSend (.generatorReward p') _ coin) => if p' = p then coin.amount else 0
  | _ => 0

variable {E : Type}

namespace World

/-- The base rewards the lockdrop received from the generator for a pool. -/
def receivedFor (w : World E) (p : PoolType) : Nat := w.count (Event.receivedFor p)

/-- The base rewards the lockdrop sent to users for a pool. -/
def paidFor (w : World E) (p : PoolType) : Nat := w.count (Event.paidFor p)

end World

section Trace

variable {p : PoolType} {w w' : World E} {events : List Event} {msgs : List CosmosMsg}

/-- Sending messages receives nothing. -/
theorem receivedFor_sent (h : w'.trace = w.trace ++ msgs.map Event.sent) :
    w'.receivedFor p = w.receivedFor p := by
  unfold World.receivedFor
  rw [count_sent h, countSent_eq_zero fun _ _ => rfl, Nat.add_zero]

/-- The base rewards that messages pay for a pool. -/
def paidBy (p : PoolType) (msgs : List CosmosMsg) : Nat := countSent (Event.paidFor p) msgs

theorem paidFor_sent (h : w'.trace = w.trace ++ msgs.map Event.sent) :
    w'.paidFor p = w.paidFor p + paidBy p msgs :=
  count_sent h

@[simp] theorem paidBy_nil : paidBy p [] = 0 := rfl

@[simp] theorem paidBy_append (xs ys : List CosmosMsg) :
    paidBy p (xs ++ ys) = paidBy p xs + paidBy p ys :=
  countSent_append xs ys

/-- A base reward that is zero is not sent, so what is paid is the reward. -/
theorem paidBy_baseRewardMsg (p' : PoolType) (user : Addr) (token : String) (pending : Nat) :
    paidBy p (baseRewardMsg p' user token pending) = if p' = p then pending else 0 := by
  unfold baseRewardMsg
  split_ifs with hpos hp
  · simp [paidBy, countSent, Event.paidFor, hp]
  · simp [paidBy, countSent, Event.paidFor, hp]
  · simp only [paidBy_nil]
    omega
  · rfl

theorem paidBy_transfers (proxy : List Asset) (user : Addr) :
    paidBy p (proxy.map fun asset => .transfer (asset.intoMsg user)) = 0 := by
  refine countSent_eq_zero fun m hm => ?_
  obtain ⟨asset, -, rfl⟩ := List.mem_map.mp hm
  rfl

theorem PaysNtrn.paidBy {s s' : Storage} {user : Addr} {userInfo : UserInfo}
    (h : PaysNtrn s user userInfo s' msgs) : paidBy p msgs = 0 := by
  refine countSent_eq_zero fun m hm => ?_
  rcases h.mem hm with ⟨coin, rfl⟩ | ⟨credits, amount, rfl⟩ <;> rfl

end Trace

/-! ### The messages that take LP tokens out -/

/-- Whether a message takes LP tokens of a pool out of the lockdrop, or hands a lockup of the pool
over. -/
def CosmosMsg.takesLp (p : PoolType) (lpToken : Addr) : CosmosMsg → Bool
  | .lpTransfer token _ _ => token = lpToken
  | .withdrawLiquidity token _ _ => token = lpToken
  | .migrateXYKLiquidity _ _ poolType _ _ _ _ _ => poolType = p
  | _ => false

/-- The message of an event, if it takes LP tokens of a pool out. -/
def Event.taking (p : PoolType) (lpToken : Addr) : Event → Option CosmosMsg
  | .sent m => Option.guard (CosmosMsg.takesLp p lpToken) m
  | .ntrnRewardReceived _ _ => none

/-- The messages so far that took LP tokens of a pool out. -/
def World.lpTaken (w : World E) (p : PoolType) (lpToken : Addr) : List CosmosMsg :=
  w.trace.filterMap (Event.taking p lpToken)

/-- The messages of a lockup that leaves with its LP tokens: they are sent to its owner, or taken
out of the pair while the lockup is handed over. -/
inductive LeavesBy (lpToken : Addr) (k : LockupKey) (amount : Nat) : List CosmosMsg → Prop
  | unlocked : LeavesBy lpToken k amount [.lpTransfer lpToken k.user amount]
  | migrated (pair pclLockdrop : Addr) (funds : List Coin) (userInfo : UserInfo)
      (lockup : LockupInfoV2) (stake : Bool)
      (hleft : lockup.astroportLpTransferred = some amount) :
      LeavesBy lpToken k amount
        [.withdrawLiquidity lpToken pair amount,
          .migrateXYKLiquidity pclLockdrop funds k.poolType k.user k.duration userInfo lockup
            stake]

section Taking

variable {p : PoolType} {lp : Addr} {w w' : World E} {msgs : List CosmosMsg}

/-- Messages that take no LP tokens of a pool out. -/
def Quiet (p : PoolType) (lp : Addr) (msgs : List CosmosMsg) : Prop :=
  ∀ m ∈ msgs, m.takesLp p lp = false

theorem Quiet.filter (h : Quiet p lp msgs) : msgs.filter (CosmosMsg.takesLp p lp) = [] :=
  List.filter_eq_nil_iff.mpr fun m hm => by rw [h m hm]; exact Bool.false_ne_true

theorem lpTaken_append {events : List Event} (h : w'.trace = w.trace ++ events) :
    w'.lpTaken p lp = w.lpTaken p lp ++ events.filterMap (Event.taking p lp) := by
  unfold World.lpTaken
  rw [h, List.filterMap_append]

theorem lpTaken_sent (h : w'.trace = w.trace ++ msgs.map Event.sent) :
    w'.lpTaken p lp = w.lpTaken p lp ++ msgs.filter (CosmosMsg.takesLp p lp) := by
  rw [lpTaken_append h, List.filterMap_map, ← List.filterMap_eq_filter]
  rfl

theorem lpTaken_quiet (hquiet : Quiet p lp msgs) (h : w'.trace = w.trace ++ msgs.map Event.sent) :
    w'.lpTaken p lp = w.lpTaken p lp := by
  rw [lpTaken_sent h, hquiet.filter, List.append_nil]

theorem PaysNtrn.quiet {s s' : Storage} {user : Addr} {userInfo : UserInfo}
    (h : PaysNtrn s user userInfo s' msgs) : Quiet p lp msgs := by
  intro m hm
  rcases h.mem hm with ⟨coin, rfl⟩ | ⟨credits, amount, rfl⟩ <;> rfl

/-- The reward callback of a claim takes the LP tokens of its own lockup out, when it unlocks. -/
theorem PaysOut.taken {q : Querier} {s s' t : Storage} {height : Nat} {key : LockupKey}
    {withdraw : Bool} {pool : PoolInfo} {lockup lockup' : LockupInfoV2} {generator : Addr}
    {share : Nat} {rewardMsgs exitMsgs ntrnMsgs : List CosmosMsg}
    (h : PaysOut q s s' height key withdraw msgs pool lockup lockup' generator share t
      rewardMsgs exitMsgs ntrnMsgs) :
    msgs.filter (CosmosMsg.takesLp p lp) =
      if withdraw = true ∧ pool.lpToken = lp then [.lpTransfer lp key.user share] else [] := by
  have hrewards : Quiet p lp rewardMsgs := by
    intro m hm
    rcases h.rewards.mem hm with ⟨coin, rfl⟩ | ⟨transfer, rfl⟩ | ⟨-, rfl⟩ <;> rfl
  have hexits := h.exits
  rw [h.messages, List.filter_append, List.filter_append, hrewards.filter, h.ntrn.quiet.filter,
    List.nil_append, List.append_nil]
  generalize withdraw = b at hexits
  cases hexits with
  | stored => rfl
  | closed =>
      by_cases htoken : pool.lpToken = lp
      · rw [if_pos ⟨rfl, htoken⟩, htoken]
        simp [CosmosMsg.takesLp]
      · rw [if_neg fun hboth => htoken hboth.2]
        simp [CosmosMsg.takesLp, htoken]

theorem TransfersAll.quiet {q : Querier} {s s' : Storage} {key : LockupKey}
    {rewardMsgs : List CosmosMsg} {pool : PoolInfo} {lockup : LockupInfoV2} {generator : Addr}
    {share accrued : Nat} {rewardToken : String} {proxy : List Asset} {ntrnMsgs : List CosmosMsg}
    (h : TransfersAll q s s' key rewardMsgs pool lockup generator share accrued rewardToken proxy
      ntrnMsgs) : Quiet p lp rewardMsgs := by
  intro m hm
  rcases h.mem hm with ⟨coin, rfl⟩ | ⟨transfer, rfl⟩ | ⟨coin, rfl⟩ | ⟨credits, amount, rfl⟩ <;> rfl

end Taking

/-! ### The generator -/

/-- A message that does not touch the deposit of an LP token. -/
def Neutral (lp : Addr) (m : CosmosMsg) : Prop :=
  (∀ generator amount, m ≠ .generatorWithdraw generator lp amount) ∧
    ∀ generator amount, m ≠ .sendDeposit lp generator amount

/-- The deposit `dep` of the LP token `lp` at the generator `g` is what the generator says,
and only the contract's own messages change it, by exactly the amounts they name. -/
structure HonestGenerator (x : Externals E) (g lp : Addr) (dep : E → Nat) : Prop where
  deposit : ∀ e, (x.querier e).deposit g lp = .ok (dep e)
  withdraw : ∀ e e' amount, x.exec e (.generatorWithdraw g lp amount) = .ok e' →
    amount ≤ dep e ∧ dep e' = dep e - amount
  neutral : ∀ e e' m, Neutral lp m → x.exec e m = .ok e' → dep e' = dep e

section Generator

variable {x : Externals E} {g lp : Addr} {dep : E → Nat}

theorem HonestGenerator.foldlM (hgen : HonestGenerator x g lp dep) {msgs : List CosmosMsg}
    {e e' : E} (hneutral : ∀ m ∈ msgs, Neutral lp m) (h : msgs.foldlM x.exec e = .ok e') :
    dep e' = dep e :=
  foldlM_unchanged dep (fun t t' m hm => hgen.neutral t t' m (hneutral m hm)) h

theorem neutral_baseRewardMsg (p : PoolType) (user : Addr) (token : String) (pending : Nat) :
    ∀ m ∈ baseRewardMsg p user token pending, Neutral lp m := by
  intro m hm
  obtain ⟨coin, rfl⟩ := mem_baseRewardMsg hm
  exact ⟨fun _ _ => CosmosMsg.noConfusion, fun _ _ => CosmosMsg.noConfusion⟩

theorem neutral_transfers (proxy : List Asset) (user : Addr) :
    ∀ m ∈ proxy.map fun asset => CosmosMsg.transfer (asset.intoMsg user), Neutral lp m := by
  intro m hm
  obtain ⟨asset, -, rfl⟩ := List.mem_map.mp hm
  exact ⟨fun _ _ => CosmosMsg.noConfusion, fun _ _ => CosmosMsg.noConfusion⟩

theorem PaysNtrn.neutral {s s' : Storage} {user : Addr} {userInfo : UserInfo}
    {msgs : List CosmosMsg} (h : PaysNtrn s user userInfo s' msgs) :
    ∀ m ∈ msgs, Neutral lp m := by
  intro m hm
  rcases h.mem hm with ⟨coin, rfl⟩ | ⟨credits, amount, rfl⟩ <;>
    exact ⟨fun _ _ => CosmosMsg.noConfusion, fun _ _ => CosmosMsg.noConfusion⟩

theorem neutral_append {xs ys : List CosmosMsg} (hx : ∀ m ∈ xs, Neutral lp m)
    (hy : ∀ m ∈ ys, Neutral lp m) : ∀ m ∈ xs ++ ys, Neutral lp m := by
  intro m hm
  rcases List.mem_append.mp hm with hm | hm
  · exact hx m hm
  · exact hy m hm

end Generator

/-! ### A world that shows a reward pool -/

/-- The staked pool `p`, its generator and its LP token, and what the other contracts have
to do with them. -/
structure PoolSetup (E : Type) where
  poolType : PoolType
  generator : Addr
  lpToken : Addr
  /-- The deposit of the LP token at the generator. -/
  deposit : E → Nat
  /-- The lockups of the pool. -/
  keys : Finset LockupKey
  /-- The lockups that left before. -/
  before : LockupKey → Bool
  /-- The messages that took LP tokens of the pool out before. -/
  takenBefore : List CosmosMsg

/-- Of what lockups left with, that of the lockups of the pool that did not leave before. -/
def PoolSetup.leftSince (c : PoolSetup E) (left : LockupKey → Option Nat) (k : LockupKey) :
    Option Nat :=
  if k ∈ c.keys ∧ c.before k = false then left k else none

/-- The world `w` shows the reward pool `rp`. A lot that left may have another debt in the
storage than in the reward pool: a migration does not store it. -/
structure Views (c : PoolSetup E) (w : World E) (rp : RewardPool LockupKey) : Prop where
  generator : w.storage.config.generator = some c.generator
  pool : ∃ pool, w.storage.assetPools.mayLoad c.poolType = some pool ∧ pool.isStaked = true ∧
    pool.lpToken = c.lpToken ∧ pool.amountInLockups = rp.total c.keys ∧
    pool.generatorNtrnPerShare.atomics = rp.perShare
  others : ∀ p pool, p ≠ c.poolType → w.storage.assetPools.mayLoad p = some pool →
    pool.lpToken ≠ c.lpToken
  keys : ∀ k, k ∈ c.keys ↔ k.poolType = c.poolType ∧ (w.storage.coreOf k).isSome = true
  lots : ∀ k ∈ c.keys, ∀ core, w.storage.coreOf k = some core →
    (rp.lots k).units = core.lpUnitsLocked ∧
      (rp.lots k).released = core.astroportLpTransferred ∧
      (core.astroportLpTransferred = none → (rp.lots k).debt = core.generatorNtrnDebt)
  deposit : c.deposit w.ext = rp.deposit
  received : w.receivedFor c.poolType = rp.received
  paid : w.paidFor c.poolType = rp.paid
  gone : ∀ k ∈ c.keys, c.before k = true → (rp.lots k).released ≠ none
  taken : ∃ msgs, w.lpTaken c.poolType c.lpToken = c.takenBefore ++ msgs ∧
    SentFor (LeavesBy c.lpToken) (c.leftSince fun k => (rp.lots k).released) msgs

namespace Views

variable {x : Externals E} {c : PoolSetup E} {w w' : World E} {rp : RewardPool LockupKey}

/-- A step that the pool does not notice. -/
theorem frame (h : Views c w rp)
    (hgenerator : w'.storage.config.generator = w.storage.config.generator)
    (hpool : w'.storage.assetPools.mayLoad c.poolType = w.storage.assetPools.mayLoad c.poolType)
    (hothers : ∀ p pool', p ≠ c.poolType → w'.storage.assetPools.mayLoad p = some pool' →
      ∃ pool, w.storage.assetPools.mayLoad p = some pool ∧ pool'.lpToken = pool.lpToken)
    (hstored : ∀ k, (w'.storage.coreOf k).isSome = (w.storage.coreOf k).isSome)
    (hcores : ∀ k ∈ c.keys, w'.storage.coreOf k = w.storage.coreOf k)
    (hdeposit : c.deposit w'.ext = c.deposit w.ext)
    (hreceived : w'.receivedFor c.poolType = w.receivedFor c.poolType)
    (hpaid : w'.paidFor c.poolType = w.paidFor c.poolType)
    (htaken : w'.lpTaken c.poolType c.lpToken = w.lpTaken c.poolType c.lpToken) :
    Views c w' rp where
  generator := hgenerator.trans h.generator
  pool := by
    rw [hpool]
    exact h.pool
  others p pool' hp hpool' := by
    obtain ⟨pool, hload, htoken⟩ := hothers p pool' hp hpool'
    rw [htoken]
    exact h.others p pool hp hload
  keys k := by rw [h.keys, hstored]
  lots k hk core hcore := h.lots k hk core (hcores k hk ▸ hcore)
  deposit := hdeposit.trans h.deposit
  received := hreceived.trans h.received
  paid := hpaid.trans h.paid
  gone := h.gone
  taken := by
    rw [htaken]
    exact h.taken

/-- One-time rewards are none of the pool's business. -/
theorem sameBooks {s' : Storage} (h : Views c w rp) (hsame : SameBooks w.storage s') :
    Views c { w with storage := s' } rp := by
  refine h.frame ?_ ?_ ?_ ?_ ?_ rfl rfl rfl rfl
  · exact congrArg Config.generator hsame.config
  · exact congrArg (·.mayLoad c.poolType) hsame.assetPools
  · intro p pool' _ hpool'
    exact ⟨pool', hsame.assetPools ▸ hpool', rfl⟩
  · exact fun k => congrArg Option.isSome (hsame.lockups k)
  · exact fun k _ => hsame.lockups k

/-- Messages that neither touch the deposit nor pay base rewards of the pool. -/
theorem sent {e' : E} {msgs : List CosmosMsg} (h : Views c w rp)
    (hdeposit : c.deposit e' = c.deposit w.ext) (hpaid : paidBy c.poolType msgs = 0)
    (hquiet : Quiet c.poolType c.lpToken msgs) :
    Views c { w with ext := e', trace := w.trace ++ msgs.map Event.sent } rp := by
  refine h.frame rfl rfl (fun p pool' _ hpool' => ⟨pool', hpool', rfl⟩) (fun _ => rfl)
    (fun _ _ => rfl) hdeposit ?_ ?_ (lpTaken_quiet hquiet rfl)
  · exact receivedFor_sent rfl
  · rw [paidFor_sent (w := w) rfl, hpaid, Nat.add_zero]

theorem core_of_mem (h : Views c w rp) {k : LockupKey} (hk : k ∈ c.keys) :
    ∃ core, w.storage.coreOf k = some core :=
  Option.isSome_iff_exists.mp ((h.keys k).mp hk).2

/-- The share the contract computes for an open lockup is the share of its lot. -/
theorem share (h : Views c w rp) {k : LockupKey} (hk : k ∈ c.keys) {core : LockupCore}
    (hcore : w.storage.coreOf k = some core) (hopen : core.astroportLpTransferred = none)
    {pool : PoolInfo} (hpool : w.storage.assetPools.mayLoad c.poolType = some pool) :
    rp.share c.keys k =
      core.lpUnitsLocked * c.deposit w.ext / pool.amountInLockups := by
  obtain ⟨hunits, hreleased, -⟩ := h.lots k hk core hcore
  obtain ⟨pool', hpool', -, -, hamount, -⟩ := h.pool
  obtain rfl := Option.some.inj (hpool.symm.trans hpool')
  unfold RewardPool.share RewardPool.liveUnits
  rw [Lot.live_of_open (hreleased.trans hopen), hunits, hamount, h.deposit]

/-- What the share of an open lockup has accrued. -/
theorem accrued (h : Views c w rp) {k : LockupKey} (hk : k ∈ c.keys) {core : LockupCore}
    (hcore : w.storage.coreOf k = some core) (hopen : core.astroportLpTransferred = none)
    {pool : PoolInfo} (hpool : w.storage.assetPools.mayLoad c.poolType = some pool) :
    rp.accrued c.keys FixedPoint.fractional k = pool.generatorNtrnPerShare.atomics *
      (core.lpUnitsLocked * c.deposit w.ext / pool.amountInLockups) / FixedPoint.fractional := by
  obtain ⟨pool', hpool', -, -, -, hperShare⟩ := h.pool
  obtain rfl := Option.some.inj (hpool.symm.trans hpool')
  unfold RewardPool.accrued
  rw [h.share hk hcore hopen hpool, hperShare]

/-- The pool's rewards are booked. -/
theorem booked (h : Views c w rp) {pool : PoolInfo} {received : Nat}
    {proxyPerShare : RestrictedVector AssetInfo Decimal}
    (hpool : w.storage.assetPools.mayLoad c.poolType = some pool)
    (hpools : w'.storage.assetPools = w.storage.assetPools.save c.poolType
      { pool with
        generatorNtrnPerShare := ⟨pool.generatorNtrnPerShare.atomics +
          received * FixedPoint.fractional / c.deposit w.ext⟩
        generatorProxyPerShare := proxyPerShare } w.env.height)
    (hlockups : w'.storage.lockupInfo = w.storage.lockupInfo)
    (hconfig : w'.storage.config = w.storage.config)
    (hdeposit : c.deposit w'.ext = c.deposit w.ext)
    (hreceived : w'.receivedFor c.poolType = w.receivedFor c.poolType + received)
    (hpaid : w'.paidFor c.poolType = w.paidFor c.poolType)
    (htaken : w'.lpTaken c.poolType c.lpToken = w.lpTaken c.poolType c.lpToken) :
    Views c w' (rp.accrue FixedPoint.fractional received) := by
  have hcores : ∀ k, w'.storage.coreOf k = w.storage.coreOf k := fun k => by
    rw [Storage.coreOf, hlockups, ← Storage.coreOf]
  obtain ⟨pool', hpool', hstaked, htoken, hamount, hperShare⟩ := h.pool
  obtain rfl := Option.some.inj (hpool.symm.trans hpool')
  constructor
  · rw [hconfig]
    exact h.generator
  · have hload := congrArg (SnapshotMap.mayLoad · c.poolType) hpools
    rw [SnapshotMap.mayLoad_save] at hload
    rw [RewardPool.total_accrue, RewardPool.accrue_perShare, ← hperShare, ← h.deposit]
    exact ⟨_, hload, hstaked, htoken, hamount, rfl⟩
  · intro p pool'' hp hpool''
    rw [hpools, SnapshotMap.mayLoad_save_ne hp] at hpool''
    exact h.others p pool'' hp hpool''
  · intro k
    rw [h.keys, hcores]
  · intro k hk core hcore
    rw [hcores] at hcore
    rw [RewardPool.accrue_lots]
    exact h.lots k hk core hcore
  · rw [RewardPool.accrue_deposit]
    exact hdeposit.trans h.deposit
  · rw [RewardPool.accrue_received, hreceived, h.received]
  · rw [RewardPool.accrue_paid, hpaid, h.paid]
  · exact h.gone
  · rw [htaken]
    exact h.taken

/-- The rewards of an open lockup of the pool are paid, and its debt is stored. -/
theorem settled (h : Views c w rp) {k : LockupKey} (hk : k ∈ c.keys) {core : LockupCore}
    (hcore : w.storage.coreOf k = some core) (hopen : core.astroportLpTransferred = none)
    (hconfig : w'.storage.config = w.storage.config)
    (hpools : w'.storage.assetPools = w.storage.assetPools)
    (hcores : ∀ j, w'.storage.coreOf j = if j = k then
      some { core with
        generatorNtrnDebt := rp.accrued c.keys FixedPoint.fractional k } else w.storage.coreOf j)
    (hdeposit : c.deposit w'.ext = c.deposit w.ext)
    (hreceived : w'.receivedFor c.poolType = w.receivedFor c.poolType)
    (hpaid : w'.paidFor c.poolType = w.paidFor c.poolType +
      (rp.accrued c.keys FixedPoint.fractional k - core.generatorNtrnDebt))
    (htaken : w'.lpTaken c.poolType c.lpToken = w.lpTaken c.poolType c.lpToken) :
    Views c w' (rp.settle c.keys FixedPoint.fractional k) := by
  -- nobody leaves
  have hsame : ∀ j, ((rp.settle c.keys FixedPoint.fractional k).lots j).released =
      (rp.lots j).released := by
    intro j
    by_cases hj : j = k
    · rw [hj, RewardPool.settle_lots_self]
    · rw [RewardPool.settle_lots_of_ne rp k hj]
  obtain ⟨hunits, hreleased, hdebt⟩ := h.lots k hk core hcore
  constructor
  · rw [hconfig]
    exact h.generator
  · rw [hpools, RewardPool.total_settle, RewardPool.settle_perShare]
    exact h.pool
  · rw [hpools]
    exact h.others
  · intro j
    rw [h.keys, hcores]
    split_ifs with hj
    · rw [hj, hcore]
      simp
    · rfl
  · intro j hj core' hcore'
    rw [hcores] at hcore'
    split_ifs at hcore' with hjk
    · obtain rfl := Option.some.inj hcore'
      subst hjk
      rw [RewardPool.settle_lots_self]
      exact ⟨hunits, hreleased, fun _ => rfl⟩
    · rw [RewardPool.settle_lots_of_ne rp k hjk]
      exact h.lots j hj core' hcore'
  · rw [RewardPool.settle_deposit]
    exact hdeposit.trans h.deposit
  · rw [RewardPool.settle_received, hreceived, h.received]
  · rw [RewardPool.settle_paid, hpaid, h.paid, hdebt hopen]
  · intro j hj hbefore
    rw [hsame]
    exact h.gone j hj hbefore
  · rw [htaken, funext hsame]
    exact h.taken

/-- An open lockup of the pool is paid and leaves with its share. -/
theorem left (h : Views c w rp) {k : LockupKey} (hk : k ∈ c.keys) {core core' : LockupCore}
    {pool : PoolInfo} {height : Nat}
    (hpool : w.storage.assetPools.mayLoad c.poolType = some pool)
    (hcore : w.storage.coreOf k = some core) (hopen : core.astroportLpTransferred = none)
    (hconfig : w'.storage.config = w.storage.config)
    (hpools : w'.storage.assetPools = w.storage.assetPools.save c.poolType
      { pool with amountInLockups := pool.amountInLockups - core.lpUnitsLocked } height)
    (hcores : ∀ j, w'.storage.coreOf j = if j = k then some core' else w.storage.coreOf j)
    (hunits' : core'.lpUnitsLocked = core.lpUnitsLocked)
    (hleft : core'.astroportLpTransferred = some (rp.share c.keys k))
    (hdeposit : c.deposit w'.ext = c.deposit w.ext - rp.share c.keys k)
    (hreceived : w'.receivedFor c.poolType = w.receivedFor c.poolType)
    (hpaid : w'.paidFor c.poolType = w.paidFor c.poolType +
      (rp.accrued c.keys FixedPoint.fractional k - core.generatorNtrnDebt))
    (htaken : ∃ part, LeavesBy c.lpToken k (rp.share c.keys k) part ∧
      w'.lpTaken c.poolType c.lpToken = w.lpTaken c.poolType c.lpToken ++ part) :
    Views c w' ((rp.settle c.keys FixedPoint.fractional k).leave c.keys k) := by
  obtain ⟨hunits, hreleased, hdebt⟩ := h.lots k hk core hcore
  obtain ⟨pool', hpool', hstaked, htoken, hamount, hperShare⟩ := h.pool
  obtain rfl := Option.some.inj (hpool.symm.trans hpool')
  -- the units that stay are those the ledger keeps
  have htotal := RewardPool.total_leave (p := rp.settle c.keys FixedPoint.fractional k) hk
  rw [RewardPool.liveUnits_settle, RewardPool.total_settle, RewardPool.liveUnits,
    Lot.live_of_open (hreleased.trans hopen), hunits, ← hamount] at htotal
  have hreleases : ∀ j,
      (((rp.settle c.keys FixedPoint.fractional k).leave c.keys k).lots j).released =
        if j = k then some (rp.share c.keys k) else (rp.lots j).released := by
    intro j
    split_ifs with hj
    · rw [hj, RewardPool.leave_lots_self, RewardPool.share_settle]
    · rw [RewardPool.leave_lots_of_ne _ k hj, RewardPool.settle_lots_of_ne rp k hj]
  constructor
  · rw [hconfig]
    exact h.generator
  · have hload := congrArg (SnapshotMap.mayLoad · c.poolType) hpools
    rw [SnapshotMap.mayLoad_save] at hload
    rw [RewardPool.leave_perShare, RewardPool.settle_perShare]
    refine ⟨_, hload, hstaked, htoken, ?_, hperShare⟩
    dsimp only
    omega
  · intro p pool'' hp hpool''
    rw [hpools, SnapshotMap.mayLoad_save_ne hp] at hpool''
    exact h.others p pool'' hp hpool''
  · intro j
    rw [h.keys, hcores]
    split_ifs with hj
    · rw [hj, hcore]
      simp
    · rfl
  · intro j hj core'' hcore''
    rw [hcores] at hcore''
    split_ifs at hcore'' with hjk
    · obtain rfl := Option.some.inj hcore''
      subst hjk
      rw [RewardPool.leave_lots_self, RewardPool.settle_lots_self, RewardPool.share_settle]
      refine ⟨hunits.trans hunits'.symm, hleft.symm, fun hnone => ?_⟩
      rw [hleft] at hnone
      cases hnone
    · rw [RewardPool.leave_lots_of_ne _ k hjk, RewardPool.settle_lots_of_ne rp k hjk]
      exact h.lots j hj core'' hcore''
  · rw [RewardPool.leave_deposit, RewardPool.share_settle, RewardPool.settle_deposit, hdeposit,
      h.deposit]
  · rw [RewardPool.leave_received, RewardPool.settle_received, hreceived, h.received]
  · rw [RewardPool.leave_paid, RewardPool.settle_paid, hpaid, h.paid, hdebt hopen]
  · intro j hj hbefore
    rw [hreleases]
    split_ifs
    · exact Option.some_ne_none _
    · exact h.gone j hj hbefore
  · obtain ⟨msgs, hmsgs, hsent⟩ := h.taken
    obtain ⟨part, hpart, htaken⟩ := htaken
    have hopen' : (rp.lots k).released = none := hreleased.trans hopen
    have hstays : c.before k = false := by
      -- a lockup that was gone before the run is not open now
      by_contra hbefore
      exact h.gone k hk (Bool.eq_true_of_not_eq_false hbefore) hopen'
    refine ⟨msgs ++ part, by rw [htaken, hmsgs, List.append_assoc], hsent.leave ?_ hpart ?_⟩
    · rw [PoolSetup.leftSince, if_pos ⟨hk, hstays⟩, hopen']
    · intro j
      unfold PoolSetup.leftSince
      dsimp only
      rw [hreleases]
      by_cases hjk : j = k
      · rw [if_pos hjk, hjk, if_pos ⟨hk, hstays⟩, if_pos rfl]
      · rw [if_neg hjk, if_neg hjk]

end Views

/-! ### The parts of a transaction -/

section Parts

variable {x : Externals E} {c : PoolSetup E} {w w' : World E} {rp : RewardPool LockupKey}

/-- The generator of the pool is honest about its LP token. -/
abbrev PoolSetup.Honest (c : PoolSetup E) (x : Externals E) : Prop :=
  HonestGenerator x c.generator c.lpToken c.deposit

/-- The steps of the pool's reward pool. -/
abbrev PoolSetup.Steps (c : PoolSetup E) :
    RewardPool LockupKey → RewardPool LockupKey → Prop :=
  RewardPool.Steps c.keys FixedPoint.fractional

/-- A message to another contract that the pool does not notice. -/
theorem Views.external (hgen : c.Honest x) (h : Views c w rp) {m : CosmosMsg} {e' : E}
    (hneutral : Neutral c.lpToken m) (hpaid : Event.paidFor c.poolType (.sent m) = 0)
    (hquiet : m.takesLp c.poolType c.lpToken = false) (hexec : x.exec w.ext m = .ok e') :
    Views c { w with ext := e', trace := w.trace ++ [.sent m] } rp := by
  show Views c { w with ext := e', trace := w.trace ++ [m].map Event.sent } rp
  refine h.sent (hgen.neutral _ _ _ hneutral hexec) (countSent_eq_zero fun m' hm => ?_)
    fun m' hm => ?_
  · rw [List.mem_singleton.mp hm]
    exact hpaid
  · rw [List.mem_singleton.mp hm]
    exact hquiet

/-- Rewards are booked, for this pool or another one. -/
theorem Views.books (hgen : c.Honest x) (h : Views c w rp) {s' : Storage} {p : PoolType}
    {pool : PoolInfo} {generator : Addr} {deposit received : Nat}
    {proxyPerShare : RestrictedVector AssetInfo Decimal}
    (hbooks : Books (x.querier w.ext) w.storage s' w.env p pool generator deposit received
      proxyPerShare) :
    ∃ rp', c.Steps rp rp' ∧ (∀ k, rp'.lots k = rp.lots k) ∧
      Views c
        { w with storage := s', trace := w.trace ++ [.ntrnRewardReceived p received] } rp' := by
  obtain rfl := hbooks.storage
  by_cases hp : p = c.poolType
  · subst hp
    obtain ⟨pool', hpool', -, htoken, -, -⟩ := h.pool
    obtain rfl := Option.some.inj (hbooks.pool_eq.symm.trans hpool')
    have hgenerator := Option.some.inj (hbooks.generator_eq.symm.trans h.generator)
    have hdeposit : c.deposit w.ext = deposit := by
      have hquery := hbooks.deposit_eq
      rw [htoken, hgenerator, hgen.deposit] at hquery
      exact Except.ok.inj hquery
    -- rewards are booked only where the generator holds a deposit
    have hpos : 0 < rp.deposit := by
      rw [← h.deposit, hdeposit]
      exact hbooks.deposit_pos
    refine ⟨rp.accrue FixedPoint.fractional received,
      .single (.accrue rp received hpos), fun _ => rfl, ?_⟩
    refine h.booked hbooks.pool_eq (by rw [hdeposit]) rfl rfl rfl ?_ ?_
      ((lpTaken_append (w := w) rfl).trans (List.append_nil _))
    · rw [World.receivedFor, count_append (w := w) rfl]
      simp [World.receivedFor, Event.receivedFor]
    · rw [World.paidFor, count_append (w := w) rfl]
      simp [World.paidFor, Event.paidFor]
  · refine ⟨rp, .refl, fun _ => rfl, h.frame rfl ?_ ?_ (fun _ => rfl) (fun _ _ => rfl) rfl ?_ ?_
      ((lpTaken_append (w := w) rfl).trans (List.append_nil _))⟩
    · exact SnapshotMap.mayLoad_save_ne (Ne.symm hp) _ _ _
    · intro p' pool' _ hpool'
      dsimp only at hpool'
      by_cases hp' : p' = p
      · subst hp'
        rw [SnapshotMap.mayLoad_save] at hpool'
        obtain rfl := Option.some.inj hpool'
        exact ⟨pool, hbooks.pool_eq, rfl⟩
      · rw [SnapshotMap.mayLoad_save_ne hp'] at hpool'
        exact ⟨pool', hpool', rfl⟩
    · rw [World.receivedFor, count_append (w := w) rfl]
      simp [World.receivedFor, Event.receivedFor, hp]
    · rw [World.paidFor, count_append (w := w) rfl]
      simp [World.paidFor, Event.paidFor]

theorem Views.collects (hgen : c.Honest x) (h : Views c w rp) {p : PoolType}
    (hcollects : Collects x p w w') :
    ∃ rp', c.Steps rp rp' ∧ (∀ k, rp'.lots k = rp.lots k) ∧ Views c w' rp' := by
  cases hcollects with
  | nothing => exact ⟨rp, .refl, fun _ => rfl, h⟩
  | booked generator lpToken ext s pool generator' deposit received proxyPerShare hclaim hbooks =>
      have hsent := h.external hgen (m := .claimRewards generator [lpToken])
        ⟨fun _ _ => CosmosMsg.noConfusion, fun _ _ => CosmosMsg.noConfusion⟩ rfl rfl hclaim
      obtain ⟨rp', hsteps, hlots, hviews⟩ := hsent.books hgen hbooks
      refine ⟨rp', hsteps, hlots, ?_⟩
      simpa using hviews

/-- What the reward callback of a claim does to the deposit, and what it pays. -/
theorem PaysOut.exec {q : Querier} {s s' t : Storage} {height : Nat} {key : LockupKey}
    {withdraw : Bool} {msgs : List CosmosMsg} {pool : PoolInfo} {lockup lockup' : LockupInfoV2}
    {share : Nat} {rewardMsgs exitMsgs ntrnMsgs : List CosmosMsg} {e e' : E}
    (hgen : c.Honest x)
    (h : PaysOut q s s' height key withdraw msgs pool lockup lockup' c.generator share t
      rewardMsgs exitMsgs ntrnMsgs)
    (htoken : pool.lpToken = c.lpToken) (hstaked : pool.isStaked = true)
    (hrun : msgs.foldlM x.exec e = .ok e') :
    ∃ accrued, accrued = pool.generatorNtrnPerShare.atomics * share / FixedPoint.fractional ∧
      lockup'.core = { lockup.core with generatorNtrnDebt := accrued } ∧
      (paidBy key.poolType msgs = accrued - lockup.generatorNtrnDebt) ∧
      c.deposit e' = c.deposit e - if withdraw then share else 0 := by
  have hrewards := h.rewards
  have hexits := h.exits
  have hntrn := h.ntrn
  rw [h.messages] at hrun ⊢
  cases hrewards with
  | unstaked hno => rw [hstaked] at hno; cases hno
  | staked rewardToken proxy _ accrued _ haccrued hdebt hcore hstored =>
      refine ⟨accrued, haccrued, hcore, ?_, ?_⟩
      · have hexitPaid : paidBy key.poolType exitMsgs = 0 := by
          generalize withdraw = b at hexits
          cases hexits <;> rfl
        have hunstakePaid : paidBy key.poolType (if withdraw then
            [.generatorWithdraw c.generator pool.lpToken share] else []) = 0 := by
          split_ifs <;> rfl
        simp only [paidBy_append, paidBy_baseRewardMsg, if_true, paidBy_transfers, hunstakePaid,
          hexitPaid, hntrn.paidBy, Nat.add_zero]
      · obtain ⟨e₃, hrun, hrun₃⟩ := foldlM_append_ok.mp hrun
        obtain ⟨e₂, hrun, hrun₂⟩ := foldlM_append_ok.mp hrun
        obtain ⟨e₁, hrun, hrun₁⟩ := foldlM_append_ok.mp hrun
        -- of the four groups of messages only the second may move the deposit
        have h₁ : c.deposit e₁ = c.deposit e :=
          hgen.foldlM (neutral_append (neutral_baseRewardMsg _ _ _ _) (neutral_transfers _ _)) hrun
        have h₃ : c.deposit e' = c.deposit e₃ := hgen.foldlM hntrn.neutral hrun₃
        have h₂ : c.deposit e₃ = c.deposit e₂ := by
          refine hgen.foldlM (fun m hm => ?_) hrun₂
          generalize withdraw = b at hexits
          cases hexits with
          | stored => cases hm
          | closed =>
              rw [List.mem_singleton.mp hm]
              exact ⟨fun _ _ => CosmosMsg.noConfusion, fun _ _ => CosmosMsg.noConfusion⟩
        rw [h₃, h₂, ← h₁]
        cases withdraw with
        | false =>
            obtain rfl := Except.ok.inj hrun₁
            rfl
        | true =>
            rw [htoken] at hrun₁
            exact (hgen.withdraw _ _ _ (foldlM_singleton_ok.mp hrun₁)).2

/-- The reward callback of a claim for a lockup of the pool. -/
theorem Views.pays (hgen : c.Honest x) (h : Views c w rp) {key : LockupKey} {withdraw : Bool}
    {msgs : List CosmosMsg} {pool : PoolInfo} {lockup lockup' : LockupInfoV2} {generator : Addr}
    {share : Nat} {t : Storage} {rewardMsgs exitMsgs ntrnMsgs : List CosmosMsg}
    (hpays : Pays x w w' key withdraw msgs pool lockup lockup' generator share t rewardMsgs
      exitMsgs ntrnMsgs) (hkey : key.poolType = c.poolType)
    (hopen : lockup.core.astroportLpTransferred = none) :
    ∃ rp', c.Steps rp rp' ∧ Views c w' rp' := by
  have hout := hpays.paysOut
  have hcore : w.storage.coreOf key = some lockup.core := coreOf_of_load hout.lockup_eq
  have hmem : key ∈ c.keys := (h.keys key).mpr ⟨hkey, by rw [hcore]; rfl⟩
  have hpool : w.storage.assetPools.mayLoad c.poolType = some pool := hkey ▸ hout.pool_eq
  obtain ⟨pool', hpool', hstaked, htoken, -, -⟩ := h.pool
  obtain rfl := Option.some.inj (hpool.symm.trans hpool')
  obtain rfl := Option.some.inj (hout.generator_eq.symm.trans h.generator)
  obtain ⟨balance, hbalance, -, hshare⟩ := astroportLpShare_ok hout.share_eq
  -- the contract's share is the share of the pool, as the generator answers truly
  have hshare' : share = rp.share c.keys key := by
    unfold lpBalance at hbalance
    rw [if_pos hstaked, htoken, hgen.deposit] at hbalance
    rw [hshare, ← Except.ok.inj hbalance, h.share hmem hcore hopen hpool]
    rfl
  obtain ⟨accrued, haccrued, hcore', hpaid, hdeposit⟩ :=
    hout.exec hgen htoken hstaked hpays.exec
  have haccrued' : accrued = rp.accrued c.keys FixedPoint.fractional key := by
    rw [h.accrued hmem hcore hopen hpool, ← h.share hmem hcore hopen hpool, ← hshare', haccrued]
  have hreceived : w'.receivedFor c.poolType = w.receivedFor c.poolType :=
    receivedFor_sent hpays.trace
  have hpaid' : w'.paidFor c.poolType = w.paidFor c.poolType +
      (rp.accrued c.keys FixedPoint.fractional key - lockup.core.generatorNtrnDebt) := by
    rw [paidFor_sent hpays.trace, ← hkey, hpaid, haccrued']
    rfl
  have hsame : SameBooks t w'.storage :=
    hout.ntrn.sameBooks (by rw [user_congr hout.exits.userInfo])
  have htaken : w'.lpTaken c.poolType c.lpToken = _ := lpTaken_sent hpays.trace
  rw [hout.taken, htoken] at htaken
  have hexits := hout.exits
  -- stored: the lockup settles; closed: it settles and leaves
  generalize hb : withdraw = b at hexits
  cases hexits with
  | stored =>
      refine ⟨rp.settle c.keys FixedPoint.fractional key,
        .single (.settle rp key hmem ((h.lots key hmem _ hcore).2.1.trans hopen)), ?_⟩
      have hsettled : Views c { w' with storage :=
          { w.storage with lockupInfo := w.storage.lockupInfo.save key (.v2 lockup') } }
          (rp.settle c.keys FixedPoint.fractional key) := by
        refine h.settled hmem hcore hopen rfl rfl (fun j => ?_) ?_ hreceived hpaid' ?_
        · rw [coreOf_save rfl, hcore', haccrued']
        · rw [hdeposit, hb]
          rfl
        · rw [hb, if_neg fun hboth => Bool.false_ne_true hboth.1, List.append_nil] at htaken
          exact htaken
      exact hsettled.sameBooks hsame
  | closed _ hcloses =>
      refine ⟨(rp.settle c.keys FixedPoint.fractional key).leave c.keys key,
        .single (.leave rp key hmem ((h.lots key hmem _ hcore).2.1.trans hopen)), ?_⟩
      have hunits : lockup'.lpUnitsLocked = lockup.lpUnitsLocked :=
        congrArg LockupCore.lpUnitsLocked hcore'
      have hleft : Views c { w' with storage := t }
          ((rp.settle c.keys FixedPoint.fractional key).leave c.keys key) := by
        have hpools := hcloses.assetPools
        rw [hunits, hkey] at hpools
        refine h.left hmem hpool hcore hopen hcloses.config hpools
          (coreOf_save hcloses.lockupInfo) hunits ?_ ?_ hreceived hpaid'
          ⟨_, .unlocked, ?_⟩
        · rw [← hshare']
          rfl
        · rw [hdeposit, hb, ← hshare']
          rfl
        · rw [hb, if_pos ⟨rfl, rfl⟩, hshare'] at htaken
          exact htaken
      exact hleft.sameBooks hsame

/-- The messages of a claim for another pool are none of this pool's business. -/
theorem PaysOut.other {q : Querier} {s s' t : Storage} {height : Nat} {key : LockupKey}
    {withdraw : Bool} {msgs : List CosmosMsg} {pool : PoolInfo} {lockup lockup' : LockupInfoV2}
    {generator : Addr} {share : Nat} {rewardMsgs exitMsgs ntrnMsgs : List CosmosMsg}
    {p : PoolType} {lp : Addr}
    (h : PaysOut q s s' height key withdraw msgs pool lockup lockup' generator share t
      rewardMsgs exitMsgs ntrnMsgs) (hkey : key.poolType ≠ p) (htoken : pool.lpToken ≠ lp) :
    (∀ m ∈ msgs, Neutral lp m) ∧ paidBy p msgs = 0 := by
  have hrewards : (∀ m ∈ rewardMsgs, Neutral lp m) ∧ paidBy p rewardMsgs = 0 := by
    cases h.rewards with
    | unstaked => exact ⟨fun m hm => absurd hm List.not_mem_nil, rfl⟩
    | staked rewardToken proxy _ accrued =>
        refine ⟨neutral_append (neutral_append (neutral_baseRewardMsg _ _ _ _)
          (neutral_transfers _ _)) fun m hm => ?_, ?_⟩
        · split_ifs at hm
          · rw [List.mem_singleton.mp hm]
            refine ⟨fun _ _ heq => ?_, fun _ _ => CosmosMsg.noConfusion⟩
            injection heq with _ heq
            exact htoken heq
          · cases hm
        · have hunstake : paidBy p (if withdraw then
              [.generatorWithdraw generator pool.lpToken share] else []) = 0 := by
            split_ifs <;> rfl
          simp only [paidBy_append, paidBy_baseRewardMsg, if_neg hkey, paidBy_transfers, hunstake,
            Nat.add_zero]
  have hexits : (∀ m ∈ exitMsgs, Neutral lp m) ∧ paidBy p exitMsgs = 0 := by
    have hexits := h.exits
    generalize withdraw = b at hexits
    cases hexits with
    | stored => exact ⟨fun m hm => absurd hm List.not_mem_nil, rfl⟩
    | closed =>
        refine ⟨fun m hm => ?_, rfl⟩
        rw [List.mem_singleton.mp hm]
        exact ⟨fun _ _ => CosmosMsg.noConfusion, fun _ _ => CosmosMsg.noConfusion⟩
  rw [h.messages]
  refine ⟨neutral_append (neutral_append hrewards.1 hexits.1) h.ntrn.neutral, ?_⟩
  simp only [paidBy_append, hrewards.2, hexits.2, h.ntrn.paidBy, Nat.add_zero]

/-- A lockup of another pool is closed. -/
theorem Views.closes_other (h : Views c w rp) {key : LockupKey} {pool : PoolInfo}
    {lockup : LockupInfoV2} {share height : Nat} {e' : E} {msgs : List CosmosMsg} {t : Storage}
    (hkey : key.poolType ≠ c.poolType) (hcore : w.storage.coreOf key = some lockup.core)
    (hpool : w.storage.assetPools.mayLoad key.poolType = some pool)
    {lockup' : LockupInfoV2}
    (hcloses : Closes w.storage t height key pool lockup' share)
    (hdeposit : c.deposit e' = c.deposit w.ext) (hpaid : paidBy c.poolType msgs = 0)
    (hquiet : msgs.filter (CosmosMsg.takesLp c.poolType c.lpToken) = []) :
    Views c { w with storage := t, ext := e', trace := w.trace ++ msgs.map Event.sent } rp := by
  have hcores := coreOf_save hcloses.lockupInfo
  refine h.frame (congrArg Config.generator hcloses.config) ?_ ?_ ?_ ?_ hdeposit
    (receivedFor_sent rfl) ?_ (by rw [lpTaken_sent (w := w) rfl, hquiet, List.append_nil])
  · dsimp only
    rw [hcloses.assetPools, SnapshotMap.mayLoad_save_ne (Ne.symm hkey)]
  · intro p' pool' _ hpool'
    dsimp only at hpool'
    rw [hcloses.assetPools] at hpool'
    by_cases hp' : p' = key.poolType
    · subst hp'
      rw [SnapshotMap.mayLoad_save] at hpool'
      obtain rfl := Option.some.inj hpool'
      exact ⟨pool, hpool, rfl⟩
    · rw [SnapshotMap.mayLoad_save_ne hp'] at hpool'
      exact ⟨pool', hpool', rfl⟩
  · intro k
    dsimp only
    rw [hcores]
    split_ifs with hk
    · rw [hk, hcore]
      rfl
    · rfl
  · intro k hk
    dsimp only
    rw [hcores, if_neg]
    rintro rfl
    exact hkey ((h.keys _).mp hk).1
  · rw [paidFor_sent (w := w) rfl, hpaid, Nat.add_zero]

/-- The reward callback of a claim for a lockup of another pool. -/
theorem Views.pays_other (hgen : c.Honest x) (h : Views c w rp) {key : LockupKey}
    {withdraw : Bool} {msgs : List CosmosMsg} {pool : PoolInfo} {lockup lockup' : LockupInfoV2}
    {generator : Addr} {share : Nat} {t : Storage} {rewardMsgs exitMsgs ntrnMsgs : List CosmosMsg}
    (hpays : Pays x w w' key withdraw msgs pool lockup lockup' generator share t rewardMsgs
      exitMsgs ntrnMsgs) (hkey : key.poolType ≠ c.poolType) : Views c w' rp := by
  have hout := hpays.paysOut
  have hcore : w.storage.coreOf key = some lockup.core := coreOf_of_load hout.lockup_eq
  have htoken := h.others _ _ hkey hout.pool_eq
  obtain ⟨hneutral, hpaid⟩ := hout.other hkey htoken
  have hquiet : msgs.filter (CosmosMsg.takesLp c.poolType c.lpToken) = [] := by
    rw [hout.taken, if_neg fun hboth => htoken hboth.2]
  have hdeposit := hgen.foldlM hneutral hpays.exec
  have hsame : SameBooks t w'.storage :=
    hout.ntrn.sameBooks (by rw [user_congr hout.exits.userInfo])
  have hview : Views c { w with
      storage := t, ext := w'.ext, trace := w.trace ++ msgs.map Event.sent } rp := by
    have hexits := hout.exits
    generalize withdraw = b at hexits
    cases hexits with
    | stored =>
        refine h.frame rfl rfl (fun p' pool' _ hpool' => ⟨pool', hpool', rfl⟩) ?_ ?_ hdeposit
          (receivedFor_sent rfl) ?_ (by rw [lpTaken_sent (w := w) rfl, hquiet, List.append_nil])
        · intro k
          rw [coreOf_save rfl]
          split_ifs with hk
          · rw [hk, hcore]
            rfl
          · rfl
        · intro k hk
          rw [coreOf_save rfl, if_neg]
          rintro rfl
          exact hkey ((h.keys _).mp hk).1
        · rw [paidFor_sent (w := w) rfl, hpaid, Nat.add_zero]
    | closed _ hcloses =>
        exact h.closes_other hkey hcore hout.pool_eq hcloses hdeposit hpaid hquiet
  have hfinal := hview.sameBooks hsame
  rw [← hpays.trace, ← hpays.env] at hfinal
  exact hfinal

/-- The rewards a migration pays, as messages. -/
theorem TransfersAll.paid {q : Querier} {s s' : Storage} {key : LockupKey}
    {rewardMsgs : List CosmosMsg} {pool : PoolInfo} {lockup : LockupInfoV2} {generator : Addr}
    {share accrued : Nat} {rewardToken : String} {proxy : List Asset} {ntrnMsgs : List CosmosMsg}
    (h : TransfersAll q s s' key rewardMsgs pool lockup generator share accrued rewardToken proxy
      ntrnMsgs) (p : PoolType) (lp : Addr) :
    (∀ m ∈ rewardMsgs, Neutral lp m) ∧ paidBy p rewardMsgs =
      if key.poolType = p then accrued - lockup.generatorNtrnDebt else 0 := by
  rw [h.messages]
  refine ⟨neutral_append (neutral_append (neutral_baseRewardMsg _ _ _ _) (neutral_transfers _ _))
    h.ntrn.neutral, ?_⟩
  simp only [paidBy_append, paidBy_baseRewardMsg, paidBy_transfers, h.ntrn.paidBy, Nat.add_zero]

/-- What the exit of a migration does to the deposit of an LP token. -/
theorem MigrationExits.deposit {key : LockupKey} {generator lpToken : Addr} {share : Nat}
    {pool : PoolInfo} {lockup : LockupInfoV2} {pair : Addr} {last : CosmosMsg}
    (hgen : c.Honest x)
    (h : MigrationExits x w w' key generator lpToken share pool lockup pair last) :
    (lpToken = c.lpToken → generator = c.generator →
        c.deposit w'.ext = c.deposit w.ext - share) ∧
      (lpToken ≠ c.lpToken → c.deposit w'.ext = c.deposit w.ext) := by
  obtain ⟨e₁, hwithdraw, hrun⟩ := foldlM_cons_ok.mp h.exec
  have hrest : c.deposit w'.ext = c.deposit e₁ := by
    refine hgen.foldlM (fun m hm => ?_) hrun
    simp only [List.mem_cons, List.not_mem_nil, or_false] at hm
    obtain ⟨_, _, _, -, hlast⟩ := h.last_eq
    rcases hm with rfl | rfl
    · exact ⟨fun _ _ => CosmosMsg.noConfusion, fun _ _ => CosmosMsg.noConfusion⟩
    · rw [hlast]
      exact ⟨fun _ _ => CosmosMsg.noConfusion, fun _ _ => CosmosMsg.noConfusion⟩
  constructor
  · rintro rfl rfl
    rw [hrest, (hgen.withdraw _ _ _ hwithdraw).2]
  · intro hne
    rw [hrest]
    refine hgen.neutral _ _ _ ⟨fun _ _ heq => ?_, fun _ _ => CosmosMsg.noConfusion⟩ hwithdraw
    injection heq with _ heq
    exact hne heq

/-- Nothing that the exit of a migration sends is a base reward. -/
theorem MigrationExits.paidBy {key : LockupKey} {generator lpToken : Addr} {share : Nat}
    {pool : PoolInfo} {lockup : LockupInfoV2} {pair : Addr} {last : CosmosMsg} {p : PoolType}
    (h : MigrationExits x w w' key generator lpToken share pool lockup pair last) :
    paidBy p [.generatorWithdraw generator lpToken share, .withdrawLiquidity lpToken pair share,
      last] = 0 := by
  obtain ⟨_, _, _, -, hlast⟩ := h.last_eq
  rw [hlast]
  rfl

/-- The exit of a migration takes no LP tokens of another pool out. -/
theorem MigrationExits.quiet {key : LockupKey} {generator lpToken : Addr} {share : Nat}
    {pool : PoolInfo} {lockup : LockupInfoV2} {pair : Addr} {last : CosmosMsg} {p : PoolType}
    {lp : Addr}
    (h : MigrationExits x w w' key generator lpToken share pool lockup pair last)
    (hkey : key.poolType ≠ p) (htoken : lpToken ≠ lp) :
    [.generatorWithdraw generator lpToken share, .withdrawLiquidity lpToken pair share,
      last].filter (CosmosMsg.takesLp p lp) = [] := by
  obtain ⟨_, _, _, -, hlast⟩ := h.last_eq
  rw [hlast]
  simp [CosmosMsg.takesLp, hkey, htoken]

/-- The migration of one lockup, of this pool or another one. -/
theorem Views.migrates (hgen : c.Honest x) (h : Views c w rp) {key : LockupKey}
    (hmigrates : Migrates x key w w') : ∃ rp', c.Steps rp rp' ∧ Views c w' rp' := by
  cases hmigrates with
  | skipped st hst hclosed hsame => exact ⟨rp, .refl, hsame ▸ h⟩
  | migrated st w₁ w₂ rewardMsgs pool lockup generator share accrued rewardToken proxy ntrnMsgs
      pool' lockup' pair last hst hopen hcollects hpays hexits =>
      obtain ⟨rp₁, hsteps, -, h₁⟩ := h.collects hgen hcollects
      obtain ⟨-, hlockups, -, -, -⟩ := hcollects.frame
      have hall := hpays.transfersAll
      have hcore₀ : w₁.storage.coreOf key = some st.core := by
        rw [Storage.coreOf, hlockups, hst, Option.map_some]
      have hcore : w₁.storage.coreOf key = some lockup.core := coreOf_of_load hall.lockup_eq
      have hopen₁ : lockup.core.astroportLpTransferred = none := by
        rw [← Option.some.inj (hcore₀.symm.trans hcore)]
        exact hopen
      have hsame : SameBooks w₁.storage w₂.storage := hall.ntrn.sameBooks rfl
      have hcore₂ : w₂.storage.coreOf key = some lockup'.core := coreOf_of_load hexits.lockup_eq
      have hcores : lockup'.core = lockup.core := by
        have hlookup := hsame.lockups key
        rw [← Storage.coreOf, ← Storage.coreOf, hcore₂, hcore] at hlookup
        exact Option.some.inj hlookup
      have hpool' : pool' = pool := by
        have hload := hexits.pool_eq
        rw [hsame.assetPools, hall.pool_eq] at hload
        exact (Option.some.inj hload).symm
      obtain ⟨hneutral, hpaid⟩ := hall.paid c.poolType c.lpToken
      have hdeposit₂ := hgen.foldlM hneutral hpays.exec
      -- a lockup of the pool leaves as in an unlock; one of the other pool touches nothing
      -- the view speaks of
      by_cases hkey : key.poolType = c.poolType
      · have hmem : key ∈ c.keys := (h₁.keys key).mpr ⟨hkey, by rw [hcore]; rfl⟩
        have hpool : w₁.storage.assetPools.mayLoad c.poolType = some pool := hkey ▸ hall.pool_eq
        obtain ⟨pool₁, hpool₁, hstaked, htoken, -, -⟩ := h₁.pool
        obtain rfl := Option.some.inj (hpool.symm.trans hpool₁)
        have hgenerator := Option.some.inj (hall.generator_eq.symm.trans h₁.generator)
        obtain ⟨balance, hbalance, -, hshare⟩ := astroportLpShare_ok hall.share_eq
        have hshare' : share = rp₁.share c.keys key := by
          unfold lpBalance at hbalance
          rw [if_pos hstaked, htoken, hgenerator, hgen.deposit] at hbalance
          rw [hshare, ← Except.ok.inj hbalance, h₁.share hmem hcore hopen₁ hpool]
          rfl
        have haccrued : accrued = rp₁.accrued c.keys FixedPoint.fractional key := by
          rw [h₁.accrued hmem hcore hopen₁ hpool, ← h₁.share hmem hcore hopen₁ hpool, ← hshare',
            hall.accrued_eq]
        have hreleased := (h₁.lots key hmem _ hcore).2.1.trans hopen₁
        have hunits : lockup'.lpUnitsLocked = lockup.core.lpUnitsLocked :=
          congrArg LockupCore.lpUnitsLocked hcores
        refine ⟨_, hsteps.tail (.leave rp₁ key hmem hreleased), ?_⟩
        have hpools := hexits.closes.assetPools
        rw [hsame.assetPools, hpool', hunits, hkey] at hpools
        have hlookup : ∀ j, w'.storage.coreOf j = if j = key then
            some { lockup' with astroportLpTransferred := some share }.core
            else w₁.storage.coreOf j := by
          intro j
          have hj : w₂.storage.coreOf j = w₁.storage.coreOf j := hsame.lockups j
          rw [coreOf_save hexits.closes.lockupInfo, hj]
        have htrace₂ : w'.trace = w₂.trace ++
            [.generatorWithdraw generator pool.lpToken share,
              .withdrawLiquidity pool.lpToken pair share, last].map Event.sent := hexits.trace
        -- the last message hands the lockup to the PCL lockdrop
        obtain ⟨pclLockdrop, funds, stake, -, hlast⟩ := hexits.last_eq
        refine h₁.left hmem hpool hcore hopen₁ ?_ hpools hlookup ?_ ?_ ?_ ?_ ?_
          ⟨_, .migrated pair pclLockdrop funds (w₂.storage.user key.user)
            { lockup' with astroportLpTransferred := some share } stake ?_, ?_⟩
        · rw [hexits.closes.config, hsame.config]
        · exact hunits
        · rw [← hshare']
          rfl
        · rw [(hexits.deposit hgen).1 htoken hgenerator, hdeposit₂, ← hshare']
        · rw [receivedFor_sent htrace₂, receivedFor_sent hpays.trace]
        · rw [paidFor_sent htrace₂, paidFor_sent hpays.trace,
            hexits.paidBy, hpaid, if_pos hkey, haccrued, Nat.add_zero]
          rfl
        · rw [hshare']
        · rw [lpTaken_sent htrace₂, lpTaken_quiet hall.quiet hpays.trace, ← hshare', htoken, hlast]
          simp [CosmosMsg.takesLp, hkey]
      · have h₂ : Views c w₂ rp₁ := by
          have hsent := (h₁.sent hdeposit₂ (by rw [hpaid, if_neg hkey]) hall.quiet).sameBooks
            hsame
          rw [← hpays.trace, ← hpays.env] at hsent
          exact hsent
        have hother := h₁.others _ _ hkey hall.pool_eq
        have hclosed := h₂.closes_other hkey hcore₂ hexits.pool_eq hexits.closes
          ((hexits.deposit hgen).2 hother) hexits.paidBy (hexits.quiet hkey hother)
        refine ⟨rp₁, hsteps, ?_⟩
        rw [← hexits.env] at hclosed
        have htrace : w'.trace = w₂.trace ++ [CosmosMsg.generatorWithdraw generator pool.lpToken
          share, .withdrawLiquidity pool.lpToken pair share, last].map Event.sent := hexits.trace
        rw [← htrace] at hclosed
        exact hclosed

end Parts

end NeutronTge.Lockdrop
