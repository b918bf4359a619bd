import NeutronTge.Shares.Payout
import NeutronTge.Lockdrop.Projection
import NeutronTge.Lockdrop.StakedPool

/-!
# NeutronTge.Lockdrop.FairRewards

The base rewards of a staked pool are shared fairly. That the contract never pays more than
it received says nothing of the lockup that gets too little; here nobody does. In every order
of claims, unlocks and migrations, what an open lockup was paid by its claims is its recorded
debt (`RecordsPayments`), so that with what it is still owed it comes to its part of all that
was received. A claim pays all of it, and when the last lockup is gone what was received has
been paid, up to the rounding of `Shares.Payout`.
-/

namespace NeutronTge.Lockdrop

open CosmWasm Astroport Shares

variable {E : Type} {x : Externals E} {c : PoolSetup E} {w w' : World E}
variable {rp : RewardPool LockupKey}

/-- An amount of rewards is what a lockup of `w` should get of `received` with its share of the
LP tokens in `w`. -/
def EarnsPart (c : PoolSetup E) (w : World E) (core : LockupCore) (received amount : Nat) : Prop :=
  AtLeastPart FixedPoint.fractional
    (core.lpUnitsLocked * c.deposit w.ext / w.storage.amountIn c.poolType) (c.deposit w.ext)
    received amount

/-- What the contract received for the pool between two worlds. -/
def PoolSetup.receivedSince (c : PoolSetup E) (w w' : World E) : Nat :=
  w'.receivedFor c.poolType - w.receivedFor c.poolType

/-- What a claim would pay a lockup of the pool of the rewards that are booked. -/
def PoolSetup.owed (c : PoolSetup E) (w : World E) (k : LockupKey) : Nat :=
  match w.storage.coreOf k, w.storage.assetPools.mayLoad c.poolType with
  | some core, some pool =>
      if core.astroportLpTransferred = none then
        pool.basePayment (core.lpUnitsLocked * c.deposit w.ext / pool.amountInLockups)
          core.generatorNtrnDebt
      else 0
  | _, _ => 0

/-- The lockup that an action claims for. -/
def Action.claimed : Action E → Option LockupKey
  | .execute info (.claimRewardsAndOptionallyUnlock poolType duration _) =>
      some ⟨poolType, info.sender, duration⟩
  | _ => none

/-- The base rewards of the pool that were sent to the owner of a lockup. -/
def World.paidToOwner (w : World E) (k : LockupKey) : Nat :=
  w.count (Event.generatorPaid k.poolType k.user)

/-- Take down what a claim of the lockup sends to its owner. -/
def takesClaim (k : LockupKey) (w : World E) (a : Action E) (w' : World E) (paid : Nat) : Nat :=
  if a.claimed = some k then paid + (w'.paidToOwner k - w.paidToOwner k) else paid

/-- What the claims of a lockup sent to its owner in a run. -/
def paidTo (x : Externals E) (k : LockupKey) (w : World E) (as : List (Action E)) : Nat :=
  history (World.exec x) (takesClaim k) w 0 as

/-- How the rewards that were received in a run are shared. -/
structure SharedRewards (x : Externals E) (c : PoolSetup E) (w : World E)
    (as : List (Action E)) : Prop where
  /-- What an open lockup was paid, together with what a claim would pay it, is its part. -/
  earned : ∀ k ∈ c.keys, ∀ core, w.storage.coreOf k = some core →
    (run (World.exec x) w as).storage.leftWith k = none →
      EarnsPart c w core (c.receivedSince w (run (World.exec x) w as))
        (paidTo x k w as + c.owed (run (World.exec x) w as) k)
  /-- A claim, with or without an unlock, brings what the lockup was paid to its part. -/
  claimed : ∀ info duration withdraw w' core,
    World.exec x (run (World.exec x) w as)
      (.execute info (.claimRewardsAndOptionallyUnlock c.poolType duration withdraw)) = .ok w' →
    w.storage.coreOf ⟨c.poolType, info.sender, duration⟩ = some core →
      EarnsPart c w core (c.receivedSince w w')
        (paidTo x ⟨c.poolType, info.sender, duration⟩ w (as ++
          [.execute info (.claimRewardsAndOptionallyUnlock c.poolType duration withdraw)]))
  /-- What was paid and what is still owed was received. -/
  bounded : (run (World.exec x) w as).paidFor c.poolType +
      ∑ k ∈ c.keys, c.owed (run (World.exec x) w as) k ≤
    (run (World.exec x) w as).receivedFor c.poolType
  /-- When nobody is left, what was received has been paid. -/
  paidOut : 0 < w.storage.amountIn c.poolType →
    (∀ k ∈ c.keys, (run (World.exec x) w as).storage.leftWith k ≠ none) →
    c.receivedSince w (run (World.exec x) w as) * FixedPoint.fractional ≤
      (run (World.exec x) w as).paidFor c.poolType * FixedPoint.fractional +
        c.receivedSince w (run (World.exec x) w as) * c.deposit w.ext +
          c.keys.card * FixedPoint.fractional

/-! ### What a claim stores -/

/-- The reward callback adds what it pays to the debt of the lockup. -/
theorem PaysRewards.debt {key : LockupKey} {lockup lockup' : LockupInfoV2} {pool : PoolInfo}
    {generator : Addr} {share : Nat} {withdraw : Bool} {msgs : List CosmosMsg}
    (h : PaysRewards key lockup pool generator share withdraw lockup' msgs) :
    lockup'.core.generatorNtrnDebt =
      lockup.generatorNtrnDebt + pool.basePayment share lockup.generatorNtrnDebt := by
  unfold PoolInfo.basePayment
  cases h with
  | unstaked hstaked =>
      rw [if_neg (by simp [hstaked])]
      rfl
  | staked _ _ _ accrued hstaked haccrued hdebt hcore =>
      rw [if_pos hstaked, hcore, ← haccrued]
      exact (Nat.add_sub_of_le hdebt).symm

theorem PaysRewards.accrued {key : LockupKey} {lockup lockup' : LockupInfoV2} {pool : PoolInfo}
    {generator : Addr} {share : Nat} {withdraw : Bool} {msgs : List CosmosMsg}
    (h : PaysRewards key lockup pool generator share withdraw lockup' msgs)
    (hstaked : pool.isStaked = true) : lockup'.core.generatorNtrnDebt =
      pool.generatorNtrnPerShare.atomics * share / FixedPoint.fractional := by
  cases h with
  | unstaked hno =>
      rw [hstaked] at hno
      cases hno
  | staked _ _ _ accrued _ haccrued _ hcore => rw [hcore, haccrued]

section Stored

variable {key : LockupKey} {withdraw : Bool} {msgs : List CosmosMsg} {pool : PoolInfo}
  {lockup lockup' : LockupInfoV2} {generator : Addr} {share : Nat} {t : Storage}
  {rewardMsgs exitMsgs ntrnMsgs : List CosmosMsg}

/-- The reward callback stores its lockup with the new debt, and no other one. -/
theorem Pays.stores
    (h : Pays x w w' key withdraw msgs pool lockup lockup' generator share t rewardMsgs exitMsgs
      ntrnMsgs) :
    (∃ core, w'.storage.coreOf key = some core ∧
      core.generatorNtrnDebt = lockup'.core.generatorNtrnDebt) ∧
      ∀ k, k ≠ key → w'.storage.coreOf k = w.storage.coreOf k := by
  have hout := h.paysOut
  have hsame : SameBooks t w'.storage :=
    hout.ntrn.sameBooks (by rw [user_congr hout.exits.userInfo])
  have hlookup : ∀ k, w'.storage.coreOf k = t.coreOf k := hsame.lockups
  have hexits := hout.exits
  generalize withdraw = b at hexits
  cases hexits with
  | stored =>
      refine ⟨⟨lockup'.core, ?_, rfl⟩, fun k hk => ?_⟩
      · rw [hlookup, coreOf_save rfl, if_pos rfl]
      · rw [hlookup, coreOf_save rfl, if_neg hk]
  | closed _ hcloses =>
      refine ⟨⟨{ lockup' with astroportLpTransferred := some share }.core, ?_, rfl⟩,
        fun k hk => ?_⟩
      · rw [hlookup, coreOf_save hcloses.lockupInfo, if_pos rfl]
      · rw [hlookup, coreOf_save hcloses.lockupInfo, if_neg hk]

end Stored

/-- A claim adds what it sends to the owner to the debt of an open lockup, and changes no other
lockup. -/
structure PaysLockup (w w' : World E) (key : LockupKey) (core core' : LockupCore) : Prop where
  before : w.storage.coreOf key = some core
  wasOpen : core.astroportLpTransferred = none
  after : w'.storage.coreOf key = some core'
  debt : core'.generatorNtrnDebt =
    core.generatorNtrnDebt + (w'.paidToOwner key - w.paidToOwner key)
  others : ∀ k, k ≠ key → w'.storage.coreOf k = w.storage.coreOf k

theorem execute_paysLockup {info : MessageInfo} {poolType : PoolType} {duration : Nat}
    {withdraw : Bool}
    (hexec : w.execute x info (.claimRewardsAndOptionallyUnlock poolType duration withdraw) =
      .ok w') : ∃ core core', PaysLockup w w' ⟨poolType, info.sender, duration⟩ core core' := by
  obtain ⟨r, hr, hrun, hsender⟩ := execute_ok hexec
  obtain ⟨hevent, heffect⟩ := execute_effect hsender hr
  cases heffect with
  | reconfigure _ hmsg => cases hmsg
  | claim _ _ _ userInfo total t st collect hclaim =>
      obtain ⟨w₁, msgs, pool, lockup, lockup', generator, share, t', rewardMsgs, exitMsgs,
        ntrnMsgs, hcollects, hpays⟩ := execute_claim_ok hclaim hrun
      have hcollected : ∀ k, w₁.storage.coreOf k = w.storage.coreOf k := fun k => by
        rw [Storage.coreOf, hcollects.frame.2.1]
        exact hclaim.sameBooks.lockups k
      have hcore := coreOf_of_load hpays.paysOut.lockup_eq
      obtain ⟨⟨core', hcore', hdebt⟩, hothers⟩ := hpays.stores
      have hstart : r.storage.coreOf ⟨poolType, info.sender, duration⟩ = some st.core := by
        rw [Storage.coreOf, hclaim.lockup_eq, Option.map_some]
      have hopen : lockup.core = st.core := by
        have hbegun := hclaim.sameBooks.lockups ⟨poolType, info.sender, duration⟩
        rw [← Storage.coreOf, ← Storage.coreOf, hstart, ← hcollected, hcore] at hbegun
        exact (Option.some.inj hbegun).symm
      refine ⟨lockup.core, core', ?_, ?_, hcore', ?_, fun k hk => ?_⟩
      · rw [← hcollected]
        exact hcore
      · rw [hopen]
        exact hclaim.lockup_open
      · have hbefore : w₁.paidToOwner ⟨poolType, info.sender, duration⟩ =
            w.paidToOwner ⟨poolType, info.sender, duration⟩ :=
          (hcollects.count_eq (fun _ _ => rfl) fun _ => rfl).trans (World.count_respond hevent _)
        have hpaid : w'.paidToOwner ⟨poolType, info.sender, duration⟩ =
            w₁.paidToOwner ⟨poolType, info.sender, duration⟩ +
              pool.basePayment share lockup.generatorNtrnDebt := hpays.counts.1
        rw [hdebt, hpays.paysOut.rewards.debt, ← hbefore, hpaid, Nat.add_sub_cancel_left]
        rfl
      · rw [hothers k hk, hcollected]

/-- A claim collects the rewards of the pool, and stores what the share of its lockup has
accrued by then. -/
theorem Views.claims (hgen : c.Honest x) (h : Views c w rp) {info : MessageInfo}
    {duration : Nat} {withdraw : Bool}
    (hexec : w.execute x info
      (.claimRewardsAndOptionallyUnlock c.poolType duration withdraw) = .ok w') :
    ∃ rp₁ core, c.Steps rp rp₁ ∧ (⟨c.poolType, info.sender, duration⟩ : LockupKey) ∈ c.keys ∧
      (rp₁.lots ⟨c.poolType, info.sender, duration⟩).released = none ∧
      w'.receivedFor c.poolType = rp₁.received ∧
      w'.storage.coreOf ⟨c.poolType, info.sender, duration⟩ = some core ∧
      core.generatorNtrnDebt = rp₁.accrued c.keys FixedPoint.fractional
        ⟨c.poolType, info.sender, duration⟩ := by
  obtain ⟨r, hr, hrun, hsender⟩ := execute_ok hexec
  obtain ⟨hevent, heffect⟩ := execute_effect hsender hr
  cases heffect with
  | reconfigure _ hmsg => cases hmsg
  | claim _ _ _ userInfo total t st collect hclaim =>
      obtain ⟨w₁, msgs, pool, lockup, lockup', generator, share, t', rewardMsgs, exitMsgs,
        ntrnMsgs, hcollects, hpays⟩ := execute_claim_ok hclaim hrun
      have hresponds := h.respond hevent hclaim.sameBooks
      obtain ⟨rp₁, hsteps, hlots, h₁⟩ := hresponds.collects hgen hcollects
      have hout := hpays.paysOut
      have hcore : w₁.storage.coreOf ⟨c.poolType, info.sender, duration⟩ = some lockup.core :=
        coreOf_of_load hout.lockup_eq
      have hmem : (⟨c.poolType, info.sender, duration⟩ : LockupKey) ∈ c.keys :=
        (h₁.keys _).mpr ⟨rfl, by rw [hcore]; rfl⟩
      -- the lockup was open when the claim began, and collecting closes none
      have hreleased : (rp₁.lots ⟨c.poolType, info.sender, duration⟩).released = none := by
        have hstart : r.storage.coreOf ⟨c.poolType, info.sender, duration⟩ = some st.core := by
          rw [Storage.coreOf, hclaim.lockup_eq, Option.map_some]
        rw [hlots, (hresponds.lots _ hmem _ hstart).2.1]
        exact hclaim.lockup_open
      have hopen : lockup.core.astroportLpTransferred = none := by
        rw [← (h₁.lots _ hmem _ hcore).2.1]
        exact hreleased
      obtain ⟨pool', hpool', hstaked, htoken, -, -⟩ := h₁.pool
      obtain rfl := Option.some.inj (hout.pool_eq.symm.trans hpool')
      obtain rfl := Option.some.inj (hout.generator_eq.symm.trans h₁.generator)
      obtain ⟨balance, hbalance, -, hshare⟩ := astroportLpShare_ok hout.share_eq
      have hbalance' : balance = c.deposit w₁.ext := by
        unfold lpBalance at hbalance
        rw [if_pos hstaked, htoken, hgen.deposit] at hbalance
        exact (Except.ok.inj hbalance).symm
      obtain ⟨⟨core, hstored, hdebt⟩, -⟩ := hpays.stores
      refine ⟨rp₁, core, hsteps, hmem, hreleased, ?_, hstored, ?_⟩
      · rw [receivedFor_sent hpays.trace, h₁.received]
      · rw [hdebt, hout.rewards.accrued hstaked, h₁.accrued hmem hcore hopen hout.pool_eq, hshare,
          hbalance']
        rfl

/-! ### Debts and payments -/

/-- A lockup that is migrated leaves, and no other one changes. -/
theorem Migrates.kept {key : LockupKey} (h : Migrates x key w w') (k : LockupKey) :
    w'.storage.coreOf k = w.storage.coreOf k ∨ w'.storage.leftWith k ≠ none := by
  cases h with
  | skipped _ _ _ hsame => exact Or.inl (by rw [hsame])
  | migrated st w₁ w₂ rewardMsgs pool lockup generator share accrued rewardToken proxy ntrnMsgs
      pool' lockup' pair last _ _ hcollects hpays hexits =>
      have hclosed := coreOf_save hexits.closes.lockupInfo k
      split_ifs at hclosed with hk
      · refine Or.inr ?_
        rw [Storage.leftWith, hclosed]
        exact Option.some_ne_none share
      · have hsame : SameBooks w₁.storage w₂.storage := hpays.transfersAll.ntrn.sameBooks rfl
        refine Or.inl (hclosed.trans ((hsame.lockups k).trans ?_))
        rw [hcollects.frame.2.1]
        rfl

theorem claimed_eq {a : Action E} {k : LockupKey} (h : a.claimed = some k) :
    ∃ info poolType duration withdraw, k = ⟨poolType, info.sender, duration⟩ ∧
      a = .execute info (.claimRewardsAndOptionallyUnlock poolType duration withdraw) := by
  unfold Action.claimed at h
  split at h
  · exact ⟨_, _, _, _, (Option.some.inj h).symm, rfl⟩
  · cases h

/-- Whatever an action of the run does that is no claim of the lockup: the lockup is the same
afterwards, or it left. -/
theorem kept_of_exits {a : Action E} (hexits : Exits c w a) (hexec : World.exec x w a = .ok w')
    {k : LockupKey} (hclaim : a.claimed ≠ some k) :
    w'.storage.coreOf k = w.storage.coreOf k ∨ w'.storage.leftWith k ≠ none := by
  cases a with
  | advance seconds blocks =>
      obtain rfl := Except.ok.inj hexec
      exact Or.inl rfl
  | drift ext =>
      obtain rfl := Except.ok.inj hexec
      exact Or.inl rfl
  | migrate pclLockdropContract =>
      obtain rfl := Except.ok.inj hexec
      exact Or.inl rfl
  | execute info msg =>
      obtain ⟨r, hr, hrun, hsender⟩ := execute_ok hexec
      obtain ⟨hevent, heffect⟩ := execute_effect hsender hr
      cases heffect with
      | claim poolType duration withdraw =>
          obtain ⟨core, core', hpays⟩ := execute_paysLockup hexec
          exact Or.inl (hpays.others k fun heq => hclaim (congrArg some heq.symm))
      | migrate raw hsame hmsgs =>
          refine foldlM_invariant (fun v => v.storage.coreOf k = w.storage.coreOf k ∨
            v.storage.leftWith k ≠ none) (Or.inl (hsame.lockups k)) ?_ hrun
          intro v v' m hm hv hstep
          obtain ⟨key, rfl⟩ := hmsgs m hm
          rcases (migrates_ok hstep).kept k with hkept | hleft
          · rcases hv with hv | hv
            · exact Or.inl (hkept.trans hv)
            · refine Or.inr ?_
              unfold Storage.leftWith at hv ⊢
              rw [hkept]
              exact hv
          · exact Or.inr hleft
      | reconfigure msg hmsg => cases msg <;> simp_all [Exits, ExecuteMsg.exits,
          ExecuteMsg.reconfigures]
      | increase => cases hexits
      | withdraw => cases hexits
      | initPool => cases hexits
      | setTokenInfo => cases hexits

/-- The debt of an open lockup is what it was paid. -/
def RecordsPayments (k : LockupKey) (w : World E) (paid : Nat) : Prop :=
  ∀ core, w.storage.coreOf k = some core → core.astroportLpTransferred = none →
    core.generatorNtrnDebt = paid

theorem recordsPayments_exec {a : Action E} {k : LockupKey} {paid : Nat}
    (h : RecordsPayments k w paid) (hexits : Exits c w a) (hexec : World.exec x w a = .ok w') :
    RecordsPayments k w' (takesClaim k w a w' paid) := by
  intro core hcore hopen
  unfold takesClaim
  split_ifs with hclaim
  · obtain ⟨info, poolType, duration, withdraw, rfl, rfl⟩ := claimed_eq hclaim
    obtain ⟨core₀, core', hpays⟩ := execute_paysLockup hexec
    obtain rfl := Option.some.inj (hcore.symm.trans hpays.after)
    rw [hpays.debt, h core₀ hpays.before hpays.wasOpen]
  · rcases kept_of_exits hexits hexec hclaim with hkept | hleft
    · exact h core (hkept ▸ hcore) hopen
    · rw [Storage.leftWith, hcore] at hleft
      exact absurd hopen hleft

/-- In every run of exits. -/
theorem recordsPayments_run (hstart : FreshlyStaked c w) {as : List (Action E)}
    (hexits : Along (World.exec x) (Exits c) w as) {k : LockupKey} (hk : k ∈ c.keys) :
    RecordsPayments k (run (World.exec x) w as) (paidTo x k w as) := by
  unfold paidTo
  refine history_invariant_along (RecordsPayments k) ?_ ?_ hexits
  · exact fun v a v' paid h ha hexec => recordsPayments_exec h ha hexec
  · exact fun core hcore _ => hstart.debts k hk core hcore

/-! ### The pool at the start -/

theorem rewardPool_share (hstart : Staked c w) {k : LockupKey} {core : LockupCore}
    (hk : k ∈ c.keys) (hcore : w.storage.coreOf k = some core)
    (hopen : core.astroportLpTransferred = none) :
    (c.rewardPool w).share c.keys k =
      core.lpUnitsLocked * c.deposit w.ext / w.storage.amountIn c.poolType := by
  obtain ⟨pool, hpool, -⟩ := hstart.pool
  rw [hstart.views.share hk hcore hopen hpool, amountIn_of_mayLoad hpool]

/-- An open lot of the reward pool was open at the start. -/
theorem open_at_start (hsteps : c.Steps (c.rewardPool w) rp) {k : LockupKey}
    {core : LockupCore} (hcore : w.storage.coreOf k = some core)
    (hopen : (rp.lots k).released = none) : core.astroportLpTransferred = none := by
  have hfair := RewardPool.fair_steps (RewardPool.fair_refl (c.rewardPool w)) hsteps
  cases hleft : core.astroportLpTransferred with
  | none => rfl
  | some amount =>
      have hlot : ((c.rewardPool w).lots k).released = some amount := by
        rw [rewardPool_lots hcore]
        exact hleft
      rw [hfair.once k amount hlot] at hopen
      cases hopen

/-- What an open lot has accrued is its part. -/
theorem atLeastPart_of_steps (hstart : Staked c w) (hsteps : c.Steps (c.rewardPool w) rp)
    {k : LockupKey} {core : LockupCore} (hk : k ∈ c.keys)
    (hcore : w.storage.coreOf k = some core) (hopen : (rp.lots k).released = none) :
    EarnsPart c w core (rp.received - w.receivedFor c.poolType)
      (rp.accrued c.keys FixedPoint.fractional k) := by
  have hfair := RewardPool.fair_steps (RewardPool.fair_refl (c.rewardPool w)) hsteps
  have hgenerous := RewardPool.generous_steps FixedPoint.fractional_pos hsteps
  have hge := hgenerous.accrued_ge FixedPoint.fractional_pos hfair hk hopen
  rw [rewardPool_share hstart hk hcore (open_at_start hsteps hcore hopen)] at hge
  exact hge

/-- What a claim would pay a lockup is what its lot would be paid. -/
theorem Views.owed (h : Views c w rp) {k : LockupKey} (hk : k ∈ c.keys) :
    c.owed w k = rp.owed c.keys FixedPoint.fractional k := by
  obtain ⟨core, hcore⟩ := h.core_of_mem hk
  obtain ⟨pool, hpool, hstaked, -⟩ := h.pool
  obtain ⟨-, hreleased, hdebt⟩ := h.lots k hk core hcore
  unfold PoolSetup.owed RewardPool.owed RewardPool.liveDebt
  rw [hcore, hpool]
  dsimp only
  cases hleft : core.astroportLpTransferred with
  | none =>
      rw [if_pos rfl, Lot.live_of_open (hreleased.trans hleft), hdebt hleft,
        h.accrued hk hcore hleft hpool, PoolInfo.basePayment, if_pos hstaked]
  | some amount =>
      have hclosed := hreleased.trans hleft
      have hshare : rp.share c.keys k = 0 := by
        rw [RewardPool.share, RewardPool.liveUnits, Lot.live_of_closed hclosed, Nat.zero_mul,
          Nat.zero_div]
      rw [if_neg (Option.some_ne_none amount), RewardPool.accrued, hshare, Nat.mul_zero,
        Nat.zero_div, Nat.zero_sub]

/-! ### Runs -/

/-- In every order of claims, unlocks and migrations, with any rewards, an open lockup was paid
or is owed its part of what was received, a claim pays it, what was paid and what is owed was
received, and when the last lockup is gone all of it has been paid. -/
theorem rewards_shared {as : List (Action E)} (hgen : c.Honest x) (hstart : FreshlyStaked c w)
    (hexits : Along (World.exec x) (Exits c) w as) : SharedRewards x c w as := by
  have hstaked := hstart.toStaked
  obtain ⟨rp, hsteps, h⟩ := hstaked.views.run hgen hexits
  have hfair := RewardPool.fair_steps (RewardPool.fair_refl (c.rewardPool w)) hsteps
  have hgenerous := RewardPool.generous_steps FixedPoint.fractional_pos hsteps
  have hsolvent := RewardPool.solvent_steps hstart.solvent hsteps
  constructor
  · intro k hk core hcore hleft
    have hreleased := (h.leftWith hk).symm.trans hleft
    obtain ⟨core', hcore'⟩ := h.core_of_mem hk
    obtain ⟨-, hcoreReleased, hdebt⟩ := h.lots k hk core' hcore'
    have hopen := hcoreReleased.symm.trans hreleased
    have hpaid := recordsPayments_run hstart hexits hk core' hcore' hopen
    -- an open lockup: its debt is what it was paid, and the rest of the accrual is owed
    have haccrued : paidTo x k w as + c.owed (run (World.exec x) w as) k =
        rp.accrued c.keys FixedPoint.fractional k := by
      have hle := hsolvent.debt_le_accrued hk hreleased
      rw [h.owed hk, RewardPool.owed, RewardPool.liveDebt, Lot.live_of_open hreleased, ← hpaid,
        ← hdebt hopen]
      omega
    rw [haccrued, PoolSetup.receivedSince, h.received]
    exact atLeastPart_of_steps hstaked hsteps hk hcore hreleased
  · intro info duration withdraw w' core hclaim hcore
    -- a claim after the run: its debt becomes the accrual, so that is what it was paid in all
    obtain ⟨rp₁, core', hsteps₁, hmem, hreleased, hreceived, hstored, hdebt⟩ :=
      h.claims hgen hclaim
    obtain ⟨core₀, core₁, hpays⟩ := execute_paysLockup hclaim
    obtain rfl := Option.some.inj (hstored.symm.trans hpays.after)
    have hrecorded := recordsPayments_run hstart hexits hmem core₀ hpays.before hpays.wasOpen
    have hpaid : paidTo x ⟨c.poolType, info.sender, duration⟩ w (as ++
        [.execute info (.claimRewardsAndOptionallyUnlock c.poolType duration withdraw)]) =
        rp₁.accrued c.keys FixedPoint.fractional ⟨c.poolType, info.sender, duration⟩ := by
      rw [← hdebt, hpays.debt, hrecorded, paidTo, history_snoc hclaim]
      exact if_pos rfl
    rw [hpaid, PoolSetup.receivedSince, hreceived]
    exact atLeastPart_of_steps hstaked (hsteps.trans hsteps₁) hmem hcore hreleased
  · have howed : ∑ k ∈ c.keys, c.owed (run (World.exec x) w as) k =
        ∑ k ∈ c.keys, rp.owed c.keys FixedPoint.fractional k :=
      Finset.sum_congr rfl fun k hk => h.owed hk
    rw [howed, h.paid, h.received]
    exact hsolvent.owed_le FixedPoint.fractional_pos
  · intro hpos hall
    -- there were units and no debts at the start, and no unit is left: all of it was paid
    have htotal : 0 < (c.rewardPool w).total c.keys := by
      rw [← hstaked.views.amountIn]
      exact hpos
    have hzero : rp.total c.keys = 0 := by
      refine Finset.sum_eq_zero fun k hk => ?_
      obtain ⟨amount, hleft⟩ := Option.ne_none_iff_exists'.mp (hall k hk)
      rw [h.leftWith hk] at hleft
      exact Lot.live_of_closed hleft _
    have hdebts : ∀ k ∈ c.keys, (c.rewardPool w).liveDebt k = 0 := by
      intro k hk
      obtain ⟨core, hcore⟩ := hstaked.views.core_of_mem hk
      unfold RewardPool.liveDebt
      rw [rewardPool_lots hcore, LockupCore.lot, hstart.debts k hk core hcore]
      unfold Lot.live
      split <;> rfl
    have hpaid := hgenerous.drained hdebts (hfair.drained htotal hzero)
    rw [PoolSetup.receivedSince, h.received, h.paid]
    exact (Nat.le_add_right _ _).trans hpaid

/-- Alice and Bob have shared the 7 reward tokens, and all but one of them were paid. -/
theorem rewards_shared_sample :
    SharedRewards sampleExternals sampleSetup sampleStakedWorld sampleExits :=
  rewards_shared sampleExternals_honest
    { toStaked := sampleStaked
      perShare := fun pool hpool => by
        obtain rfl : _ = pool := Option.some.inj hpool
        decide
      debts := fun _ _ _ hcore => coreOf_forall
        (P := fun _ core => core.generatorNtrnDebt = 0) (by decide) hcore
      unpaid := by decide }
    sampleExits_exits

end NeutronTge.Lockdrop
