import NeutronTge.LockdropPcl.Solvency

/-!
# NeutronTge.LockdropPcl.Coverage

Every pool of the PCL lockdrop stays covered in every run (`incentives_covered`), as long as
no lockup is added to a staked pool and nobody else changes the deposits. The pools do not
disturb one another, since their LP tokens differ, and the incentives contract can only be
replaced while nothing is staked.
-/

namespace NeutronTge.LockdropPcl

open CosmWasm Astroport Shares
open Lockdrop (PoolType LockupKey untrnDenom)

variable {E : Type} {x : Externals E} {w w' w₁ : World E} {b b' : Payments}

/-! ### What holds of a world -/

/-- The rewards of every pool are covered, and nothing is staked but at the incentives contract
of the configuration. -/
structure Covers (c : Incentives E) (before : Addr → AssetInfo → Nat) (w : World E)
    (b : Payments) : Prop where
  tokens : ∀ p q pool pool', p ≠ q → w.storage.assetPools.mayLoad p = some pool →
    w.storage.assetPools.mayLoad q = some pool' → pool.lpToken ≠ pool'.lpToken
  elsewhere : ∀ p pool incentives, w.storage.assetPools.mayLoad p = some pool →
    incentives ≠ w.storage.config.incentives → c.deposit w.ext incentives pool.lpToken = 0
  received : ∀ lp asset, before lp asset ≤ c.received w.ext lp asset
  accounted : Accounted w b
  pools : ∀ p pool, w.storage.assetPools.mayLoad p = some pool → PoolCovers c before w b p pool

namespace Covers

variable {c : Incentives E} {before : Addr → AssetInfo → Nat}

/-- A step that keeps the lockups, the pools and the deposits. -/
theorem frame (h : Covers c before w b) (hcores : ∀ k, w'.storage.coreOf k = w.storage.coreOf k)
    (hpools : w'.storage.assetPools = w.storage.assetPools)
    (hincentives : w'.storage.config.incentives = w.storage.config.incentives)
    (hdeposit : ∀ incentives lp, c.deposit w'.ext incentives lp = c.deposit w.ext incentives lp)
    (hreceived : ∀ lp asset, c.received w.ext lp asset ≤ c.received w'.ext lp asset) :
    Covers c before w' b where
  tokens := by
    rw [hpools]
    exact h.tokens
  elsewhere := by
    rw [hpools, hincentives]
    intro p pool incentives hpool hne
    rw [hdeposit]
    exact h.elsewhere p pool incentives hpool hne
  received lp asset := (h.received lp asset).trans (hreceived lp asset)
  accounted := h.accounted.frame hcores hpools
  pools p pool hpool := by
    rw [hpools] at hpool
    exact (h.pools p pool hpool).frame (fun k _ => hcores k) (by rw [hincentives, hdeposit])
      (hreceived _) fun _ => rfl

/-- A message of the owner. -/
theorem administers (hc : c.Honest x) (h : Covers c before w b) {info : MessageInfo}
    {msg : ExecuteMsg} (hmsg : msg.administers = true) (hsame : Administers w w')
    (hexec : w.execute x info msg = .ok w') : Covers c before w' b := by
  by_cases hincentives : w'.storage.config.incentives = w.storage.config.incentives
  · exact h.frame (coreOf_congr hsame.lockupInfo) hsame.assetPools hincentives
      (fun _ _ => by rw [hsame.ext]) fun _ _ => by rw [hsame.ext]
  · -- nothing is staked, at the old contract or at the new one
    have hchecked := (administers_incentives hexec hmsg).resolve_left hincentives
    have hnone : ∀ p pool incentives, w.storage.assetPools.mayLoad p = some pool →
        c.deposit w.ext incentives pool.lpToken = 0 := by
      intro p pool incentives hpool
      by_cases hold : incentives = w.storage.config.incentives
      · rw [hold]
        exact (hc.answers _ _ _ _ (hchecked p pool hpool)).symm
      · exact h.elsewhere p pool incentives hpool hold
    refine ⟨by rw [hsame.assetPools]; exact h.tokens, fun p pool incentives hpool _ => ?_,
      fun lp asset => by rw [hsame.ext]; exact h.received lp asset,
      h.accounted.frame (coreOf_congr hsame.lockupInfo) hsame.assetPools,
      fun p pool hpool => ?_⟩
    · rw [hsame.assetPools] at hpool
      rw [hsame.ext]
      exact hnone p pool incentives hpool
    · rw [hsame.assetPools] at hpool
      refine (h.pools p pool hpool).frame (fun k _ => coreOf_congr hsame.lockupInfo k) ?_
        (fun _ => by rw [hsame.ext]) fun _ => rfl
      rw [hsame.ext, hnone p pool _ hpool, hnone p pool _ hpool]

/-- The rewards of a pool are booked. -/
theorem gathers (hc : c.Honest x) (h : Covers c before w b) {p : PoolType}
    (hgathers : Gathers x p w w') : Covers c before w' b := by
  have haccounted := h.accounted.gathers hgathers
  cases hgathers with
  | nothing => exact h
  | booked pool pending ext s deposit perShare hstaked hpending hclaim hbooks =>
      have hpool := hbooks.pool_eq
      have hcovers := @PoolCovers.booked E x w b c before p pool hc (h.pools p pool hpool)
        pending ext s deposit perShare
        (w.trace ++ [.claimRewards w.storage.config.incentives [pool.lpToken]]) hstaked hpending
        hclaim hbooks
      -- a claim of rewards moves no deposit
      have hdeposit : ∀ incentives lp, c.deposit ext incentives lp =
          c.deposit w.ext incentives lp := fun incentives lp =>
        hc.neutral w.ext ext (.claimRewards w.storage.config.incentives [pool.lpToken])
          incentives lp id hclaim
      obtain rfl := hbooks.storage
      have hloaded : ∀ q pool', (w.storage.assetPools.save p
          { pool with incentivesRewardsPerShare := perShare } w.env.height).mayLoad q =
            some pool' → q = p ∧ pool' = { pool with incentivesRewardsPerShare := perShare } ∨
              q ≠ p ∧ w.storage.assetPools.mayLoad q = some pool' := by
        intro q pool' hpool'
        rw [SnapshotMap.mayLoad_save_eq] at hpool'
        split_ifs at hpool' with hq
        · exact Or.inl ⟨hq, (Option.some.inj hpool').symm⟩
        · exact Or.inr ⟨hq, hpool'⟩
      refine ⟨?_, ?_, fun lp asset => (h.received lp asset).trans
        (hc.received_le _ _ _ lp asset hclaim), haccounted, ?_⟩
      · intro q r pool₁ pool₂ hne h₁ h₂
        rcases hloaded q pool₁ h₁ with ⟨rfl, rfl⟩ | ⟨hq, hq'⟩ <;>
          rcases hloaded r pool₂ h₂ with ⟨rfl, rfl⟩ | ⟨hr, hr'⟩
        · exact absurd rfl hne
        · exact h.tokens q r pool pool₂ hne hpool hr'
        · exact h.tokens q r pool₁ pool hne hq' hpool
        · exact h.tokens q r pool₁ pool₂ hne hq' hr'
      · intro q pool₁ incentives h₁ hne
        rw [hdeposit]
        rcases hloaded q pool₁ h₁ with ⟨rfl, rfl⟩ | ⟨hq, hq'⟩
        · exact h.elsewhere q pool incentives hpool hne
        · exact h.elsewhere q pool₁ incentives hq' hne
      · intro q pool₁ h₁
        rcases hloaded q pool₁ h₁ with ⟨rfl, rfl⟩ | ⟨hq, hq'⟩
        · exact hcovers
        · exact (h.pools q pool₁ hq').frame (fun _ _ => rfl) (hdeposit _ _)
            (fun asset => hc.received_le _ _ _ _ asset hclaim) fun _ => rfl

/-- A claim up to its reward callback. -/
theorem collected (hc : c.Honest x) (h : Covers c before w b) {info : MessageInfo}
    {poolType : PoolType} {duration : Nat} {withdraw : Bool}
    (hcollected : w.collected x info poolType duration withdraw = .ok w₁) :
    Covers c before w₁ b := by
  obtain ⟨r, opened, collect, hstarts, hgathers⟩ := collected_ok hcollected
  have hsame := hstarts.sameBooks
  have hr : Covers c before (w.respond r) b :=
    h.frame hsame.lockups hsame.assetPools (congrArg Config.incentives hsame.config)
      (fun _ _ => rfl) fun _ _ => Nat.le_refl _
  exact hr.gathers hc hgathers

/-- The reward callback, after messages that transfer nothing. -/
theorem pays (hc : c.Honest x) (h : Covers c before w b) {key : LockupKey} {withdraw : Bool}
    {collected msgs : List CosmosMsg} {pool : PoolInfo} {lockup lockup' : LockupInfo}
    {share : Nat} {t : Storage} {rewardMsgs exitMsgs ntrnMsgs : List CosmosMsg}
    (hopen : lockup.astroportLpTransferred = none)
    (hcollected : ∀ P, transferred P collected = 0)
    (hpays : Pays x w w' key withdraw msgs pool lockup lockup' share t rewardMsgs exitMsgs
      ntrnMsgs) : Covers c before w' (b.claimed key (collected ++ msgs)) := by
  have hout := hpays.paysOut
  obtain ⟨hself, hothers⟩ := hout.assetPools
  obtain ⟨-, hcores⟩ := hout.coreOf
  have hpool := hout.pool_eq
  have hgrows : ∀ lp asset, c.received w.ext lp asset ≤ c.received w'.ext lp asset :=
    fun lp asset => hc.received_run lp asset hpays.exec
  have hpaid : ∀ asset, (b.claimed key (collected ++ msgs)).pool key.poolType asset =
      b.pool key.poolType asset + transferred (fun t => t.info = asset) msgs := fun asset => by
    simp only [Payments.claimed, if_true, transferred_append, hcollected, Nat.zero_add]
  -- the pool of the lockup is the only one that is written
  have hloaded : ∀ q pool', w'.storage.assetPools.mayLoad q = some pool' →
      q = key.poolType ∧ pool' = { pool with amountInLockups :=
        pool.amountInLockups - if withdraw then lockup.lpUnitsLocked else 0 } ∨
      q ≠ key.poolType ∧ w.storage.assetPools.mayLoad q = some pool' := by
    intro q pool' hpool'
    by_cases hq : q = key.poolType
    · subst hq
      exact Or.inl ⟨rfl, (Option.some.inj (hself.symm.trans hpool')).symm⟩
    · exact Or.inr ⟨hq, hothers q hq ▸ hpool'⟩
  refine ⟨?_, ?_, fun lp asset => (h.received lp asset).trans (hgrows lp asset),
    h.accounted.pays hcollected hpays, ?_⟩
  · intro q r pool₁ pool₂ hne h₁ h₂
    rcases hloaded q pool₁ h₁ with ⟨rfl, rfl⟩ | ⟨hq, hq'⟩ <;>
      rcases hloaded r pool₂ h₂ with ⟨rfl, rfl⟩ | ⟨hr, hr'⟩
    · exact absurd rfl hne
    · exact h.tokens _ r pool pool₂ hne hpool hr'
    · exact h.tokens q _ pool₁ pool hne hq' hpool
    · exact h.tokens q r pool₁ pool₂ hne hq' hr'
  · intro q pool₁ incentives h₁ hne
    rw [hout.config] at hne
    have hsame : ∀ lp, c.deposit w'.ext incentives lp = c.deposit w.ext incentives lp :=
      fun lp => hc.neutral_run (hout.neutral fun heq => absurd heq.symm hne) hpays.exec
    rw [hsame]
    rcases hloaded q pool₁ h₁ with ⟨rfl, rfl⟩ | ⟨hq, hq'⟩
    · exact h.elsewhere _ pool incentives hpool hne
    · exact h.elsewhere q pool₁ incentives hq' hne
  · intro q pool₁ h₁
    rcases hloaded q pool₁ h₁ with ⟨rfl, rfl⟩ | ⟨hq, hq'⟩
    · exact (h.pools _ pool hpool).pays hc hpays rfl hopen (h.accounted.unstaked _ pool hpool)
        (h.received _) hpaid
    · refine (h.pools q pool₁ hq').frame (fun k hk => ?_) ?_ (hgrows _) fun asset => ?_
      · exact hcores k fun heq => hq (by rw [← hk, heq])
      · rw [hout.config]
        exact hc.neutral_run (hout.neutral fun _ =>
          h.tokens _ q pool pool₁ (Ne.symm hq) hpool hq') hpays.exec
      · simp only [Payments.claimed, if_neg hq, Nat.add_zero]

/-- A claim: the history takes down what it transferred. -/
theorem claims (hc : c.Honest x) (h : Covers c before w b) {info : MessageInfo}
    {poolType : PoolType} {duration : Nat} {withdraw : Bool}
    (hexec : w.execute x info (.claimRewardsAndOptionallyUnlock poolType duration withdraw) =
      .ok w') :
    Covers c before w' (b.claimed ⟨poolType, info.sender, duration⟩
      (w'.trace.drop w.trace.length)) := by
  obtain ⟨w₁, hcollected, hpay⟩ := execute_collected hexec
  obtain ⟨-, sent, htrace, hsent⟩ := h.accounted.collected hcollected
  obtain ⟨msgs, pool, lockup, lockup', share, t, rewardMsgs, exitMsgs, ntrnMsgs, hpays⟩ :=
    pays_ok ⟨poolType, info.sender, duration⟩ hpay
  have hdrop : w'.trace.drop w.trace.length = sent ++ msgs := by
    rw [hpays.trace, htrace, List.append_assoc, List.drop_left]
  have hopen := collected_open hcollected hpays.paysOut.lockup_eq
  rw [hdrop]
  exact (h.collected hc hcollected).pays hc hopen hsent hpays

/-- A lockup comes into a pool that is not staked yet. -/
theorem migrates (hc : c.Honest x) (h : Covers c before w b) {key : LockupKey}
    {funds : List Coin} {userInfo : Lockdrop.UserInfo} {lockup : Lockdrop.LockupInfoV2}
    {stake : Bool} {pair : Addr} {ext : E} {msgs : List CosmosMsg} {prev balance : Nat}
    {pool : PoolInfo} {weight : Nat}
    (hmigrates : Migrates x w w' key funds userInfo lockup stake pair ext msgs prev balance pool
      weight) (hunstaked : pool.isStaked = false) : Covers c before w' (b.stored key) := by
  have hfinishes := hmigrates.finishes
  have hpool := hfinishes.pool_eq
  have hcores := coreOf_save hfinishes.lockupInfo
  have hgrows : ∀ lp asset, c.received w.ext lp asset ≤ c.received w'.ext lp asset :=
    fun lp asset => (hc.received_le _ _ _ lp asset hmigrates.provides).trans
      (hc.received_run lp asset hmigrates.exec)
  -- only the stake at the end reaches the incentives contract, for this LP token
  have hneutral : ∀ incentives lp,
      (w.storage.config.incentives = incentives → pool.lpToken ≠ lp) →
      c.deposit w'.ext incentives lp = c.deposit w.ext incentives lp := by
    intro incentives lp hne
    have hprovide := hc.neutral w.ext ext _ incentives lp id hmigrates.provides
    rw [← hprovide]
    refine hc.neutral_run (fun m hm hmoves => ?_) hmigrates.exec
    rw [hfinishes.messages] at hm
    split_ifs at hm with hstake
    · rw [List.mem_singleton.mp hm] at hmoves
      exact hne hmoves.1 hmoves.2
    · cases hm
  have hloaded : ∀ q pool', w'.storage.assetPools.mayLoad q = some pool' →
      q = key.poolType ∧ pool' = { pool with
        weightedAmount := pool.weightedAmount + weight
        amountInLockups := pool.amountInLockups + (balance - prev)
        isStaked := stake || pool.isStaked } ∨
      q ≠ key.poolType ∧ w.storage.assetPools.mayLoad q = some pool' := by
    intro q pool' hpool'
    rw [hfinishes.assetPools] at hpool'
    split_ifs at hpool' with hq
    · exact Or.inl ⟨hq, (Option.some.inj hpool').symm⟩
    · exact Or.inr ⟨hq, hpool'⟩
  refine ⟨?_, ?_, fun lp asset => (h.received lp asset).trans (hgrows lp asset),
    h.accounted.migrates hmigrates, ?_⟩
  · intro q r pool₁ pool₂ hne h₁ h₂
    rcases hloaded q pool₁ h₁ with ⟨rfl, rfl⟩ | ⟨hq, hq'⟩ <;>
      rcases hloaded r pool₂ h₂ with ⟨rfl, rfl⟩ | ⟨hr, hr'⟩
    · exact absurd rfl hne
    · exact h.tokens _ r pool pool₂ hne hpool hr'
    · exact h.tokens q _ pool₁ pool hne hq' hpool
    · exact h.tokens q r pool₁ pool₂ hne hq' hr'
  · intro q pool₁ incentives h₁ hne
    rw [hfinishes.config] at hne
    rw [hneutral _ _ fun heq => absurd heq.symm hne]
    rcases hloaded q pool₁ h₁ with ⟨rfl, rfl⟩ | ⟨hq, hq'⟩
    · exact h.elsewhere _ pool incentives hpool hne
    · exact h.elsewhere q pool₁ incentives hq' hne
  · intro q pool₁ h₁
    rcases hloaded q pool₁ h₁ with ⟨rfl, rfl⟩ | ⟨hq, hq'⟩
    · have hcovers := h.pools _ pool hpool
      -- the pool was not staked, so no lockup of it has a debt yet and none can be uncovered
      refine .of_fresh ?_ (h.accounted.unstaked _ pool hpool hunstaked)
        (fun asset => (h.received _ asset).trans (hgrows _ asset))
        (fun asset => (hcovers.fresh hunstaked asset).1) fun asset k core hk hcore => ?_
      · exact hfinishes.adds.openSum_le hcovers.ledger
      · rw [hcores] at hcore
        split_ifs at hcore with hkey
        · obtain rfl := Option.some.inj hcore
          rfl
        · exact (hcovers.fresh hunstaked asset).2 k core hk hcore
    · refine (h.pools q pool₁ hq').frame (fun k hk => ?_) ?_ (hgrows _) fun _ => rfl
      · rw [hcores, if_neg]
        exact fun heq => hq (by rw [← hk, heq])
      · rw [hfinishes.config]
        exact hneutral _ _ fun _ => h.tokens _ q pool pool₁ (Ne.symm hq) hpool hq'

end Covers

/-! ### Whole runs -/

/-- A step of a run that nobody disturbs: no lockup is added to a pool after it is staked, and
the deposits change only by the messages of the lockdrop. -/
def Undisturbed (c : Incentives E) (w : World E) : Action E → Prop
  | .drift ext => (∀ incentives lp, c.deposit ext incentives lp = c.deposit w.ext incentives lp) ∧
      ∀ lp asset, c.received w.ext lp asset ≤ c.received ext lp asset
  | .execute _ (.migrateXYKLiquidity poolType _ _ _ _ _) =>
      ∀ pool, w.storage.assetPools.mayLoad poolType = some pool → pool.isStaked = false
  | _ => True

/-- No debt that the reward callback of a lockup subtracts is more than what the share has
accrued, whatever rewards were settled before in the same callback. -/
def DebtsCovered (q : Querier) (s : Storage) (key : LockupKey) : Prop :=
  ∀ pool lockup share (rewards : List RewardType) debts assets asset,
    s.assetPools.mayLoad key.poolType = some pool → pool.isStaked = true →
    s.lockupInfo.mayLoad key = some lockup →
    astroportLpShare q s.config.incentives pool lockup.lpUnitsLocked = .ok share →
    rewards.foldlM (accrueReward pool share) (lockup.incentivesDebt, []) = .ok (debts, assets) →
      ∃ pending, Uint.checkedSub (accruedOf pool.incentivesRewardsPerShare share asset)
        (debts.valueOf asset) = .ok pending

namespace Covers

variable {c : Incentives E} {before : Addr → AssetInfo → Nat}

theorem exec {a : Action E} (hc : c.Honest x) (h : Covers c before w b)
    (hundisturbed : Undisturbed c w a) (hexec : World.exec x w a = .ok w') :
    Covers c before w' (Payments.after w a w' b) := by
  cases a with
  | advance seconds blocks =>
      obtain rfl := Except.ok.inj hexec
      exact h.frame (fun _ => rfl) rfl rfl (fun _ _ => rfl) fun _ _ => Nat.le_refl _
  | drift ext =>
      obtain rfl := Except.ok.inj hexec
      exact h.frame (fun _ => rfl) rfl rfl hundisturbed.1 hundisturbed.2
  | execute info msg =>
      replace hexec : w.execute x info msg = .ok w' := hexec
      cases execute_effect hexec with
      | administer _ hmsg hsame =>
          have hafter : Payments.after w (.execute info msg) w' b = b := by
            cases msg with
            | claimRewardsAndOptionallyUnlock => cases hmsg
            | migrateXYKLiquidity => cases hmsg
            | _ => rfl
          rw [hafter]
          exact h.administers hc hmsg hsame hexec
      | claim poolType duration withdraw => exact h.claims hc hexec
      | migrate key userInfo lockup stake pair ext msgs prev balance pool weight hsender
          hmigrates =>
          exact h.migrates hc hmigrates (hundisturbed pool hmigrates.finishes.pool_eq)

/-- At the start there are no lockups, and nothing is deposited. -/
theorem of_instantiate {env : Env} {info : MessageInfo} {msg : InstantiateMsg}
    (h : instantiate env info msg = .ok w.storage) (htokens : msg.atomToken ≠ msg.usdcToken)
    (hdeposit : ∀ incentives lp, c.deposit w.ext incentives lp = 0) :
    Covers c (c.received w.ext) w .none where
  tokens := by
    rw [instantiate_ok h]
    exact fun p q pool pool' hne hp hq => initialPools_lpToken htokens hne hp hq
  elsewhere _ _ _ _ _ := hdeposit _ _
  received _ _ := Nat.le_refl _
  accounted := Accounted.of_instantiate h
  pools p pool hpool := by
    have hstorage := instantiate_ok h
    have hnone : ∀ k, w.storage.coreOf k = none := fun k => by
      rw [hstorage]
      rfl
    refine .of_fresh ?_ ?_ (fun _ => Nat.le_refl _) (fun _ => rfl) fun asset k core _ hcore => ?_
    · have hsum : w.storage.openSum p = 0 := by
        rw [hstorage]
        rfl
      rw [hsum]
      exact Nat.zero_le _
    · intro asset
      rw [hstorage] at hpool
      rcases initialPool_ok hpool with ⟨-, rfl⟩ | ⟨-, rfl⟩ <;> rfl
    · rw [hnone k] at hcore
      cases hcore

/-- In a run that nobody disturbs. -/
theorem run_ok (hc : c.Honest x) (h : Covers c before w b) {as : List (Action E)}
    (has : Along (World.exec x) (Undisturbed c) w as) :
    Covers c before (run (World.exec x) w as) (history (World.exec x) Payments.after w b as) :=
  history_invariant_along (Covers c before) (fun _ _ _ _ => Covers.exec hc) h has

/-- What was paid for a pool is covered by what was received since the start. -/
theorem paid_le (h : Covers c before w b) {p : PoolType} {pool : PoolInfo}
    (hpool : w.storage.assetPools.mayLoad p = some pool) (asset : AssetInfo) :
    b.pool p asset + before pool.lpToken asset ≤ c.received w.ext pool.lpToken asset :=
  ((h.pools p pool hpool).solvent asset).paid_le (by decide)

/-- The debts of an open lockup are covered. -/
theorem debtsCovered (hc : c.Honest x) (h : Covers c before w b) {key : LockupKey}
    (hopen : ∀ lockup, w.storage.lockupInfo.mayLoad key = some lockup →
      lockup.astroportLpTransferred = none) :
    DebtsCovered (x.querier w.ext) w.storage key := by
  intro pool lockup share rewards debts assets asset hpool hstaked hlockup hshare hrewards
  have hcovers := h.pools _ pool hpool
  have hcore := coreOf_of_load hlockup
  have hstored : some key ∈ w.storage.lots key.poolType :=
    some_mem_lots.mpr ⟨rfl, by rw [hcore]; rfl⟩
  have hlot := @rewardPool_lots E w b c before _ pool asset key _ rfl hcore
  have haccrued := @rewardPool_accrued E w b c before _ pool asset hcovers.ledger key _ rfl hcore
    (hopen lockup hlockup)
  have hdebt := (hcovers.solvent asset).debt_le_accrued hstored
    (by rw [hlot]; exact hopen lockup hlockup)
  obtain ⟨balance, hbalance, -, rfl⟩ := astroportLpShare_ok hshare
  rw [lpBalance, if_pos hstaked] at hbalance
  rw [hc.answers _ _ _ _ hbalance] at hrewards ⊢
  refine ⟨_, Uint.checkedSub_eq_ok.mpr ⟨?_, rfl⟩⟩
  -- the debt is the old one, or was settled in this callback
  have hsettled := (accrueRewards_ok hrewards).debt asset
  dsimp only at hsettled
  rw [hsettled]
  split_ifs
  · exact Nat.le_refl _
  · rw [hlot, haccrued] at hdebt
    exact hdebt

end Covers

/-- Whatever comes in and in whatever order lockups claim and leave: for each reward asset the
lockups of a pool are paid no more than the lockdrop received for it, and no debt is more than
what is subtracted from. -/
theorem incentives_covered {c : Incentives E} {env : Env} {info₀ : MessageInfo}
    {msg : InstantiateMsg} (hc : c.Honest x) (hstart : instantiate env info₀ msg = .ok w.storage)
    (htokens : msg.atomToken ≠ msg.usdcToken)
    (hdeposit : ∀ incentives lp, c.deposit w.ext incentives lp = 0) {as : List (Action E)}
    (has : Along (World.exec x) (Undisturbed c) w as) :
    (∀ p pool asset, (run (World.exec x) w as).storage.assetPools.mayLoad p = some pool →
      (payments x w as).pool p asset + c.received w.ext pool.lpToken asset ≤
        c.received (run (World.exec x) w as).ext pool.lpToken asset) ∧
      ∀ info poolType duration withdraw w₁,
        (run (World.exec x) w as).collected x info poolType duration withdraw = .ok w₁ →
          DebtsCovered (x.querier w₁.ext) w₁.storage ⟨poolType, info.sender, duration⟩ := by
  have hcovers := (Covers.of_instantiate hstart htokens hdeposit).run_ok hc has
  refine ⟨fun p pool asset hpool => hcovers.paid_le hpool asset, ?_⟩
  intro info poolType duration withdraw w₁ hcollected
  exact (hcovers.collected hc hcollected).debtsCovered hc fun lockup hlockup =>
    collected_open hcollected hlockup

/-! ### Rewards of a small chain -/

/-- The deposits and rewards of the small chain. -/
def sampleIncentives : Incentives SampleExt := ⟨SampleExt.deposit, SampleExt.receivedOf⟩

/-- The small chain with an incentives contract that lists a pending reward once. -/
def listedOnce : Externals SampleExt where
  querier e := { e.querier with
    pendingRewards := fun _ lpToken =>
      if ((e.pendingOf lpToken).map Asset.info).Nodup then .ok (e.pendingOf lpToken)
      else .error .aborted }
  exec := SampleExt.exec

section Receive

variable {e : SampleExt} {lpToken lp : Addr} {asset : AssetInfo}

theorem receivedOf_receive (a : Asset) :
    (e.receive lpToken a).receivedOf lp asset =
      e.receivedOf lp asset + if lp = lpToken ∧ asset = a.info then a.amount else 0 := by
  unfold SampleExt.receive SampleExt.receivedOf
  simp only [Map.mayLoad_save_eq, Prod.mk.injEq]
  split_ifs with h
  · rw [h.1, h.2]
    rfl
  · rfl

theorem balanceOf_receive (a : Asset) :
    (e.receive lpToken a).balanceOf asset =
      e.balanceOf asset + if asset = a.info then a.amount else 0 := by
  unfold SampleExt.receive SampleExt.balanceOf
  simp only [Map.mayLoad_save_eq]
  split_ifs with h
  · rw [h]
    rfl
  · rfl

/-- The balance grows by what is received. -/
theorem balance_receives (lpToken : Addr) (asset : AssetInfo) : ∀ (as : List Asset)
    (e : SampleExt),
    (as.foldl (SampleExt.receive lpToken) e).balanceOf asset + e.receivedOf lpToken asset =
      e.balanceOf asset + (as.foldl (SampleExt.receive lpToken) e).receivedOf lpToken asset := by
  intro as
  induction as with
  | nil => exact fun e => rfl
  | cons a as ih =>
      intro e
      have hrest := ih (e.receive lpToken a)
      simp only [receivedOf_receive, balanceOf_receive, true_and] at hrest
      rw [List.foldl_cons]
      omega

theorem receivedOf_le_receives (lpToken lp : Addr) (asset : AssetInfo) : ∀ (as : List Asset)
    (e : SampleExt),
    e.receivedOf lp asset ≤ (as.foldl (SampleExt.receive lpToken) e).receivedOf lp asset := by
  intro as
  induction as with
  | nil => exact fun e => Nat.le_refl _
  | cons a as ih =>
      intro e
      have hrest := ih (e.receive lpToken a)
      rw [receivedOf_receive] at hrest
      rw [List.foldl_cons]
      omega

theorem receivedOf_le_claims (lp : Addr) (asset : AssetInfo) : ∀ (lpTokens : List Addr)
    (e : SampleExt),
    e.receivedOf lp asset ≤ (lpTokens.foldl SampleExt.claim e).receivedOf lp asset := by
  intro lpTokens
  induction lpTokens with
  | nil => exact fun e => Nat.le_refl _
  | cons lpToken lpTokens ih =>
      intro e
      have hfirst : e.receivedOf lp asset ≤ (e.claim lpToken).receivedOf lp asset :=
        receivedOf_le_receives lpToken lp asset (e.pendingOf lpToken)
          { e with pending := e.pending.save lpToken [] }
      exact hfirst.trans (ih (e.claim lpToken))

theorem deposits_receives (lpToken : Addr) : ∀ (as : List Asset) (e : SampleExt),
    (as.foldl (SampleExt.receive lpToken) e).deposits = e.deposits := by
  intro as
  induction as with
  | nil => exact fun e => rfl
  | cons a as ih => exact fun e => ih (e.receive lpToken a)

theorem deposits_claims : ∀ (lpTokens : List Addr) (e : SampleExt),
    (lpTokens.foldl SampleExt.claim e).deposits = e.deposits := by
  intro lpTokens
  induction lpTokens with
  | nil => exact fun e => rfl
  | cons lpToken lpTokens ih =>
      intro e
      exact (ih (e.claim lpToken)).trans (deposits_receives lpToken _ _)

end Receive

theorem listedOnce_honest : sampleIncentives.Honest listedOnce where
  answers e incentives lp amount h := (Except.ok.inj h).symm
  withdraw e e' incentives lp amount h := by
    simp only [listedOnce, SampleExt.exec, bind_eq_ok, rejectIf_eq_ok, exists_const, not_not,
      Uint.checkedSub_eq_ok, Except.ok.injEq] at h
    obtain ⟨rfl, _, ⟨hle, rfl⟩, rfl⟩ := h
    refine ⟨hle, ?_⟩
    simp only [sampleIncentives, SampleExt.deposit, Map.mayLoad_save, if_true, Option.getD_some]
  neutral e e' m incentives lp hm h := by
    have hsaved : ∀ {i : Addr} {l : Addr} {n : Nat}, i = "incentives" →
        ¬ (i = incentives ∧ l = lp) →
        (if incentives = "incentives" then ((e.deposits.save l n).mayLoad lp).getD 0 else 0) =
          if incentives = "incentives" then (e.deposits.mayLoad lp).getD 0 else 0 := by
      intro i l n hi hne
      split_ifs with hincentives
      · rw [Map.mayLoad_save_ne fun hl => hne ⟨hi.trans hincentives.symm, hl.symm⟩]
      · rfl
    show e'.deposit incentives lp = e.deposit incentives lp
    unfold SampleExt.deposit
    cases m with
    | incentivesWithdraw i l n =>
        simp only [listedOnce, SampleExt.exec, bind_eq_ok, rejectIf_eq_ok, exists_const, not_not,
          Except.ok.injEq] at h
        obtain ⟨hi, _, -, rfl⟩ := h
        exact hsaved hi hm
    | sendDeposit l i n =>
        simp only [listedOnce, SampleExt.exec, bind_eq_ok, rejectIf_eq_ok, exists_const, not_not,
          Except.ok.injEq] at h
        obtain ⟨hi, _, -, rfl⟩ := h
        exact hsaved hi hm
    | claimRewards i lpTokens =>
        obtain rfl := Except.ok.inj h
        rw [deposits_claims]
    | lpTransfer l user n =>
        simp only [listedOnce, SampleExt.exec, bind_eq_ok, Except.ok.injEq] at h
        obtain ⟨_, -, rfl⟩ := h
        rfl
    | transfer msg =>
        simp only [listedOnce, SampleExt.exec, bind_eq_ok, Except.ok.injEq] at h
        obtain ⟨_, -, rfl⟩ := h
        rfl
    | _ =>
        obtain rfl := Except.ok.inj h
        rfl
  claims e e' incentives lp asset after h hafter := by
    obtain rfl := Except.ok.inj h
    obtain rfl := Except.ok.inj hafter
    exact ⟨e.balanceOf asset, rfl, (balance_receives lp asset (e.pendingOf lp) _).le⟩
  received_le e e' m lp asset h := by
    show e.receivedOf lp asset ≤ e'.receivedOf lp asset
    cases m with
    | claimRewards i lpTokens =>
        obtain rfl := Except.ok.inj h
        exact receivedOf_le_claims lp asset lpTokens e
    | incentivesWithdraw i l n =>
        simp only [listedOnce, SampleExt.exec, bind_eq_ok, Except.ok.injEq] at h
        obtain ⟨_, -, _, -, rfl⟩ := h
        exact Nat.le_refl _
    | sendDeposit l i n =>
        simp only [listedOnce, SampleExt.exec, bind_eq_ok, Except.ok.injEq] at h
        obtain ⟨_, -, _, -, rfl⟩ := h
        exact Nat.le_refl _
    | lpTransfer l user n =>
        simp only [listedOnce, SampleExt.exec, bind_eq_ok, Except.ok.injEq] at h
        obtain ⟨_, -, rfl⟩ := h
        exact Nat.le_refl _
    | transfer msg =>
        simp only [listedOnce, SampleExt.exec, bind_eq_ok, Except.ok.injEq] at h
        obtain ⟨_, -, rfl⟩ := h
        exact Nat.le_refl _
    | _ =>
        obtain rfl := Except.ok.inj h
        exact Nat.le_refl _
  pending e incentives lp pending h := by
    simp only [listedOnce] at h
    split_ifs at h with hnodup
    obtain rfl := Except.ok.inj h
    exact hnodup

/-- Alice claims and Bob leaves: 12 reward tokens came in, and all of them are paid. -/
theorem incentives_covered_sample :
    (payments listedOnce sampleStart (sampleClaim ++ [bobUnlocks])).pool .usdc astro ≤
      (run (World.exec listedOnce) sampleStart (sampleClaim ++ [bobUnlocks])).ext.receivedOf
        "usdc_pcl" astro := by
  have hstart : instantiate ⟨0, 1, "lockdrop_pcl"⟩ ⟨"owner", []⟩ sampleInstantiateMsg =
      .ok sampleStart.storage := rfl
  have hundisturbed : Along (World.exec listedOnce) (Undisturbed sampleIncentives) sampleStart
      (sampleClaim ++ [bobUnlocks]) := by
    refine ⟨?_, ?_, trivial, ⟨fun _ _ => rfl, fun _ _ => Nat.le_refl _⟩, trivial, trivial, trivial⟩
    · intro pool hpool
      obtain rfl := Option.some.inj hpool
      rfl
    · intro pool hpool
      obtain rfl := Option.some.inj hpool
      rfl
  have hpool : ∃ pool, (run (World.exec listedOnce) sampleStart
      (sampleClaim ++ [bobUnlocks])).storage.assetPools.mayLoad .usdc = some pool ∧
        pool.lpToken = "usdc_pcl" := ⟨_, rfl, by decide +kernel⟩
  obtain ⟨pool, hpool, htoken⟩ := hpool
  have hpaid := (incentives_covered listedOnce_honest hstart (by decide)
    (fun incentives lp => by
      show (if incentives = "incentives" then 0 else 0) = 0
      split_ifs <;> rfl) hundisturbed).1 .usdc pool astro hpool
  rw [htoken] at hpaid
  exact (Nat.le_add_right _ _).trans hpaid

/-! ### One LP token for both pools -/

/-- Both pools have the same LP token. -/
def sharedInstantiateMsg : InstantiateMsg :=
  { sampleInstantiateMsg with usdcToken := "pcl", atomToken := "pcl" }

/-- A PCL lockdrop right after it was instantiated with one LP token. -/
def sharedStart : World SampleExt :=
  { sampleStart with
    storage := sharedInstantiateMsg.storage ⟨0, 1, "lockdrop_pcl"⟩ ⟨"owner", []⟩ }

/-- Bob's lockup comes from the ATOM pool and is staked. -/
def bobMovesAtom : Action SampleExt :=
  .execute ⟨"lockdrop", [⟨untrnDenom, 10⟩, ⟨"atom", 10⟩]⟩
    (.migrateXYKLiquidity .atom "bob" 1 ⟨5, true, 1⟩ ⟨10, some 10, true, 5, 0, [], 100⟩ true)

/-- Alice claims for her USDC lockup. -/
def aliceClaims : Action SampleExt :=
  .execute ⟨"alice", []⟩ (.claimRewardsAndOptionallyUnlock .usdc 1 false)

/-- Alice's 40 and Bob's 20 LP tokens are staked for different pools, Alice gets all of 12
rewards, and Bob unlocks. -/
def sharedRun : List (Action SampleExt) :=
  let staked := run (World.exec listedOnce) sharedStart
    [sampleMigration "alice" 20 true, bobMovesAtom]
  [sampleMigration "alice" 20 true, bobMovesAtom, .advance 100 10,
    .drift { staked.ext with
      pending := staked.ext.pending.save "pcl" [⟨astro, 12⟩], listed := [.int astro] },
    aliceClaims, .execute ⟨"bob", []⟩ (.claimRewardsAndOptionallyUnlock .atom 1 true)]

/-- Alice's second claim up to its reward callback. -/
def sharedCollected : World SampleExt :=
  commit (fun (w : World SampleExt) (_ : Unit) =>
      w.collected listedOnce ⟨"alice", []⟩ .usdc 1 false)
    (run (World.exec listedOnce) sharedStart sharedRun) ()

/-- With one LP token for both pools Bob takes the whole deposit, and Alice's debt is more than
what her share has accrued: her next claim fails. -/
theorem shared_token_underflow :
    instantiate ⟨0, 1, "lockdrop_pcl"⟩ ⟨"owner", []⟩ sharedInstantiateMsg =
        .ok sharedStart.storage ∧
      sampleIncentives.Honest listedOnce ∧
      Along (World.exec listedOnce) (Undisturbed sampleIncentives) sharedStart sharedRun ∧
      (run (World.exec listedOnce) sharedStart sharedRun).collected listedOnce ⟨"alice", []⟩
        .usdc 1 false = .ok sharedCollected ∧
      ¬ DebtsCovered (listedOnce.querier sharedCollected.ext) sharedCollected.storage
        ⟨.usdc, "alice", 1⟩ ∧
      ((run (World.exec listedOnce) sharedStart sharedRun).exec listedOnce aliceClaims).map
        (fun _ => ()) = .error (.overflow .sub) := by
  refine ⟨rfl, listedOnce_honest, ?_, ?_, ?_, by decide +kernel⟩
  · refine ⟨?_, ?_, trivial, ⟨fun _ _ => rfl, fun _ _ => Nat.le_refl _⟩, trivial, trivial, trivial⟩
    · intro pool hpool
      obtain rfl := Option.some.inj hpool
      rfl
    · intro pool hpool
      obtain rfl := Option.some.inj hpool
      rfl
  · exact ok_of_isOk (fun (w : World SampleExt) (_ : Unit) =>
      w.collected listedOnce ⟨"alice", []⟩ .usdc 1 false) (a := ()) (by decide +kernel)
  · intro hcovered
    have hpool : sharedCollected.storage.assetPools.mayLoad .usdc =
        some ⟨"pcl", 40, 0, 40, [(astro, ⟨200000000000000000⟩)], true⟩ := by
      decide +kernel
    have hlockup : sharedCollected.storage.lockupInfo.mayLoad ⟨.usdc, "alice", 1⟩ =
        some ⟨40, none, true, 5, [(astro, 12)], 100⟩ := by
      decide +kernel
    obtain ⟨pending, hpending⟩ :=
      hcovered _ _ 0 [] _ _ astro hpool rfl hlockup (by decide +kernel) rfl
    exact absurd (Uint.checkedSub_eq_ok.mp hpending).1 (by decide +kernel)

end NeutronTge.LockdropPcl
