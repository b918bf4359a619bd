import NeutronTge.Lockdrop.Ledger

/-!
# NeutronTge.Lockdrop.Consistency

The books of the lockdrop agree in every state of every orderly run, and so do the answers
about every past block. A run is orderly when the token info is only set while no lockup
is stored, and liquidity is only migrated after both windows closed. The contract does not
check the second condition, and `early_migration_inconsistent` shows what happens then.
-/

namespace NeutronTge.Lockdrop

open CosmWasm Astroport Shares

variable {E : Type} {x : Externals E}

/-- The books agree now, and the answers about every past block agree: the sum over any
users that include everybody with a total is the pool's amount. -/
structure Consistent (s : Storage) : Prop where
  ledger : Ledger s
  history : ∀ (p : PoolType) (height : Nat) (U : Finset Addr),
    (∀ u, s.totalUserLockupAmount.mayLoad (p, u) ≠ none → u ∈ U) →
      ∑ u ∈ U, (queryUserLockupTotalAtHeight s p u height).getD 0 =
        (queryLockupTotalAtHeight s p height).getD 0

/-! ### The answers about the past -/

theorem queryLockupTotal_getD (s : Storage) (p : PoolType) (height : Nat) :
    (queryLockupTotalAtHeight s p height).getD 0 =
      (s.assetPools.mayLoadAtHeight p height).elim 0 PoolInfo.amountInLockups := by
  unfold queryLockupTotalAtHeight
  cases s.assetPools.mayLoadAtHeight p height <;> rfl

/-! ### The invariant -/

/-- What holds between two transactions of an orderly run. -/
structure Invariant (w : World E) : Prop where
  recorded : Recorded grouping w.storage.books w.env.height
  counts : Counts w.storage
  left : ∀ key, w.storage.Left key → w.storage.config.closing ≤ w.env.time

theorem Invariant.consistent {w : World E} (h : Invariant w) : Consistent w.storage where
  ledger := ⟨h.recorded.tally, h.counts⟩
  history p height U hU := by
    rw [queryLockupTotal_getD]
    exact h.recorded.history p height U hU

/-- A step of a block: the answers about past blocks stay, and those about later blocks
are the present books. -/
theorem Invariant.step {w w' : World E} (h : Invariant w) (henv : w'.env = w.env)
    (hstep : LedgerStep w.env w.storage w'.storage) : Invariant w' where
  recorded := henv ▸ h.recorded.step hstep.tally hstep.pools hstep.totals
  counts := hstep.counts h.counts
  left key hleft := by
    rw [henv, hstep.terms.closing]
    rcases hstep.left key hleft with hleft | hlate
    · exact h.left key hleft
    · exact hlate

/-! ### Claims and migrations -/

theorem Collects.ledgerStep {p : PoolType} {w w' : World E} (h : Collects x p w w') :
    LedgerStep w.env w.storage w'.storage := by
  cases h with
  | nothing => exact .refl _
  | booked _ _ _ _ _ _ _ _ _ _ hbooks => exact hbooks.ledgerStep

/-- The reward callback of a claim, for a lockup that has not left. -/
theorem PaysOut.ledgerStep {q : Querier} {s s' t : Storage} {env : Env} {key : LockupKey}
    {withdraw : Bool} {msgs : List CosmosMsg} {pool : PoolInfo} {lockup lockup' : LockupInfoV2}
    {generator : Addr} {share : Nat} {rewardMsgs exitMsgs ntrnMsgs : List CosmosMsg}
    (h : PaysOut q s s' env.height key withdraw msgs pool lockup lockup' generator share t
      rewardMsgs exitMsgs ntrnMsgs) (hopen : ¬ s.Left key) (hlate : s.config.closing ≤ env.time) :
    LedgerStep env s s' := by
  obtain ⟨st, hst, hcore, -⟩ := compatibleLoad_ok h.lockup_eq
  obtain ⟨hunits, htransferred, -⟩ := h.rewards.lockup
  have hunits' : lockup'.lpUnitsLocked = st.core.lpUnitsLocked := by rw [hunits, hcore]; rfl
  have htransferred' : lockup'.astroportLpTransferred = st.core.astroportLpTransferred := by
    rw [htransferred, hcore]; rfl
  have hnone : st.core.astroportLpTransferred = none := by
    by_contra hne
    exact hopen ⟨st, hst, hne⟩
  have hntrn := h.ntrn
  have hexits := h.exits
  generalize withdraw = b at hexits
  cases hexits with
  | stored =>
      exact (ledgerStep_of_lockup hst hunits' htransferred').trans (hntrn.sameBooks rfl).ledgerStep
  | closed _ hcloses =>
      have hindex : (s.user key.user).lockupPositionsIndex =
          (t.user key.user).lockupPositionsIndex := by rw [user_congr hcloses.userInfo]
      exact (hcloses.ledgerStep h.pool_eq hst hunits' hnone hlate).trans
        (hntrn.sameBooks hindex).ledgerStep

theorem not_left_of_eq {s s' : Storage} (h : s'.lockupInfo = s.lockupInfo) {key : LockupKey}
    (hopen : ¬ s.Left key) : ¬ s'.Left key := by
  rintro ⟨st, hst, hne⟩
  exact hopen ⟨st, h ▸ hst, hne⟩

theorem SameBooks.not_left {s s' : Storage} (h : SameBooks s s') {key : LockupKey}
    (hopen : ¬ s.Left key) : ¬ s'.Left key := by
  rintro ⟨st', hst', hne⟩
  obtain ⟨st, hst, hcore⟩ := h.wasStored hst'
  exact hopen ⟨st, hst, by rwa [hcore]⟩

/-- The migration of one lockup, after the windows closed. -/
theorem Migrates.ledgerStep {key : LockupKey} {w w' : World E} (h : Migrates x key w w')
    (hlate : w.storage.config.closing ≤ w.env.time) :
    w'.env = w.env ∧ LedgerStep w.env w.storage w'.storage := by
  cases h with
  | skipped st hst hclosed hsame =>
      obtain rfl := hsame
      exact ⟨rfl, .refl _⟩
  | migrated st w₁ w₂ rewardMsgs pool lockup generator share accrued rewardToken proxy ntrnMsgs
      pool' lockup' pair last hst hopen hcollects hpays hexits =>
      obtain ⟨henv₁, hlockups, -, hconfig, -⟩ := hcollects.frame
      have hopen₀ : ¬ w.storage.Left key := by
        rintro ⟨st', hst', hne⟩
        obtain rfl := Option.some.inj (hst.symm.trans hst')
        exact hne hopen
      have hsame : SameBooks w₁.storage w₂.storage := hpays.transfersAll.ntrn.sameBooks rfl
      have hopen₂ : ¬ w₂.storage.Left key := hsame.not_left (not_left_of_eq hlockups hopen₀)
      obtain ⟨st', hst', hcore, -⟩ := compatibleLoad_ok hexits.lockup_eq
      have hnone : st'.core.astroportLpTransferred = none := by
        by_contra hne
        exact hopen₂ ⟨st', hst', hne⟩
      have hunits : lockup'.lpUnitsLocked = st'.core.lpUnitsLocked := by rw [hcore]; rfl
      have hlate₂ : w₂.storage.config.closing ≤ w₂.env.time := by
        rw [hsame.config, hconfig, hpays.env, henv₁]
        exact hlate
      have hclose := hexits.closes.ledgerStep hexits.pool_eq hst' hunits hnone hlate₂
      rw [hpays.env, henv₁] at hclose
      refine ⟨by rw [hexits.env, hpays.env, henv₁], ?_⟩
      exact (hcollects.ledgerStep.trans hsame.ledgerStep).trans hclose

/-! ### Transactions -/

/-- A transaction of an orderly run. -/
def Orderly (w : World E) : Action E → Prop
  | .execute _ (.migrateLiquidityToPCLPools _) => w.storage.config.closing ≤ w.env.time
  | .execute _ (.setTokenInfo _ _ _) => w.storage.lockupInfo = ∅
  | _ => True

/-- The pools start from scratch while no lockup is stored. -/
theorem ledgerStep_setTokenInfo {s : Storage} {env : Env} {atomToken usdcToken generator : Addr}
    (hempty : s.lockupInfo = ∅) :
    LedgerStep env s { s with
      assetPools := (s.assetPools.save .atom (.initial atomToken) env.height).save .usdc
        (.initial usdcToken) env.height
      config := { s.config with generator := some generator } } where
  tally hs := by
    have hsum : ∀ p, s.openSum p = 0 := by
      intro p
      show (s.lockupInfo.sum fun k st => if k.poolType = p then st.core.openUnits else 0) = 0
      rw [hempty, Map.sum_empty]
    refine ⟨fun p => Eq.trans ?_ (hsum p).symm, hs.total, hs.owner⟩
    show (((s.assetPools.save .atom _ _).save .usdc _ _).mayLoad p).elim 0
      PoolInfo.amountInLockups = 0
    cases p with
    | usdc =>
        rw [SnapshotMap.mayLoad_save]
        rfl
    | atom =>
        rw [SnapshotMap.mayLoad_save_ne (by decide), SnapshotMap.mayLoad_save]
        rfl
  counts hs := ⟨hs.positions, hs.room⟩
  pools := (SnapshotMap.Written.save _ _).trans (.save _ _)
  totals := .refl
  terms := ⟨rfl, rfl, rfl, rfl, rfl⟩
  left _ hleft := Or.inl hleft

/-- Messages to other contracts keep the invariant. -/
theorem Invariant.externals {n : Nat} {msgs : List CosmosMsg} {w w' : World E}
    (h : Invariant w) (hext : External msgs) (hrun : msgs.foldlM (dispatch x n) w = .ok w') :
    Invariant w' := by
  obtain ⟨ext, -, rfl⟩ := externals_ok hext hrun
  exact h.step rfl (.refl _)

theorem Invariant.execute {w w' : World E} {info : MessageInfo} {msg : ExecuteMsg}
    (h : Invariant w) (horderly : Orderly w (.execute info msg))
    (hexec : w.execute x info msg = .ok w') : Invariant w' := by
  obtain ⟨r, hr, hrun, hsender⟩ := execute_ok hexec
  obtain ⟨-, heffect⟩ := execute_effect hsender hr
  -- the handler itself; what is left are its messages
  have hresponds : LedgerStep w.env w.storage r.storage → Invariant (w.respond r) :=
    fun hstep => h.step rfl hstep
  cases heffect with
  | increase key amount pool weight lockup userInfo hmsgs hinc =>
      have hopen : ¬ w.storage.Left key := by
        intro hleft
        have hlate := h.left key hleft
        have hearly := hinc.early
        unfold Config.closing at hlate
        omega
      exact (hresponds (hinc.ledgerStep hopen)).externals (.of_nil hmsgs) hrun
  | withdraw key amount pool weight st lockup hmsgs hwith =>
      have hopen : ¬ w.storage.Left key := by
        intro hleft
        have hlate := h.left key hleft
        have hearly := hwith.early
        omega
      exact (hresponds (hwith.ledgerStep hopen)).externals (.of_nil hmsgs) hrun
  | initPool poolType incentivesShare sender amount pool hauction hinit =>
      exact (hresponds hinit.ledgerStep).externals hinit.external hrun
  | setTokenInfo atomToken usdcToken generator hmsgs hstorage =>
      have hstep : LedgerStep w.env w.storage r.storage := by
        rw [hstorage]
        exact ledgerStep_setTokenInfo horderly
      exact (hresponds hstep).externals (.of_nil hmsgs) hrun
  | reconfigure msg hmsg hmsgs hsame =>
      exact (hresponds hsame.ledgerStep).externals (.of_nil hmsgs) hrun
  | claim poolType duration withdraw userInfo total t st collect hclaim =>
      obtain ⟨w₁, msgs, pool, lockup, lockup', generator, share, t', rewardMsgs, exitMsgs,
        ntrnMsgs, hcollects, hpays⟩ := execute_claim_ok hclaim hrun
      have hsame := hclaim.sameBooks
      obtain ⟨henv, hlockups, -, hconfig, -⟩ := hcollects.frame
      have hopen : ¬ w₁.storage.Left ⟨poolType, info.sender, duration⟩ := by
        refine not_left_of_eq hlockups ?_
        rintro ⟨st', hst', hne⟩
        obtain rfl := Option.some.inj (hclaim.lockup_eq.symm.trans hst')
        exact hne hclaim.lockup_open
      have hlate : w₁.storage.config.closing ≤ w₁.env.time := by
        rw [hconfig, henv]
        change r.storage.config.closing ≤ w.env.time
        rw [hsame.config]
        exact hclaim.late
      have hcollected : Invariant w₁ :=
        (hresponds hsame.ledgerStep).step henv hcollects.ledgerStep
      exact hcollected.step hpays.env (hpays.paysOut.ledgerStep hopen hlate)
  | migrate raw hsame hmsgs =>
      have hstart : Invariant (w.respond r) ∧
          (w.respond r).storage.config.closing ≤ (w.respond r).env.time := by
        refine ⟨hresponds hsame.ledgerStep, ?_⟩
        change r.storage.config.closing ≤ w.env.time
        rw [hsame.config]
        exact horderly
      refine (foldlM_invariant (fun v : World E => Invariant v ∧
        v.storage.config.closing ≤ v.env.time) hstart ?_ hrun).1
      rintro v v' m hm ⟨hv, hlate⟩ hstep
      obtain ⟨key, rfl⟩ := hmsgs m hm
      obtain ⟨henv, hledger⟩ := (migrates_ok hstep).ledgerStep hlate
      refine ⟨hv.step henv hledger, ?_⟩
      rw [henv, hledger.terms.closing]
      exact hlate

theorem Invariant.exec {w w' : World E} {a : Action E} (h : Invariant w)
    (horderly : Orderly w a) (hexec : World.exec x w a = .ok w') : Invariant w' := by
  cases a with
  | advance seconds blocks =>
      obtain rfl := Except.ok.inj hexec
      exact ⟨h.recorded.later (Nat.le_add_right _ _), h.counts,
        fun key hleft => (h.left key hleft).trans (Nat.le_add_right _ _)⟩
  | drift ext =>
      obtain rfl := Except.ok.inj hexec
      exact h.step rfl (.refl _)
  | migrate pclLockdropContract =>
      obtain rfl := Except.ok.inj hexec
      refine h.step rfl (Reconfigures.ledgerStep ?_)
      exact ⟨.refl _, rfl, rfl, rfl, rfl, rfl⟩
  | execute info msg => exact h.execute horderly hexec

/-- A contract that was just instantiated. -/
theorem Invariant.init {env : Env} {info : MessageInfo} {msg : InstantiateMsg} {w : World E}
    (h : instantiate env info msg = .ok w.storage) : Invariant w := by
  have hstorage := instantiate_ok h
  have hpools : w.storage.assetPools = SnapshotMap.empty := by rw [hstorage]; rfl
  have htotals : w.storage.totalUserLockupAmount = SnapshotMap.empty := by rw [hstorage]; rfl
  have hlockups : w.storage.lockupInfo = ∅ := by rw [hstorage]; rfl
  have husers : w.storage.userInfo = ∅ := by rw [hstorage]; rfl
  have hindex : ∀ u, (w.storage.user u).lockupPositionsIndex = 0 := fun u => by
    rw [Storage.user, husers]
    rfl
  have hamount : ∀ p, w.storage.amountIn p = 0 := fun p =>
    congrArg (fun m => (m.mayLoad p).elim 0 PoolInfo.amountInLockups) hpools
  refine ⟨⟨.of_empty hlockups htotals hamount, ?_, ?_, fun p height U _ => ?_⟩, ⟨?_, ?_⟩, ?_⟩
  · show w.storage.assetPools.BoundedBy _
    rw [hpools]
    exact SnapshotMap.boundedBy_empty _
  · show w.storage.totalUserLockupAmount.BoundedBy _
    rw [htotals]
    exact SnapshotMap.boundedBy_empty _
  · show ∑ u ∈ U, (w.storage.totalUserLockupAmount.mayLoadAtHeight (p, u) height).getD 0 =
      (w.storage.assetPools.mayLoadAtHeight p height).elim 0 _
    rw [htotals, hpools]
    exact Finset.sum_eq_zero fun _ _ => rfl
  · intro u
    rw [hindex, Storage.positions, hlockups, Map.sum_empty]
  · intro u
    rw [hindex]
    exact Nat.zero_le _
  · rintro key ⟨st, hst, -⟩
    rw [hlockups, Map.mayLoad_empty] at hst
    cases hst

/-- The books agree, now and about every past block, in every state of an orderly run. -/
theorem consistent_of_orderly {env : Env} {info : MessageInfo} {msg : InstantiateMsg}
    {w : World E} {as : List (Action E)} (hinit : instantiate env info msg = .ok w.storage)
    (h : Along (World.exec x) Orderly w as) : Consistent (run (World.exec x) w as).storage :=
  (run_invariant_along Invariant (fun _ _ _ => Invariant.exec) (Invariant.init hinit) h).consistent

/-! ### An orderly run and an early migration -/

/-- The token info is set and the auction locks 10 units for Alice. -/
def sampleLock : List (Action SampleExt) :=
  [.execute ⟨"owner", []⟩ (.setTokenInfo "atom_lp" "usdc_lp" "generator"),
    .advance 150 10,
    .execute ⟨"auction", []⟩ (.increaseLockupFor "alice" .atom 10 1)]

/-- The LP tokens of the pool are staked and Alice's liquidity is migrated. -/
def sampleMigration : List (Action SampleExt) :=
  [.execute ⟨"atom_lp", []⟩ (.receive ⟨"auction", 10, some (.initializePool .atom 100)⟩),
    .migrate "pcl_lockdrop",
    .execute ⟨"alice", []⟩ (.migrateLiquidityToPCLPools none)]

/-- A run that migrates after the windows closed. -/
theorem consistent_of_orderly_sample :
    Consistent (run (World.exec sampleExternals) sampleStart
      (sampleLock ++ [.advance 100 10] ++ sampleMigration)).storage :=
  consistent_of_orderly (show instantiate ⟨0, 1, "lockdrop"⟩ ⟨"owner", []⟩
    sampleInstantiateMsg = .ok sampleStart.storage from rfl) (by
      refine ⟨rfl, trivial, trivial, trivial, trivial, trivial, ?_, trivial⟩
      unfold Orderly
      decide)

/-- A migration while the lock window is open closes the lockup, and the auction can lock
more units on it: the pool counts them although no open lockup has them. -/
theorem early_migration_inconsistent :
    instantiate ⟨0, 1, "lockdrop"⟩ ⟨"owner", []⟩ sampleInstantiateMsg = .ok sampleStart.storage ∧
      ∃ w, run (World.exec sampleExternals) sampleStart (sampleLock ++ sampleMigration ++
          [.execute ⟨"auction", []⟩ (.increaseLockupFor "alice" .atom 5 1)]) = w ∧
        w.storage.amountIn .atom = 5 ∧ w.storage.openSum .atom = 0 ∧ ¬ Consistent w.storage := by
  refine ⟨rfl, _, rfl, ?_⟩
  have hamount : (run (World.exec sampleExternals) sampleStart (sampleLock ++ sampleMigration ++
      [.execute ⟨"auction", []⟩ (.increaseLockupFor "alice" .atom 5 1)])).storage.amountIn .atom
        = 5 := by decide
  have hsum : (run (World.exec sampleExternals) sampleStart (sampleLock ++ sampleMigration ++
      [.execute ⟨"auction", []⟩ (.increaseLockupFor "alice" .atom 5 1)])).storage.openSum .atom
        = 0 := by decide
  refine ⟨hamount, hsum, fun h => ?_⟩
  exact absurd (hamount.symm.trans ((h.ledger.amount .atom).trans hsum)) (by decide)

end NeutronTge.Lockdrop
