import NeutronTge.Lockdrop.Effects

/-!
# NeutronTge.Lockdrop.Transactions

The transactions with callbacks, taken apart. A claim collects the pool's rewards, pays
the lockup and perhaps closes it; a migration does the same for one lockup after the
other, in four nested callbacks. Each part is a relation between two worlds that says
which handler effects and which messages lie between them.
-/

namespace NeutronTge.Lockdrop

open CosmWasm Astroport

variable {E : Type} {x : Externals E}

/-! ### Collecting the rewards of a pool -/

/-- A pool's rewards are collected: nothing is pending, or the generator sends them and
they are booked. -/
inductive Collects (x : Externals E) (poolType : PoolType) (w : World E) : World E → Prop
  | nothing : Collects x poolType w w
  | booked (generator lpToken : Addr) (ext : E) (s : Storage) (pool : PoolInfo)
      (generator' : Addr) (deposit received : Nat)
      (proxyPerShare : RestrictedVector AssetInfo Decimal)
      (hclaim : x.exec w.ext (.claimRewards generator [lpToken]) = .ok ext)
      (hbooks : Books (x.querier ext) w.storage s w.env poolType pool generator' deposit
        received proxyPerShare) :
      Collects x poolType w
        { w with
          storage := s
          ext := ext
          trace := w.trace ++ [.sent (.claimRewards generator [lpToken]),
            .ntrnRewardReceived poolType received] }

/-- The callback that books rewards, as a message. -/
theorem dispatch_books {n : Nat} {w w' : World E} {poolType : PoolType} {prev : Nat}
    {prevProxy : List Asset}
    (h : dispatch x n w (.callback (.updatePoolOnDualRewardsClaim poolType prev prevProxy)) =
      .ok w') :
    ∃ s pool generator deposit received proxyPerShare,
      Books (x.querier w.ext) w.storage s w.env poolType pool generator deposit received
        proxyPerShare ∧
      w' = { w with
        storage := s, trace := w.trace ++ [.ntrnRewardReceived poolType received] } := by
  obtain ⟨m, r, hr, hmsgs⟩ := dispatch_callback h
  obtain ⟨hnil, pool, generator, deposit, received, proxyPerShare, hevent, hbooks⟩ :=
    updatePoolOnDualRewardsClaim_ok hr
  rw [hnil] at hmsgs
  obtain rfl := Except.ok.inj hmsgs
  refine ⟨r.storage, pool, generator, deposit, received, proxyPerShare, hbooks, ?_⟩
  simp only [World.respond, Response.events, hevent]

theorem collects_ok {n : Nat} {w w' : World E} {poolType : PoolType} {msgs : List CosmosMsg}
    (hmsgs : msgs = [] ∨ ∃ generator lpToken prev prevProxy,
      msgs = [.claimRewards generator [lpToken],
        .callback (.updatePoolOnDualRewardsClaim poolType prev prevProxy)])
    (h : msgs.foldlM (dispatch x n) w = .ok w') : Collects x poolType w w' := by
  rcases hmsgs with rfl | ⟨generator, lpToken, prev, prevProxy, rfl⟩
  · obtain rfl := Except.ok.inj h
    exact Collects.nothing
  · obtain ⟨t, ht, hbook⟩ := foldlM_cons_ok.mp h
    obtain ⟨ext, hclaim, rfl⟩ := dispatch_external (fun _ => CosmosMsg.noConfusion) ht
    obtain ⟨s, pool, generator', deposit, received, proxyPerShare, hbooks, rfl⟩ :=
      dispatch_books (foldlM_singleton_ok.mp hbook)
    have hcollects := Collects.booked generator lpToken ext s pool generator' deposit received
      proxyPerShare hclaim hbooks
    simpa using hcollects

/-- Collecting keeps the block, the lockups and the users. -/
theorem Collects.frame {poolType : PoolType} {w w' : World E} (h : Collects x poolType w w') :
    w'.env = w.env ∧ w'.storage.lockupInfo = w.storage.lockupInfo ∧
      w'.storage.userInfo = w.storage.userInfo ∧ w'.storage.config = w.storage.config ∧
      w'.storage.totalUserLockupAmount = w.storage.totalUserLockupAmount := by
  cases h with
  | nothing => exact ⟨rfl, rfl, rfl, rfl, rfl⟩
  | booked _ _ _ _ _ _ _ _ _ _ hbooks =>
      obtain rfl := hbooks.storage
      exact ⟨rfl, rfl, rfl, rfl, rfl⟩

/-! ### The callback of a claim -/

/-- The reward callback of a claim together with the messages it sends. -/
structure Pays (x : Externals E) (w w' : World E) (key : LockupKey) (withdraw : Bool)
    (msgs : List CosmosMsg) (pool : PoolInfo) (lockup lockup' : LockupInfoV2)
    (generator : Addr) (share : Nat) (t : Storage)
    (rewardMsgs exitMsgs ntrnMsgs : List CosmosMsg) : Prop where
  paysOut : PaysOut (x.querier w.ext) w.storage w'.storage w.env.height key withdraw msgs pool
    lockup lockup' generator share t rewardMsgs exitMsgs ntrnMsgs
  exec : msgs.foldlM x.exec w.ext = .ok w'.ext
  env : w'.env = w.env
  trace : w'.trace = w.trace ++ msgs.map Event.sent

theorem pays_ok {n : Nat} {w w' : World E} (key : LockupKey) {withdraw : Bool}
    (h : dispatch x n w (.callback (.withdrawUserLockupRewardsCallback key.poolType key.user
      key.duration withdraw)) = .ok w') :
    ∃ msgs pool lockup lockup' generator share t rewardMsgs exitMsgs ntrnMsgs,
      Pays x w w' key withdraw msgs pool lockup lockup' generator share t rewardMsgs exitMsgs
        ntrnMsgs := by
  obtain ⟨m, r, hr, hrun⟩ := dispatch_callback h
  obtain ⟨hevent, pool, lockup, lockup', generator, share, t, rewardMsgs, exitMsgs, ntrnMsgs,
    hpays⟩ := callbackWithdrawUserRewards_ok hr
  obtain ⟨ext, hexec, rfl⟩ := externals_ok hpays.external hrun
  refine ⟨r.messages, pool, lockup, lockup', generator, share, t, rewardMsgs, exitMsgs,
    ntrnMsgs, hpays, hexec, rfl, ?_⟩
  simp only [World.respond, Response.events, hevent, List.append_nil]

/-! ### The migration of one lockup -/

/-- The reward callback of a migration together with the messages it sends before the
next callback. -/
structure MigrationPays (x : Externals E) (w w' : World E) (key : LockupKey)
    (rewardMsgs : List CosmosMsg) (pool : PoolInfo) (lockup : LockupInfoV2) (generator : Addr)
    (share accrued : Nat) (rewardToken : String) (proxy : List Asset)
    (ntrnMsgs : List CosmosMsg) : Prop where
  transfersAll : TransfersAll (x.querier w.ext) w.storage w'.storage key rewardMsgs pool lockup
    generator share accrued rewardToken proxy ntrnMsgs
  exec : rewardMsgs.foldlM x.exec w.ext = .ok w'.ext
  env : w'.env = w.env
  trace : w'.trace = w.trace ++ rewardMsgs.map Event.sent

/-- The exit callback of a migration together with everything that follows it. -/
structure MigrationExits (x : Externals E) (w w' : World E) (key : LockupKey)
    (generator lpToken : Addr) (share : Nat) (pool : PoolInfo) (lockup : LockupInfoV2)
    (pair : Addr) (last : CosmosMsg) : Prop where
  pool_eq : w.storage.assetPools.mayLoad key.poolType = some pool
  lockup_eq : compatibleLoad (x.querier w.ext) w.storage key = .ok lockup
  closes : Closes w.storage w'.storage w.env.height key pool lockup share
  pair_eq : (x.querier w.ext).minter lpToken = .ok pair
  last_eq : ∃ pclLockdrop funds stake, w.storage.pclLockdropContract = some pclLockdrop ∧
    last = .migrateXYKLiquidity pclLockdrop funds key.poolType key.user key.duration
      (w.storage.user key.user) { lockup with astroportLpTransferred := some share } stake
  exec : [.generatorWithdraw generator lpToken share, .withdrawLiquidity lpToken pair share,
    last].foldlM x.exec w.ext = .ok w'.ext
  env : w'.env = w.env
  trace : w'.trace = w.trace ++ [.sent (.generatorWithdraw generator lpToken share),
    .sent (.withdrawLiquidity lpToken pair share), .sent last]

/-- The migration of one lockup: it left before, or its rewards are collected and paid, it
is closed and its liquidity goes to the PCL lockdrop. -/
inductive Migrates (x : Externals E) (key : LockupKey) (w w' : World E) : Prop
  | skipped (st : StoredLockup) (hst : w.storage.lockupInfo.mayLoad key = some st)
      (hclosed : st.core.astroportLpTransferred ≠ none) (hsame : w' = w)
  | migrated (st : StoredLockup) (w₁ w₂ : World E) (rewardMsgs : List CosmosMsg)
      (pool : PoolInfo) (lockup : LockupInfoV2) (generator : Addr) (share accrued : Nat)
      (rewardToken : String) (proxy : List Asset) (ntrnMsgs : List CosmosMsg)
      (pool' : PoolInfo) (lockup' : LockupInfoV2) (pair : Addr) (last : CosmosMsg)
      (hst : w.storage.lockupInfo.mayLoad key = some st)
      (hopen : st.core.astroportLpTransferred = none)
      (hcollects : Collects x key.poolType w w₁)
      (hpays : MigrationPays x w₁ w₂ key rewardMsgs pool lockup generator share accrued
        rewardToken proxy ntrnMsgs)
      (hexits : MigrationExits x w₂ w' key generator pool.lpToken share pool' lockup' pair last)

theorem migrationExits_ok {n : Nat} {w w' : World E} {key : LockupKey}
    {generator lpToken : Addr} {share : Nat}
    (h : dispatch x n w (.callback (.withdrawUserLockupCallback key.poolType key.user
      key.duration generator lpToken share)) = .ok w') :
    ∃ pool lockup pair last,
      MigrationExits x w w' key generator lpToken share pool lockup pair last := by
  obtain ⟨m, r, hr, hrun⟩ := dispatch_callback h
  obtain ⟨hevent, pool, lockup, hpool, hlockup, hcloses, pair, ntrnBalance, denom, balance,
    hpair, hmsgs⟩ := callbackWithdrawUserLockup_ok hr
  rw [hmsgs] at hrun
  obtain ⟨w₁, h₁, hrun⟩ := foldlM_cons_ok.mp hrun
  obtain ⟨e₁, he₁, rfl⟩ := dispatch_external (fun _ => CosmosMsg.noConfusion) h₁
  obtain ⟨w₂, h₂, hrun⟩ := foldlM_cons_ok.mp hrun
  obtain ⟨e₂, he₂, rfl⟩ := dispatch_external (fun _ => CosmosMsg.noConfusion) h₂
  obtain ⟨m', r', hr', hrun'⟩ := dispatch_callback (foldlM_singleton_ok.mp hrun)
  obtain ⟨hstorage, hevent', pclLockdrop, funds, lockup', stake, hpcl, hload, hmsgs'⟩ :=
    callbackMigrateUserLockupToPclPair_ok hr'
  rw [hmsgs'] at hrun'
  obtain ⟨e₃, he₃, rfl⟩ := dispatch_external (fun _ => CosmosMsg.noConfusion)
    (foldlM_singleton_ok.mp hrun')
  -- the lockup was just closed, and it is read again
  have hloaded : lockup' = { lockup with astroportLpTransferred := some share } :=
    compatibleLoad_v2 (by rw [show (w.respond r).storage = r.storage from rfl,
      hcloses.lockupInfo, Map.mayLoad_save]) hload
  have huser : r.storage.user key.user = w.storage.user key.user :=
    user_congr hcloses.userInfo key.user
  refine ⟨pool, lockup, pair, .migrateXYKLiquidity pclLockdrop funds key.poolType key.user
    key.duration (r.storage.user key.user) lockup' stake, hpool, hlockup, ?_, hpair,
    ⟨pclLockdrop, funds, stake, ?_, ?_⟩, ?_, rfl, ?_⟩
  · simpa only [World.respond, hstorage] using hcloses
  · rw [← hcloses.pclLockdropContract]
    exact hpcl
  · rw [hloaded, huser]
  · exact foldlM_cons_ok.mpr ⟨e₁, he₁, foldlM_cons_ok.mpr ⟨e₂, he₂, foldlM_singleton_ok.mpr he₃⟩⟩
  · simp [World.respond, Response.events, hevent, hevent']

theorem migrationPays_ok {n : Nat} {w w' : World E} {key : LockupKey}
    (h : dispatch x n w (.callback (.transferAllRewardsBeforeMigrationCallback key.poolType
      key.user key.duration)) = .ok w') :
    ∃ w₁ rewardMsgs pool lockup generator share accrued rewardToken proxy ntrnMsgs pool' lockup'
      pair last,
      MigrationPays x w w₁ key rewardMsgs pool lockup generator share accrued rewardToken proxy
        ntrnMsgs ∧
      MigrationExits x w₁ w' key generator pool.lpToken share pool' lockup' pair last := by
  obtain ⟨m, r, hr, hrun⟩ := dispatch_callback h
  obtain ⟨hevent, rewardMsgs, pool, lockup, generator, share, accrued, rewardToken, proxy,
    ntrnMsgs, htransfers, hmsgs⟩ := callbackTransferAllRewardsBeforeMigration_ok hr
  rw [hmsgs] at hrun
  obtain ⟨w₁, hrewards, hexit⟩ := foldlM_append_ok.mp hrun
  obtain ⟨ext, hexec, rfl⟩ := externals_ok htransfers.external hrewards
  obtain ⟨pool', lockup', pair, last, hexits⟩ := migrationExits_ok (foldlM_singleton_ok.mp hexit)
  have hpays : MigrationPays x w
      { w.respond r with
        ext := ext, trace := (w.respond r).trace ++ rewardMsgs.map Event.sent }
      key rewardMsgs pool lockup generator share accrued rewardToken proxy ntrnMsgs := by
    refine ⟨htransfers, hexec, rfl, ?_⟩
    simp only [World.respond, Response.events, hevent, List.append_nil]
  exact ⟨_, rewardMsgs, pool, lockup, generator, share, accrued, rewardToken, proxy, ntrnMsgs,
    pool', lockup', pair, last, hpays, hexits⟩

theorem migrates_ok {n : Nat} {w w' : World E} {key : LockupKey}
    (h : dispatch x n w (.callback (.initMigrateLockupToPCLPoolsCallback key.poolType key.user
      key.duration)) = .ok w') : Migrates x key w w' := by
  obtain ⟨m, r, hr, hrun⟩ := dispatch_callback h
  obtain ⟨hstorage, hevent, hstarts⟩ := callbackInitMigrateLockupToPclPools_ok hr
  have hrespond : w.respond r = w := by
    simp only [World.respond, Response.events, hevent, hstorage, List.append_nil]
  rw [hrespond] at hrun
  generalize r.messages = msgs at hrun hstarts
  cases hstarts with
  | skipped st hst hclosed => exact Migrates.skipped st hst hclosed (Except.ok.inj hrun).symm
  | started st collect hst hopen hcollect =>
      obtain ⟨w₁, hcollects, hrest⟩ := foldlM_append_ok.mp hrun
      obtain ⟨w₂, rewardMsgs, pool, lockup, generator, share, accrued, rewardToken, proxy,
        ntrnMsgs, pool', lockup', pair, last, hpays, hexits⟩ :=
        migrationPays_ok (foldlM_singleton_ok.mp hrest)
      exact Migrates.migrated st w₁ w₂ rewardMsgs pool lockup generator share accrued
        rewardToken proxy ntrnMsgs pool' lockup' pair last hst hopen
        (collects_ok hcollect hcollects) hpays hexits

/-! ### Messages that move LP tokens -/

/-- Whether a message moves LP tokens or liquidity away from the lockdrop. -/
def CosmosMsg.movesLp : CosmosMsg → Bool
  | .sendDeposit .. => true
  | .lpTransfer .. => true
  | .withdrawLiquidity .. => true
  | .migrateXYKLiquidity .. => true
  | _ => false

/-- An event that is no message which moves LP tokens, or such a message that meets `P`. -/
def Event.Moves (P : CosmosMsg → Prop) : Event → Prop
  | .sent msg => msg.movesLp = true → P msg
  | .ntrnRewardReceived _ _ => True

section Moves

variable {P Q : CosmosMsg → Prop} {msgs : List CosmosMsg} {w w' : World E} {key : LockupKey}

theorem Event.Moves.mono {e : Event} (h : e.Moves P) (hPQ : ∀ m, P m → Q m) : e.Moves Q := by
  cases e with
  | sent m => exact fun hm => hPQ m (h hm)
  | ntrnRewardReceived => trivial

theorem appends_sent (hmsgs : ∀ m ∈ msgs, m.movesLp = true → P m) (t : List Event) :
    Appends (Event.Moves P) t (t ++ msgs.map Event.sent) := by
  refine ⟨msgs.map Event.sent, rfl, ?_⟩
  intro e he
  obtain ⟨m, hm, rfl⟩ := List.mem_map.mp he
  exact hmsgs m hm

theorem Collects.moves {poolType : PoolType} (h : Collects x poolType w w') :
    Appends (Event.Moves P) w.trace w'.trace := by
  cases h with
  | nothing => exact .refl _
  | booked =>
      refine ⟨_, rfl, ?_⟩
      intro e he
      simp only [List.mem_cons, List.not_mem_nil, or_false] at he
      rcases he with rfl | rfl
      · exact nofun
      · trivial

/-- A claim moves LP tokens only when the owner unlocks. -/
theorem Pays.moves {withdraw : Bool} {pool : PoolInfo} {lockup lockup' : LockupInfoV2}
    {generator : Addr} {share : Nat} {t : Storage} {rewardMsgs exitMsgs ntrnMsgs : List CosmosMsg}
    (h : Pays x w w' key withdraw msgs pool lockup lockup' generator share t rewardMsgs exitMsgs
      ntrnMsgs)
    (hP : withdraw = true → P (.lpTransfer pool.lpToken key.user share)) :
    Appends (Event.Moves P) w.trace w'.trace := by
  rw [h.trace]
  refine appends_sent (fun m hm => ?_) w.trace
  rcases h.paysOut.mem hm with ⟨coin, rfl⟩ | ⟨transfer, rfl⟩ | ⟨-, rfl⟩ | ⟨hwithdraw, rfl⟩ |
    ⟨coin, rfl⟩ | ⟨credits, amount, rfl⟩
  · exact nofun
  · exact nofun
  · exact nofun
  · exact fun _ => hP hwithdraw
  · exact nofun
  · exact nofun

theorem MigrationPays.moves {rewardMsgs : List CosmosMsg} {pool : PoolInfo}
    {lockup : LockupInfoV2} {generator : Addr} {share accrued : Nat} {rewardToken : String}
    {proxy : List Asset} {ntrnMsgs : List CosmosMsg}
    (h : MigrationPays x w w' key rewardMsgs pool lockup generator share accrued rewardToken proxy
      ntrnMsgs) : Appends (Event.Moves P) w.trace w'.trace := by
  rw [h.trace]
  refine appends_sent (fun m hm => ?_) w.trace
  rcases h.transfersAll.mem hm with ⟨coin, rfl⟩ | ⟨transfer, rfl⟩ | ⟨coin, rfl⟩ |
    ⟨credits, amount, rfl⟩ <;> exact nofun

/-- A lockup that migrates is burned at the pool and handed over. -/
theorem MigrationExits.moves {generator lpToken : Addr} {share : Nat} {pool : PoolInfo}
    {lockup : LockupInfoV2} {pair : Addr} {last : CosmosMsg}
    (h : MigrationExits x w w' key generator lpToken share pool lockup pair last)
    (hburn : P (.withdrawLiquidity lpToken pair share)) (hlast : P last) :
    Appends (Event.Moves P) w.trace w'.trace := by
  rw [h.trace]
  refine ⟨_, rfl, ?_⟩
  intro e he
  simp only [List.mem_cons, List.not_mem_nil, or_false] at he
  rcases he with rfl | rfl | rfl
  · exact nofun
  · exact fun _ => hburn
  · exact fun _ => hlast

end Moves

/-! ### Whole transactions -/

/-- A claim: its handler, the collection of the pool's rewards, the reward callback. -/
theorem execute_claim_ok {w w' : World E} {info : MessageInfo} {poolType : PoolType}
    {duration : Nat} {withdraw : Bool} {r : Response} {userInfo : UserInfo} {total : Nat}
    {t : Storage} {st : StoredLockup} {collect : List CosmosMsg}
    (hclaim : StartsClaim (x.querier w.ext) w.storage r.storage w.env
      ⟨poolType, info.sender, duration⟩ withdraw r.messages userInfo total t st collect)
    (h : r.messages.foldlM (dispatch x callDepth) (w.respond r) = .ok w') :
    ∃ w₁ msgs pool lockup lockup' generator share t' rewardMsgs exitMsgs ntrnMsgs,
      Collects x poolType (w.respond r) w₁ ∧
      Pays x w₁ w' ⟨poolType, info.sender, duration⟩ withdraw msgs pool lockup lockup'
        generator share t' rewardMsgs exitMsgs ntrnMsgs := by
  rw [hclaim.messages] at h
  obtain ⟨w₁, hcollect, hpay⟩ := foldlM_append_ok.mp h
  obtain ⟨msgs, pool, lockup, lockup', generator, share, t', rewardMsgs, exitMsgs, ntrnMsgs,
    hpays⟩ := pays_ok ⟨poolType, info.sender, duration⟩ (foldlM_singleton_ok.mp hpay)
  exact ⟨w₁, msgs, pool, lockup, lockup', generator, share, t', rewardMsgs, exitMsgs, ntrnMsgs,
    collects_ok hclaim.collect_eq hcollect, hpays⟩

/-! ### What the other contracts see -/

/-- The other contracts change message by message. -/
theorem World.execute_ext {P : E → Prop}
    (hexec : ∀ e e' m, P e → x.exec e m = .ok e' → P e') {w w' : World E} {info : MessageInfo}
    {msg : ExecuteMsg} (hw : P w.ext) (h : w.execute x info msg = .ok w') : P w'.ext := by
  obtain ⟨r, -, hrun, -⟩ := execute_ok h
  have hstart : P (w.respond r).ext := hw
  refine Calls.invariant_all (P := fun v : World E => P v.ext) (Q := fun _ => True) ?_ ?_ hstart
    (fun _ _ => trivial) hrun
  · exact fun v m ext hv _ hext => hexec v.ext ext m hv hext
  · exact fun v c r hv _ => ⟨hv, fun _ _ => trivial⟩

/-! ### What no transaction changes -/

/-- Two worlds within a transaction: the block, the terms and the PCL lockdrop are the
same. -/
structure Within (w w' : World E) : Prop where
  env : w'.env = w.env
  terms : w.storage.config.SameTerms w'.storage.config
  pclLockdropContract : w'.storage.pclLockdropContract = w.storage.pclLockdropContract

namespace Within

theorem refl (w : World E) : Within w w := ⟨rfl, .refl _, rfl⟩

theorem trans {u v w : World E} (h : Within u v) (h' : Within v w) : Within u w :=
  ⟨h'.env.trans h.env, h.terms.trans h'.terms,
    h'.pclLockdropContract.trans h.pclLockdropContract⟩

theorem of_sameBooks {w w' : World E} (henv : w'.env = w.env)
    (h : SameBooks w.storage w'.storage) : Within w w' :=
  ⟨henv, .of_eq h.config, h.pclLockdropContract⟩

end Within

section WithinParts

variable {w w' : World E} {key : LockupKey}

theorem Collects.within {poolType : PoolType} (h : Collects x poolType w w') : Within w w' := by
  cases h with
  | nothing => exact .refl w
  | booked _ _ _ _ _ _ _ _ _ _ hbooks =>
      obtain rfl := hbooks.storage
      exact ⟨rfl, .refl _, rfl⟩

theorem Pays.within {withdraw : Bool} {msgs : List CosmosMsg} {pool : PoolInfo}
    {lockup lockup' : LockupInfoV2} {generator : Addr} {share : Nat} {t : Storage}
    {rewardMsgs exitMsgs ntrnMsgs : List CosmosMsg}
    (h : Pays x w w' key withdraw msgs pool lockup lockup' generator share t rewardMsgs exitMsgs
      ntrnMsgs) : Within w w' := by
  have hexits : t.config = w.storage.config ∧
      t.pclLockdropContract = w.storage.pclLockdropContract := by
    have hexits := h.paysOut.exits
    generalize withdraw = b at hexits
    cases hexits with
    | stored => exact ⟨rfl, rfl⟩
    | closed _ hcloses => exact ⟨hcloses.config, hcloses.pclLockdropContract⟩
  have hntrn : w'.storage.config = t.config ∧
      w'.storage.pclLockdropContract = t.pclLockdropContract := by
    have hntrn := h.paysOut.ntrn
    generalize w'.storage = s' at hntrn
    cases hntrn <;> exact ⟨rfl, rfl⟩
  exact ⟨h.env, .of_eq (hntrn.1.trans hexits.1), hntrn.2.trans hexits.2⟩

theorem Migrates.within (h : Migrates x key w w') : Within w w' := by
  cases h with
  | skipped st hst hclosed hsame =>
      obtain rfl := hsame
      exact .refl _
  | migrated st w₁ w₂ rewardMsgs pool lockup generator share accrued rewardToken proxy ntrnMsgs
      pool' lockup' pair last hst hopen hcollects hpays hexits =>
      have hpaid : Within w₁ w₂ :=
        .of_sameBooks hpays.env (hpays.transfersAll.ntrn.sameBooks rfl)
      exact hcollects.within.trans (hpaid.trans ⟨hexits.env, .of_eq hexits.closes.config,
        hexits.closes.pclLockdropContract⟩)

end WithinParts

theorem World.execute_within {w w' : World E} {info : MessageInfo} {msg : ExecuteMsg}
    (h : w.execute x info msg = .ok w') : Within w w' := by
  obtain ⟨r, hr, hrun, hsender⟩ := execute_ok h
  obtain ⟨-, heffect⟩ := execute_effect hsender hr
  have hmessages : External r.messages → w.storage.config.SameTerms r.storage.config →
      r.storage.pclLockdropContract = w.storage.pclLockdropContract → Within w w' := by
    intro hext hterms hpcl
    obtain ⟨ext, -, rfl⟩ := externals_ok hext hrun
    exact ⟨rfl, hterms, hpcl⟩
  cases heffect with
  | increase key amount pool weight lockup userInfo hmsgs hinc =>
      exact hmessages (.of_nil hmsgs) (.of_eq hinc.config) hinc.pclLockdropContract
  | withdraw key amount pool weight st lockup hmsgs hwith =>
      exact hmessages (.of_nil hmsgs) (.of_eq hwith.config) hwith.pclLockdropContract
  | initPool poolType incentivesShare sender amount pool hauction hinit =>
      refine hmessages hinit.external ?_ ?_ <;> rw [hinit.storage]
      exact .refl _
  | setTokenInfo atomToken usdcToken generator hmsgs hstorage =>
      refine hmessages (.of_nil hmsgs) ?_ ?_ <;> rw [hstorage]
      exact ⟨rfl, rfl, rfl, rfl, rfl⟩
  | reconfigure msg hmsg hmsgs hsame hpcl =>
      exact hmessages (.of_nil hmsgs) hsame.terms hpcl
  | claim poolType duration withdraw userInfo total t st collect hclaim =>
      obtain ⟨w₁, msgs, pool, lockup, lockup', generator, share, t', rewardMsgs, exitMsgs,
        ntrnMsgs, hcollects, hpays⟩ := execute_claim_ok hclaim hrun
      have hstarts : Within w (w.respond r) := .of_sameBooks rfl hclaim.sameBooks
      exact hstarts.trans (hcollects.within.trans hpays.within)
  | migrate raw hsame hmsgs =>
      have hstarts : Within w (w.respond r) := .of_sameBooks rfl hsame
      refine hstarts.trans ?_
      refine foldlM_relation (R := Within) Within.refl (fun _ _ _ => Within.trans) ?_ hrun
      intro v v' m hm hstep
      obtain ⟨key, rfl⟩ := hmsgs m hm
      exact (migrates_ok hstep).within

/-- A later world of the same lockdrop: time went on and the terms are the same. -/
structure Onward (w w' : World E) : Prop where
  terms : w.storage.config.SameTerms w'.storage.config
  time : w.env.time ≤ w'.env.time

/-- Time goes on, and the terms stay. -/
theorem World.exec_onward {w w' : World E} {a : Action E} (h : World.exec x w a = .ok w') :
    Onward w w' := by
  cases a with
  | advance seconds blocks =>
      obtain rfl := Except.ok.inj h
      exact ⟨.refl _, Nat.le_add_right _ _⟩
  | drift ext =>
      obtain rfl := Except.ok.inj h
      exact ⟨.refl _, Nat.le_refl _⟩
  | migrate pclLockdropContract =>
      obtain rfl := Except.ok.inj h
      exact ⟨.refl _, Nat.le_refl _⟩
  | execute info msg =>
      have hwithin := World.execute_within h
      exact ⟨hwithin.terms, hwithin.env ▸ Nat.le_refl _⟩

end NeutronTge.Lockdrop
