import NeutronTge.Lockdrop.OneTimeReward
import NeutronTge.Lockdrop.Queries

/-!
# NeutronTge.Lockdrop.Projection

The reports agree with the claim that a user can make in the same block. The query books the
pending base reward in memory, while a claim collects it, books what arrived and pays the
lockup's part; both come to the same amount, and so do the one-time reward and the LP tokens of
an unlock (`claim_as_reported`). For the one-time reward, a total that was stored has been paid
(`PaidUp`), so a claim pays the total that it computes, or nothing.
-/

namespace NeutronTge.Lockdrop

open CosmWasm Astroport

variable {E : Type} {x : Externals E} {q : Querier} {s s' : Storage} {w w₁ w' : World E}

/-! ### Stored totals are paid -/

/-- A user with a stored total was paid, and so was a user with a lockup that left. -/
structure PaidUp (s : Storage) : Prop where
  total : ∀ u, (s.user u).totalNtrnRewards ≠ 0 → (s.user u).ntrnTransferred = true
  left : ∀ k, s.Left k → (s.user k.user).ntrnTransferred = true

theorem Untouched.left {u : Addr} (h : Untouched u s s') {k : LockupKey} (hk : k.user = u)
    (hleft : s'.Left k) : s.Left k := by
  obtain ⟨st, hst, hne⟩ := hleft
  exact ⟨st, (h.lockups k hk).symm.trans hst, hne⟩

theorem SameBooks.left (h : SameBooks s s') {k : LockupKey} (hleft : s'.Left k) : s.Left k := by
  obtain ⟨st', hst', hne⟩ := hleft
  obtain ⟨st, hst, hcore⟩ := h.wasStored hst'
  exact ⟨st, hst, hcore ▸ hne⟩

namespace PaidUp

/-- One user is paid, and the others are not concerned. -/
theorem paid {v : Addr} (h : PaidUp s) (hflag : (s'.user v).ntrnTransferred = true)
    (hothers : ∀ u, u ≠ v → Untouched u s s') : PaidUp s' where
  total u htotal := by
    by_cases hu : u = v
    · rw [hu, hflag]
    · rw [(hothers u hu).user] at htotal ⊢
      exact h.total u htotal
  left k hleft := by
    by_cases hk : k.user = v
    · rw [hk, hflag]
    · rw [(hothers k.user hk).user]
      exact h.left k ((hothers k.user hk).left rfl hleft)

/-- No total is stored, nobody's flag is cleared, and no lockup leaves. -/
theorem frame (h : PaidUp s)
    (htotal : ∀ u, (s'.user u).totalNtrnRewards = (s.user u).totalNtrnRewards)
    (hflag : ∀ u, (s.user u).ntrnTransferred = true → (s'.user u).ntrnTransferred = true)
    (hleft : ∀ k, s'.Left k → s.Left k) : PaidUp s' where
  total u hne := hflag u (h.total u (htotal u ▸ hne))
  left k hk := hflag k.user (h.left k (hleft k hk))

theorem of_eq (h : PaidUp s) (husers : s'.userInfo = s.userInfo)
    (hlockups : s'.lockupInfo = s.lockupInfo) : PaidUp s' :=
  h.frame (fun u => by rw [user_congr husers]) (fun u => by rw [user_congr husers]; exact id)
    fun k ⟨st, hst, hne⟩ => ⟨st, hlockups ▸ hst, hne⟩

theorem increase {env : Env} {info : MessageInfo} {key : LockupKey} {amount : Nat}
    {pool : PoolInfo} {weight : Nat} {lockup : LockupInfoV2} {userInfo : UserInfo}
    (h : PaidUp s) (hinc : Increases s s' env info key amount pool weight lockup userInfo) :
    PaidUp s' := by
  refine h.frame (fun u => ?_) (fun u hu => by rw [hinc.transferred, hu]) fun k hk => ?_
  · rw [user_save hinc.userInfo_eq]
    split_ifs with hu
    · rw [hu]
      cases hinc.position <;> rfl
    · rfl
  · rcases left_save hinc.lockupInfo hk with hleft | ⟨rfl, hne⟩
    · exact hleft
    · cases hinc.position with
      | grown st _ hst hcore =>
          exact ⟨st, hst, fun hnone => hne ((congrArg LockupCore.astroportLpTransferred hcore).trans
            hnone)⟩
      | opened _ _ hcore => exact absurd (congrArg LockupCore.astroportLpTransferred hcore) hne

theorem withdraw {env : Env} {info : MessageInfo} {key : LockupKey} {amount : Nat}
    {pool : PoolInfo} {weight : Nat} {st : StoredLockup} {lockup : LockupInfoV2} (h : PaidUp s)
    (hwith : Withdraws s s' env info key amount pool weight st lockup) : PaidUp s' := by
  have hposition := hwith.position
  refine h.frame (fun u => ?_) (fun u hu => by rw [hwith.transferred, hu]) fun k hk => ?_
  · generalize s'.lockupInfo = lockups at hposition
    generalize husers : s'.userInfo = users at hposition
    cases hposition with
    | deleted =>
        rw [user_save husers]
        split_ifs with hu
        · rw [hu]
        · rfl
    | kept => rw [user_congr husers]
  · generalize hlockups : s'.lockupInfo = lockups at hposition
    generalize s'.userInfo = users at hposition
    cases hposition with
    | deleted =>
        obtain ⟨st', hst', hne⟩ := hk
        rw [hlockups, Map.mayLoad_remove_eq] at hst'
        split_ifs at hst'
        exact ⟨st', hst', hne⟩
    | kept =>
        rcases left_save hlockups hk with hleft | ⟨rfl, hne⟩
        · exact hleft
        · exact ⟨st, hwith.lockup_eq, fun hnone =>
            hne ((congrArg LockupCore.astroportLpTransferred hwith.remaining).trans hnone)⟩

end PaidUp

/-- The migration of one lockup: its user is paid, or it left before and nothing happens. -/
theorem Migrates.paid {key : LockupKey} (h : Migrates x key w w') :
    (∀ u, u ≠ key.user → Untouched u w.storage w'.storage) ∧
      ((w'.storage.user key.user).ntrnTransferred = true ∨ w' = w ∧ w.storage.Left key) := by
  cases h with
  | skipped st hst hclosed hsame =>
      obtain rfl := hsame
      exact ⟨fun u _ => .refl u _, Or.inr ⟨rfl, st, hst, hclosed⟩⟩
  | migrated st w₁ w₂ rewardMsgs pool lockup generator share accrued rewardToken proxy ntrnMsgs
      pool' lockup' pair last hst hopen hcollects hpays hexits =>
      obtain ⟨-, hlockups, husers, -, -⟩ := hcollects.frame
      have hntrn := hpays.transfersAll.ntrn
      have hcloses := hexits.closes
      refine ⟨fun u hu => ?_, Or.inl ?_⟩
      · exact (Untouched.of_eq husers hlockups).trans ((hntrn.untouched hu).trans
          (.saveLockup hu hcloses.userInfo hcloses.lockupInfo))
      · rw [user_congr hcloses.userInfo]
        exact hntrn.transferred rfl

/-- The message that migrates a lockup. -/
def migrationOf (key : LockupKey) : CosmosMsg :=
  .callback (.initMigrateLockupToPCLPoolsCallback key.poolType key.user key.duration)

/-- The migration of a user's lockups: he is paid, or all of them left before. -/
theorem migrations_paid {n : Nat} {v : Addr} : ∀ {msgs : List CosmosMsg} {w w' : World E},
    (∀ m ∈ msgs, ∃ key : LockupKey, key.user = v ∧ m = migrationOf key) →
    msgs.foldlM (dispatch x n) w = .ok w' →
      (∀ u, u ≠ v → Untouched u w.storage w'.storage) ∧
        ((w'.storage.user v).ntrnTransferred = true ∨
          w' = w ∧ ∀ key, migrationOf key ∈ msgs → w.storage.Left key) := by
  intro msgs
  induction msgs with
  | nil =>
      intro w w' _ h
      obtain rfl := Except.ok.inj h
      exact ⟨fun u _ => .refl u _, Or.inr ⟨rfl, fun key hkey => absurd hkey List.not_mem_nil⟩⟩
  | cons m ms ih =>
      intro w w' hmsgs h
      obtain ⟨w₁, hfirst, hrest⟩ := foldlM_cons_ok.mp h
      obtain ⟨key, rfl, rfl⟩ := hmsgs m List.mem_cons_self
      obtain ⟨hothers, hpaid⟩ := (migrates_ok hfirst).paid
      obtain ⟨hothers', hpaid'⟩ := ih (fun m hm => hmsgs m (List.mem_cons_of_mem _ hm)) hrest
      refine ⟨fun u hu => (hothers u hu).trans (hothers' u hu), ?_⟩
      rcases hpaid' with hflag | ⟨rfl, hleft⟩
      · exact Or.inl hflag
      · rcases hpaid with hflag | ⟨rfl, hkey⟩
        · exact Or.inl hflag
        · refine Or.inr ⟨rfl, fun k hk => ?_⟩
          rcases List.mem_cons.mp hk with heq | hk
          · simp only [migrationOf, CosmosMsg.callback.injEq,
              CallbackMsg.initMigrateLockupToPCLPoolsCallback.injEq] at heq
            obtain ⟨hpool, huser, hduration⟩ := heq
            cases k
            obtain rfl := hpool
            obtain rfl := huser
            obtain rfl := hduration
            exact hkey
          · exact hleft k hk

/-- The handler of a migration concerns one user. It migrates all his lockups, and stores a
total for him only if he has some. -/
theorem handleMigrateLiquidityToPclPools_user {info : MessageInfo} {raw : Option Addr}
    {r : Response} (h : handleMigrateLiquidityToPclPools q s info raw = .ok r) :
    ∃ v, (∀ u, u ≠ v → Untouched u s r.storage) ∧
      (∀ m ∈ r.messages, ∃ key : LockupKey, key.user = v ∧ m = migrationOf key) ∧
      ((r.storage.user v).totalNtrnRewards ≠ (s.user v).totalNtrnRewards →
        ∃ key : LockupKey, key.user = v ∧ migrationOf key ∈ r.messages) := by
  have hsame := (handleMigrateLiquidityToPclPools_ok h).2.1
  unfold handleMigrateLiquidityToPclPools storeNtrnRewards at h
  simp only [bind_eq_ok, Map.load_eq_ok, Except.ok.injEq] at h
  obtain ⟨userInfo, huser, t, hstore, rfl⟩ := h
  refine ⟨raw.getD info.sender, ?_, ?_, ?_⟩
  · intro u hu
    split_ifs at hstore
    · simp only [bind_eq_ok, Except.ok.injEq] at hstore
      obtain ⟨⟨total, t'⟩, hupdate, rfl⟩ := hstore
      have hzero : userInfo.totalNtrnRewards = 0 := by assumption
      exact ((FindsTotal.computed total t' hzero hupdate).untouched hu).trans
        (.saveUser hu rfl rfl)
    · obtain rfl := Except.ok.inj hstore
      exact .refl u _
  · intro m hm
    obtain ⟨key, hkey, rfl⟩ := List.mem_map.mp hm
    exact ⟨key, user_of_mem_userLockupKeys hkey, rfl⟩
  · intro hne
    split_ifs at hstore with hzero
    · simp only [bind_eq_ok, Except.ok.injEq] at hstore
      obtain ⟨⟨total, t'⟩, hupdate, rfl⟩ := hstore
      -- a total that is not zero was added up over some lockup
      obtain ⟨key, hkey⟩ : ∃ key, key ∈ userLockupKeys s (raw.getD info.sender) := by
        by_contra hnone
        have hnil : userLockupKeys s (raw.getD info.sender) = [] :=
          List.eq_nil_iff_forall_not_mem.mpr fun key hkey => hnone ⟨key, hkey⟩
        unfold updateUserLockupPositionsAndCalcRewards at hupdate
        rw [hnil] at hupdate
        obtain ⟨rfl, rfl⟩ := Prod.mk.inj (Except.ok.inj hupdate)
        refine hne ?_
        rw [user_eq_of_load huser, hzero, user_eq_of_load (Map.mayLoad_save _ _ _)]
      obtain ⟨huser', hpool, hstored⟩ := mem_storedKeys.mp hkey
      refine ⟨key, huser', List.mem_map_of_mem (mem_storedKeys.mpr ⟨huser', ?_, ?_⟩)⟩
      · rw [hsame.assetPools, hpool]
      · rw [hsame.isSome, hstored]
    · obtain rfl := Except.ok.inj hstore
      exact absurd rfl hne

/-- A migration keeps the users paid up. -/
theorem PaidUp.migrate {info : MessageInfo} {raw : Option Addr} {r : Response}
    (h : PaidUp w.storage)
    (hr : handleMigrateLiquidityToPclPools (x.querier w.ext) w.storage info raw = .ok r)
    (hrun : r.messages.foldlM (dispatch x callDepth) (w.respond r) = .ok w') :
    PaidUp w'.storage := by
  have hsame := (handleMigrateLiquidityToPclPools_ok hr).2.1
  obtain ⟨v, hothers, hmsgs, htotal⟩ := handleMigrateLiquidityToPclPools_user hr
  obtain ⟨hothers', hpaid⟩ := migrations_paid hmsgs hrun
  have hall : ∀ u, u ≠ v → Untouched u w.storage w'.storage :=
    fun u hu => (hothers u hu).trans (hothers' u hu)
  by_cases hflag : (w'.storage.user v).ntrnTransferred = true
  · exact h.paid hflag hall
  · -- nothing was migrated, and no lockup has left: no total was stored either
    obtain ⟨rfl, hleft⟩ := hpaid.resolve_left hflag
    have hunpaid : (w.storage.user v).ntrnTransferred ≠ true := fun hv =>
      hflag (hsame.transferred v hv)
    have hstays : (r.storage.user v).totalNtrnRewards =
        (w.storage.user v).totalNtrnRewards := by
      by_contra hne
      obtain ⟨key, rfl, hkey⟩ := htotal hne
      exact hunpaid (h.left key (hsame.left (hleft key hkey)))
    refine h.frame (fun u => ?_) hsame.transferred fun k hk => hsame.left hk
    by_cases hu : u = v
    · rw [hu]
      exact hstays
    · rw [(hall u hu).user]

theorem PaidUp.exec {a : Action E} (h : PaidUp w.storage) (hexec : World.exec x w a = .ok w') :
    PaidUp w'.storage := by
  cases a with
  | advance seconds blocks =>
      obtain rfl := Except.ok.inj hexec
      exact h
  | drift ext =>
      obtain rfl := Except.ok.inj hexec
      exact h
  | migrate pclLockdropContract =>
      obtain rfl := Except.ok.inj hexec
      exact h.of_eq rfl rfl
  | execute info msg =>
      obtain ⟨r, hr, hrun, hsender⟩ := execute_ok hexec
      obtain ⟨hevent, heffect⟩ := execute_effect hsender hr
      have hmessages : External r.messages → PaidUp r.storage → PaidUp w'.storage := by
        intro hext hstored
        rw [externals_storage hext hrun]
        exact hstored
      cases heffect with
      | increase key amount pool weight lockup userInfo hmsgs hinc =>
          exact hmessages (.of_nil hmsgs) (h.increase hinc)
      | withdraw key amount pool weight st lockup hmsgs hwith =>
          exact hmessages (.of_nil hmsgs) (h.withdraw hwith)
      | initPool poolType incentivesShare sender amount pool hauction hinit =>
          exact hmessages hinit.external
            (h.of_eq (by rw [hinit.storage]) (by rw [hinit.storage]))
      | setTokenInfo atomToken usdcToken generator hmsgs hstorage =>
          exact hmessages (.of_nil hmsgs) (h.of_eq (by rw [hstorage]) (by rw [hstorage]))
      | reconfigure msg hmsg hmsgs hsame =>
          exact hmessages (.of_nil hmsgs) (h.of_eq hsame.userInfo hsame.lockupInfo)
      | claim poolType duration withdraw userInfo total t st collect hclaim =>
          obtain ⟨-, hclaimed, hothers⟩ := claims_ok hevent hclaim hrun
          exact h.paid hclaimed.transferred fun u hu => (hothers u hu).toUntouched
      | migrate raw => exact h.migrate hr hrun

/-- Nobody has anything at the start. -/
theorem PaidUp.init {env : Env} {info : MessageInfo} {msg : InstantiateMsg}
    (h : instantiate env info msg = .ok s) : PaidUp s := by
  obtain rfl := instantiate_ok h
  exact ⟨fun u hne => absurd rfl hne, fun k ⟨st, hst, _⟩ => by cases hst⟩

/-! ### What a claim collects -/

/-- What a report relies on: the generator pays what it says is pending, a claim moves no
deposit, and raw queries return what the queries do. -/
structure PaysAsReported (x : Externals E) (e : E) (generator lpToken : Addr) : Prop where
  paid : ∀ e' pending token balance, x.exec e (.claimRewards generator [lpToken]) = .ok e' →
    (x.querier e).pendingToken generator lpToken = .ok pending →
    (x.querier e).baseRewardToken generator lpToken = .ok token →
    (x.querier e).bankBalance token = .ok balance →
      (x.querier e').bankBalance token = .ok (balance + pending.pending)
  unmoved : ∀ e', x.exec e (.claimRewards generator [lpToken]) = .ok e' →
    (x.querier e').deposit generator lpToken = (x.querier e).deposit generator lpToken ∧
      (x.querier e').baseRewardToken generator lpToken =
        (x.querier e).baseRewardToken generator lpToken
  rawDeposit : (x.querier e).rawGeneratorDeposit generator lpToken =
    (x.querier e).deposit generator lpToken
  rawBalance : (x.querier e).rawBalance lpToken = (x.querier e).tokenBalance lpToken

/-- What is booked is what arrived of the reward token. -/
theorem updatePoolOnDualRewardsClaim_received {env : Env} {poolType : PoolType} {prev : Nat}
    {prevProxy : List Asset} {r : Response}
    (h : updatePoolOnDualRewardsClaim q s env poolType prev prevProxy = .ok r) :
    ∃ pool generator token balance, s.assetPools.mayLoad poolType = some pool ∧
      s.config.generator = some generator ∧
      q.baseRewardToken generator pool.lpToken = .ok token ∧ q.bankBalance token = .ok balance ∧
      r.ntrnRewardReceived = some (poolType, balance - prev) := by
  unfold updatePoolOnDualRewardsClaim at h
  simp only [bind_eq_ok, SnapshotMap.load, Map.load_eq_ok, okOr_eq_ok, Uint.checkedSub_eq_ok,
    Except.ok.injEq] at h
  obtain ⟨pool, hpool, generator, hgenerator, token, htoken, _, -, balance, hbalance, _,
    ⟨-, rfl⟩, _, -, _, -, _, -, rfl⟩ := h
  exact ⟨pool, generator, token, balance, hpool, hgenerator, htoken, hbalance, rfl⟩

/-- The pool in which the reward callback of a claim finds its lockup: what was pending is
booked, and the LP tokens are the same. -/
structure Gathered (q q₁ : Querier) (generator : Addr) (pool pool₁ : PoolInfo) : Prop where
  lpToken : pool₁.lpToken = pool.lpToken
  isStaked : pool₁.isStaked = pool.isStaked
  amountInLockups : pool₁.amountInLockups = pool.amountInLockups
  balance : lpBalance q₁ generator pool₁ = lpBalance q generator pool
  booked : pool.isStaked = true → ∃ pending,
    q.pendingToken generator pool.lpToken = .ok pending ∧
      ∀ deposit, q.deposit generator pool.lpToken = .ok deposit →
        pool₁.generatorNtrnPerShare.atomics = pool.generatorNtrnPerShare.atomics +
          pending.pending * FixedPoint.fractional / deposit

/-- Nothing is booked. -/
theorem Gathered.of_nothing {generator : Addr} {pool : PoolInfo}
    (h : pool.isStaked = true → ∃ pending,
      q.pendingToken generator pool.lpToken = .ok pending ∧ pending.pending = 0) :
    Gathered q q generator pool pool where
  lpToken := rfl
  isStaked := rfl
  amountInLockups := rfl
  balance := rfl
  booked hstaked := by
    obtain ⟨pending, hpending, hzero⟩ := h hstaked
    refine ⟨pending, hpending, fun deposit _ => ?_⟩
    rw [hzero, Nat.zero_mul, Nat.zero_div, Nat.add_zero]

/-- The pending rewards arrive and are booked. -/
theorem gathered_booked {n : Nat} {poolType : PoolType} {generator : Addr} {pool : PoolInfo}
    {pending : PendingTokenResponse} {token : String} {balance : Nat} {prevProxy : List Asset}
    (hagree : PaysAsReported x w.ext generator pool.lpToken)
    (hgenerator : w.storage.config.generator = some generator)
    (hpool : w.storage.assetPools.mayLoad poolType = some pool) (hstaked : pool.isStaked = true)
    (hpending : (x.querier w.ext).pendingToken generator pool.lpToken = .ok pending)
    (htoken : (x.querier w.ext).baseRewardToken generator pool.lpToken = .ok token)
    (hbalance : (x.querier w.ext).bankBalance token = .ok balance)
    (h : [.claimRewards generator [pool.lpToken],
      .callback (.updatePoolOnDualRewardsClaim poolType balance prevProxy)].foldlM
        (dispatch x n) w = .ok w₁) :
    ∃ pool₁, w₁.storage.assetPools.mayLoad poolType = some pool₁ ∧
      Gathered (x.querier w.ext) (x.querier w₁.ext) generator pool pool₁ := by
  obtain ⟨t, ht, hbook⟩ := foldlM_cons_ok.mp h
  obtain ⟨ext, hclaim, rfl⟩ := dispatch_external (fun _ => CosmosMsg.noConfusion) ht
  obtain ⟨m, r, hr, hmsgs⟩ := dispatch_callback (foldlM_singleton_ok.mp hbook)
  replace hr : updatePoolOnDualRewardsClaim (x.querier ext) w.storage w.env poolType balance
    prevProxy = .ok r := hr
  obtain ⟨hnil, pool', generator', deposit, received, proxyPerShare, hevent, hbooks⟩ :=
    updatePoolOnDualRewardsClaim_ok hr
  obtain ⟨pool'', generator'', token', balance', hpool'', hgenerator'', htoken', hbalance',
    hevent'⟩ := updatePoolOnDualRewardsClaim_received hr
  rw [hnil] at hmsgs
  obtain rfl := Except.ok.inj hmsgs
  obtain rfl := Option.some.inj (hpool.symm.trans hbooks.pool_eq)
  obtain rfl := Option.some.inj (hpool.symm.trans hpool'')
  obtain rfl := Option.some.inj (hgenerator.symm.trans hbooks.generator_eq)
  obtain rfl := Option.some.inj (hgenerator.symm.trans hgenerator'')
  obtain ⟨hdeposit, hsameToken⟩ := hagree.unmoved ext hclaim
  -- what arrived is what was pending
  obtain rfl := Except.ok.inj (htoken.symm.trans (hsameToken.symm.trans htoken'))
  have hpaid := hagree.paid ext pending token balance hclaim hpending htoken hbalance
  obtain rfl := Except.ok.inj (hpaid.symm.trans hbalance')
  obtain rfl : received = balance + pending.pending - balance :=
    (Prod.mk.inj (Option.some.inj (hevent.symm.trans hevent'))).2
  refine ⟨{ pool with
    generatorNtrnPerShare := ⟨pool.generatorNtrnPerShare.atomics +
      (balance + pending.pending - balance) * FixedPoint.fractional / deposit⟩
    generatorProxyPerShare := proxyPerShare }, ?_, rfl, rfl, rfl, ?_,
      fun _ => ⟨pending, hpending, fun deposit' hdeposit' => ?_⟩⟩
  · show (r.storage.assetPools.mayLoad poolType) = _
    rw [hbooks.storage]
    exact SnapshotMap.mayLoad_save _ _ _ _
  · unfold lpBalance
    dsimp only [World.respond]
    rw [if_pos hstaked, if_pos hstaked, hdeposit]
  · obtain rfl := Except.ok.inj (hdeposit'.symm.trans (hdeposit.symm.trans hbooks.deposit_eq))
    dsimp only
    rw [Nat.add_sub_cancel_left]

/-- A claim up to its reward callback, and the callback. -/
theorem claim_gathered {info : MessageInfo} {poolType : PoolType} {duration : Nat}
    {withdraw : Bool} {r : Response} {generator : Addr}
    (hr : handleClaimRewardsAndUnlockForLockup (x.querier w.ext) w.storage w.env info poolType
      duration withdraw = .ok r)
    (hgenerator : w.storage.config.generator = some generator)
    (hagree : ∀ pool, w.storage.assetPools.mayLoad poolType = some pool →
      PaysAsReported x w.ext generator pool.lpToken)
    (hrun : r.messages.foldlM (dispatch x callDepth) (w.respond r) = .ok w') :
    ∃ w₁ pool pool₁, w.storage.assetPools.mayLoad poolType = some pool ∧
      Collects x poolType (w.respond r) w₁ ∧
      Gathered (x.querier w.ext) (x.querier w₁.ext) generator pool pool₁ ∧
      w₁.storage.assetPools.mayLoad poolType = some pool₁ ∧
      dispatch x callDepth w₁ (.callback (.withdrawUserLockupRewardsCallback poolType info.sender
        duration withdraw)) = .ok w' := by
  obtain ⟨hevent, userInfo, total, t, st, collect, hclaim⟩ :=
    handleClaimRewardsAndUnlockForLockup_ok hr
  have hsame := hclaim.sameBooks
  unfold handleClaimRewardsAndUnlockForLockup at hr
  simp only [bind_eq_ok, rejectIf_eq_ok, exists_const, SnapshotMap.load, Map.load_eq_ok,
    Except.ok.injEq] at hr
  obtain ⟨_, -, -, pool, hpool, _, -, ⟨total', t'⟩, -, lockup, -, -, -, collect', hcollect,
    rfl⟩ := hr
  replace hpool : w.storage.assetPools.mayLoad poolType = some pool := hpool
  replace hagree := hagree pool hpool
  obtain ⟨w₁, hfirst, hlast⟩ := foldlM_append_ok.mp hrun
  have hcollects := collects_ok (claimMessages_ok hcollect) hfirst
  refine ⟨w₁, pool, ?_⟩
  unfold claimMessages at hcollect
  split_ifs at hcollect with hstaked
  · unfold claimGeneratorRewards at hcollect
    simp only [bind_eq_ok, okOr_eq_ok] at hcollect
    obtain ⟨generator', hgenerator', pending, hpending, hcollect⟩ := hcollect
    replace hgenerator' : t'.config.generator = some generator' := hgenerator'
    have hconfig : t'.config = w.storage.config := hsame.config
    rw [hconfig, hgenerator] at hgenerator'
    obtain rfl := Option.some.inj hgenerator'
    split_ifs at hcollect with hsome
    · simp only [bind_eq_ok, Except.ok.injEq] at hcollect
      obtain ⟨token, htoken, balance, hbalance, rfl⟩ := hcollect
      obtain ⟨pool₁, hpool₁, hgathered⟩ := @gathered_booked E x (w.respond _) w₁ callDepth
        poolType generator pool pending token balance _ hagree (hconfig ▸ hgenerator)
        (by rw [← hpool]; exact congrArg (fun m => m.mayLoad poolType) hsame.assetPools) hstaked
        hpending htoken hbalance hfirst
      exact ⟨pool₁, hpool, hcollects, hgathered, hpool₁, foldlM_singleton_ok.mp hlast⟩
    · -- nothing is pending, and nothing is booked
      obtain rfl := Except.ok.inj hcollect
      obtain rfl := Except.ok.inj hfirst
      refine ⟨pool, hpool, hcollects, .of_nothing fun _ => ⟨pending, hpending, ?_⟩, ?_,
        foldlM_singleton_ok.mp hlast⟩
      · by_contra hne
        exact hsome (Or.inl hne)
      · rw [← hpool]
        exact congrArg (fun m => m.mayLoad poolType) hsame.assetPools
  · simp only [bind_eq_ok, rejectIf_eq_ok, exists_const, Except.ok.injEq] at hcollect
    obtain ⟨-, rfl⟩ := hcollect
    obtain rfl := Except.ok.inj hfirst
    refine ⟨pool, hpool, hcollects, .of_nothing fun hyes => absurd hyes hstaked, ?_,
      foldlM_singleton_ok.mp hlast⟩
    rw [← hpool]
    exact congrArg (fun m => m.mayLoad poolType) hsame.assetPools

/-! ### The report -/

/-- What a claim pays a lockup of the pool of its base reward. -/
def PoolInfo.basePayment (pool : PoolInfo) (share debt : Nat) : Nat :=
  if pool.isStaked then pool.generatorNtrnPerShare.atomics * share / FixedPoint.fractional - debt
  else 0

/-- The LP tokens of the pool, as the query reads them. -/
theorem rawLpBalance_eq {e : E} {pool : PoolInfo} {generator : Addr}
    (hagree : PaysAsReported x e generator pool.lpToken)
    (hgenerator : s.config.generator = some generator) :
    rawLpBalance (x.querier e) s pool = lpBalance (x.querier e) generator pool := by
  unfold rawLpBalance lpBalance
  rw [hagree.rawBalance, ← hagree.rawDeposit, hgenerator]
  rfl

/-- The pending reward is booked in memory, as a claim books it. -/
theorem claimableDebts_eq {generator : Addr} {pool pool₁ : PoolInfo} {q₁ : Querier}
    {lockup : LockupInfoV2} {balance share claimable : Nat}
    {proxies : RestrictedVector AssetInfo Nat}
    (hgathered : Gathered q q₁ generator pool pool₁)
    (hgenerator : s.config.generator = some generator)
    (hbalance : lpBalance q generator pool = .ok balance)
    (h : claimableDebts q s pool lockup balance share = .ok (claimable, proxies)) :
    claimable = pool₁.basePayment share lockup.generatorNtrnDebt := by
  unfold claimableDebts at h
  unfold PoolInfo.basePayment
  rw [hgathered.isStaked]
  split_ifs at h with hsome
  · obtain ⟨hstaked, -⟩ := hsome
    rw [if_pos hstaked]
    simp only [bind_eq_ok, okOr_eq_ok, FixedPoint.checkedAdd_eq_ok, Except.ok.injEq,
      Prod.mk.injEq] at h
    obtain ⟨generator', hgenerator', pending, hpending, increment, hincrement, perShare,
      ⟨-, rfl⟩, ⟨accrued, claimable'⟩, haccrued, _, -, rfl, -⟩ := h
    obtain rfl := Option.some.inj (hgenerator.symm.trans hgenerator')
    obtain ⟨-, -, hatomics⟩ := FixedPoint.fromRatio_eq_ok.mp hincrement
    obtain ⟨rfl, -, rfl⟩ := accruedNtrn_ok haccrued
    obtain ⟨pending', hpending', hbooked⟩ := hgathered.booked hstaked
    obtain rfl := Except.ok.inj (hpending.symm.trans hpending')
    have hdeposit : q.deposit generator pool.lpToken = .ok balance := by
      unfold lpBalance at hbalance
      rwa [if_pos hstaked] at hbalance
    rw [hbooked balance hdeposit, ← hatomics]
  · obtain ⟨rfl, -⟩ := Prod.mk.inj (Except.ok.inj h)
    split_ifs with hstaked
    · have hzero : share = 0 := by
        by_contra hne
        exact hsome ⟨hstaked, hne⟩
      rw [hzero, Nat.mul_zero, Nat.zero_div, Nat.zero_sub]
    · rfl

/-- The report about an open lockup: the LP tokens that are its share, and what a claim of it
pays once the pending reward is booked. -/
structure Projects (q : Querier) (generator : Addr) (pool pool₁ : PoolInfo) (key : LockupKey)
    (core : LockupCore) (r : LockUpInfoResponse) : Prop where
  poolType : r.poolType = key.poolType
  lpToken : r.astroportLpToken = pool.lpToken
  share : ∃ balance share, lpBalance q generator pool = .ok balance ∧
    share = core.lpUnitsLocked * balance / pool.amountInLockups ∧
    r.astroportLpUnits = some share ∧
    r.claimableGeneratorAstroDebt = pool₁.basePayment share core.generatorNtrnDebt

theorem queryLockupInfo_projects {e : E} {key : LockupKey} {r : LockUpInfoResponse}
    {generator : Addr} {pool pool₁ : PoolInfo} {st : StoredLockup} {q₁ : Querier}
    (h : queryLockupInfo (x.querier e) s key = .ok r)
    (hpool : s.assetPools.mayLoad key.poolType = some pool)
    (hst : s.lockupInfo.mayLoad key = some st)
    (hopen : st.core.astroportLpTransferred = none)
    (hagree : PaysAsReported x e generator pool.lpToken)
    (hgenerator : s.config.generator = some generator)
    (hgathered : Gathered (x.querier e) q₁ generator pool pool₁) :
    Projects (x.querier e) generator pool pool₁ key st.core r := by
  unfold queryLockupInfo at h
  simp only [bind_eq_ok, SnapshotMap.load, Map.load_eq_ok, Except.ok.injEq] at h
  obtain ⟨pool', hpool', lockup, hlockup, ⟨lpUnits, claimable, proxies⟩, hpart, _, -, rfl⟩ := h
  obtain rfl := Option.some.inj (hpool.symm.trans hpool')
  obtain ⟨st', hst', hcore, -⟩ := compatibleLoad_ok hlockup
  obtain rfl := Option.some.inj (hst.symm.trans hst')
  rw [hcore] at hopen ⊢
  have hnone : lockup.astroportLpTransferred = none := hopen
  unfold queryGeneratorPart queryLpUnits at hpart
  simp only [hnone, bind_eq_ok, Uint.checkedDiv_eq_ok, Uint.tryInto_eq_ok, Except.ok.injEq,
    Prod.mk.injEq] at hpart
  obtain ⟨_, ⟨balance, hbalance, _, ⟨-, rfl⟩, _, ⟨-, rfl⟩, rfl⟩, ⟨_, _⟩, hclaimable, rfl, rfl,
    rfl⟩ := hpart
  rw [rawLpBalance_eq hagree hgenerator] at hbalance
  exact ⟨rfl, rfl, balance, _, hbalance, rfl, rfl,
    claimableDebts_eq hgathered hgenerator hbalance hclaimable⟩

/-! ### The claim -/

/-- What an event pays a user of the base rewards of a pool. -/
def Event.generatorPaid (p : PoolType) (u : Addr) : Event → Nat
  | .sent (.bankSend (.generatorReward poolType) recipient coin) =>
      if poolType = p ∧ recipient = u then coin.amount else 0
  | _ => 0

/-- The LP tokens that an event sends to a user. -/
def Event.lpPaid (lpToken u : Addr) : Event → Nat
  | .sent (.lpTransfer token recipient amount) =>
      if token = lpToken ∧ recipient = u then amount else 0
  | _ => 0

theorem Collects.count_eq {p : PoolType} {f : Event → Nat} (h : Collects x p w w')
    (hclaim : ∀ generator lpTokens, f (.sent (.claimRewards generator lpTokens)) = 0)
    (hreceived : ∀ amount, f (.ntrnRewardReceived p amount) = 0) : w'.count f = w.count f := by
  cases h with
  | nothing => rfl
  | booked => exact (count_append rfl).trans (by simp [hclaim, hreceived])

theorem World.count_respond {r : Response} (hevent : r.ntrnRewardReceived = none)
    (f : Event → Nat) : (w.respond r).count f = w.count f := by
  simp only [World.count, World.respond, Response.events, hevent, List.append_nil]

section Payments

variable {key : LockupKey} {lockup lockup' : LockupInfoV2} {pool : PoolInfo} {generator : Addr}
  {share : Nat} {withdraw : Bool} {msgs : List CosmosMsg} {t : Storage}

theorem PaysRewards.generatorPaid
    (h : PaysRewards key lockup pool generator share withdraw lockup' msgs) :
    countSent (Event.generatorPaid key.poolType key.user) msgs =
      pool.basePayment share lockup.generatorNtrnDebt := by
  unfold PoolInfo.basePayment
  cases h with
  | unstaked hstaked =>
      rw [if_neg (by simp [hstaked])]
      rfl
  | staked rewardToken proxy _ accrued hstaked haccrued =>
      have htransfers : countSent (Event.generatorPaid key.poolType key.user)
          (proxy.map fun asset => .transfer (asset.intoMsg key.user)) = 0 := by
        refine Lockdrop.countSent_eq_zero fun m hm => ?_
        obtain ⟨asset, -, rfl⟩ := List.mem_map.mp hm
        rfl
      have hunstake : countSent (Event.generatorPaid key.poolType key.user)
          (if withdraw then [.generatorWithdraw generator pool.lpToken share] else []) = 0 := by
        split_ifs <;> rfl
      rw [if_pos hstaked, countSent_append, countSent_append, htransfers, hunstake, haccrued]
      unfold baseRewardMsg
      split_ifs with hpos
      · simp [countSent, Event.generatorPaid]
      · simp only [countSent_nil]
        omega

theorem PaysRewards.lpPaid (lpToken : Addr)
    (h : PaysRewards key lockup pool generator share withdraw lockup' msgs) :
    countSent (Event.lpPaid lpToken key.user) msgs = 0 := by
  refine Lockdrop.countSent_eq_zero fun m hm => ?_
  rcases h.mem hm with ⟨coin, rfl⟩ | ⟨transfer, rfl⟩ | ⟨-, rfl⟩ <;> rfl

theorem StoresOrCloses.generatorPaid {height : Nat}
    (h : StoresOrCloses s height key pool lockup share withdraw t msgs) :
    countSent (Event.generatorPaid key.poolType key.user) msgs = 0 := by
  refine countSent_eq_zero fun m hm => ?_
  obtain ⟨-, rfl⟩ := h.mem hm
  rfl

theorem StoresOrCloses.lpPaid {height : Nat}
    (h : StoresOrCloses s height key pool lockup share withdraw t msgs) :
    countSent (Event.lpPaid pool.lpToken key.user) msgs = if withdraw then share else 0 := by
  cases h with
  | stored => rfl
  | closed => simp [countSent, Event.lpPaid]

theorem PaysNtrn.unpaid_elsewhere {userInfo : UserInfo} {f : Event → Nat}
    (h : PaysNtrn s key.user userInfo s' msgs)
    (hreward : ∀ coin, f (.sent (.bankSend .lockdropReward key.user coin)) = 0)
    (hburn : ∀ credits amount, f (.sent (.burnFrom credits key.user amount)) = 0) :
    countSent f msgs = 0 := by
  refine countSent_eq_zero fun m hm => ?_
  rcases h.mem hm with ⟨coin, rfl⟩ | ⟨credits, amount, rfl⟩
  · exact hreward coin
  · exact hburn credits amount

/-- The total of the user is as stored, and he is paid. -/
theorem PaysNtrn.user {user : Addr} (h : PaysNtrn s user (s.user user) s' msgs) :
    s'.user user = { s.user user with ntrnTransferred := true } := by
  cases h with
  | already hflag => rw [← hflag]
  | now => exact user_eq_of_load (Map.mayLoad_save _ _ _)

end Payments

/-- The reward callback pays the lockup its base reward and its LP tokens. -/
theorem Pays.counts {key : LockupKey} {withdraw : Bool} {msgs : List CosmosMsg}
    {pool : PoolInfo} {lockup lockup' : LockupInfoV2} {generator : Addr} {share : Nat}
    {t : Storage} {rewardMsgs exitMsgs ntrnMsgs : List CosmosMsg}
    (h : Pays x w w' key withdraw msgs pool lockup lockup' generator share t rewardMsgs exitMsgs
      ntrnMsgs) :
    w'.count (Event.generatorPaid key.poolType key.user) =
        w.count (Event.generatorPaid key.poolType key.user) +
          pool.basePayment share lockup.generatorNtrnDebt ∧
      w'.count (Event.lpPaid pool.lpToken key.user) =
        w.count (Event.lpPaid pool.lpToken key.user) + if withdraw then share else 0 := by
  have hout := h.paysOut
  rw [count_sent h.trace, count_sent h.trace, hout.messages]
  simp only [countSent_append]
  constructor
  · rw [hout.rewards.generatorPaid, hout.exits.generatorPaid,
      hout.ntrn.unpaid_elsewhere (fun _ => rfl) (fun _ _ => rfl)]
    rfl
  · rw [hout.rewards.lpPaid, hout.exits.lpPaid,
      hout.ntrn.unpaid_elsewhere (fun _ => rfl) (fun _ _ => rfl), Nat.zero_add, Nat.add_zero]

/-- A claim does what the report `u` about the user and the report `r` about the lockup said
before it. -/
structure AsReported (w w' : World E) (user : Addr) (withdraw : Bool) (u : UserInfoResponse)
    (r : LockUpInfoResponse) : Prop where
  /-- The base reward of the lockup. -/
  base : w'.count (Event.generatorPaid r.poolType user) =
    w.count (Event.generatorPaid r.poolType user) + r.claimableGeneratorAstroDebt
  /-- The one-time reward of all lockups together, unless it was paid before. -/
  ntrn : w'.lockdropPaid user =
    w.lockdropPaid user + if u.ntrnTransferred then 0 else u.totalNtrnRewards
  /-- The LP tokens of the lockup, when it is unlocked. -/
  lp : w'.count (Event.lpPaid r.astroportLpToken user) =
    w.count (Event.lpPaid r.astroportLpToken user) +
      if withdraw then r.astroportLpUnits.getD 0 else 0
  /-- What was paid is reported from then on. -/
  recorded : (queryUserInfoWithLockupsList w'.storage user).ntrnTransferred = true ∧
    (u.ntrnTransferred = false →
      (queryUserInfoWithLockupsList w'.storage user).totalNtrnRewards = u.totalNtrnRewards)

/-- The claim of a user whose stored total, if there is one, has been paid. -/
theorem claim_reported {info : MessageInfo} {poolType : PoolType} {duration : Nat}
    {withdraw : Bool} {u : UserInfoResponse} (h : PaidUp w.storage)
    (hagree : ∀ generator pool, w.storage.config.generator = some generator →
      w.storage.assetPools.mayLoad poolType = some pool →
        PaysAsReported x w.ext generator pool.lpToken)
    (hu : queryUserInfo (x.querier w.ext) w.storage info.sender = .ok u)
    (hexec : w.execute x info (.claimRewardsAndOptionallyUnlock poolType duration withdraw) =
      .ok w') :
    ∃ r ∈ u.lockupInfos, queryLockupInfo (x.querier w.ext) w.storage
        ⟨poolType, info.sender, duration⟩ = .ok r ∧
      AsReported w w' info.sender withdraw u r := by
  obtain ⟨r, hr, hrun, hsender⟩ := execute_ok hexec
  replace hr : handleClaimRewardsAndUnlockForLockup (x.querier w.ext) w.storage w.env info
    poolType duration withdraw = .ok r := hr
  obtain ⟨hevent, userInfo, total, t, st, collect, hclaim⟩ :=
    handleClaimRewardsAndUnlockForLockup_ok hr
  have hsame := hclaim.sameBooks
  obtain ⟨hreports, hflag, htotal, -⟩ := queryUserInfo_ok hu
  obtain ⟨generator, hgenerator⟩ : ∃ generator, w.storage.config.generator = some generator := by
    obtain ⟨w₁, _, _, _, _, generator, _, _, _, _, _, hcollects, hpays⟩ :=
      execute_claim_ok hclaim hrun
    refine ⟨generator, ?_⟩
    rw [← hpays.paysOut.generator_eq, hcollects.frame.2.2.2.1]
    exact congrArg Config.generator hsame.config.symm
  obtain ⟨w₁, pool, pool₁, hpool, hcollects, hgathered, hpool₁, hlast⟩ :=
    claim_gathered hr hgenerator (fun pool hpool => hagree generator pool hgenerator hpool) hrun
  obtain ⟨msgs, pool', lockup, lockup', generator', share, t', rewardMsgs, exitMsgs, ntrnMsgs,
    hpays⟩ := pays_ok ⟨poolType, info.sender, duration⟩ hlast
  have hout := hpays.paysOut
  obtain ⟨-, hlockups, husers, hconfig, -⟩ := hcollects.frame
  obtain rfl := Option.some.inj (hpool₁.symm.trans hout.pool_eq)
  obtain rfl : generator' = generator := by
    have hgenerator' := hout.generator_eq
    rw [hconfig] at hgenerator'
    exact Option.some.inj (hgenerator'.symm.trans ((congrArg Config.generator hsame.config).trans
      hgenerator))
  -- the lockup of the reports and that of the callback differ in the one-time reward only
  obtain ⟨st₁, hst₁, hcore₁, -⟩ := compatibleLoad_ok hout.lockup_eq
  rw [hlockups] at hst₁
  obtain rfl := Option.some.inj (hclaim.lockup_eq.symm.trans hst₁)
  obtain ⟨st₀, hst₀, hcore₀⟩ := hsame.wasStored hclaim.lockup_eq
  have hkey : (⟨poolType, info.sender, duration⟩ : LockupKey) ∈
      userLockupKeys w.storage info.sender :=
    mem_storedKeys.mpr ⟨rfl, by rw [hpool]; rfl, by rw [hst₀]; rfl⟩
  obtain ⟨report, hmem, hreport⟩ := hreports.mem hkey
  obtain ⟨htype, hlpToken, balance, share', hbalance, hshare', hunits, hclaimable⟩ :=
    queryLockupInfo_projects hreport hpool hst₀ (hcore₀ ▸ hclaim.lockup_open)
      (hagree generator' pool hgenerator hpool) hgenerator hgathered
  have hcore : st₀.core = lockup.core := hcore₀.trans hcore₁
  obtain rfl : share' = share := by
    obtain ⟨balance', hbalance', -, hshare⟩ := astroportLpShare_ok hout.share_eq
    obtain rfl := Except.ok.inj (hbalance.symm.trans (hgathered.balance.symm.trans hbalance'))
    rw [hshare', hshare, hcore, hgathered.amountInLockups]
    rfl
  obtain ⟨hbase, hlp⟩ := hpays.counts
  have huser : w₁.storage.user info.sender =
      { w.storage.user info.sender with totalNtrnRewards := total } := by
    rw [user_congr husers]
    exact hclaim.user
  -- the total of an unpaid user is computed, and it is the total of the reports
  have hcomputed : u.ntrnTransferred = false → total = u.totalNtrnRewards := by
    intro hunpaid
    have hzero : userInfo.totalNtrnRewards = 0 := by
      by_contra hne
      rw [← user_eq_of_load hclaim.user_eq] at hne
      rw [hflag, h.total info.sender hne] at hunpaid
      cases hunpaid
    have hfinds := hclaim.finds
    cases hfinds with
    | stored hne => exact absurd hzero hne
    | computed _ _ _ hupdate => rw [hreports.total hupdate, htotal]
  refine ⟨report, hmem, hreport, ?_, ?_, ?_, ?_⟩
  · rw [htype, hclaimable, hcore, hbase,
      hcollects.count_eq (fun _ _ => rfl) (fun _ => rfl), World.count_respond hevent]
    rfl
  · rw [hpays.lockdropPaid, hcollects.lockdropPaid, World.lockdropPaid_respond hevent, huser]
    dsimp only
    rw [← hflag]
    cases hpaid : u.ntrnTransferred with
    | true => rfl
    | false => rw [if_pos ⟨rfl, rfl⟩, hcomputed hpaid]; rfl
  · rw [hlpToken, hunits, ← hgathered.lpToken, hlp,
      hcollects.count_eq (fun _ _ => rfl) (fun _ => rfl), World.count_respond hevent]
    rfl
  · have hntrn := hout.ntrn
    rw [← user_congr hout.exits.userInfo] at hntrn
    have hafter : w'.storage.user info.sender =
        { w.storage.user info.sender with totalNtrnRewards := total, ntrnTransferred := true } := by
      rw [hntrn.user, user_congr hout.exits.userInfo, huser]
    refine ⟨congrArg UserInfo.ntrnTransferred hafter, fun hunpaid => ?_⟩
    exact (congrArg UserInfo.totalNtrnRewards hafter).trans (hcomputed hunpaid)

/-- In every reachable state, for a generator that pays what it reports: a claim pays the base
reward, the one-time reward and the LP tokens that the reports about the user and about the
lockup said before it in the same block. -/
theorem claim_as_reported {env : Env} {info₀ : MessageInfo} {msg : InstantiateMsg}
    (hstart : instantiate env info₀ msg = .ok w.storage) (as : List (Action E))
    {info : MessageInfo} {poolType : PoolType} {duration : Nat} {withdraw : Bool}
    {u : UserInfoResponse}
    (hagree : ∀ generator pool,
      (run (World.exec x) w as).storage.config.generator = some generator →
      (run (World.exec x) w as).storage.assetPools.mayLoad poolType = some pool →
        PaysAsReported x (run (World.exec x) w as).ext generator pool.lpToken)
    (hu : queryUserInfo (x.querier (run (World.exec x) w as).ext)
      (run (World.exec x) w as).storage info.sender = .ok u)
    (hexec : World.exec x (run (World.exec x) w as)
      (.execute info (.claimRewardsAndOptionallyUnlock poolType duration withdraw)) = .ok w') :
    ∃ r ∈ u.lockupInfos, queryLockupInfo (x.querier (run (World.exec x) w as).ext)
        (run (World.exec x) w as).storage ⟨poolType, info.sender, duration⟩ = .ok r ∧
      AsReported (run (World.exec x) w as) w' info.sender withdraw u r := by
  have hpaid : PaidUp (run (World.exec x) w as).storage :=
    run_invariant (fun w : World E => PaidUp w.storage) (fun _ _ _ => PaidUp.exec)
      (PaidUp.init hstart)
  exact claim_reported hpaid hagree hu hexec

/-! ### A small report -/

/-- The small generator pays what it reports. -/
theorem sampleExternals_paysAsReported (e : SampleExt) (generator lpToken : Addr) :
    PaysAsReported sampleExternals e generator lpToken where
  paid e' pending token balance hclaim hpending htoken hbalance := by
    obtain rfl := Except.ok.inj hclaim
    obtain rfl := Except.ok.inj hpending
    obtain rfl := Except.ok.inj htoken
    obtain rfl := Except.ok.inj hbalance
    simp [sampleExternals, SampleExt.querier]
  unmoved e' hclaim := by
    obtain rfl := Except.ok.inj hclaim
    exact ⟨rfl, rfl⟩
  rawDeposit := rfl
  rawBalance := rfl

/-- Alice's lockup is the only one in two pools that were initialized, and 12 rewards are
pending for it. -/
def sampleReport : List (Action SampleExt) :=
  claimSetup ++ [sampleInit "atom_lp" .atom, sampleInit "usdc_lp" .usdc,
    .drift ⟨(∅ : Map Addr Nat).save "atom_lp" 10, (∅ : Map Addr Nat).save "atom_lp" 12, 100⟩,
    .advance 10 1]

/-- What is reported about the lockup of Alice. -/
def sampleLockUpInfo : LockUpInfoResponse where
  poolType := .atom
  lpUnitsLocked := 10
  withdrawalFlag := false
  ntrnRewards := 50
  duration := 1
  generatorNtrnDebt := 0
  claimableGeneratorAstroDebt := 12
  generatorProxyDebt := []
  claimableGeneratorProxyDebt := []
  unlockTimestamp := 251
  astroportLpUnits := some 10
  astroportLpToken := "atom_lp"
  astroportLpTransferred := none

/-- What is reported about Alice. -/
def sampleUserInfo : UserInfoResponse where
  totalNtrnRewards := 50
  ntrnTransferred := false
  lockupInfos := [sampleLockUpInfo]
  claimableGeneratorNtrnDebt := 12
  lockupPositionsIndex := 1

/-- Alice unlocks, and gets 12 rewards, half of the 100 NTRN and her 10 LP tokens. -/
theorem claim_as_reported_sample :
    ∃ r ∈ sampleUserInfo.lockupInfos,
      queryLockupInfo (sampleExternals.querier
          (run (World.exec sampleExternals) sampleStart sampleReport).ext)
        (run (World.exec sampleExternals) sampleStart sampleReport).storage
        ⟨.atom, "alice", 1⟩ = .ok r ∧
      AsReported (run (World.exec sampleExternals) sampleStart sampleReport)
        (commit (World.exec sampleExternals)
          (run (World.exec sampleExternals) sampleStart sampleReport)
          (.execute ⟨"alice", []⟩ (.claimRewardsAndOptionallyUnlock .atom 1 true)))
        "alice" true sampleUserInfo r := by
  have hstart : instantiate ⟨0, 1, "lockdrop"⟩ ⟨"owner", []⟩ sampleInstantiateMsg =
      .ok sampleStart.storage := rfl
  have hexec := ok_of_isOk (World.exec sampleExternals)
    (s := run (World.exec sampleExternals) sampleStart sampleReport)
    (a := .execute ⟨"alice", []⟩ (.claimRewardsAndOptionallyUnlock .atom 1 true))
    (by decide +kernel)
  have hu : queryUserInfo (sampleExternals.querier
      (run (World.exec sampleExternals) sampleStart sampleReport).ext)
      (run (World.exec sampleExternals) sampleStart sampleReport).storage
      (MessageInfo.sender ⟨"alice", []⟩) = .ok sampleUserInfo := by
    decide +kernel
  have h := claim_as_reported hstart sampleReport
    (fun generator pool _ _ => sampleExternals_paysAsReported _ generator pool.lpToken) hu hexec
  exact h

end NeutronTge.Lockdrop
