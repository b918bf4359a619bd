import NeutronTge.Auction.Payouts

/-!
# NeutronTge.Auction.Handover

The hand-over to the vesting contracts. `Registered` says that exactly the vested users are
registered, once, with what is left of their LP tokens; `PassesChecks` that a vesting contract
accepts what it is sent. A migration always makes progress, so a finite number of them vests
everybody.
-/

namespace NeutronTge.Auction

open CosmWasm Astroport
open Lockdrop (PoolType)
open Vesting (VestingAccount)

variable {E : Type} {x : Externals E} {w w' : World E}

/-! ### What is registered -/

/-- The vesting accounts that a message registers for a user, with the tokens of an LP token. -/
def CosmosMsg.accountsOf (token u : Addr) : CosmosMsg → List VestingAccount
  | .lpSend lpToken _ _ (.registerVestingAccounts accounts) =>
      if lpToken = token then accounts.filter fun account => account.address = u else []
  | _ => []

/-- The vesting accounts that a sequence of messages registers for a user. -/
def registered (token u : Addr) (msgs : List CosmosMsg) : List VestingAccount :=
  msgs.flatMap (CosmosMsg.accountsOf token u)

/-- The accounts of the two pools, those for the LP token of the pool. -/
def PoolInfo.accounts (poolInfo : PoolInfo) (token : Addr)
    (accounts : PoolType → List VestingAccount) : List VestingAccount :=
  (if poolInfo.ntrnAtomLpTokenAddress = token then accounts .atom else []) ++
    if poolInfo.ntrnUsdcLpTokenAddress = token then accounts .usdc else []

section Lists

variable {token u : Addr}

@[simp] theorem registered_nil : registered token u [] = [] := rfl

@[simp] theorem registered_cons (m : CosmosMsg) (msgs : List CosmosMsg) :
    registered token u (m :: msgs) = m.accountsOf token u ++ registered token u msgs :=
  List.flatMap_cons

@[simp] theorem registered_append (msgs msgs' : List CosmosMsg) :
    registered token u (msgs ++ msgs') = registered token u msgs ++ registered token u msgs' :=
  List.flatMap_append

theorem registered_of_not_takesLp {msgs : List CosmosMsg} (h : ∀ m ∈ msgs, m.takesLp = false) :
    registered token u msgs = [] := by
  refine List.flatMap_eq_nil_iff.mpr fun m hm => ?_
  have htakes := h m hm
  cases m with
  | lpSend => cases htakes
  | _ => rfl

theorem address_of_mem {env : Env} {config : Config} {addr : Addr} {amount : Nat}
    {account : VestingAccount} (h : account ∈ vestingAccounts env config addr amount) :
    account.address = addr := by
  unfold vestingAccounts at h
  split_ifs at h
  · cases h
  · rw [List.mem_singleton.mp h]

/-- The accounts of a user in a batch: those of his entry, if he has one. -/
theorem filter_batchAccounts {p : PoolType} {s : Storage} {env : Env} :
    ∀ {entries : List (Addr × UserInfo)}, (entries.map Prod.fst).Nodup →
      (∀ user, (u, user) ∈ entries →
        (batchAccounts p s env entries).filter (fun account => account.address = u) =
          vestingAccounts env s.config u (vestAmount p user s.state)) ∧
      (u ∉ entries.map Prod.fst →
        (batchAccounts p s env entries).filter (fun account => account.address = u) = []) := by
  intro entries
  induction entries with
  | nil => exact fun _ => ⟨nofun, fun _ => rfl⟩
  | cons e entries ih =>
      intro hnodup
      obtain ⟨hnot, hrest⟩ := List.nodup_cons.mp hnodup
      obtain ⟨hentry, hother⟩ := ih hrest
      have hsplit : (batchAccounts p s env (e :: entries)).filter
            (fun account => account.address = u) =
          (vestingAccounts env s.config e.1 (vestAmount p e.2 s.state)).filter
              (fun account => account.address = u) ++
            (batchAccounts p s env entries).filter fun account => account.address = u := by
        rw [batchAccounts, List.flatMap_cons, List.filter_append]
        rfl
      -- the first entry is the user's own or somebody else's; his address is in the batch once
      have hkept : e.1 = u →
          (vestingAccounts env s.config e.1 (vestAmount p e.2 s.state)).filter
            (fun account => account.address = u) =
          vestingAccounts env s.config e.1 (vestAmount p e.2 s.state) := by
        intro hu
        refine List.filter_eq_self.mpr fun account haccount => ?_
        exact decide_eq_true ((address_of_mem haccount).trans hu)
      have hdropped : e.1 ≠ u →
          (vestingAccounts env s.config e.1 (vestAmount p e.2 s.state)).filter
            (fun account => account.address = u) = [] := by
        intro hu
        refine List.filter_eq_nil_iff.mpr fun account haccount => ?_
        rw [decide_eq_true_eq, address_of_mem haccount]
        exact hu
      refine ⟨fun user huser => ?_, fun hu => ?_⟩
      · rcases List.mem_cons.mp huser with rfl | huser
        · rw [hsplit, hkept rfl, hother hnot, List.append_nil]
        · have hne : e.1 ≠ u := fun heq => hnot (heq ▸ List.mem_map_of_mem huser)
          rw [hsplit, hdropped hne, hentry user huser, List.nil_append]
      · rw [List.map_cons, List.mem_cons, not_or] at hu
        rw [hsplit, hdropped (Ne.symm hu.1), hother hu.2, List.nil_append]

/-- Without an amount there are no accounts. -/
theorem batchAccounts_eq_nil {p : PoolType} {s : Storage} {env : Env}
    {entries : List (Addr × UserInfo)} (h : batchAmount p s entries = 0) :
    batchAccounts p s env entries = [] := by
  refine List.flatMap_eq_nil_iff.mpr fun e he => ?_
  have hzero : vestAmount p e.2 s.state = 0 :=
    List.sum_eq_zero_iff.mp h _ (List.mem_map_of_mem he)
  rw [vestingAccounts, if_pos hzero]

theorem registered_vestingMsg {lpToken vesting : Addr} {p : PoolType} {s : Storage} {env : Env}
    {entries : List (Addr × UserInfo)} :
    registered token u (vestingMsg lpToken vesting (batchAmount p s entries)
        (batchAccounts p s env entries)) =
      if lpToken = token then
        (batchAccounts p s env entries).filter fun account => account.address = u
      else [] := by
  unfold vestingMsg
  split_ifs with hzero htoken htoken
  · rw [batchAccounts_eq_nil hzero]
    rfl
  · rfl
  · simp [CosmosMsg.accountsOf, htoken]
  · simp [CosmosMsg.accountsOf, htoken]

/-- What a migration registers for a user of its batch. -/
theorem Vests.registered_mem {s s' : Storage} {env : Env} {msgs : List CosmosMsg}
    {entries : List (Addr × UserInfo)} {poolInfo : PoolInfo}
    (h : Vests s s' env msgs entries poolInfo) {user : UserInfo} (hu : (u, user) ∈ entries) :
    registered token u msgs = poolInfo.accounts token fun p =>
      vestingAccounts env s.config u (vestAmount p user s.state) := by
  have hbatch : ∀ p, (batchAccounts p s env entries).filter
      (fun account => account.address = u) =
        vestingAccounts env s.config u (vestAmount p user s.state) :=
    fun p => (filter_batchAccounts h.nodup).1 user hu
  rw [h.messages, registered_append, registered_vestingMsg, registered_vestingMsg, hbatch, hbatch]
  rfl

/-- What it registers for others: nothing. -/
theorem Vests.registered_not_mem {s s' : Storage} {env : Env} {msgs : List CosmosMsg}
    {entries : List (Addr × UserInfo)} {poolInfo : PoolInfo}
    (h : Vests s s' env msgs entries poolInfo) (hu : u ∉ entries.map Prod.fst) :
    registered token u msgs = [] := by
  have hbatch : ∀ p, (batchAccounts p s env entries).filter
      (fun account => account.address = u) = [] :=
    fun p => (filter_batchAccounts h.nodup).2 hu
  rw [h.messages, registered_append, registered_vestingMsg, registered_vestingMsg, hbatch, hbatch]
  split_ifs <;> rfl

end Lists

/-! ### Exactly once -/

/-- The vested users are registered with what was left of their tokens at some time, and nobody
else is. -/
structure Registered (w : World E) : Prop where
  unvested : ∀ u token, (w.storage.user u).isVested = false → registered token u w.trace = []
  vested : ∀ u, (w.storage.user u).isVested = true →
    ∃ (env : Env) (poolInfo : PoolInfo), env.time ≤ w.env.time ∧ ∀ token,
      registered token u w.trace = poolInfo.accounts token fun p =>
        vestingAccounts env w.storage.config u
          (vestAmount p (w.storage.user u) w.storage.state)

theorem Finalizes.registered {q : Querier} {s s' : Storage} {env : Env} {msgs : List CosmosMsg}
    {prev cur : PoolBalance} {lockdrop : Addr} {poolInfo : PoolInfo} {token u : Addr}
    (h : Finalizes q s s' env msgs prev lockdrop poolInfo cur) : registered token u msgs = [] := by
  rw [h.messages]
  unfold lockedLpMsg
  split_ifs <;> rfl

theorem InitPools.registered {w₁ : World E} {info : MessageInfo} {usdcDenom atomDenom : String}
    {poolInfo : PoolInfo} {prev cur : PoolBalance} {lockdrop : Addr}
    {provide₁ provide₂ : CosmosMsg} {msgs : List CosmosMsg} {token u : Addr}
    (hinit : InitPools x w w₁ w' info usdcDenom atomDenom poolInfo prev cur lockdrop provide₁
      provide₂ msgs) : registered token u w'.trace = registered token u w.trace := by
  have hprovides := hinit.starts.messages
  simp only [List.cons.injEq] at hprovides
  obtain ⟨hprovide₁, hprovide₂, -⟩ := hprovides
  have hnone₁ : provide₁.accountsOf token u = [] := by
    rw [hprovide₁]
    rfl
  have hnone₂ : provide₂.accountsOf token u = [] := by
    rw [hprovide₂]
    rfl
  rw [hinit.trace, registered_append, registered_cons, registered_cons, hnone₁, hnone₂,
    hinit.finalizes.registered]
  simp

/-- An account depends on the configuration by the duration alone. -/
theorem vestingAccounts_congr {env : Env} {config config' : Config} {addr : Addr} {amount : Nat}
    (h : config'.vestingLpDuration = config.vestingLpDuration) :
    vestingAccounts env config' addr amount = vestingAccounts env config addr amount := by
  rw [vestingAccounts, h]
  rfl

/-- A user's record after a migration. -/
theorem Vests.user {s s' : Storage} {env : Env} {msgs : List CosmosMsg}
    {entries : List (Addr × UserInfo)} {poolInfo : PoolInfo}
    (h : Vests s s' env msgs entries poolInfo) (u : Addr) :
    (∃ user, (u, user) ∈ entries ∧ s.user u = user ∧ user.isVested = false ∧
        s'.user u = { user with isVested := true }) ∨
      u ∉ entries.map Prod.fst ∧ s'.user u = s.user u := by
  unfold Storage.user
  rcases h.mayLoad u with ⟨-, user, hstored, hmem, hopen, hmarked⟩ | ⟨hu, hsame⟩
  · left
    refine ⟨user, hmem, ?_, hopen, ?_⟩
    · rw [hstored, Option.getD_some]
    · rw [hmarked, Option.getD_some]
  · right
    rw [hsame]
    exact ⟨hu, rfl⟩

theorem Registered.vests {msgs : List CosmosMsg} {entries : List (Addr × UserInfo)}
    {poolInfo : PoolInfo} (h : Registered w)
    (hvests : Vests w.storage w'.storage w.env msgs entries poolInfo)
    (htrace : w'.trace = w.trace ++ msgs) (henv : w'.env = w.env) : Registered w' := by
  have hconfig : w'.storage.config = w.storage.config := by rw [hvests.storage]
  have hstate : w'.storage.state = w.storage.state := by rw [hvests.storage]
  constructor
  · intro u token hu
    rcases hvests.user u with ⟨user, -, -, -, hmarked⟩ | ⟨hnot, hsame⟩
    · rw [hmarked] at hu
      cases hu
    · rw [hsame] at hu
      rw [htrace, registered_append, h.unvested u token hu, hvests.registered_not_mem hnot]
      rfl
  · intro u hu
    rw [hconfig, hstate, henv]
    rcases hvests.user u with ⟨user, hmem, huser, hopen, hmarked⟩ | ⟨hnot, hsame⟩
    · -- the user is in the batch, and was not registered before
      refine ⟨w.env, poolInfo, le_rfl, fun token => ?_⟩
      have hbefore := h.unvested u token (by rw [huser, hopen])
      rw [htrace, registered_append, hbefore, List.nil_append, hvests.registered_mem hmem, hmarked]
      simp only [vestAmount_isVested]
    · rw [hsame] at hu ⊢
      obtain ⟨env, poolInfo', htime, hregistered⟩ := h.vested u hu
      refine ⟨env, poolInfo', htime, fun token => ?_⟩
      rw [htrace, registered_append, hvests.registered_not_mem hnot, List.append_nil,
        hregistered token]

theorem Registered.execute {info : MessageInfo} {msg : ExecuteMsg} (h : Registered w)
    (hphased : Phased w) (hexec : w.execute x info msg = .ok w') : Registered w' := by
  obtain ⟨hterms, henv⟩ := World.execute_terms hexec
  by_cases hunminted : w.storage.Unminted
  · obtain ⟨-, hopen⟩ := hphased.before hunminted
    rcases execute_cases hexec with ⟨msgs, hresponds, hmsg⟩ | ⟨-, w₁, usdcDenom, atomDenom,
      poolInfo, prev, cur, lockdrop, provide₁, provide₂, msgs, hinit⟩
    · obtain ⟨hopen', hnoLp⟩ := hphased.unvested hunminted hresponds hmsg
      constructor
      · intro u token _
        rw [hresponds.trace, registered_append, h.unvested u token (hopen u),
          registered_of_not_takesLp hnoLp]
        rfl
      · intro u hu
        rw [hopen'] at hu
        cases hu
    · have huser : ∀ u, w'.storage.user u = w.storage.user u := by
        intro u
        rw [hinit.finalizes.storage]
        rfl
      constructor
      · intro u token _
        rw [hinit.registered, h.unvested u token (hopen u)]
      · intro u hu
        rw [huser, hopen] at hu
        cases hu
  · rcases hphased.vests hunminted hexec with ⟨-, hconf, htrace⟩ | ⟨-, msgs, entries, poolInfo,
      hvests, htrace⟩
    · have huser : ∀ u, w'.storage.user u = w.storage.user u := by
        intro u
        rw [Storage.user, hconf.users]
        rfl
      constructor
      · intro u token hu
        rw [huser] at hu
        rw [htrace, h.unvested u token hu]
      · intro u hu
        rw [huser] at hu ⊢
        obtain ⟨env, poolInfo, htime, hregistered⟩ := h.vested u hu
        refine ⟨env, poolInfo, by rw [henv]; exact htime, fun token => ?_⟩
        rw [htrace, hregistered token, hconf.state]
        simp only [vestingAccounts_congr hterms.vestingLpDuration]
    · exact h.vests hvests htrace henv

theorem Registered.exec {a : Action E} (h : Registered w) (hphased : Phased w)
    (hexec : w.exec x a = .ok w') : Registered w' := by
  obtain ⟨-, htime⟩ := World.exec_terms hexec
  cases a with
  | execute info msg => exact Registered.execute h hphased hexec
  | _ =>
      obtain rfl := Except.ok.inj hexec
      refine ⟨h.unvested, fun u hu => ?_⟩
      obtain ⟨env, poolInfo, hle, hregistered⟩ := h.vested u hu
      exact ⟨env, poolInfo, hle.trans htime, hregistered⟩

theorem Fresh.registered (h : Fresh w) : Registered w where
  unvested u token _ := by
    rw [h.trace]
    rfl
  vested u hu := by
    rw [h.user] at hu
    cases hu

/-! ### What a vesting contract checks -/

/-- A vesting contract with room for the amount registers the accounts. -/
def CosmosMsg.PassesChecks : CosmosMsg → Prop
  | .lpSend _ _ amount (.registerVestingAccounts accounts) =>
      ∀ (s : Vesting.Storage) (height : Nat),
        ((s.vestingState.mayLoad ()).getD ⟨0, 0⟩).totalGranted + amount < 2 ^ 128 →
        ∃ s', Vesting.registerVestingAccounts s accounts amount height = .ok s'
  | _ => True

/-- An account with one schedule that grows from nothing. -/
theorem registerAccount_ok {address : Addr} {start duration amount acc height : Nat}
    {v : Vesting.Storage} (hduration : 0 < duration) (hamount : 0 < amount)
    (hfits : acc + amount < 2 ^ 128) :
    ∃ v', Vesting.registerAccount height (acc, v)
        ⟨address, [⟨⟨start, 0⟩, some ⟨start + duration, amount⟩⟩]⟩ = .ok (acc + amount, v') ∧
      v'.vestingState = v.vestingState := by
  unfold Vesting.registerAccount
  refine ⟨_, bind_eq_ok.mpr ⟨(), rejectIf_eq_ok.mpr ?_,
    bind_eq_ok.mpr ⟨_, mapError_eq_ok.mpr ?_, rfl⟩⟩, rfl⟩
  · simp only [List.mem_singleton, exists_eq_left, Option.mem_def, Option.some.injEq,
      exists_eq_left', not_not]
    exact ⟨by omega, hamount⟩
  · exact foldlM_singleton_ok.mpr (Uint.checkedAdd_eq_ok.mpr ⟨hfits, rfl⟩)

/-- The loop over the accounts of a batch: every schedule is valid, and the amounts add up. -/
theorem registerAccounts_ok {p : PoolType} {s : Storage} {env : Env} {height : Nat}
    (hduration : 0 < s.config.vestingLpDuration) :
    ∀ {entries : List (Addr × UserInfo)} {acc : Nat} {v : Vesting.Storage},
      acc + batchAmount p s entries < 2 ^ 128 →
      ∃ v', (batchAccounts p s env entries).foldlM (Vesting.registerAccount height) (acc, v) =
          .ok (acc + batchAmount p s entries, v') ∧ v'.vestingState = v.vestingState := by
  intro entries
  induction entries with
  | nil => exact fun _ => ⟨_, rfl, rfl⟩
  | cons e entries ih =>
      intro acc v hfits
      have hamount : batchAmount p s (e :: entries) =
          vestAmount p e.2 s.state + batchAmount p s entries := by
        rw [batchAmount, List.map_cons, List.sum_cons]
        rfl
      have hsplit : batchAccounts p s env (e :: entries) =
          vestingAccounts env s.config e.1 (vestAmount p e.2 s.state) ++
            batchAccounts p s env entries := List.flatMap_cons
      rw [hamount, ← Nat.add_assoc] at hfits ⊢
      rw [hsplit]
      by_cases hzero : vestAmount p e.2 s.state = 0
      · rw [vestingAccounts, if_pos hzero, hzero, List.nil_append]
        rw [hzero] at hfits
        exact ih hfits
      · obtain ⟨v₁, hfirst, hstate₁⟩ := @registerAccount_ok e.1 env.time
          s.config.vestingLpDuration (vestAmount p e.2 s.state) acc height v hduration
          (Nat.pos_of_ne_zero hzero) (by omega)
        obtain ⟨v', hrest, hstate⟩ := @ih (acc + vestAmount p e.2 s.state) v₁ hfits
        refine ⟨v', ?_, hstate.trans hstate₁⟩
        rw [vestingAccounts, if_neg hzero, List.singleton_append]
        exact foldlM_cons_ok.mpr ⟨_, hfirst, hrest⟩

/-- Both messages of a migration pass the checks of their vesting contracts. -/
theorem Vests.passesChecks {s s' : Storage} {env : Env} {msgs : List CosmosMsg}
    {entries : List (Addr × UserInfo)} {poolInfo : PoolInfo}
    (h : Vests s s' env msgs entries poolInfo) (hduration : 0 < s.config.vestingLpDuration) :
    ∀ m ∈ msgs, m.PassesChecks := by
  have hpasses : ∀ {p : PoolType} {lpToken vesting : Addr}, ∀ m ∈ vestingMsg lpToken vesting
      (batchAmount p s entries) (batchAccounts p s env entries), m.PassesChecks := by
    intro p lpToken vesting m hm
    unfold vestingMsg at hm
    split_ifs at hm
    · cases hm
    · rw [List.mem_singleton.mp hm]
      intro v height hroom
      obtain ⟨v', hloop, hstate⟩ := @registerAccounts_ok p s env height hduration entries 0 v
        (by omega)
      rw [Nat.zero_add] at hloop
      obtain ⟨v'', hgrant⟩ : ∃ v'', Vesting.grantTotal v' (batchAmount p s entries) height =
          .ok v'' := by
        unfold Vesting.grantTotal
        rw [hstate]
        exact ⟨_, bind_eq_ok.mpr
          ⟨_, mapError_eq_ok.mpr (Uint.checkedAdd_eq_ok.mpr ⟨hroom, rfl⟩), rfl⟩⟩
      refine ⟨v'', bind_eq_ok.mpr ⟨_, hloop, bind_eq_ok.mpr ⟨(), ?_, hgrant⟩⟩⟩
      exact rejectIf_eq_ok.mpr (not_not.mpr rfl)
  intro m hm
  rw [h.messages] at hm
  rcases List.mem_append.mp hm with hm | hm
  · exact hpasses m hm
  · exact hpasses m hm

/-! ### Progress -/

section Handler

variable {s s' : Storage} {env : Env}

theorem userLpAmount_isOk {userDeposited totalDeposited totalLpTokens : Nat}
    (hle : userDeposited ≤ totalDeposited) (hwidth : totalLpTokens < 2 ^ 128) :
    ∃ amount, userLpAmount userDeposited totalDeposited totalLpTokens = .ok amount := by
  unfold userLpAmount
  by_cases hzero : totalDeposited = 0
  · exact ⟨_, if_pos hzero⟩
  · rw [if_neg hzero]
    have hshare : userDeposited * FixedPoint.fractional / totalDeposited ≤
        FixedPoint.fractional := by
      refine Nat.div_le_of_le_mul ?_
      exact Nat.mul_le_mul_right _ hle
    have hpart : totalLpTokens * (userDeposited * FixedPoint.fractional / totalDeposited) /
        FixedPoint.fractional ≤ totalLpTokens := by
      refine Nat.div_le_of_le_mul ?_
      rw [Nat.mul_comm]
      exact Nat.mul_le_mul_right _ hshare
    exact ⟨_, bind_eq_ok.mpr ⟨⟨_⟩, FixedPoint.fromRatio_eq_ok.mpr
      ⟨Nat.pos_of_ne_zero hzero, hshare.trans_lt (by decide), rfl⟩,
      FixedPoint.mulUint_eq_ok.mpr ⟨hpart.trans_lt hwidth, rfl⟩⟩⟩

theorem getUserLpInfo_isOk {user : UserInfo} {state : State}
    (hle : ∀ p, user.deposited p ≤ state.totalDeposited p)
    (hwidth : ∀ p, state.lpSize p < 2 ^ 128) : ∃ lp, getUserLpInfo user state = .ok lp := by
  obtain ⟨atom, hatom⟩ := userLpAmount_isOk (hle .atom) (hwidth .atom)
  obtain ⟨usdc, husdc⟩ := userLpAmount_isOk (hle .usdc) (hwidth .usdc)
  exact ⟨_, bind_eq_ok.mpr ⟨_, hatom, bind_eq_ok.mpr ⟨_, husdc, rfl⟩⟩⟩

theorem vestingAccount_isOk {config : Config} {addr : Addr} {amount : Nat}
    (hend : env.time + config.vestingLpDuration < 2 ^ 64) :
    ∃ accounts, vestingAccount env config addr amount = .ok accounts := by
  unfold vestingAccount
  split_ifs
  · exact ⟨_, rfl⟩
  · exact ⟨_, bind_eq_ok.mpr ⟨_, Uint.add_eq_ok.mpr ⟨hend, rfl⟩, rfl⟩⟩

/-- The loop over a batch succeeds when its sums fit. -/
theorem migrateUsers_isOk (hwidth : ∀ p, s.state.lpSize p < 2 ^ 128)
    (hend : env.time + s.config.vestingLpDuration < 2 ^ 64) :
    ∀ {entries : List (Addr × UserInfo)} {pack : MigrationPack},
      (∀ e ∈ entries, ∀ p, e.2.deposited p ≤ s.state.totalDeposited p ∧
        e.2.lpLocked p ≤ lpOf p e.2 s.state) →
      pack.atomLpAmount + batchAmount .atom s entries < 2 ^ 128 →
      pack.usdcLpAmount + batchAmount .usdc s entries < 2 ^ 128 →
      ∃ pack', entries.foldlM (migrateUser s env) pack = .ok pack' := by
  intro entries
  induction entries with
  | nil => exact fun _ _ _ => ⟨_, rfl⟩
  | cons e entries ih =>
      intro pack hstored hatomFits husdcFits
      have hamount : ∀ p, batchAmount p s (e :: entries) =
          vestAmount p e.2 s.state + batchAmount p s entries := fun p => by
        rw [batchAmount, List.map_cons, List.sum_cons]
        rfl
      rw [hamount] at hatomFits husdcFits
      have hhead := hstored e List.mem_cons_self
      obtain ⟨lp, hlp⟩ := getUserLpInfo_isOk (fun p => (hhead p).1) hwidth
      have hof := getUserLpInfo_ok hlp
      have hatom : lp.atomLpAmount - e.2.atomLpLocked = vestAmount .atom e.2 s.state := by
        rw [vestAmount, ← hof]
        rfl
      have husdc : lp.usdcLpAmount - e.2.usdcLpLocked = vestAmount .usdc e.2 s.state := by
        rw [vestAmount, ← hof]
        rfl
      have hatomLe : e.2.atomLpLocked ≤ lp.atomLpAmount :=
        le_of_le_of_eq (hhead .atom).2 (hof .atom).symm
      have husdcLe : e.2.usdcLpLocked ≤ lp.usdcLpAmount :=
        le_of_le_of_eq (hhead .usdc).2 (hof .usdc).symm
      -- the checks of one round, in the order of the loop's body
      obtain ⟨atomUser, hatomUser⟩ := @vestingAccount_isOk env s.config e.1
        (lp.atomLpAmount - e.2.atomLpLocked) hend
      obtain ⟨usdcUser, husdcUser⟩ := @vestingAccount_isOk env s.config e.1
        (lp.usdcLpAmount - e.2.usdcLpLocked) hend
      have hstep : migrateUser s env pack e = .ok
          { users := pack.users.save e.1 { e.2 with isVested := true }
            atomUsers := pack.atomUsers ++ atomUser
            usdcUsers := pack.usdcUsers ++ usdcUser
            atomLpAmount := pack.atomLpAmount + (lp.atomLpAmount - e.2.atomLpLocked)
            usdcLpAmount := pack.usdcLpAmount + (lp.usdcLpAmount - e.2.usdcLpLocked) } := by
        unfold migrateUser
        refine bind_eq_ok.mpr ⟨lp, hlp, ?_⟩
        refine bind_eq_ok.mpr ⟨_, Uint.sub_eq_ok.mpr ⟨hatomLe, rfl⟩, ?_⟩
        refine bind_eq_ok.mpr ⟨_, Uint.sub_eq_ok.mpr ⟨husdcLe, rfl⟩, ?_⟩
        refine bind_eq_ok.mpr ⟨atomUser, hatomUser, ?_⟩
        refine bind_eq_ok.mpr ⟨_, Uint.add_eq_ok.mpr ⟨by omega, rfl⟩, ?_⟩
        refine bind_eq_ok.mpr ⟨usdcUser, husdcUser, ?_⟩
        exact bind_eq_ok.mpr ⟨_, Uint.add_eq_ok.mpr ⟨by omega, rfl⟩, rfl⟩
      obtain ⟨pack', hrest⟩ := @ih
        ⟨pack.users.save e.1 { e.2 with isVested := true }, pack.atomUsers ++ atomUser,
          pack.usdcUsers ++ usdcUser, pack.atomLpAmount + (lp.atomLpAmount - e.2.atomLpLocked),
          pack.usdcLpAmount + (lp.usdcLpAmount - e.2.usdcLpLocked)⟩
        (fun a ha => hstored a (List.mem_cons_of_mem _ ha)) (by simp only; omega)
        (by simp only; omega)
      exact ⟨pack', foldlM_cons_ok.mpr ⟨_, hstep, hrest⟩⟩

end Handler

/-- A migration keeps what `Fits` says. -/
theorem Fits.vests {s' : Storage} {msgs : List CosmosMsg} {entries : List (Addr × UserInfo)}
    {poolInfo : PoolInfo} (h : Fits w) (hvests : Vests w.storage s' w.env msgs entries poolInfo) :
    Fits { w with storage := s' } := by
  have hstate : s'.state = w.storage.state := by rw [hvests.storage]
  have hconfig : s'.config = w.storage.config := by rw [hvests.storage]
  constructor
  · exact h.books.of_same (fun p => by rw [hstate]) (fun p => by rw [hstate])
      fun p u => ⟨hvests.sameDeposits.deposited p u, hvests.sameLocked p u⟩
  · exact h.staged.of_same (.of_state hstate) (by rw [SameMinted, hstate]; exact ⟨rfl, rfl, rfl⟩)
  · intro p hp
    simp only [hstate, hconfig] at hp ⊢
    exact h.late p hp
  · exact locked_of_same hvests.sameDeposits (.of_state hstate) hvests.sameLocked h.locked

/-- The fields of the state have their widths. -/
def State.Wide (state : State) : Prop := ∀ p, state.lpSize p < 2 ^ 128

/-- While somebody is not vested, `execute_migrate_to_vesting` succeeds. -/
theorem executeMigrateToVesting_isOk (h : Phased w) (hminted : ¬ w.storage.Unminted)
    (hpack : 0 < w.storage.config.vestingMigrationPackSize) (hwide : w.storage.state.Wide)
    (hend : w.env.time + w.storage.config.vestingLpDuration < 2 ^ 64)
    (hsome : w.storage.unvested ≠ 0) :
    ∃ r, executeMigrateToVesting w.storage w.env = .ok r := by
  obtain ⟨-, hinfo, hinitialized, -⟩ := h.after hminted
  obtain ⟨poolInfo, hinfo⟩ := Option.ne_none_iff_exists'.mp hinfo
  let entries := (unvestedUsers w.storage.users).take w.storage.config.vestingMigrationPackSize
  -- with an empty batch nobody would have tokens left to vest
  have hnonempty : entries ≠ [] := by
    intro hnil
    have hempty : unvestedUsers w.storage.users = [] := by
      rcases List.take_eq_nil_iff.mp hnil with hzero | hempty
      · omega
      · exact hempty
    refine hsome ?_
    have hall : w.storage.unvested = w.storage.users.sum fun _ _ => 0 := by
      unfold Storage.unvested Storage.sumOf
      refine Map.sum_congr fun u user huser => ?_
      by_cases hvested : user.isVested = true
      · simp [hvested]
      · have hmem : (u, user) ∈ unvestedUsers w.storage.users :=
          mem_unvestedUsers.mpr ⟨huser, by simpa using hvested⟩
        rw [hempty] at hmem
        cases hmem
    rw [hall, Map.sum_zero]
  have hstored : ∀ e ∈ entries, ∀ p, e.2.deposited p ≤ w.storage.state.totalDeposited p ∧
      e.2.lpLocked p ≤ lpOf p e.2 w.storage.state := by
    intro e he p
    obtain ⟨huser, -⟩ := mem_unvestedUsers.mp (List.mem_of_mem_take he)
    have hdeposited := le_sumOf (s := w.storage) (deposited_default p) e.1
    have hlocked := h.fits.locked p e.1
    rw [user_eq_of_load huser] at hdeposited hlocked
    exact ⟨hdeposited.trans_eq (h.fits.books.deposited p).symm, hlocked⟩
  have hvests : Vests w.storage
      { w.storage with users := markVested w.storage.users entries } w.env
      (vestingMsg poolInfo.ntrnAtomLpTokenAddress w.storage.config.vestingAtomContractAddress
          (batchAmount .atom w.storage entries) (batchAccounts .atom w.storage w.env entries) ++
        vestingMsg poolInfo.ntrnUsdcLpTokenAddress w.storage.config.vestingUsdcContractAddress
          (batchAmount .usdc w.storage entries) (batchAccounts .usdc w.storage w.env entries))
      entries poolInfo :=
    ⟨rfl, hinfo, hinitialized, hnonempty, fun e he p => (hstored e he p).2, fun _ _ _ _ => hend,
      rfl, rfl⟩
  -- the batch is part of half the LP size, so its sum fits
  have hbatch : ∀ p, batchAmount p w.storage entries < 2 ^ 128 := by
    intro p
    generalize ({ w.storage with users := markVested w.storage.users entries } : Storage) = s'
      at hvests
    have hstate : s'.state = w.storage.state := by rw [hvests.storage]
    have hvested := hvests.vested p
    have hle : s'.vested p + s'.state.lpLocked p ≤ s'.state.lpSize p / 2 :=
      (h.fits.vests hvests).vested_add_locked_le p
    have hwidth := hwide p
    rw [hstate] at hle
    omega
  obtain ⟨pack, hloop⟩ := @migrateUsers_isOk w.storage w.env hwide hend entries
    ⟨w.storage.users, [], [], 0, 0⟩ hstored
    (by rw [Nat.zero_add]; exact hbatch .atom) (by rw [Nat.zero_add]; exact hbatch .usdc)
  exact ⟨_, bind_eq_ok.mpr ⟨poolInfo, okOr_eq_ok.mpr hinfo, bind_eq_ok.mpr
    ⟨(), rejectIf_eq_ok.mpr hinitialized, bind_eq_ok.mpr
    ⟨(), rejectIf_eq_ok.mpr hnonempty, bind_eq_ok.mpr ⟨pack, hloop, rfl⟩⟩⟩⟩⟩

/-! ### Everybody in the end -/

/-- Messages without coins that the other contracts accept are executed. -/
theorem externals_isOk {n : Nat} : ∀ {msgs : List CosmosMsg} {w : World E} {ext : E},
    External msgs → msgs.flatMap CosmosMsg.coins = [] → msgs.foldlM x.exec w.ext = .ok ext →
      ∃ w', msgs.foldlM (dispatch x n) w = .ok w' := by
  intro msgs
  induction msgs with
  | nil => exact fun _ _ _ => ⟨_, rfl⟩
  | cons m ms ih =>
      intro w ext hexternal hcoins hexec
      rw [List.flatMap_cons, List.append_eq_nil_iff] at hcoins
      obtain ⟨e, he, hrest⟩ := foldlM_cons_ok.mp hexec
      have hstep : dispatch x n w m = .ok { w with ext := e, trace := w.trace ++ [m] } := by
        have hm := hexternal m List.mem_cons_self
        have hbank : w.bank.send m.coins = .ok w.bank := by
          rw [hcoins.1]
          rfl
        refine (x.calls.dispatch_of_none (asCallback_eq_none hm)).trans ?_
        have hexecuted : x.calls.exec w m = .ok (w.bank, e) :=
          bind_eq_ok.mpr ⟨w.bank, hbank, bind_eq_ok.mpr ⟨e, he, rfl⟩⟩
        exact bind_eq_ok.mpr ⟨_, hexecuted, rfl⟩
      obtain ⟨w', hw'⟩ := ih (w := { w with ext := e, trace := w.trace ++ [m] })
        (fun a ha => hexternal a (List.mem_cons_of_mem _ ha)) hcoins.2 hrest
      exact ⟨w', foldlM_cons_ok.mpr ⟨_, hstep, hw'⟩⟩

/-- A call of `MigrateToVesting` whose schedules end before time does and whose messages the LP
tokens and the vesting contracts accept, or what happens around the contract. -/
def HandsOver (x : Externals E) (w : World E) : Action E → Prop
  | .execute info msg => msg = .migrateToVesting ∧ info.sender ≠ w.env.contract ∧
      w.env.time + w.storage.config.vestingLpDuration < 2 ^ 64 ∧
      ∀ r, executeMigrateToVesting w.storage w.env = .ok r →
        ∃ ext, r.messages.foldlM x.exec w.ext = .ok ext
  | _ => True

/-- The actions that call the contract. -/
def Action.calls : Action E → Bool
  | .execute .. => true
  | _ => false

/-- A state after `InitPool` from which users are handed over. -/
structure Migrating (w : World E) : Prop where
  phased : Phased w
  minted : ¬ w.storage.Unminted
  pack : 0 < w.storage.config.vestingMigrationPackSize
  wide : w.storage.state.Wide

theorem execute_vests {info : MessageInfo} (h : Phased w) (hminted : ¬ w.storage.Unminted)
    (hexec : w.execute x info .migrateToVesting = .ok w') :
    ∃ msgs entries poolInfo, Vests w.storage w'.storage w.env msgs entries poolInfo ∧
      w'.trace = w.trace ++ msgs := by
  rcases h.vests hminted hexec with ⟨hconf, -⟩ | ⟨-, hvests⟩
  · cases hconf
  · exact hvests

/-- While somebody is not vested, a call goes through. -/
theorem Migrating.execute_isOk {info : MessageInfo} {msg : ExecuteMsg} (h : Migrating w)
    (hands : HandsOver x w (.execute info msg)) (hsome : w.storage.unvested ≠ 0) :
    ∃ w', w.exec x (.execute info msg) = .ok w' := by
  obtain ⟨rfl, hsender, hend, haccept⟩ := hands
  obtain ⟨r, hr⟩ := executeMigrateToVesting_isOk h.phased h.minted h.pack h.wide hend hsome
  obtain ⟨ext, hext⟩ := haccept r hr
  obtain ⟨entries, poolInfo, hvests⟩ := executeMigrateToVesting_ok hr
  have hexternal : External r.messages := by
    rw [hvests.messages]
    intro m hm
    rcases List.mem_append.mp hm with hm | hm <;> exact vestingMsg_external m hm
  have hcoins : r.messages.flatMap CosmosMsg.coins = [] := by
    rw [hvests.messages, List.flatMap_append, vestingMsg_coins, vestingMsg_coins]
    rfl
  obtain ⟨w', hw'⟩ := externals_isOk (n := callDepth)
    (w := { w.receive info with storage := r.storage }) hexternal hcoins hext
  exact ⟨w', bind_eq_ok.mpr ⟨(), rejectIf_eq_ok.mpr hsender, bind_eq_ok.mpr ⟨r, hr, hw'⟩⟩⟩

/-- One action of a hand-over: a call takes at least one user, or nobody is left. -/
theorem Migrating.commit {a : Action E} (h : Migrating w) (hands : HandsOver x w a) :
    Migrating (commit (World.exec x) w a) ∧
      (commit (World.exec x) w a).storage.unvested ≤
        w.storage.unvested - if a.calls then 1 else 0 := by
  cases a with
  | execute info msg =>
      rcases commit_cases (World.exec x) w (.execute info msg) with hok | hfailed
      · obtain ⟨rfl, -⟩ := hands
        obtain ⟨msgs, entries, poolInfo, hvests, -⟩ := execute_vests h.phased h.minted hok
        generalize CosmWasm.commit (World.exec x) w (.execute info .migrateToVesting) = w' at *
        have hstorage := hvests.storage
        refine ⟨⟨h.phased.exec hok, ?_, ?_, ?_⟩, ?_⟩
        · rw [hstorage]
          exact h.minted
        · rw [hstorage]
          exact h.pack
        · rw [hstorage]
          exact h.wide
        · have hcount := hvests.unvested
          have hpos := List.length_pos_of_ne_nil hvests.nonempty
          show w'.storage.unvested ≤ w.storage.unvested - 1
          omega
      · rw [hfailed]
        refine ⟨h, ?_⟩
        -- a call only fails when nobody is left
        by_cases hnone : w.storage.unvested = 0
        · rw [hnone]
          exact Nat.zero_le _
        · obtain ⟨w', hok⟩ := h.execute_isOk hands hnone
          obtain ⟨rfl, -⟩ := hands
          obtain ⟨msgs, entries, poolInfo, hvests, -⟩ := execute_vests h.phased h.minted hok
          have hcount := hvests.unvested
          have hpos := List.length_pos_of_ne_nil hvests.nonempty
          rw [commit_of_ok _ hok] at hfailed
          rw [hfailed] at hcount
          omega
  | advance seconds blocks =>
      have hphased := h.phased.exec (x := x) (a := .advance seconds blocks) rfl
      exact ⟨⟨hphased, h.minted, h.pack, h.wide⟩, le_rfl⟩
  | drift ext =>
      have hphased := h.phased.exec (x := x) (a := .drift ext) rfl
      exact ⟨⟨hphased, h.minted, h.pack, h.wide⟩, le_rfl⟩
  | donate coins =>
      have hphased := h.phased.exec (x := x) (a := .donate coins) rfl
      exact ⟨⟨hphased, h.minted, h.pack, h.wide⟩, le_rfl⟩

/-- As many calls as there are users vest all of them. -/
theorem Migrating.run : ∀ {as : List (Action E)} {w : World E}, Migrating w →
    Along (World.exec x) (HandsOver x) w as → w.storage.unvested ≤ as.countP Action.calls →
    (run (World.exec x) w as).storage.unvested = 0 := by
  intro as
  induction as with
  | nil => exact fun _ _ hcount => Nat.le_zero.mp hcount
  | cons a as ih =>
      intro w h hands hcount
      obtain ⟨hstep, hle⟩ := h.commit hands.1
      refine ih hstep hands.2 ?_
      rw [List.countP_cons] at hcount
      omega

theorem isVested_of_unvested {s : Storage} (h : s.unvested = 0) {u : Addr} {user : UserInfo}
    (huser : s.users.mayLoad u = some user) : user.isVested = true := by
  by_contra hopen
  have hle := Map.le_sum huser fun _ user => if user.isVested then 0 else 1
  have hzero : (s.users.sum fun _ user => if user.isVested then 0 else 1) = 0 := h
  rw [hzero, if_neg hopen] at hle
  cases hle

/-- The hand-over to vesting in a state of a run. -/
structure HandoverSound (x : Externals E) (w : World E) : Prop where
  /-- The vested users are registered once, and nobody else. -/
  registered : Registered w
  /-- Every vesting contract accepts what it is sent. -/
  checks : ∀ m ∈ w.trace, m.PassesChecks
  /-- Every successful call vests somebody. -/
  decreases : ∀ {info : MessageInfo} {w' : World E}, ¬ w.storage.Unminted →
    w.exec x (.execute info .migrateToVesting) = .ok w' →
    w'.storage.unvested < w.storage.unvested
  /-- A finite number of calls vests everybody. -/
  complete : ¬ w.storage.Unminted → 0 < w.storage.config.vestingMigrationPackSize →
    w.storage.state.Wide → ∀ as, Along (World.exec x) (HandsOver x) w as →
    w.storage.unvested ≤ as.countP Action.calls →
    ∀ u user, (CosmWasm.run (World.exec x) w as).storage.users.mayLoad u = some user →
      user.isVested = true

/-- Only migrations send vesting accounts. -/
theorem passesChecks_of_not_takesLp {m : CosmosMsg} (h : m.takesLp = false) : m.PassesChecks := by
  cases m with
  | lpSend => cases h
  | _ => trivial

theorem InitPools.passesChecks {w₁ : World E} {info : MessageInfo} {usdcDenom atomDenom : String}
    {poolInfo : PoolInfo} {prev cur : PoolBalance} {lockdrop : Addr}
    {provide₁ provide₂ : CosmosMsg} {msgs : List CosmosMsg}
    (hinit : InitPools x w w₁ w' info usdcDenom atomDenom poolInfo prev cur lockdrop provide₁
      provide₂ msgs) : ∀ m ∈ provide₁ :: provide₂ :: msgs, m.PassesChecks := by
  have hprovides := hinit.starts.messages
  simp only [List.cons.injEq] at hprovides
  obtain ⟨rfl, rfl, -⟩ := hprovides
  rw [hinit.finalizes.messages]
  intro m hm
  unfold lockedLpMsg at hm
  simp only [List.mem_cons, List.mem_append] at hm
  rcases hm with rfl | rfl | ((rfl | rfl | hm) | hm) | hm
  · trivial
  · trivial
  · trivial
  · trivial
  · cases hm
  · split_ifs at hm
    · cases hm
    · rw [List.mem_singleton.mp hm]
      trivial
  · split_ifs at hm
    · cases hm
    · rw [List.mem_singleton.mp hm]
      trivial

/-- The messages that a transaction adds pass their checks. -/
theorem passesChecks_execute {info : MessageInfo} {msg : ExecuteMsg} (hphased : Phased w)
    (hduration : 0 < w.storage.config.vestingLpDuration)
    (h : ∀ m ∈ w.trace, m.PassesChecks) (hexec : w.execute x info msg = .ok w') :
    ∀ m ∈ w'.trace, m.PassesChecks := by
  have hadded : ∀ {new : List CosmosMsg}, w'.trace = w.trace ++ new →
      (∀ m ∈ new, m.PassesChecks) → ∀ m ∈ w'.trace, m.PassesChecks := by
    intro new htrace hnew m hm
    rw [htrace] at hm
    rcases List.mem_append.mp hm with hm | hm
    · exact h m hm
    · exact hnew m hm
  by_cases hunminted : w.storage.Unminted
  · rcases execute_cases hexec with ⟨msgs, hresponds, hmsg⟩ | ⟨-, w₁, usdcDenom, atomDenom,
      poolInfo, prev, cur, lockdrop, provide₁, provide₂, msgs, hinit⟩
    · obtain ⟨-, hnoLp⟩ := hphased.unvested hunminted hresponds hmsg
      exact hadded hresponds.trace fun m hm => passesChecks_of_not_takesLp (hnoLp m hm)
    · exact hadded hinit.trace hinit.passesChecks
  · rcases hphased.vests hunminted hexec with ⟨-, -, htrace⟩ | ⟨-, msgs, entries, poolInfo,
      hvests, htrace⟩
    · rw [htrace]
      exact h
    · exact hadded htrace (hvests.passesChecks hduration)

/-- One call vests alice. -/
example : (CosmWasm.run (World.exec sampleExternals) sampleReady
    (aliceLocks ++ [bobInitsPool])).storage.unvested = 1 ∧
    (CosmWasm.run (World.exec sampleExternals) sampleReady
      (aliceLocks ++ [bobInitsPool, bobMigrates])).storage.unvested = 0 := by
  decide +kernel

/-! ### Schedules that never end -/

/-- The schedules end after the end of time, and everybody who is left has tokens to vest. -/
structure Unending (u : Addr) (w : World E) : Prop where
  phased : Phased w
  minted : ¬ w.storage.Unminted
  overflow : 2 ^ 64 ≤ w.env.time + w.storage.config.vestingLpDuration
  tokens : ∀ e ∈ unvestedUsers w.storage.users, vestAmount .usdc e.2 w.storage.state ≠ 0
  unvested : (w.storage.user u).isVested = false

theorem Unending.exec {u : Addr} {a : Action E} (h : Unending u w)
    (hexec : w.exec x a = .ok w') : Unending u w' := by
  obtain ⟨hterms, htime⟩ := World.exec_terms hexec
  have hoverflow : 2 ^ 64 ≤ w'.env.time + w'.storage.config.vestingLpDuration := by
    rw [hterms.vestingLpDuration]
    exact h.overflow.trans (Nat.add_le_add_right htime _)
  have hphased := h.phased.exec hexec
  cases a with
  | execute info msg =>
      rcases h.phased.vests h.minted hexec with ⟨-, hconf, -⟩ | ⟨-, msgs, entries, poolInfo,
        hvests, -⟩
      · refine ⟨hphased, ?_, hoverflow, ?_, ?_⟩
        · rw [Storage.Unminted, hconf.state]
          exact h.minted
        · rw [hconf.users, hconf.state]
          exact h.tokens
        · rw [Storage.user, hconf.users]
          exact h.unvested
      · -- the first user of the batch has tokens, whose schedule cannot be made
        obtain ⟨e, he⟩ := List.exists_mem_of_ne_nil _ hvests.nonempty
        have hmem : e ∈ unvestedUsers w.storage.users := by
          rw [hvests.entries_eq] at he
          exact List.mem_of_mem_take he
        have hend := hvests.ends e he .usdc (h.tokens e hmem)
        exact absurd h.overflow (Nat.not_le_of_lt hend)
  | _ =>
      obtain rfl := Except.ok.inj hexec
      exact ⟨hphased, h.minted, hoverflow, h.tokens, h.unvested⟩

/-- The sample auction with the longest duration there is. -/
def endlessMsg : InstantiateMsg := { sampleInstantiateMsg 10 with vestingLpDuration := 2 ^ 64 - 1 }

/-- The auction with that duration, right after `instantiate`. -/
def endlessStart : World SampleExt :=
  { sampleStart 10 with storage := endlessMsg.storage ⟨"owner", []⟩ }

/-- The state after its `InitPool`. -/
def endless : World SampleExt :=
  CosmWasm.run (World.exec sampleExternals) endlessStart
    (.execute ⟨"manager", []⟩ (.setTokenInfo (some "usdc") (some "atom") (some samplePools)) ::
      aliceLocks ++ [bobInitsPool])

end NeutronTge.Auction
