import NeutronTge.Vesting.Migration
import NeutronTge.Vesting.PclBooks

/-!
# NeutronTge.Vesting.Entitlement

A migration across the two contracts: what leaves `vesting-lp` for an account, what
`vesting-lp-pcl` grants for it, and how much of that can be claimed at once. The PCL vesting
contract joins the other contracts of `vesting-lp`; it gets the hook call when the new LP
tokens are sent to it.
-/

namespace NeutronTge.Vesting.Lp

open CosmWasm Astroport

variable {E : Type} {x : Externals E}

/-- The other contracts with the PCL vesting contract among them. Sending it LP tokens
delivers its hook, with the contract itself as the sender. -/
def Externals.withPcl (x : Externals E) : Externals (E × Pcl.Storage) where
  querier e := x.querier e.1
  exec e env
    | .migrateXykLiquidity lpToken contract amount user userVestingInfo => do
        let ext ← x.exec e.1 env
          (.migrateXykLiquidity lpToken contract amount user userVestingInfo)
        let (pcl, _) ← Pcl.execute e.2 { env with contract := contract } ⟨lpToken, []⟩
          (.receive ⟨env.contract, amount, some (.migrateXYKLiquidity user userVestingInfo)⟩)
        .ok (ext, pcl)
    | msg => do
        let ext ← x.exec e.1 env msg
        .ok (ext, e.2)

/-- The new LP tokens that messages send to the PCL vesting contract. -/
def pclSent (msgs : List CosmosMsg) : Nat :=
  (msgs.map fun
    | .migrateXykLiquidity _ _ amount _ _ => amount
    | _ => 0).sum

/-- What is sent when `amount` LP tokens leave and nothing else: they go to the user, or to
the pair that mints them. Then the two assets go to the PCL pair, and the new LP tokens, if
there are any, to the PCL vesting contract. -/
inductive Leaves (config : XykToClMigrationConfig) (lpToken address : Addr) (amount : Nat) :
    List CosmosMsg → Prop
  | nothing (hzero : amount = 0) : Leaves config lpToken address amount []
  | toUser : Leaves config lpToken address amount [.transfer (.cw20 lpToken address amount)]
  | toPair (ntrn paired minted : Nat) (slippage : Option Decimal) (info : VestingInfo) :
      Leaves config lpToken address amount
        ([.withdrawLiquidity lpToken config.xykPair amount,
          config.provides ntrn paired slippage] ++
        if minted = 0 then []
        else [.migrateXykLiquidity config.newLpToken config.pclVesting minted address info])

/-- What a migration of `account` should do: exactly the unclaimed amount leaves, the PCL
vesting contract grants exactly what it is sent, and in the end all of that can be claimed
there. -/
structure KeepsEntitlement (config : XykToClMigrationConfig) (lpToken address : Addr)
    (account : VestingInfo) (pcl pcl' : Pcl.Storage) (sent : List CosmosMsg) : Prop where
  leaves : Leaves config lpToken address account.rest sent
  granted : pcl'.base.totals.totalGranted = pcl.base.totals.totalGranted + pclSent sent
  claimable : pclSent sent ≠ 0 → ∃ last, ∀ t, last ≤ t →
    computeAvailableAmount t (pcl'.base.account address) = .ok (pclSent sent)

/-! ### The hook of the PCL vesting contract -/

/-- The PCL contract saves the account it is sent and adds what it grants. -/
theorem pcl_migrate_ok {s s' : Pcl.Storage} {env : Env} {token sender user : Addr} {amount : Nat}
    {account : VestingInfo} {msgs : List TransferMsg}
    (h : Pcl.execute s env ⟨token, []⟩
      (.receive ⟨sender, amount, some (.migrateXYKLiquidity user account)⟩) = .ok (s', msgs)) :
    s'.base.totals.totalGranted = s.base.totals.totalGranted + granted account.schedules ∧
      s'.base.totals.totalGranted < 2 ^ 128 ∧ s'.base.account user = account := by
  obtain ⟨hbooks, -⟩ := Pcl.execute_books h
  cases hbooks with
  | base _ _ _ hinto _ => cases hinto
  | migrated _ _ _ hbase hlt =>
      obtain ⟨state, hbase, hgranted, -⟩ := hbase
      refine ⟨?_, hlt, ?_⟩
      · rw [hbase, Storage.saveState_totals, hgranted]
      · rw [hbase, Storage.account, Storage.saveState_vestingInfo, Storage.mayLoad_saveInfo,
          if_pos rfl, Option.getD_some]

/-- What the new schedule grants: all that was minted when the old one has an end point, and
nothing otherwise. -/
theorem granted_newSchedule (schedule : VestingSchedule) (minted : Nat) :
    granted [newSchedule schedule minted] = if schedule.endPoint = none then 0 else minted := by
  rw [granted_cons, granted_nil]
  unfold grantedAmount newSchedule
  cases schedule.endPoint <;> simp

/-- The messages between two pairs do not reach the PCL vesting contract. -/
theorem withPcl_exec {e e' : E × Pcl.Storage} {env : Env} {msg : CosmosMsg}
    (hmsg : ∀ lpToken contract amount user info,
      msg ≠ .migrateXykLiquidity lpToken contract amount user info)
    (h : x.withPcl.exec e env msg = .ok e') : e'.2 = e.2 := by
  cases msg with
  | migrateXykLiquidity lpToken contract amount user info =>
      exact absurd rfl (hmsg lpToken contract amount user info)
  | _ =>
      simp only [Externals.withPcl, bind_eq_ok, Except.ok.injEq] at h
      obtain ⟨ext, -, rfl⟩ := h
      rfl

/-- The last messages of a migration: nothing, or the new LP tokens with the new schedule. -/
theorem withPcl_pclMsgs {e e' : E × Pcl.Storage} {env : Env} {lpToken contract user : Addr}
    {minted : Nat} {last : VestingSchedule} (hvalid : last.Valid)
    (h : x.withPcl.execAll env e
      (if minted = 0 then []
        else [.migrateXykLiquidity lpToken contract minted user ⟨[newSchedule last minted], 0⟩]) =
      .ok e') :
    e'.2.base.totals.totalGranted = e.2.base.totals.totalGranted +
        (if last.endPoint = none then 0 else minted) ∧
      (minted ≠ 0 → last.endPoint ≠ none → ∃ fin, ∀ t, fin ≤ t →
        computeAvailableAmount t (e'.2.base.account user) = .ok minted) := by
  split at h
  · rename_i hzero
    obtain rfl := Except.ok.inj h
    simp [hzero]
  · rename_i hpos
    unfold Externals.execAll at h
    have ht := foldlM_singleton_ok.mp h
    simp only [Externals.withPcl, bind_eq_ok, Except.ok.injEq] at ht
    obtain ⟨ext, -, ⟨pcl, msgs⟩, hpcl, rfl⟩ := ht
    obtain ⟨htotal, hlt, haccount⟩ := pcl_migrate_ok hpcl
    rw [granted_newSchedule] at htotal
    refine ⟨htotal, fun _ hend => ?_⟩
    rw [if_neg hend] at htotal
    obtain ⟨endPoint, hendPoint⟩ := Option.ne_none_iff_exists'.mp hend
    obtain ⟨htime, -⟩ := hvalid endPoint hendPoint
    have hnew : Pcl.Migrated ⟨[newSchedule last minted], 0⟩ minted :=
      ⟨hpos, last, hvalid, rfl⟩
    have hgranted : granted [newSchedule last minted] = minted := by
      rw [granted_newSchedule, if_neg hend]
    -- from its end point on the new schedule has vested whole
    refine ⟨endPoint.time, fun now hnow => ?_⟩
    dsimp only
    rw [haccount, computeAvailableAmount_eq hnew.covered.valid (by dsimp only; omega),
      vested_of_endsBy hnew.covered.valid, hgranted]
    · exact Uint.checkedSub_eq_ok.mpr ⟨Nat.zero_le _, rfl⟩
    · intro sch hsch
      obtain rfl := List.mem_singleton.mp hsch
      refine ⟨?_, fun e he => ?_⟩
      · show last.startPoint.time ≤ now
        omega
      · obtain ⟨old, hold, rfl⟩ := Option.mem_map.mp he
        obtain rfl := Option.some.inj (hendPoint.symm.trans hold)
        exact hnow

/-! ### Entitlements -/

/-- How many new LP tokens the pairs make of the share of `account`, by their own answers:
none when it is worth too little to go through them, and else what the balance of the
contract grows by when it provides the liquidity. -/
inductive Mints (x : Externals E) (ext : E) (env : Env) (config : XykToClMigrationConfig)
    (share : Nat) : Nat → Prop
  | dust (assets : List Asset)
      (hassets : (x.querier ext).share config.xykPair share = .ok assets)
      (hdust : ∃ a ∈ assets, a.amount = 0) : Mints x ext env config share 0
  | provided (lpToken : Addr) (withdrawn provided : E) (provide : CosmosMsg)
      (before minted : Nat)
      (hwithdraw : x.exec ext env (.withdrawLiquidity lpToken config.xykPair share) =
        .ok withdrawn)
      (hprovide : ∃ ntrn paired slippage, provide = config.provides ntrn paired slippage)
      (hprovided : x.exec withdrawn env provide = .ok provided)
      (hbefore : (x.querier withdrawn).tokenBalance config.newLpToken = .ok before)
      (hminted : (x.querier provided).tokenBalance config.newLpToken = .ok (before + minted)) :
      Mints x ext env config share minted

/-- The transfer of dust takes the share, and no other amount, out of the contract. -/
theorem leaves_transfer_iff {config : XykToClMigrationConfig} {address lpToken : Addr}
    {amount share : Nat} :
    Leaves config lpToken address amount (if share = 0 then []
      else [.transfer (.cw20 lpToken address share)]) ↔ amount = share := by
  split
  · rename_i hzero
    refine ⟨fun h => ?_, fun h => .nothing (h.trans hzero)⟩
    generalize hsent : ([] : List CosmosMsg) = sent at h
    cases h with
    | nothing hamount => rw [hamount, hzero]
    | toUser => cases hsent
    | toPair => cases hsent
  · refine ⟨fun h => ?_, fun h => ?_⟩
    · generalize hsent : [CosmosMsg.transfer (.cw20 lpToken address share)] = sent at h
      cases h with
      | nothing => cases hsent
      | toUser =>
          injection hsent with hhead
          injection hhead with htransfer
          injection htransfer with _ _ hamount
          exact hamount.symm
      | toPair => cases hsent
    · rw [h]
      exact .toUser

/-- So does the way through the pairs. -/
theorem leaves_moved_iff {config : XykToClMigrationConfig} {address lpToken : Addr}
    {amount share ntrn paired minted : Nat} {slippage : Option Decimal} {info : VestingInfo} :
    Leaves config lpToken address amount
      ([.withdrawLiquidity lpToken config.xykPair share, config.provides ntrn paired slippage] ++
        if minted = 0 then []
        else [.migrateXykLiquidity config.newLpToken config.pclVesting minted address info]) ↔
      amount = share := by
  refine ⟨fun h => ?_, fun h => ?_⟩
  · generalize hsent : ([CosmosMsg.withdrawLiquidity lpToken config.xykPair share,
      config.provides ntrn paired slippage] ++ _) = sent at h
    cases h with
    | nothing => cases hsent
    | toUser => cases hsent
    | toPair =>
        injection hsent with hhead
        injection hhead with _ _ hamount
        exact hamount.symm
  · rw [h]
    exact .toPair ntrn paired minted slippage info

/-- The share is the unclaimed amount exactly when the schedules without end point grant
nothing. -/
theorem rest_eq_share_iff {account : VestingInfo} {share : Nat}
    (h : computeShare account = .ok share) :
    account.rest = share ↔ endless account.schedules = 0 := by
  have hsum := computeShare_ok h
  unfold VestingInfo.rest
  omega

@[simp] theorem pclSent_append (xs ys : List CosmosMsg) :
    pclSent (xs ++ ys) = pclSent xs + pclSent ys := by
  simp [pclSent]

theorem pclSent_moved {config : XykToClMigrationConfig} {lpToken pair user : Addr}
    {share ntrn paired minted : Nat} {slippage : Option Decimal} {info : VestingInfo} :
    pclSent ([.withdrawLiquidity lpToken pair share, config.provides ntrn paired slippage] ++
      if minted = 0 then []
      else [.migrateXykLiquidity config.newLpToken config.pclVesting minted user info]) =
      minted := by
  rw [pclSent_append]
  split
  · rename_i hzero
    rw [hzero]
    rfl
  · simp [pclSent, XykToClMigrationConfig.provides]

/-- A completed migration keeps the entitlement of its account exactly when the schedules
without end point grant nothing and, if any new LP tokens were minted, the last schedule has
an end point. -/
theorem migration_keeps_entitlement_iff {w w' : World (E × Pcl.Storage)} {info : MessageInfo}
    {user : Option Addr}
    (hvalid : ∀ account, w.storage.base.vestingInfo.mayLoad (user.getD info.sender) =
      some account → ∀ sch ∈ account.schedules, sch.Valid)
    (h : w.execute x.withPcl info (.migrateLiquidityToPCLPool user) = .ok w') :
    ∃ account config lpToken share sent minted,
      w.storage.base.vestingInfo.mayLoad (user.getD info.sender) = some account ∧
      w.storage.migrationConfig = some config ∧
      (x.querier w.ext.1).liquidityToken config.xykPair = .ok lpToken ∧
      computeShare account = .ok share ∧ w'.trace = w.trace ++ sent ∧
      Mints x.withPcl w.ext w.env config share minted ∧
      (KeepsEntitlement config lpToken (user.getD info.sender) account w.ext.2 w'.ext.2 sent ↔
        endless account.schedules = 0 ∧
          (minted ≠ 0 → ∀ last ∈ account.schedules.getLast?, last.endPoint ≠ none)) := by
  obtain ⟨account, hload, hmigrates⟩ := execute_migrate_ok h
  cases hmigrates with
  | sent config lpToken share assets hconfig hlpToken hshare hassets hdust hmsgs htrace henv
      hstorage =>
      refine ⟨account, config, lpToken, share, _, 0, hload, hconfig, hlpToken, hshare, htrace,
        .dust assets hassets hdust, ?_⟩
      -- dust never reaches the PCL vesting contract
      have hpcl : w'.ext.2 = w.ext.2 := by
        split at hmsgs
        · have hext : w'.ext = w.ext := (Except.ok.inj hmsgs).symm
          rw [hext]
        · unfold Externals.execAll at hmsgs
          exact withPcl_exec (by simp) (foldlM_singleton_ok.mp hmsgs)
      have hsent : pclSent (if share = 0 then []
          else [.transfer (.cw20 lpToken (user.getD info.sender) share)]) = 0 := by
        split <;> rfl
      constructor
      · intro hkeeps
        refine ⟨?_, fun hminted => absurd rfl hminted⟩
        rw [← rest_eq_share_iff hshare]
        exact leaves_transfer_iff.mp hkeeps.leaves
      · rintro ⟨hendless, -⟩
        refine ⟨?_, by rw [hsent, hpcl, Nat.add_zero], fun hne => absurd hsent hne⟩
        rw [(rest_eq_share_iff hshare).mpr hendless]
        exact leaves_transfer_iff.mpr rfl
  | moved config lpToken share assets withdrawn provided provide before minted last hconfig hlpToken
      hshare hassets hworth hgranted hwithdraw hprovide hprovided hbefore hminted hlast hmsgs
      htrace henv hstorage =>
      rw [List.append_assoc] at htrace
      refine ⟨account, config, lpToken, share, _, minted, hload, hconfig, hlpToken, hshare, htrace,
        .provided lpToken withdrawn provided provide before minted hwithdraw hprovide hprovided
          hbefore hminted, ?_⟩
      have hlastValid : last.Valid := hvalid account hload last (List.mem_of_getLast? hlast)
      obtain ⟨ntrn, paired, slippage, rfl⟩ := hprovide
      have hpcl : provided.2 = w.ext.2 :=
        (withPcl_exec (by simp [XykToClMigrationConfig.provides]) hprovided).trans
          (withPcl_exec (by simp) hwithdraw)
      -- what arrives there is one schedule over the minted tokens, with the last one's dates
      obtain ⟨htotal, hclaimable⟩ := withPcl_pclMsgs hlastValid hmsgs
      rw [hpcl] at htotal
      constructor
      · intro hkeeps
        refine ⟨?_, fun hne last' hlast' hnone => ?_⟩
        · rw [← rest_eq_share_iff hshare]
          exact leaves_moved_iff.mp hkeeps.leaves
        · obtain rfl := Option.some.inj (hlast.symm.trans hlast')
          have hsame := hkeeps.granted
          rw [pclSent_moved, htotal, if_pos hnone] at hsame
          omega
      · rintro ⟨hendless, hends⟩
        refine ⟨?_, ?_, ?_⟩
        · rw [(rest_eq_share_iff hshare).mpr hendless]
          exact leaves_moved_iff.mpr rfl
        · rw [pclSent_moved, htotal]
          split
          · rename_i hnone
            by_cases hzero : minted = 0
            · rw [hzero]
            · exact absurd hnone (hends hzero last hlast)
          · rfl
        · rw [pclSent_moved]
          exact fun hne => hclaimable hne (hends hne last hlast)

/-! ### The pace of vesting -/

/-- No migration of `account` at time `t` makes a larger part of the new LP tokens claimable
than was claimable of the old ones, up to one unit. -/
def KeepsPace (account : VestingInfo) (t : Nat) : Prop :=
  ∀ (E : Type) (x : Externals E) (w w' : World (E × Pcl.Storage)) (info : MessageInfo)
    (user : Option Addr) (sent : List CosmosMsg) (available pclAvailable : Nat),
    w.env.time = t →
    w.storage.base.vestingInfo.mayLoad (user.getD info.sender) = some account →
    w.execute x.withPcl info (.migrateLiquidityToPCLPool user) = .ok w' →
    w'.trace = w.trace ++ sent → pclSent sent ≠ 0 →
    computeAvailableAmount t account = .ok available →
    computeAvailableAmount t (w'.ext.2.base.account (user.getD info.sender)) =
      .ok pclAvailable →
    pclAvailable * account.rest ≤
      (available + 1) * (w'.ext.2.base.totals.totalGranted - w.ext.2.base.totals.totalGranted)

/-- What the new schedule has vested: the elapsed part of what was minted. -/
theorem vested_newSchedule (schedule : VestingSchedule) (minted t : Nat) :
    vested t [newSchedule schedule minted] =
      schedule.endPoint.elim 0 fun endPoint =>
        (min t endPoint.time - schedule.startPoint.time) * minted /
          (endPoint.time - schedule.startPoint.time) := by
  rw [vested_cons, vested_nil, Nat.add_zero]
  unfold vestedAmount newSchedule
  dsimp only
  cases schedule.endPoint with
  | none => simp
  | some endPoint =>
      simp only [Option.map_some, Option.elim_some, Nat.zero_add, Nat.sub_zero]
      split
      · rename_i hbefore
        rw [show min t endPoint.time - schedule.startPoint.time = 0 by omega]
        simp
      · rfl

/-- A completed migration leaves the new schedule of what was minted in the PCL contract. -/
theorem pcl_after_migration {w w' : World (E × Pcl.Storage)} {info : MessageInfo}
    {user : Option Addr} {sent : List CosmosMsg} {account : VestingInfo}
    (hload : w.storage.base.vestingInfo.mayLoad (user.getD info.sender) = some account)
    (h : w.execute x.withPcl info (.migrateLiquidityToPCLPool user) = .ok w')
    (htrace : w'.trace = w.trace ++ sent) (hsent : pclSent sent ≠ 0) :
    ∃ last, account.schedules.getLast? = some last ∧
      w'.ext.2.base.account (user.getD info.sender) = ⟨[newSchedule last (pclSent sent)], 0⟩ ∧
      w'.ext.2.base.totals.totalGranted = w.ext.2.base.totals.totalGranted +
        granted [newSchedule last (pclSent sent)] ∧
      w'.ext.2.base.totals.totalGranted < 2 ^ 128 := by
  obtain ⟨account', hload', hmigrates⟩ := execute_migrate_ok h
  obtain rfl := Option.some.inj (hload.symm.trans hload')
  cases hmigrates with
  | sent config lpToken share assets hconfig _ hshare hassets hdust hmsgs htrace' henv hstorage =>
      obtain rfl := List.append_cancel_left (htrace.symm.trans htrace')
      -- dust sends nothing to the PCL contract
      refine absurd ?_ hsent
      split <;> rfl
  | moved config lpToken share assets withdrawn provided provide before minted last hconfig _ hshare
      hassets hworth hgranted hwithdraw hprovide hprovided hbefore hminted hlast hmsgs htrace' henv
      hstorage =>
      obtain ⟨ntrn, paired, slippage, rfl⟩ := hprovide
      rw [List.append_assoc] at htrace'
      obtain rfl := List.append_cancel_left (htrace.symm.trans htrace')
      rw [pclSent_moved] at hsent ⊢
      have hpcl : provided.2 = w.ext.2 :=
        (withPcl_exec (by simp [XykToClMigrationConfig.provides]) hprovided).trans
          (withPcl_exec (by simp) hwithdraw)
      rw [if_neg hsent] at hmsgs
      unfold Externals.execAll at hmsgs
      rw [List.foldlM_cons, bind_eq_ok] at hmsgs
      obtain ⟨e, he, hmsgs⟩ := hmsgs
      have hext : w'.ext = e := (Except.ok.inj hmsgs).symm
      simp only [Externals.withPcl, bind_eq_ok, Except.ok.injEq] at he
      obtain ⟨ext, -, ⟨pcl, msgs⟩, hexec, rfl⟩ := he
      obtain ⟨htotal, hlt, haccount⟩ := pcl_migrate_ok hexec
      rw [hpcl] at htotal
      rw [hext]
      exact ⟨last, hlast, haccount, htotal, hlt⟩

/-! ### A pool that mints any amount

The pool for the other direction: it mints `minted` new LP tokens whatever it is given. -/

/-- Pairs in which nothing is left to withdraw and any provision mints `minted` LP tokens. -/
def mintingExternals (minted : Nat) : Externals Nat where
  querier balance :=
    { liquidityToken := fun _ => .ok "xyk_lp"
      share := fun _ _ => .ok []
      balance := fun _ => .ok 0
      tokenBalance := fun _ => .ok balance }
  exec balance _
    | .provideLiquidity _ _ _ _ => .ok (balance + minted)
    | _ => .ok balance

/-- Alice has the account `account` and nobody else has one. -/
def mintingWorld (account : VestingInfo) (share time : Nat) : World (Nat × Pcl.Storage) where
  storage :=
    { base :=
        { (instantiate sampleInstantiateMsg).base with
          vestingInfo := SnapshotMap.empty.save "alice" account 0
          vestingState := SnapshotMap.empty.save () ⟨share, 0⟩ 0 }
      migrationConfig := some sampleConfig }
  ext := (0, Pcl.instantiate Pcl.sampleMsg)
  env := ⟨time, 0, "vesting_lp"⟩
  trace := []

/-- A new PCL contract takes over any account that grants less than 2 ^ 128. -/
theorem pcl_accepts (account : VestingInfo) (env : Env) (user : Addr) (amount : Nat)
    (hlt : granted account.schedules < 2 ^ 128) :
    ∃ r, Pcl.execute (Pcl.instantiate Pcl.sampleMsg) env ⟨"pcl_lp", []⟩
      (.receive ⟨"vesting_lp", amount, some (.migrateXYKLiquidity user account)⟩) = .ok r := by
  have hadd : addGranted 0 account.schedules = .ok (granted account.schedules) := by
    rw [addGranted_of_lt (by omega), Nat.zero_add]
  have hgrant : ∃ base, grantTotal ((Pcl.instantiate Pcl.sampleMsg).base.saveInfo user account
      env.height) (granted account.schedules) env.height = .ok base := by
    unfold grantTotal
    simp only [bind_eq_ok, mapError_eq_ok, Uint.checkedAdd_eq_ok, Except.ok.injEq]
    exact ⟨_, _, ⟨by show 0 + _ < _; omega, rfl⟩, rfl⟩
  obtain ⟨base, hgrant⟩ := hgrant
  refine ⟨({ Pcl.instantiate Pcl.sampleMsg with base := base }, []), ?_⟩
  simp only [Pcl.execute, Pcl.receiveCw20, bind_eq_ok]
  refine ⟨_, rfl, _, rfl, ?_⟩
  simp only [bind_eq_ok, rejectIf_eq_ok, exists_const, Pcl.handleMigrateXykLiquidity,
    mapError_eq_ok]
  exact ⟨by decide, _, hadd, base, hgrant, rfl⟩

/-- The migration of Alice's account goes through the pool. -/
theorem minting_migrates {account : VestingInfo} {share minted : Nat} {last : VestingSchedule}
    (time : Nat) (hshare : computeShare account = .ok share)
    (hlast : account.schedules.getLast? = some last) (hpos : minted ≠ 0)
    (hlt : minted < 2 ^ 128) :
    ∃ w' sent, (mintingWorld account share time).execute (mintingExternals minted).withPcl
        ⟨"alice", []⟩ (.migrateLiquidityToPCLPool none) = .ok w' ∧
      w'.trace = (mintingWorld account share time).trace ++ sent ∧ pclSent sent = minted := by
  have hgranted : granted [newSchedule last minted] < 2 ^ 128 := by
    rw [granted_newSchedule]
    split <;> omega
  obtain ⟨⟨pcl, msgs⟩, hpcl⟩ := pcl_accepts ⟨[newSchedule last minted], 0⟩
    ⟨time, 0, "vesting_lp_pcl"⟩ "alice" minted hgranted
  have hne : ("alice" : String) ≠ "vesting_lp" := by decide
  simp [World.execute, execute, executeMigrateLiquidity, mintingWorld, bind_eq_ok, okOr_eq_ok,
    mapError_eq_ok, rejectIf_eq_ok, exists_const, hshare, hlast, SnapshotMap.load,
    Map.load_eq_ok, SnapshotMap.save, Externals.withPcl, mintingExternals, callDepth, dispatch,
    Calls.dispatch, Calls.send, Externals.calls, CosmosMsg.asCallback, handleCallback,
    migrateLiquidityToClPairCallback, provideLiquidityToClPairAfterWithdrawalCallback,
    postMigrationVestingRescheduleCallback, Uint.checkedSub_eq_ok, sampleConfig, hpos,
    SnapshotMap.mayLoad, hne, hpcl]
  simp [pclSent]

/-- The elapsed part of the last schedule, of what is unclaimed, is at most what is
claimable, up to one unit. -/
def LastIsBehind (account : VestingInfo) (t : Nat) : Prop :=
  ∀ last ∈ account.schedules.getLast?, ∀ endPoint ∈ last.endPoint,
    (min t endPoint.time - last.startPoint.time) * account.rest ≤
      (vested t account.schedules - account.releasedAmount + 1) *
        (endPoint.time - last.startPoint.time)

/-- An elapsed part, rounded down, in proportion to the whole. -/
theorem part_mul_le {passed period minted rest bound : Nat} (hperiod : 0 < period)
    (h : passed * rest ≤ bound * period) : passed * minted / period * rest ≤ bound * minted := by
  refine Nat.le_of_mul_le_mul_right ?_ hperiod
  calc passed * minted / period * rest * period
      = passed * minted / period * period * rest := by ring
    _ ≤ passed * minted * rest := Nat.mul_le_mul_right _ (Nat.div_mul_le_self _ _)
    _ = passed * rest * minted := by ring
    _ ≤ bound * period * minted := Nat.mul_le_mul_right _ h
    _ = bound * minted * period := by ring

/-- Migrations of an account keep the pace of its vesting exactly when its last schedule is
not ahead of all its schedules together. -/
theorem keepsPace_iff {account : VestingInfo} {t share : Nat} (hearned : account.Earned t)
    (hlt : granted account.schedules < 2 ^ 128)
    (htimes : ∀ sch ∈ account.schedules, ∀ endPoint ∈ sch.endPoint, endPoint.time < 2 ^ 64)
    (hshare : computeShare account = .ok share) :
    KeepsPace account t ↔ LastIsBehind account t := by
  have havailable := hearned.available hlt (le_refl t)
  constructor
  · -- the pool that mints as many tokens as the period has seconds
    intro hpace last hlast endPoint hend
    have hmem : last ∈ account.schedules := List.mem_of_getLast? hlast
    obtain ⟨htime, -⟩ := hearned.valid last hmem endPoint hend
    have hbound := htimes last hmem endPoint hend
    let period := endPoint.time - last.startPoint.time
    have hpos : period ≠ 0 := Nat.sub_ne_zero_of_lt htime
    have hsmall : period < 2 ^ 128 := by omega
    obtain ⟨w', sent, hexec, htrace, hsent⟩ :=
      minting_migrates t hshare hlast hpos hsmall
    have hload : (mintingWorld account share t).storage.base.vestingInfo.mayLoad "alice" =
        some account := SnapshotMap.mayLoad_save ..
    obtain ⟨last', hlast', haccount, htotal, hltTotal⟩ :=
      pcl_after_migration hload hexec htrace (by rw [hsent]; exact hpos)
    obtain rfl := Option.some.inj (hlast.symm.trans hlast')
    rw [hsent] at haccount htotal
    change w'.ext.2.base.account "alice" = _ at haccount
    have hnew : Pcl.Migrated ⟨[newSchedule last period], 0⟩ period :=
      ⟨hpos, last, hearned.valid last hmem, rfl⟩
    have hpcl : computeAvailableAmount t (w'.ext.2.base.account "alice") =
        .ok (vested t [newSchedule last period]) := by
      rw [haccount, computeAvailableAmount_eq hnew.covered.valid (by dsimp only; omega)]
      exact Uint.checkedSub_eq_ok.mpr ⟨Nat.zero_le _, rfl⟩
    have hle := hpace Nat (mintingExternals period) _ w' ⟨"alice", []⟩ none sent _ _ rfl hload
      hexec htrace (by rw [hsent]; exact hpos) havailable hpcl
    rw [htotal, Nat.add_sub_cancel_left, vested_newSchedule, granted_newSchedule] at hle
    rw [show last.endPoint = some endPoint from hend, Option.elim_some, if_neg (by simp),
      Nat.mul_div_cancel _ (Nat.pos_of_ne_zero hpos)] at hle
    exact hle
  · intro hbehind E x w w' info user sent available pclAvailable _ hload hexec htrace hsent
      havailable' hpclAvailable
    obtain rfl := Except.ok.inj (havailable.symm.trans havailable')
    obtain ⟨last, hlast, haccount, htotal, hltTotal⟩ :=
      pcl_after_migration hload hexec htrace hsent
    have hvalid : last.Valid := hearned.valid last (List.mem_of_getLast? hlast)
    have hnew : Pcl.Migrated ⟨[newSchedule last (pclSent sent)], 0⟩ (pclSent sent) :=
      ⟨hsent, last, hvalid, rfl⟩
    rw [haccount, computeAvailableAmount_eq hnew.covered.valid (by dsimp only; omega),
      Uint.checkedSub_eq_ok] at hpclAvailable
    obtain ⟨-, rfl⟩ := hpclAvailable
    rw [htotal, Nat.add_sub_cancel_left, vested_newSchedule, granted_newSchedule, Nat.sub_zero]
    cases hend : last.endPoint with
    | none => simp
    | some endPoint =>
        rw [Option.elim_some, if_neg (by simp)]
        obtain ⟨htime, -⟩ := hvalid endPoint hend
        exact part_mul_le (Nat.sub_pos_of_lt htime) (hbehind last hlast endPoint hend)

/-! ### Migrations of concrete accounts -/

/-- A contract and its PCL vesting contract, right after they were created. -/
def sampleWorld : World (SampleExt × Pcl.Storage) :=
  World.start sampleInstantiateMsg (⟨0, 0, 0⟩, Pcl.instantiate Pcl.sampleMsg)
    ⟨0, 1, "vesting_lp"⟩

/-- One schedule of 1000 tokens from 0 to 100. -/
def sampleAccount : VestingInfo := ⟨[⟨⟨0, 0⟩, some ⟨100, 1000⟩⟩], 0⟩

/-- The entitlement of an account with one schedule is kept. -/
theorem migration_keeps_entitlement_iff_sample :
    ∃ w' sent, (mintingWorld sampleAccount 1000 0).execute (mintingExternals 7).withPcl
        ⟨"alice", []⟩ (.migrateLiquidityToPCLPool none) = .ok w' ∧
      KeepsEntitlement sampleConfig "xyk_lp" "alice" sampleAccount
        (mintingWorld sampleAccount 1000 0).ext.2 w'.ext.2 sent := by
  obtain ⟨w', -, hexec, -, -⟩ := minting_migrates 0
    (show computeShare sampleAccount = .ok 1000 by decide)
    (show _ = some ⟨⟨0, 0⟩, some ⟨100, 1000⟩⟩ from rfl) (show 7 ≠ 0 by decide) (by decide)
  have hvalid : ∀ account,
      (mintingWorld sampleAccount 1000 0).storage.base.vestingInfo.mayLoad
        ((none : Option Addr).getD (MessageInfo.mk "alice" []).sender) = some account →
        ∀ sch ∈ account.schedules, sch.Valid := by
    intro account hload sch hsch endPoint hend
    obtain rfl := Option.some.inj ((show _ = some sampleAccount from rfl).symm.trans hload)
    obtain rfl := List.mem_singleton.mp hsch
    obtain rfl := Option.some.inj hend
    decide
  obtain ⟨account, config, lpToken, share, sent, minted, hload, hconfig, hlpToken, -, -, -, hiff⟩ :=
    migration_keeps_entitlement_iff hvalid hexec
  obtain rfl := Option.some.inj ((show _ = some sampleAccount from rfl).symm.trans hload)
  obtain rfl := Option.some.inj ((show _ = some sampleConfig from rfl).symm.trans hconfig)
  obtain rfl := Except.ok.inj ((show _ = Except.ok "xyk_lp" from rfl).symm.trans hlpToken)
  refine ⟨w', sent, hexec, hiff.mpr ⟨by decide, fun _ last hlast hnone => ?_⟩⟩
  obtain rfl := Option.some.inj hlast
  cases hnone

/-- Alice has 1000 tokens with an end point and, last in her list, 100 without. Only the
1000 are withdrawn, and the PCL contract grants nothing of the 100 new LP tokens it is
sent. -/
theorem endless_entitlement_lost :
    ∃ w w', run (World.exec sampleExternals.withPcl) sampleWorld
        (sampleSetup [⟨⟨0, 0⟩, some ⟨100, 1000⟩⟩, ⟨⟨0, 100⟩, none⟩] 1100) = w ∧
      w.exec sampleExternals.withPcl sampleMigration = .ok w' ∧
      (w.storage.base.account "alice").rest = 1100 ∧ pclSent w'.trace = 100 ∧
      w'.ext.2.base.totals = ⟨0, 0⟩ ∧
      ¬ KeepsEntitlement sampleConfig "xyk_lp" "alice" (w.storage.base.account "alice") w.ext.2
        w'.ext.2 w'.trace := by
  refine ⟨_, _, rfl, ok_of_isOk _ (by decide +kernel), by decide +kernel, by decide +kernel,
    by decide +kernel, fun h => ?_⟩
  have hgranted := h.granted
  revert hgranted
  decide +kernel

/-- A migration at time 50 of an account that has claimed nothing. -/
theorem keepsPace_iff_sample : KeepsPace sampleAccount 50 ↔ LastIsBehind sampleAccount 50 :=
  keepsPace_iff
    ⟨fun sch hsch endPoint hend => by
      obtain rfl := List.mem_singleton.mp hsch
      obtain rfl := Option.some.inj hend
      decide, by decide⟩
    (by decide)
    (fun sch hsch endPoint hend => by
      obtain rfl := List.mem_singleton.mp hsch
      obtain rfl := Option.some.inj hend
      decide)
    (show computeShare sampleAccount = .ok 1000 by decide)

/-- Alice has claimed the 500 of her 1000 tokens that have vested at time 50. -/
def claimedWorld : World (SampleExt × Pcl.Storage) :=
  run (World.exec sampleExternals.withPcl) sampleWorld
    (sampleSetup [⟨⟨0, 0⟩, some ⟨100, 1000⟩⟩] 1000 ++
      [.advance 50 5, .execute ⟨"alice", []⟩ (.claim none none)])

/-- When she is migrated then, nothing of her old LP tokens is claimable, but 25 of the 50
new ones are. -/
theorem migration_accelerates :
    ∃ w', claimedWorld.exec sampleExternals.withPcl sampleMigration = .ok w' ∧
      computeAvailableAmount 50 (claimedWorld.storage.base.account "alice") = .ok 0 ∧
      (claimedWorld.storage.base.account "alice").rest = 500 ∧
      computeAvailableAmount 50 (w'.ext.2.base.account "alice") = .ok 25 ∧
      w'.ext.2.base.totals = ⟨50, 0⟩ ∧
      ¬ KeepsPace (claimedWorld.storage.base.account "alice") 50 := by
  have hexec : claimedWorld.exec sampleExternals.withPcl sampleMigration =
      .ok (commit (World.exec sampleExternals.withPcl) claimedWorld sampleMigration) :=
    ok_of_isOk _ (by decide +kernel)
  have hxyk : computeAvailableAmount 50 (claimedWorld.storage.base.account "alice") = .ok 0 := by
    decide +kernel
  have hpcl : computeAvailableAmount 50
      ((commit (World.exec sampleExternals.withPcl) claimedWorld
        sampleMigration).ext.2.base.account "alice") = .ok 25 := by decide +kernel
  refine ⟨_, hexec, hxyk, by decide +kernel, hpcl, by decide +kernel, fun hpace => ?_⟩
  have hle := hpace _ _ claimedWorld _ ⟨"anybody", []⟩ (some "alice")
    ((commit (World.exec sampleExternals.withPcl) claimedWorld sampleMigration).trace.drop 1)
    0 25 (by decide +kernel) (by decide +kernel) hexec (by decide +kernel) (by decide +kernel)
    hxyk hpcl
  revert hle
  decide +kernel

end NeutronTge.Vesting.Lp
