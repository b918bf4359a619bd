import NeutronTge.Vesting.Consistency
import NeutronTge.Vesting.Lp

/-!
# NeutronTge.Vesting.Migration

A migration transaction of `vesting-lp` taken apart (`Migrates`), and what migrations do to
the books of the contract.
-/

namespace NeutronTge.Vesting.Lp

open CosmWasm Astroport

variable {E : Type} {x : Externals E}

/-! ### Messages to other contracts -/

/-- The other contracts after some messages of the contract. -/
def Externals.execAll (x : Externals E) (env : Env) (ext : E) (msgs : List CosmosMsg) :
    Except ContractError E :=
  msgs.foldlM (fun e m => x.exec e env m) ext

theorem asCallback_eq_none {msg : CosmosMsg} (hmsg : ∀ c, msg ≠ .callback c) :
    msg.asCallback = none := by
  cases msg with
  | callback c => exact absurd rfl (hmsg c)
  | _ => rfl

theorem dispatch_external {n : Nat} {w w' : World E} {msg : CosmosMsg}
    (hmsg : ∀ c, msg ≠ .callback c) (h : dispatch x n w msg = .ok w') :
    ∃ ext, x.exec w.ext w.env msg = .ok ext ∧
      w' = { w with ext := ext, trace := w.trace ++ [msg] } :=
  x.calls.dispatch_external (asCallback_eq_none hmsg) h

/-- Messages to other contracts leave the storage alone. -/
theorem dispatch_externals {n : Nat} : ∀ {msgs : List CosmosMsg} {w w' : World E},
    (∀ m ∈ msgs, ∀ c, m ≠ .callback c) → msgs.foldlM (dispatch x n) w = .ok w' →
      ∃ ext, x.execAll w.env w.ext msgs = .ok ext ∧
        w' = { w with ext := ext, trace := w.trace ++ msgs } := by
  intro msgs
  induction msgs with
  | nil =>
      intro w w' _ h
      obtain rfl := Except.ok.inj h
      exact ⟨w.ext, rfl, by simp⟩
  | cons m ms ih =>
      intro w w' hext h
      obtain ⟨t, ht, hrest⟩ := foldlM_cons_ok.mp h
      obtain ⟨ext, hexec, rfl⟩ := dispatch_external (hext m List.mem_cons_self) ht
      obtain ⟨ext', hrun, rfl⟩ := ih (fun a ha => hext a (List.mem_cons_of_mem _ ha)) hrest
      exact ⟨ext', foldlM_cons_ok.mpr ⟨ext, hexec, hrun⟩, by simp⟩

theorem dispatch_callback {n : Nat} {w w' : World E} {msg : CallbackMsg}
    (h : dispatch x n w (.callback msg) = .ok w') :
    ∃ m r, handleCallback (x.querier w.ext) w.storage w.env msg = .ok r ∧
      r.messages.foldlM (dispatch x m) { w with storage := r.storage } = .ok w' :=
  x.calls.dispatch_callback rfl h

/-- A message to another contract and then a callback. -/
theorem dispatch_then_callback {n : Nat} {w w' : World E} {msg : CosmosMsg} {c : CallbackMsg}
    (hmsg : ∀ c, msg ≠ .callback c) (h : [msg, .callback c].foldlM (dispatch x n) w = .ok w') :
    ∃ ext m r, x.exec w.ext w.env msg = .ok ext ∧
      handleCallback (x.querier ext) w.storage w.env c = .ok r ∧
      r.messages.foldlM (dispatch x m)
        { w with storage := r.storage, ext := ext, trace := w.trace ++ [msg] } = .ok w' := by
  obtain ⟨t, ht, h⟩ := foldlM_cons_ok.mp h
  obtain ⟨ext, hext, rfl⟩ := dispatch_external hmsg ht
  obtain ⟨m, r, hr, hrun⟩ := dispatch_callback (foldlM_singleton_ok.mp h)
  exact ⟨ext, m, r, hext, hr, hrun⟩

/-! ### A migration -/

/-- The migrated account: no schedules, nothing released. -/
def emptied : VestingInfo := ⟨[], 0⟩

/-- The message that gives the withdrawn assets to the PCL pair. -/
def XykToClMigrationConfig.provides (config : XykToClMigrationConfig) (ntrn paired : Nat)
    (slippage : Option Decimal) : CosmosMsg :=
  .provideLiquidity config.clPair
    [⟨.nativeToken config.ntrnDenom, ntrn⟩, ⟨.nativeToken config.pairedDenom, paired⟩] slippage
    [⟨config.ntrnDenom, ntrn⟩, ⟨config.pairedDenom, paired⟩]

/-- The two ways a migration of `account` can go. -/
inductive Migrates (x : Externals E) (address : Addr) (account : VestingInfo)
    (w w' : World E) : Prop
  /-- The share is worth too little: it is sent to the user. -/
  | sent (config : XykToClMigrationConfig) (lpToken : Addr) (share : Nat) (assets : List Asset)
      (hconfig : w.storage.migrationConfig = some config)
      (hlpToken : (x.querier w.ext).liquidityToken config.xykPair = .ok lpToken)
      (hshare : computeShare account = .ok share)
      (hassets : (x.querier w.ext).share config.xykPair share = .ok assets)
      (hdust : ∃ a ∈ assets, a.amount = 0)
      (hmsgs : x.execAll w.env w.ext
        (if share = 0 then [] else [.transfer (.cw20 lpToken address share)]) = .ok w'.ext)
      (htrace : w'.trace = w.trace ++
        if share = 0 then [] else [.transfer (.cw20 lpToken address share)])
      (henv : w'.env = w.env)
      (hstorage : w'.storage = { w.storage with
        base := if account.schedules = [] then w.storage.base
          else w.storage.base.saveInfo address emptied w.env.height })
  /-- The share goes through the pairs: `minted` new LP tokens go to the PCL vesting
  contract. -/
  | moved (config : XykToClMigrationConfig) (lpToken : Addr) (share : Nat) (assets : List Asset)
      (withdrawn provided : E) (provide : CosmosMsg) (before minted : Nat)
      (last : VestingSchedule)
      (hconfig : w.storage.migrationConfig = some config)
      (hlpToken : (x.querier w.ext).liquidityToken config.xykPair = .ok lpToken)
      (hshare : computeShare account = .ok share)
      (hassets : (x.querier w.ext).share config.xykPair share = .ok assets)
      (hworth : ∀ a ∈ assets, a.amount ≠ 0)
      (hgranted : share ≤ w.storage.base.totals.totalGranted)
      (hwithdraw : x.exec w.ext w.env (.withdrawLiquidity lpToken config.xykPair share) =
        .ok withdrawn)
      (hprovide : ∃ ntrn paired slippage, provide = config.provides ntrn paired slippage)
      (hprovided : x.exec withdrawn w.env provide = .ok provided)
      (hbefore : (x.querier withdrawn).tokenBalance config.newLpToken = .ok before)
      (hminted : (x.querier provided).tokenBalance config.newLpToken = .ok (before + minted))
      (hlast : account.schedules.getLast? = some last)
      (hmsgs : x.execAll w.env provided
        (if minted = 0 then []
          else [.migrateXykLiquidity config.newLpToken config.pclVesting minted address
            ⟨[newSchedule last minted], 0⟩]) = .ok w'.ext)
      (htrace : w'.trace = w.trace ++ [.withdrawLiquidity lpToken config.xykPair share, provide] ++
        if minted = 0 then []
          else [.migrateXykLiquidity config.newLpToken config.pclVesting minted address
            ⟨[newSchedule last minted], 0⟩])
      (henv : w'.env = w.env)
      (hstorage : w'.storage = { w.storage with
        base := (w.storage.base.saveState ⟨w.storage.base.totals.totalGranted - share,
          w.storage.base.totals.totalReleased⟩ w.env.height).saveInfo address emptied
            w.env.height })

/-- A completed migration goes one of the two ways. -/
theorem execute_migrate_ok {w w' : World E} {info : MessageInfo} {user : Option Addr}
    (h : w.execute x info (.migrateLiquidityToPCLPool user) = .ok w') :
    ∃ account, w.storage.base.vestingInfo.mayLoad (user.getD info.sender) = some account ∧
      Migrates x (user.getD info.sender) account w w' := by
  unfold World.execute at h
  simp only [bind_eq_ok, rejectIf_eq_ok, exists_const, execute, executeMigrateLiquidity, okOr_eq_ok,
    mapError_eq_ok, SnapshotMap.load, Map.load_eq_ok] at h
  obtain ⟨-, r, ⟨config, hconfig, account, hload, lpToken, hlpToken, share, hshare, assets,
    hassets, hbranch⟩, hrun⟩ := h
  refine ⟨account, hload, ?_⟩
  split at hbranch
  · rename_i hdust
    obtain rfl := Except.ok.inj hbranch
    have hexternal : ∀ m ∈ (if share = 0 then []
        else [CosmosMsg.transfer (.cw20 lpToken (user.getD info.sender) share)]),
        ∀ c, m ≠ .callback c := by
      split <;> simp
    obtain ⟨ext, hext, rfl⟩ := dispatch_externals hexternal hrun
    exact .sent config lpToken share assets hconfig hlpToken hshare hassets hdust hext rfl rfl rfl
  · rename_i hworth
    simp only [bind_eq_ok, rejectIf_eq_ok, exists_const, Except.ok.injEq] at hbranch
    obtain ⟨-, rfl⟩ := hbranch
    dsimp only at hrun
    -- the withdrawal from the XYK pair
    obtain ⟨_, r₁, hr₁, hrun₁⟩ := dispatch_callback (foldlM_singleton_ok.mp hrun)
    simp only [handleCallback, migrateLiquidityToClPairCallback, bind_eq_ok, mapError_eq_ok,
      Uint.checkedSub_eq_ok, Except.ok.injEq] at hr₁
    obtain ⟨ntrn, -, paired, -, totalGranted, ⟨hgranted, rfl⟩, rfl⟩ := hr₁
    obtain ⟨withdrawn, _, r₂, hwithdraw, hr₂, hrun₂⟩ := dispatch_then_callback (by simp) hrun₁
    -- the deposit into the PCL pair
    simp only [handleCallback, provideLiquidityToClPairAfterWithdrawalCallback, bind_eq_ok,
      mapError_eq_ok, okOr_eq_ok, Except.ok.injEq] at hr₂
    obtain ⟨_, -, _, -, ntrnOut, -, pairedOut, -, config₂, hconfig₂, before, hbefore, rfl⟩ := hr₂
    obtain ⟨provided, _, r₃, hprovided, hr₃, hrun₃⟩ := dispatch_then_callback (by simp) hrun₂
    -- the new schedule
    simp only [handleCallback, postMigrationVestingRescheduleCallback, bind_eq_ok,
      mapError_eq_ok, okOr_eq_ok, Uint.checkedSub_eq_ok, Except.ok.injEq] at hr₃
    obtain ⟨config₃, hconfig₃, balance, hbalance, minted, ⟨hle, rfl⟩, last, hlast, rfl⟩ := hr₃
    obtain rfl : config = config₂ := Option.some.inj (hconfig.symm.trans hconfig₂)
    obtain rfl : config = config₃ := Option.some.inj (hconfig.symm.trans hconfig₃)
    have hexternal : ∀ m ∈ (if balance - before = 0 then []
        else [CosmosMsg.migrateXykLiquidity config.newLpToken config.pclVesting
          (balance - before) (user.getD info.sender)
          ⟨[newSchedule last (balance - before)], 0⟩]), ∀ c, m ≠ .callback c := by
      split <;> simp
    obtain ⟨ext, hext, rfl⟩ := dispatch_externals hexternal hrun₃
    have hminted : before + (balance - before) = balance := by omega
    refine .moved config lpToken share assets withdrawn provided _ before (balance - before) last
      hconfig hlpToken hshare hassets ?_ hgranted hwithdraw ⟨_, _, _, rfl⟩ hprovided hbefore ?_
      hlast hext ?_ rfl rfl
    · intro a ha hzero
      exact hworth ⟨a, ha, hzero⟩
    · rw [hminted]
      exact hbalance
    · simp only [List.append_assoc, List.cons_append, List.nil_append,
        XykToClMigrationConfig.provides]

/-! ### The share -/

/-- What a schedule without end point grants. -/
def endlessAmount (sch : VestingSchedule) : Nat :=
  match sch.endPoint with
  | some _ => 0
  | none => sch.startPoint.amount

/-- What the schedules without end point grant together. -/
def endless (schedules : List VestingSchedule) : Nat := (schedules.map endlessAmount).sum

theorem addShare_ok {schedules : List VestingSchedule} : ∀ {acc r : Nat},
    schedules.foldlM addShare acc = .ok r → r + endless schedules = acc + granted schedules := by
  induction schedules with
  | nil =>
      intro acc r h
      obtain rfl := Except.ok.inj h
      rfl
  | cons sch rest ih =>
      intro acc r h
      obtain ⟨acc', hacc, hrest⟩ := foldlM_cons_ok.mp h
      have hr := ih hrest
      have hsch : acc' + endlessAmount sch = acc + grantedAmount sch := by
        unfold addShare at hacc
        unfold endlessAmount grantedAmount
        cases hend : sch.endPoint with
        | none =>
            rw [hend] at hacc
            obtain rfl := Except.ok.inj hacc
            rfl
        | some endPoint =>
            rw [hend] at hacc
            exact (Uint.checkedAdd_eq_ok.mp hacc).2
      have hendless : endless (sch :: rest) = endlessAmount sch + endless rest := by
        simp [endless]
      rw [granted_cons, hendless]
      omega

/-- The share is what is not released, less what the schedules without end point grant. -/
theorem computeShare_ok {info : VestingInfo} {share : Nat} (h : computeShare info = .ok share) :
    share + info.releasedAmount + endless info.schedules = granted info.schedules := by
  unfold computeShare at h
  simp only [bind_eq_ok, Uint.checkedSub_eq_ok] at h
  obtain ⟨total, htotal, hle, rfl⟩ := h
  have hsum := addShare_ok htotal
  omega

/-! ### Transactions -/

/-- What a transaction can be. -/
inductive Transacts (x : Externals E) (info : MessageInfo) (w w' : World E) : ExecuteMsg → Prop
  /-- A message of `vesting-base`. -/
  | base (msg : ExecuteMsg) (baseMsg : Vesting.ExecuteMsg) (base : Vesting.Storage)
      (msgs : List TransferMsg) (hinto : msg.intoBase = .ok baseMsg)
      (heffect : Effect w.env info w.storage.base base baseMsg msgs)
      (hstorage : w'.storage = { w.storage with base := base }) (henv : w'.env = w.env) :
      Transacts x info w w' msg
  | migrated (user : Option Addr) (account : VestingInfo)
      (hload : w.storage.base.vestingInfo.mayLoad (user.getD info.sender) = some account)
      (hmigrates : Migrates x (user.getD info.sender) account w w') :
      Transacts x info w w' (.migrateLiquidityToPCLPool user)

theorem execute_ok {w w' : World E} {info : MessageInfo} {msg : ExecuteMsg}
    (h : w.execute x info msg = .ok w') : Transacts x info w w' msg := by
  by_cases hmigrate : ∃ user, msg = .migrateLiquidityToPCLPool user
  · obtain ⟨user, rfl⟩ := hmigrate
    obtain ⟨account, hload, hmigrates⟩ := execute_migrate_ok h
    exact .migrated user account hload hmigrates
  · unfold World.execute at h
    simp only [bind_eq_ok, rejectIf_eq_ok, exists_const] at h
    obtain ⟨hself, r, hr, hrun⟩ := h
    have hbase : ∃ baseMsg base msgs, msg.intoBase = .ok baseMsg ∧
        Vesting.execute w.storage.base w.env info baseMsg = .ok (base, msgs) ∧
        r = ⟨{ w.storage with base := base }, msgs.map .transfer⟩ := by
      cases msg with
      | migrateLiquidityToPCLPool user => exact absurd ⟨user, rfl⟩ hmigrate
      | callback msg =>
          simp only [execute, bind_eq_ok, rejectIf_eq_ok, exists_const, not_not] at hr
          exact absurd hr.1 hself
      | _ =>
          simp only [execute, bind_eq_ok, Except.ok.injEq] at hr
          obtain ⟨baseMsg, hinto, ⟨base, msgs⟩, hexec, hr⟩ := hr
          exact ⟨baseMsg, base, msgs, hinto, hexec, hr.symm⟩
    obtain ⟨baseMsg, base, msgs, hinto, hexec, rfl⟩ := hbase
    have hexternal : ∀ m ∈ msgs.map CosmosMsg.transfer, ∀ c, m ≠ .callback c := by
      intro m hm
      obtain ⟨t, -, rfl⟩ := List.mem_map.mp hm
      simp
    obtain ⟨ext, -, rfl⟩ := dispatch_externals hexternal hrun
    exact .base msg baseMsg base msgs hinto (execute_effect hexec) rfl rfl

/-! ### The books -/

/-- What holds between two transactions while no migration breaks the books. The totals
are ahead of the sums over the accounts by what migrated accounts had claimed. -/
structure World.Inv (w : World E) : Prop where
  historical : w.storage.base.config.extensions.historical = true
  gap : w.storage.base.grantedGap = w.storage.base.releasedGap
  nonneg : 0 ≤ w.storage.base.grantedGap
  bounded : w.storage.base.totals.totalGranted < 2 ^ 128
  earned : ∀ a info, w.storage.base.vestingInfo.mayLoad a = some info → info.Earned w.env.time
  history : History w.env.height w.storage.base

theorem World.Inv.granted_lt {w : World E} (h : w.Inv) {a : Addr} {info : VestingInfo}
    (hload : w.storage.base.vestingInfo.mayLoad a = some info) :
    granted info.schedules < 2 ^ 128 := by
  have hle : granted info.schedules ≤ w.storage.base.grantedSum :=
    Map.le_sum (show w.storage.base.vestingInfo.primary.mayLoad a = some info from hload)
      fun _ i => granted i.schedules
  have hgap := h.nonneg
  have hlt := h.bounded
  unfold Storage.grantedGap at hgap
  omega

/-- A transaction keeps the invariant when its writes belong to the block and leave the
totals ahead of the sums by one amount. -/
theorem World.Inv.step {w w' : World E} (h : w.Inv) (henv : w'.env = w.env)
    (hrewrites : Rewrites w.env.height w.storage.base w'.storage.base)
    (hgap : w'.storage.base.grantedGap = w'.storage.base.releasedGap)
    (hnonneg : 0 ≤ w'.storage.base.grantedGap)
    (hbounded : w'.storage.base.totals.totalGranted < 2 ^ 128)
    (hearned : ∀ a info, w'.storage.base.vestingInfo.mayLoad a = some info →
      info.Earned w.env.time) : w'.Inv := by
  have hsound : ∀ a info, w'.storage.base.vestingInfo.mayLoad a = some info → info.Sound := by
    intro a info hload
    refine (hearned a info hload).sound ?_
    have hle : granted info.schedules ≤ w'.storage.base.grantedSum :=
      Map.le_sum (show w'.storage.base.vestingInfo.primary.mayLoad a = some info from hload)
        fun _ i => granted i.schedules
    unfold Storage.grantedGap at hnonneg
    omega
  constructor
  · rw [hrewrites.extensions]
    exact h.historical
  · exact hgap
  · exact hnonneg
  · exact hbounded
  · rw [henv]
    exact hearned
  · rw [henv]
    exact h.history.step h.historical hrewrites (agrees_of_gaps hgap hsound)

/-- Emptying an account takes it out of both sums. -/
theorem emptied_sums {s : Vesting.Storage} {address : Addr} {account : VestingInfo}
    (hload : s.vestingInfo.mayLoad address = some account) (height : Nat) :
    (s.saveInfo address emptied height).grantedSum + granted account.schedules = s.grantedSum ∧
      (s.saveInfo address emptied height).releasedSum + account.releasedAmount =
        s.releasedSum := by
  have haccount : s.account address = account := by
    rw [Storage.account, hload, Option.getD_some]
  have hgranted := Storage.grantedSum_saveInfo s address emptied height
  have hreleased := Storage.releasedSum_saveInfo s address emptied height
  rw [haccount] at hgranted hreleased
  exact ⟨hgranted, hreleased⟩

/-- An account that is emptied leaves the books of the others as they are. -/
theorem earned_saveInfo_emptied {s : Vesting.Storage} {time height : Nat} {address : Addr}
    (h : ∀ a info, s.vestingInfo.mayLoad a = some info → info.Earned time) :
    ∀ a info, (s.saveInfo address emptied height).vestingInfo.mayLoad a = some info →
      info.Earned time := by
  intro a info hload
  rw [Storage.mayLoad_saveInfo] at hload
  split at hload
  · obtain rfl := Option.some.inj hload
    exact ⟨by simp [emptied], le_refl 0⟩
  · exact h a info hload

/-- What a migration must meet to keep the books: the account's schedules without end point
grant nothing, and the user is only sent dust when nothing is left to claim. -/
def KeepsBooks (x : Externals E) (w : World E) : Action E → Prop
  | .execute info (.migrateLiquidityToPCLPool user) =>
      ∀ account, w.storage.base.vestingInfo.mayLoad (user.getD info.sender) = some account →
        endless account.schedules = 0 ∧
          ∀ config assets, w.storage.migrationConfig = some config →
            (x.querier w.ext).share config.xykPair account.rest = .ok assets →
            (∃ a ∈ assets, a.amount = 0) → account.rest = 0
  | _ => True

theorem World.Inv.migrates {w w' : World E} {address : Addr} {account : VestingInfo}
    (h : w.Inv) (hload : w.storage.base.vestingInfo.mayLoad address = some account)
    (hendless : endless account.schedules = 0)
    (hrest : ∀ config assets, w.storage.migrationConfig = some config →
      (x.querier w.ext).share config.xykPair account.rest = .ok assets →
      (∃ a ∈ assets, a.amount = 0) → account.rest = 0)
    (hmigrates : Migrates x address account w w') : w'.Inv := by
  have hshared : ∀ share, computeShare account = .ok share → share = account.rest ∧
      share + account.releasedAmount = granted account.schedules := by
    intro share hshare
    have hsum := computeShare_ok hshare
    unfold VestingInfo.rest
    omega
  have hgap := h.gap
  have hnonneg := h.nonneg
  unfold Storage.grantedGap Storage.releasedGap at hgap
  unfold Storage.grantedGap at hnonneg
  cases hmigrates with
  | sent config lpToken share assets hconfig _ hshare hassets hdust hmsgs htrace henv hstorage =>
      obtain ⟨rfl, hsum⟩ := hshared share hshare
      -- dust is harmless only when there is nothing left to migrate
      have hzero := hrest config assets hconfig hassets hdust
      have hbase : w'.storage.base = if account.schedules = [] then w.storage.base
          else w.storage.base.saveInfo address emptied w.env.height := by rw [hstorage]
      split at hbase
      · refine h.step henv ?_ ?_ ?_ ?_ ?_ <;> rw [hbase]
        · exact .refl _ _
        · exact h.gap
        · exact h.nonneg
        · exact h.bounded
        · exact h.earned
      -- the emptied account took as much from the granted sum as from the released one
      · obtain ⟨hgranted, hreleased⟩ := emptied_sums hload w.env.height
        refine h.step henv ?_ ?_ ?_ ?_ ?_ <;> rw [hbase]
        · exact .saveInfo ..
        · unfold Storage.grantedGap Storage.releasedGap
          rw [Storage.saveInfo_totals]
          omega
        · unfold Storage.grantedGap
          rw [Storage.saveInfo_totals]
          omega
        · exact h.bounded
        · exact earned_saveInfo_emptied h.earned
  | moved config lpToken share assets withdrawn provided provide before minted last hconfig _ hshare
      hassets hworth hle hwithdraw hprovide hprovided hbefore hminted hlast hmsgs htrace henv
      hstorage =>
      obtain ⟨-, hsum⟩ := hshared share hshare
      have hbase : w'.storage.base = (w.storage.base.saveState
          ⟨w.storage.base.totals.totalGranted - share, w.storage.base.totals.totalReleased⟩
          w.env.height).saveInfo address emptied w.env.height := by rw [hstorage]
      obtain ⟨hgranted, hreleased⟩ := emptied_sums
        (show (w.storage.base.saveState
          ⟨w.storage.base.totals.totalGranted - share, w.storage.base.totals.totalReleased⟩
          w.env.height).vestingInfo.mayLoad address = some account from hload) w.env.height
      rw [Storage.saveState_grantedSum] at hgranted
      rw [Storage.saveState_releasedSum] at hreleased
      refine h.step henv ?_ ?_ ?_ ?_ ?_ <;> rw [hbase]
      · exact (Rewrites.saveState ..).trans (.saveInfo ..)
      · unfold Storage.grantedGap Storage.releasedGap
        rw [Storage.saveInfo_totals, Storage.saveState_totals]
        dsimp only
        omega
      · unfold Storage.grantedGap
        rw [Storage.saveInfo_totals, Storage.saveState_totals]
        dsimp only
        omega
      · rw [Storage.saveInfo_totals, Storage.saveState_totals]
        exact Nat.lt_of_le_of_lt (Nat.sub_le ..) h.bounded
      · exact earned_saveInfo_emptied h.earned

theorem World.Inv.transacts {w w' : World E} {info : MessageInfo} {msg : ExecuteMsg} (h : w.Inv)
    (hkeeps : KeepsBooks x w (.execute info msg)) (htransacts : Transacts x info w w' msg) :
    w'.Inv := by
  cases htransacts with
  | base _ baseMsg base msgs hinto heffect hstorage henv =>
      obtain ⟨flow, hbooked⟩ := heffect.booked
      have hbase : w'.storage.base = base := by rw [hstorage]
      refine h.step henv ?_ ?_ ?_ ?_ ?_ <;> rw [hbase]
      · exact hbooked.rewrites
      · rw [hbooked.granted, hbooked.released]
        exact h.gap
      · rw [hbooked.granted]
        exact h.nonneg
      · exact hbooked.bounded h.bounded
      · intro a
        exact (hbooked.accounts a).earned fun i hload => ⟨h.earned a i hload, h.granted_lt hload⟩
  | migrated user account hload hmigrates =>
      obtain ⟨hendless, hrest⟩ := hkeeps account hload
      exact h.migrates hload hendless hrest hmigrates

theorem World.Inv.exec {w w' : World E} {a : Action E} (h : w.Inv) (hkeeps : KeepsBooks x w a)
    (hexec : w.exec x a = .ok w') : w'.Inv := by
  cases a with
  | advance seconds blocks =>
      obtain rfl := Except.ok.inj hexec
      exact ⟨h.historical, h.gap, h.nonneg, h.bounded,
        fun a info hload => (h.earned a info hload).mono (Nat.le_add_right _ _),
        h.history.mono (Nat.le_add_right _ _)⟩
  | drift ext =>
      obtain rfl := Except.ok.inj hexec
      exact ⟨h.historical, h.gap, h.nonneg, h.bounded, h.earned, h.history⟩
  | migrate msg =>
      obtain rfl := Except.ok.inj hexec
      exact ⟨h.historical, h.gap, h.nonneg, h.bounded, h.earned, h.history⟩
  | execute info msg =>
      have htransacts : Transacts x info w w' msg := execute_ok hexec
      exact h.transacts hkeeps htransacts

theorem World.Inv.start (msg : InstantiateMsg) (ext : E) (env : Env) :
    (World.start msg ext env).Inv := by
  refine ⟨rfl, rfl, le_refl _, Nat.two_pow_pos 128, fun a info hload => ?_, History.init rfl rfl⟩
  cases hload

/-- The totals less what was released are what the accounts have not claimed, now and at
every block. -/
structure World.Balanced (w : World E) : Prop where
  unclaimed : ∀ a info, w.storage.base.vestingInfo.mayLoad a = some info →
    computeUnclaimedAmount info = .ok info.rest
  total : w.storage.base.totals.totalGranted = w.storage.base.totals.totalReleased +
    w.storage.base.vestingInfo.primary.sum fun _ => VestingInfo.rest
  history : w.storage.base.HistoryAgrees

theorem World.Inv.balanced {w : World E} (h : w.Inv) : w.Balanced := by
  have hsound : ∀ a info, w.storage.base.vestingInfo.mayLoad a = some info → info.Sound :=
    fun a info hload => (h.earned a info hload).sound (h.granted_lt hload)
  refine ⟨fun a info hload => computeUnclaimedAmount_eq (hsound a info hload), ?_,
    h.history.historyAgrees h.historical⟩
  have hsum := Storage.sum_rest hsound
  have hgap := h.gap
  unfold Storage.grantedGap Storage.releasedGap at hgap
  omega

/-! ### Migrating again -/

/-- The address has nothing to migrate. -/
def Drained (address : Addr) (w : World E) : Prop :=
  w.storage.base.vestingInfo.mayLoad address = some emptied ∨
    w.storage.base.vestingInfo.mayLoad address = none

/-- The action does not register the address. -/
def Unregistered (address : Addr) (_ : World E) : Action E → Prop
  | .execute _ msg => ∀ baseMsg, msg.intoBase = .ok baseMsg →
      ∀ account ∈ baseMsg.registered, account.address ≠ address
  | _ => True

/-- A migration leaves its account empty and the other accounts alone. -/
theorem Migrates.accounts {w w' : World E} {address : Addr} {account : VestingInfo}
    (h : Migrates x address account w w')
    (hload : w.storage.base.vestingInfo.mayLoad address = some account) :
    w'.storage.base.vestingInfo.mayLoad address = some emptied ∧
      ∀ a, a ≠ address →
        w'.storage.base.vestingInfo.mayLoad a = w.storage.base.vestingInfo.mayLoad a := by
  cases h with
  | sent config lpToken share assets hconfig _ hshare hassets hdust hmsgs htrace henv hstorage =>
      rw [hstorage]
      dsimp only
      split
      · -- nothing was scheduled, so nothing can be released either
        rename_i hnil
        refine ⟨?_, fun _ _ => rfl⟩
        have hsum := computeShare_ok hshare
        rw [hnil, granted_nil] at hsum
        obtain ⟨schedules, released⟩ := account
        dsimp only at hnil hsum
        rw [hload, hnil]
        congr
        omega
      · refine ⟨?_, fun a ha => ?_⟩
        · rw [Storage.mayLoad_saveInfo, if_pos rfl]
        · rw [Storage.mayLoad_saveInfo, if_neg ha]
  | moved config lpToken share assets withdrawn provided provide before minted last hconfig _ hshare
      hassets hworth hle hwithdraw hprovide hprovided hbefore hminted hlast hmsgs htrace henv
      hstorage =>
      rw [hstorage]
      dsimp only
      refine ⟨?_, fun a ha => ?_⟩
      · rw [Storage.mayLoad_saveInfo, if_pos rfl]
      · rw [Storage.mayLoad_saveInfo, if_neg ha, Storage.saveState_vestingInfo]

/-- An address that has nothing to migrate stays so until it is registered. -/
theorem Drained.exec {address : Addr} {w w' : World E} {a : Action E} (h : Drained address w)
    (hunregistered : Unregistered address w a) (hexec : w.exec x a = .ok w') :
    Drained address w' := by
  cases a with
  | advance seconds blocks =>
      obtain rfl := Except.ok.inj hexec
      exact h
  | drift ext =>
      obtain rfl := Except.ok.inj hexec
      exact h
  | migrate msg =>
      obtain rfl := Except.ok.inj hexec
      exact h
  | execute info msg =>
      have htransacts : Transacts x info w w' msg := execute_ok hexec
      cases htransacts with
      | base _ baseMsg base msgs hinto heffect hstorage henv =>
          unfold Drained at h ⊢
          rw [hstorage]
          dsimp only
          cases heffect with
          | idle _ hinfo _ _ _ =>
              rw [hinfo]
              exact h
          | registered _ _ _ _ _ _ _ _ hothers =>
              rw [hothers address (hunregistered baseMsg hinto)]
              exact h
          | paid recipient requested token paid _ hpays =>
              by_cases hsender : address = info.sender
              · subst hsender
                -- a claim of a drained account can only be one of nothing
                have hempty : w.storage.base.account info.sender = emptied := by
                  unfold Storage.account
                  rcases h with h | h <;> rw [h] <;> rfl
                obtain ⟨available, havailable, hle⟩ := hpays.available
                have hstored := hpays.stored
                rw [hempty] at havailable hstored
                obtain rfl := Except.ok.inj (show Except.ok 0 = _ from havailable)
                obtain rfl := Nat.le_zero.mp hle
                exact Or.inl hstored
              · rw [hpays.others address hsender]
                exact h
          | removed _ _ _ _ _ _ _ haccounts _ _ =>
              rcases haccounts address with hsame | hnone
              · rw [hsame]
                exact h
              · exact Or.inr hnone
      | migrated user account hload hmigrates =>
          obtain ⟨hemptied, hothers⟩ := hmigrates.accounts hload
          by_cases haddress : address = user.getD info.sender
          · subst haddress
            exact Or.inl hemptied
          · unfold Drained
            rw [hothers address haddress]
            exact h

/-- Migrating an address with nothing to migrate changes nothing. -/
theorem Drained.migrate {w : World E} {info : MessageInfo} {user : Option Addr}
    (h : Drained (user.getD info.sender) w) :
    commit (World.exec x) w (.execute info (.migrateLiquidityToPCLPool user)) = w := by
  rcases commit_cases (World.exec x) w (.execute info (.migrateLiquidityToPCLPool user))
    with hok | hsame
  · generalize commit (World.exec x) w (.execute info (.migrateLiquidityToPCLPool user)) = w'
      at hok ⊢
    obtain ⟨account, hload, hmigrates⟩ := execute_migrate_ok
      (show w.execute x info (.migrateLiquidityToPCLPool user) = .ok w' from hok)
    rcases h with h | h
    · obtain rfl := Option.some.inj (h.symm.trans hload)
      cases hmigrates with
      | sent config lpToken share assets hconfig _ hshare hassets hdust hmsgs htrace henv
          hstorage =>
          obtain rfl := Except.ok.inj (show Except.ok 0 = _ from hshare)
          obtain ⟨storage, ext, env, trace⟩ := w'
          obtain rfl := Except.ok.inj hmsgs
          rw [if_pos rfl, List.append_nil] at htrace
          dsimp only at htrace henv hstorage
          rw [htrace, henv, hstorage]
          rfl
      | moved _ _ _ _ _ _ _ _ _ last _ _ _ _ _ _ _ _ _ _ _ hlast => cases hlast
    · rw [h] at hload
      cases hload
  · exact hsame

/-- After a completed migration, migrating the same address again changes nothing as long
as it is not registered again. -/
def World.MigratesOnce (x : Externals E) (w : World E) : Prop :=
  ∀ info user w' as info' user', w.execute x info (.migrateLiquidityToPCLPool user) = .ok w' →
    Along (World.exec x) (Unregistered (user.getD info.sender)) w' as →
    user'.getD info'.sender = user.getD info.sender →
    commit (World.exec x) (run (World.exec x) w' as)
      (.execute info' (.migrateLiquidityToPCLPool user')) = run (World.exec x) w' as

theorem migratesOnce (x : Externals E) (w : World E) : w.MigratesOnce x := by
  intro info user w' as info' user' hexec hunregistered hsame
  obtain ⟨account, hload, hmigrates⟩ := execute_migrate_ok hexec
  have hstart : Drained (user.getD info.sender) w' := Or.inl (hmigrates.accounts hload).1
  have hdrained : Drained (user.getD info.sender) (run (World.exec x) w' as) :=
    run_invariant_along (Drained (user.getD info.sender)) (fun _ _ _ => Drained.exec) hstart
      hunregistered
  rw [← hsame] at hdrained
  exact hdrained.migrate

/-- In every run whose migrations all keep the books, the totals agree with the accounts,
now and at every block, and migrating again changes nothing. -/
theorem balanced_of_keepsBooks (x : Externals E) (msg : InstantiateMsg) (ext : E) (env : Env)
    (as : List (Action E))
    (h : Along (World.exec x) (KeepsBooks x) (World.start msg ext env) as) :
    (run (World.exec x) (World.start msg ext env) as).Balanced ∧
      (run (World.exec x) (World.start msg ext env) as).MigratesOnce x := by
  have hinv : (run (World.exec x) (World.start msg ext env) as).Inv :=
    run_invariant_along World.Inv (fun _ _ _ => World.Inv.exec) (.start msg ext env) h
  exact ⟨hinv.balanced, migratesOnce x _⟩

/-- A run with a migration through the pairs. -/
theorem balanced_of_keepsBooks_sample :
    (run (World.exec sampleExternals) sampleStart
      (sampleSetup [⟨⟨0, 0⟩, some ⟨100, 100⟩⟩] 100 ++ [sampleMigration])).Balanced :=
  (balanced_of_keepsBooks sampleExternals sampleInstantiateMsg ⟨0, 0, 0⟩ ⟨0, 1, "vesting_lp"⟩ _
    (by
      refine ⟨trivial, trivial, trivial, ?_, trivial⟩
      intro account hload
      have hstored : (run (World.exec sampleExternals) sampleStart
          (sampleSetup [⟨⟨0, 0⟩, some ⟨100, 100⟩⟩] 100)).storage.base.vestingInfo.mayLoad "alice" =
          some ⟨[⟨⟨0, 0⟩, some ⟨100, 100⟩⟩], 0⟩ := by decide +kernel
      obtain rfl := Option.some.inj (hstored.symm.trans hload)
      refine ⟨by decide, fun config assets _ hassets hdust => ?_⟩
      obtain rfl := Except.ok.inj hassets
      revert hdust
      decide)).1

/-- Five LP tokens are worth nothing in the pair, so they are sent to Alice and her account
is emptied. The totals still have them. -/
theorem dust_unbalanced :
    ∃ w, run (World.exec sampleExternals) sampleStart
        (sampleSetup [⟨⟨0, 0⟩, some ⟨100, 5⟩⟩] 5 ++ [sampleMigration]) = w ∧
      w.trace = [.transfer (.cw20 "xyk_lp" "alice" 5)] ∧
      w.storage.base.totals = ⟨5, 0⟩ ∧
      w.storage.base.vestingInfo.mayLoad "alice" = some emptied ∧ ¬ w.Balanced := by
  refine ⟨_, rfl, by decide +kernel, by decide +kernel, by decide +kernel, fun h => ?_⟩
  have htotal := h.total
  revert htotal
  decide +kernel

end NeutronTge.Vesting.Lp
