import NeutronTge.Vesting.Lp

/-!
# NeutronTge.Vesting.PclBooks

The books of `vesting-lp-pcl`. A registration merges the new schedules with the stored
ones, while a migrated account is saved over whatever was stored, although both add what
they grant to the same totals. The books stay right as long as migrations only overwrite
accounts with nothing left to claim.
-/

namespace NeutronTge.Vesting

open CosmWasm Astroport

/-! ### Accounts -/

/-- The schedules are valid and no more was released than they grant. -/
structure VestingInfo.Covered (info : VestingInfo) : Prop where
  valid : ∀ sch ∈ info.schedules, sch.Valid
  released : info.releasedAmount ≤ granted info.schedules

theorem covered_empty : VestingInfo.Covered ⟨[], 0⟩ := ⟨by simp, le_refl 0⟩

/-- No call releases more than the schedules grant, whatever the time of its block. -/
theorem Evolves.covered {time : Nat} {o o' : Option VestingInfo} (h : Evolves time o o')
    (ho : ∀ info, o = some info → info.Covered ∧ granted info.schedules < 2 ^ 128) :
    ∀ info, o' = some info → info.Covered := by
  intro info' hinfo'
  cases h with
  | same => exact (ho info' hinfo').1
  | extended _ added hvalid =>
      obtain rfl := Option.some.inj hinfo'
      have hold : (o.getD ⟨[], 0⟩).Covered := by
        cases o with
        | none => exact covered_empty
        | some info => exact (ho info rfl).1
      constructor
      · intro sch hsch
        rcases List.mem_append.mp hsch with hsch | hsch
        · exact hvalid sch hsch
        · exact hold.valid sch hsch
      · rw [granted_append]
        exact hold.released.trans (Nat.le_add_left _ _)
  | paid info amount available havailable hle =>
      obtain rfl := Option.some.inj hinfo'
      obtain ⟨hcovered, hlt⟩ := ho info rfl
      rw [computeAvailableAmount_eq hcovered.valid hlt, Uint.checkedSub_eq_ok] at havailable
      have hvested := vested_le_granted hcovered.valid time
      refine ⟨hcovered.valid, ?_⟩
      dsimp only
      omega
  | removed info => cases hinfo'

/-- A registration lowers nobody's entitlement. -/
theorem Extended.owed_le {o o' : Option VestingInfo} (h : Extended o o') :
    o.elim 0 VestingInfo.owed ≤ o'.elim 0 VestingInfo.owed := by
  rcases h with rfl | ⟨added, -, rfl⟩
  · exact le_refl _
  · cases o with
    | none =>
        simp only [Option.elim_none, Option.elim_some, Option.getD_none, VestingInfo.owed,
          List.append_nil]
        omega
    | some info =>
        simp only [Option.elim_some, Option.getD_some, VestingInfo.owed, granted_append]
        push_cast
        omega

namespace Pcl

/-! ### What a call does to the books -/

/-- The three kinds of calls. -/
inductive Books (env : Env) (info : MessageInfo) (s s' : Storage) : ExecuteMsg → Prop
  /-- A message of `vesting-base`. -/
  | base (msg : ExecuteMsg) (baseMsg : Vesting.ExecuteMsg) (msgs : List TransferMsg)
      (hinto : msg.intoBase = .ok baseMsg)
      (heffect : Vesting.Effect env info s.base s'.base baseMsg msgs) : Books env info s s' msg
  /-- The token delivers a registration. -/
  | registered (sender : Addr) (amount : Nat) (vestingAccounts : List VestingAccount)
      (hbooked : Booked env s.base s'.base amount)
      (haccounts : ∀ a, Extended (s.base.vestingInfo.mayLoad a) (s'.base.vestingInfo.mayLoad a)) :
      Books env info s s'
        (.receive ⟨sender, amount, some (.registerVestingAccounts vestingAccounts)⟩)
  /-- A payload that names the XYK contract saves an account. -/
  | migrated (amount : Nat) (user : Addr) (account : VestingInfo)
      (hbase : ∃ state, s'.base = (s.base.saveInfo user account env.height).saveState state
        env.height ∧ state.totalGranted = s.base.totals.totalGranted + granted account.schedules ∧
        state.totalReleased = s.base.totals.totalReleased)
      (hlt : s'.base.totals.totalGranted < 2 ^ 128) :
      Books env info s s'
        (.receive ⟨s.xykVestingLpContract, amount, some (.migrateXYKLiquidity user account)⟩)

theorem receiveCw20_books {s s' : Storage} {env : Env} {info : MessageInfo}
    {cw20Msg : Cw20ReceiveMsg Cw20HookMsg} {msgs : List TransferMsg}
    (h : receiveCw20 s env info cw20Msg = .ok (s', msgs)) :
    Books env info s s' (.receive cw20Msg) ∧ s'.xykVestingLpContract = s.xykVestingLpContract := by
  obtain ⟨sender, amount, payload⟩ := cw20Msg
  unfold receiveCw20 at h
  simp only [bind_eq_ok] at h
  obtain ⟨_, -, hook, hhook, h⟩ := h
  obtain rfl : payload = some hook := okOr_eq_ok.mp hhook
  cases hook with
  | registerVestingAccounts vestingAccounts =>
      simp only [bind_eq_ok, Except.ok.injEq, Prod.mk.injEq] at h
      obtain ⟨_, -, base, hregister, rfl, -⟩ := h
      obtain ⟨hbooked, -, haccounts⟩ := registerVestingAccounts_booked hregister
      exact ⟨.registered sender amount vestingAccounts hbooked haccounts, rfl⟩
  | migrateXYKLiquidity user account =>
      simp only [bind_eq_ok, rejectIf_eq_ok, exists_const, not_not, isSenderXykVestingLp,
        decide_eq_true_eq, handleMigrateXykLiquidity, mapError_eq_ok, Except.ok.injEq,
        Prod.mk.injEq] at h
      obtain ⟨rfl, toDeposit, hadd, base, htotal, rfl, -⟩ := h
      have hadd := addGranted_eq_ok hadd
      rw [Nat.zero_add] at hadd
      subst hadd
      obtain ⟨-, hlt, -⟩ := grantTotal_totals htotal
      unfold grantTotal at htotal
      simp only [bind_eq_ok, mapError_eq_ok, Uint.checkedAdd_eq_ok, Except.ok.injEq] at htotal
      obtain ⟨totalGranted, ⟨-, rfl⟩, rfl⟩ := htotal
      exact ⟨.migrated amount user account ⟨_, rfl, rfl, rfl⟩ hlt, rfl⟩

theorem execute_books {s s' : Storage} {env : Env} {info : MessageInfo} {msg : ExecuteMsg}
    {msgs : List TransferMsg} (h : execute s env info msg = .ok (s', msgs)) :
    Books env info s s' msg ∧ s'.xykVestingLpContract = s.xykVestingLpContract := by
  cases msg with
  | receive msg => exact receiveCw20_books h
  | _ =>
      simp only [execute, bind_eq_ok, Except.ok.injEq, Prod.mk.injEq] at h
      obtain ⟨baseMsg, hinto, ⟨base, msgs'⟩, hexec, rfl, -⟩ := h
      exact ⟨.base _ baseMsg msgs' hinto (execute_effect hexec), rfl⟩

/-! ### The invariant -/

/-- What holds between two transactions while migrations overwrite nothing. The totals are
ahead of the sums over the accounts by what overwritten accounts had claimed. -/
structure BooksInv (s : Storage) : Prop where
  notManaged : s.base.config.extensions.managed = false
  gap : s.base.grantedGap = s.base.releasedGap
  nonneg : 0 ≤ s.base.grantedGap
  bounded : s.base.totals.totalGranted < 2 ^ 128
  covered : ∀ a info, s.base.vestingInfo.mayLoad a = some info → info.Covered

theorem BooksInv.granted_lt {s : Storage} (h : BooksInv s) {a : Addr} {info : VestingInfo}
    (hload : s.base.vestingInfo.mayLoad a = some info) : granted info.schedules < 2 ^ 128 := by
  have hle : granted info.schedules ≤ s.base.grantedSum :=
    Map.le_sum (show s.base.vestingInfo.primary.mayLoad a = some info from hload)
      fun _ i => granted i.schedules
  have hgap := h.nonneg
  have hlt := h.bounded
  unfold Storage.grantedGap at hgap
  omega

theorem BooksInv.booked {env : Env} {s s' : Storage} {flow : Int} (h : BooksInv s)
    (hbooked : Booked env s.base s'.base flow) : BooksInv s' where
  notManaged := by
    rw [hbooked.rewrites.extensions]
    exact h.notManaged
  gap := by rw [hbooked.granted, hbooked.released, h.gap]
  nonneg := by
    rw [hbooked.granted]
    exact h.nonneg
  bounded := hbooked.bounded h.bounded
  covered a := (hbooked.accounts a).covered fun info hload =>
    ⟨h.covered a info hload, h.granted_lt hload⟩

/-- A migration the XYK contract asks for: one schedule with the dates of a valid one that
grants the amount that was sent, and nothing released. -/
def Migrated (account : VestingInfo) (amount : Nat) : Prop :=
  amount ≠ 0 ∧ ∃ schedule : VestingSchedule, schedule.Valid ∧
    account = ⟨[Lp.newSchedule schedule amount], 0⟩

theorem Migrated.covered {account : VestingInfo} {amount : Nat} (h : Migrated account amount) :
    account.Covered := by
  obtain ⟨hpos, schedule, hvalid, rfl⟩ := h
  refine ⟨fun sch hsch endPoint hend => ?_, Nat.zero_le _⟩
  obtain rfl := List.mem_singleton.mp hsch
  obtain ⟨old, hold, rfl⟩ := Option.mem_map.mp hend
  exact ⟨(hvalid old hold).1, Nat.pos_of_ne_zero hpos⟩

theorem Migrated.owed {account : VestingInfo} {amount : Nat} (h : Migrated account amount) :
    account.owed = granted account.schedules := by
  obtain ⟨-, schedule, -, rfl⟩ := h
  show (granted _ : Int) - (0 : Nat) = _
  omega

/-- The books as they should be: the totals less what was released are what the accounts
have not claimed. -/
structure Balanced (s : Storage) : Prop where
  unclaimed : ∀ a info, s.base.vestingInfo.mayLoad a = some info →
    computeUnclaimedAmount info = .ok info.rest
  total : s.base.totals.totalGranted = s.base.totals.totalReleased +
    s.base.vestingInfo.primary.sum fun _ => VestingInfo.rest

theorem BooksInv.balanced {s : Storage} (h : BooksInv s) : Balanced s := by
  have hsound : ∀ a info, s.base.vestingInfo.mayLoad a = some info → info.Sound :=
    fun a info hload => ⟨(h.covered a info hload).released, h.granted_lt hload⟩
  refine ⟨fun a info hload => computeUnclaimedAmount_eq (hsound a info hload), ?_⟩
  have hsum := Storage.sum_rest hsound
  have hgap := h.gap
  unfold Storage.grantedGap Storage.releasedGap at hgap
  omega

theorem owedTo_eq (s : Vesting.Storage) (a : Addr) :
    s.owedTo a = (s.vestingInfo.mayLoad a).elim 0 VestingInfo.owed := by
  unfold Storage.owedTo
  cases s.vestingInfo.mayLoad a <;> rfl

/-- A migration that overwrites an account with nothing to claim keeps the books and lowers
nobody's entitlement. -/
theorem BooksInv.migrated {s s' : Storage} {user : Addr} {account : VestingInfo}
    {amount height : Nat} {state : VestingState} (h : BooksInv s)
    (hmigrated : Migrated account amount) (howed : s.base.owedTo user = 0)
    (hbase : s'.base = (s.base.saveInfo user account height).saveState state height)
    (hgranted : state.totalGranted = s.base.totals.totalGranted + granted account.schedules)
    (hreleased : state.totalReleased = s.base.totals.totalReleased)
    (hlt : s'.base.totals.totalGranted < 2 ^ 128) :
    BooksInv s' ∧ ∀ a, s.base.owedTo a ≤ s'.base.owedTo a := by
  have hgrantedSum := Storage.grantedSum_saveInfo s.base user account height
  have hreleasedSum := Storage.releasedSum_saveInfo s.base user account height
  have hzero : account.releasedAmount = 0 := by
    obtain ⟨-, schedule, -, rfl⟩ := hmigrated
    rfl
  -- what is overwritten had claimed all that it was granted
  have hold : granted (s.base.account user).schedules = (s.base.account user).releasedAmount := by
    rw [owedTo_eq] at howed
    unfold Storage.account
    cases hload : s.base.vestingInfo.mayLoad user with
    | none => rfl
    | some old =>
        rw [hload, Option.elim_some, VestingInfo.owed] at howed
        rw [Option.getD_some]
        omega
  have hgap := h.gap
  have hnonneg := h.nonneg
  unfold Storage.grantedGap Storage.releasedGap at hgap
  unfold Storage.grantedGap at hnonneg
  refine ⟨⟨?_, ?_, ?_, hlt, ?_⟩, ?_⟩
  · rw [hbase]
    exact h.notManaged
  · rw [hbase, Storage.grantedGap, Storage.releasedGap, Storage.saveState_totals,
      Storage.saveState_grantedSum, Storage.saveState_releasedSum]
    omega
  · rw [hbase, Storage.grantedGap, Storage.saveState_totals, Storage.saveState_grantedSum]
    omega
  · intro a info hload
    rw [hbase, Storage.saveState_vestingInfo, Storage.mayLoad_saveInfo] at hload
    split at hload
    · obtain rfl := Option.some.inj hload
      exact hmigrated.covered
    · exact h.covered a info hload
  · intro a
    rw [hbase, owedTo_eq, owedTo_eq, Storage.saveState_vestingInfo, Storage.mayLoad_saveInfo]
    split
    · rename_i heq
      subst heq
      rw [← owedTo_eq, howed, Option.elim_some, hmigrated.owed]
      exact Int.natCast_nonneg _
    · exact le_refl _

/-! ### Runs -/

/-- Payloads that name the XYK contract are sent by it, through the token. -/
def Genuine (w : World) : Action → Prop
  | .send _ sender amount (some (.migrateXYKLiquidity _ account)) =>
      sender = w.storage.xykVestingLpContract → Migrated account amount
  | .execute _ _ (.receive ⟨sender, _, some (.migrateXYKLiquidity _ _)⟩) =>
      sender ≠ w.storage.xykVestingLpContract
  | _ => True

/-- A migrated user has nothing left to claim from what was stored for him. -/
def OverwritesNothing (w : World) : Action → Prop
  | .send _ sender _ (some (.migrateXYKLiquidity user _)) =>
      sender = w.storage.xykVestingLpContract → w.storage.base.owedTo user = 0
  | _ => True

/-- The action is a claim. -/
def IsClaim : Action → Prop
  | .execute _ _ (.claim _ _) => True
  | _ => False

/-- A call keeps the books, and unless it is a claim it lowers nobody's entitlement. -/
theorem BooksInv.call {s s' : Storage} {env : Env} {info : MessageInfo} {msg : ExecuteMsg}
    (h : BooksInv s) (hbooks : Books env info s s' msg)
    (hmigrates : ∀ amount user account, msg = .receive ⟨s.xykVestingLpContract, amount,
      some (.migrateXYKLiquidity user account)⟩ →
        Migrated account amount ∧ s.base.owedTo user = 0) :
    BooksInv s' ∧ ((∀ recipient amount, msg ≠ .claim recipient amount) →
      ∀ a, s.base.owedTo a ≤ s'.base.owedTo a) := by
  cases hbooks with
  | base _ baseMsg msgs hinto heffect =>
      obtain ⟨flow, hbooked⟩ := heffect.booked
      refine ⟨h.booked hbooked, fun hclaim a => ?_⟩
      rw [owedTo_eq, owedTo_eq]
      cases heffect with
      | idle _ hinfo _ _ _ => rw [hinfo]
      | registered _ _ _ _ _ _ _ haccounts _ => exact (haccounts a).owed_le
      | paid recipient requested _ _ _ _ =>
          -- only a claim turns into a claim
          cases msg with
          | claim recipient' amount' => exact absurd rfl (hclaim recipient' amount')
          | _ => cases hinto
      | removed _ _ _ _ _ _ _ _ _ hmanaged =>
          rw [h.notManaged] at hmanaged
          cases hmanaged
  | registered sender amount vestingAccounts hbooked haccounts =>
      refine ⟨h.booked hbooked, fun _ a => ?_⟩
      rw [owedTo_eq, owedTo_eq]
      exact (haccounts a).owed_le
  | migrated amount user account hbase hlt =>
      obtain ⟨state, hbase, hgranted, hreleased⟩ := hbase
      obtain ⟨hmigrated, howed⟩ := hmigrates amount user account rfl
      obtain ⟨hinv, hle⟩ := h.migrated hmigrated howed hbase hgranted hreleased hlt
      exact ⟨hinv, fun _ => hle⟩

/-- The transfers of a call leave the contract's storage alone. -/
theorem call_storage {token : Addr} {w w' : World} {env : Env} {info : MessageInfo}
    {msg : ExecuteMsg} (h : World.call token w env info msg = .ok w') :
    Books env info w.storage w'.storage msg ∧
      w'.storage.xykVestingLpContract = w.storage.xykVestingLpContract := by
  unfold World.call at h
  rw [bind_eq_ok] at h
  obtain ⟨⟨s', msgs⟩, hexec, hmsgs⟩ := h
  have hstorage : w'.storage = s' := by
    refine foldlM_unchanged World.storage ?_ hmsgs
    intro v v' m _ hm
    unfold World.transfer at hm
    split at hm
    · split at hm
      · split at hm
        · cases hm
        · obtain rfl := Except.ok.inj hm
          rfl
      · obtain rfl := Except.ok.inj hm
        rfl
    · obtain rfl := Except.ok.inj hm
      rfl
  rw [hstorage]
  exact execute_books hexec

theorem BooksInv.exec {token : Addr} {w w' : World} {a : Action} (h : BooksInv w.storage)
    (hgenuine : Genuine w a) (hoverwrites : OverwritesNothing w a)
    (hexec : World.exec token w a = .ok w') :
    BooksInv w'.storage ∧ (¬ IsClaim a →
      ∀ user, w.storage.base.owedTo user ≤ w'.storage.base.owedTo user) := by
  cases a with
  | transfer amount =>
      obtain rfl := Except.ok.inj hexec
      exact ⟨h, fun _ _ => le_refl _⟩
  | send env sender amount msg =>
      obtain ⟨hbooks, -⟩ := call_storage
        (show World.call token { w with transferredIn := w.transferredIn + amount } env
          ⟨token, []⟩ (.receive ⟨sender, amount, msg⟩) = .ok w' from hexec)
      obtain ⟨hinv, hle⟩ := h.call hbooks (by
        rintro amount' user account hmsg
        obtain ⟨rfl, rfl, rfl⟩ : sender = w.storage.xykVestingLpContract ∧ amount = amount' ∧
            msg = some (.migrateXYKLiquidity user account) := by simpa using hmsg
        exact ⟨hgenuine rfl, hoverwrites rfl⟩)
      exact ⟨hinv, fun _ => hle (by simp)⟩
  | execute env info msg =>
      simp only [World.exec, bind_eq_ok, rejectIf_eq_ok, exists_const] at hexec
      obtain ⟨-, hcall⟩ := hexec
      obtain ⟨hbooks, -⟩ := call_storage hcall
      obtain ⟨hinv, hle⟩ := h.call hbooks (by
        rintro amount user account rfl
        exact absurd rfl hgenuine)
      refine ⟨hinv, fun hclaim => hle ?_⟩
      rintro recipient amount rfl
      exact hclaim trivial

theorem BooksInv.init (msg : InstantiateMsg) : BooksInv (instantiate msg) := by
  refine ⟨rfl, rfl, le_refl _, Nat.two_pow_pos 128, fun a info hload => ?_⟩
  cases hload

/-- In every run with genuine migrations that overwrite nothing, the totals agree with the
accounts, and the next registration or migration of that kind lowers nobody's entitlement. -/
theorem entitlements_kept (msg : InstantiateMsg) (token : Addr) (as : List Action)
    (h : Along (World.exec token) (fun w a => Genuine w a ∧ OverwritesNothing w a)
      (World.start msg) as) :
    Balanced (run (World.exec token) (World.start msg) as).storage ∧
      ∀ a w', Genuine (run (World.exec token) (World.start msg) as) a →
        OverwritesNothing (run (World.exec token) (World.start msg) as) a → ¬ IsClaim a →
        World.exec token (run (World.exec token) (World.start msg) as) a = .ok w' →
        ∀ user, (run (World.exec token) (World.start msg) as).storage.base.owedTo user ≤
          w'.storage.base.owedTo user := by
  have hinv : BooksInv (run (World.exec token) (World.start msg) as).storage :=
    run_invariant_along (fun w : World => BooksInv w.storage)
      (fun _ _ _ hw ha hexec => (hw.exec ha.1 ha.2 hexec).1) (BooksInv.init msg) h
  refine ⟨hinv.balanced, fun a w' hgenuine hoverwrites hclaim hexec => ?_⟩
  exact (hinv.exec hgenuine hoverwrites hexec).2 hclaim

/-! ### A migration of a new user and of a registered one -/

/-- A schedule from 0 to 100 that the XYK contract had for a user. -/
def sampleSchedule : VestingSchedule := ⟨⟨0, 0⟩, some ⟨100, 30⟩⟩

/-- The XYK contract migrates 50 new LP tokens of `user`. -/
def sampleMigrate (user : Addr) : Action :=
  .send sampleEnv "vesting_lp" 50
    (some (.migrateXYKLiquidity user ⟨[Lp.newSchedule sampleSchedule 50], 0⟩))

theorem migrated_sample : Migrated ⟨[Lp.newSchedule sampleSchedule 50], 0⟩ 50 := by
  refine ⟨by decide, sampleSchedule, fun endPoint hend => ?_, rfl⟩
  obtain rfl := Option.some.inj hend
  decide

/-- Alice was registered, Bob is migrated and claims. -/
theorem entitlements_kept_sample :
    Balanced (run (World.exec "pcl_lp") (World.start sampleMsg)
      [sampleDeposit, sampleMigrate "bob",
        .execute sampleEnv ⟨"bob", []⟩ (.claim none none)]).storage :=
  (entitlements_kept sampleMsg "pcl_lp" _ (by
    refine ⟨⟨trivial, trivial⟩, ⟨fun _ => migrated_sample, fun _ => ?_⟩, ⟨trivial, trivial⟩,
      trivial⟩
    decide)).1

/-- Alice was registered with 100 tokens. A genuine migration of hers leaves her with the 50
tokens that were migrated, and the totals 100 ahead. -/
theorem migration_destroys_entitlement :
    ∃ w w', run (World.exec "pcl_lp") (World.start sampleMsg) [sampleDeposit] = w ∧
      Genuine w (sampleMigrate "alice") ∧
      World.exec "pcl_lp" w (sampleMigrate "alice") = .ok w' ∧
      w.storage.base.owedTo "alice" = 100 ∧ w'.storage.base.owedTo "alice" = 50 ∧
      w'.storage.base.totals = ⟨150, 0⟩ ∧ ¬ Balanced w'.storage := by
  refine ⟨_, _, rfl, fun _ => migrated_sample, rfl, by decide, by decide, by decide, fun h => ?_⟩
  have htotal := h.total
  revert htotal
  decide

end Pcl

end NeutronTge.Vesting
