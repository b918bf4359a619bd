import NeutronTge.Vesting.Isolation
import NeutronTge.Vesting.Queries

/-!
# NeutronTge.Vesting.Availability

What `AvailableAmount` answers is a promise. `Kept` says what stays of an account as long as the
owner does not remove it: its schedules, and so what has vested of them. A claim within the
available amount always goes through (`World.Inv.claim_pays`), because the tokens of one
account are never spent on another, so nothing that is sent to the contract in between can take
the answer back.
-/

namespace NeutronTge.Vesting

open CosmWasm Astroport

variable {accepts : TransferMsg → Bool} {w w' v : World} {a : Addr} {account : VestingInfo}

/-! ### Accounts that stay -/

/-- An action that does not remove the account. -/
def Action.Spares (a : Addr) : Action → Prop
  | .execute _ (.managedExtension (.removeVestingAccounts vestingAccounts _)) => a ∉ vestingAccounts
  | _ => True

/-- What stays of an account: the schedules, behind those that were added. -/
structure Kept (a : Addr) (w w' : World) : Prop where
  time : w.env.time ≤ w'.env.time
  token : w.storage.config.vestingToken ≠ none →
    w'.storage.config.vestingToken = w.storage.config.vestingToken
  account : ∀ account, w.storage.vestingInfo.mayLoad a = some account →
    ∃ added released, w'.storage.vestingInfo.mayLoad a =
      some ⟨added ++ account.schedules, released⟩

namespace Kept

theorem refl (a : Addr) (w : World) : Kept a w w :=
  ⟨le_rfl, fun _ => rfl, fun account hload => ⟨[], account.releasedAmount, hload⟩⟩

theorem trans (h : Kept a w w') (h' : Kept a w' v) : Kept a w v where
  time := h.time.trans h'.time
  token hset := by
    have hsame := h.token hset
    rw [← hsame, h'.token (hsame ▸ hset)]
  account account hload := by
    obtain ⟨added, released, hkept⟩ := h.account account hload
    obtain ⟨added', released', hkept'⟩ := h'.account _ hkept
    exact ⟨added' ++ added, released', by rw [hkept', List.append_assoc]⟩

end Kept

/-- An account that is still there has its schedules. -/
theorem Evolves.kept {time : Nat} {o o' : Option VestingInfo} (h : Evolves time o o')
    (hstays : o' ≠ none) (ho : o = some account) :
    ∃ added released, o' = some ⟨added ++ account.schedules, released⟩ := by
  cases h with
  | same => exact ⟨[], account.releasedAmount, ho⟩
  | extended _ added _ =>
      rw [ho]
      exact ⟨added, _, rfl⟩
  | paid info amount _ _ _ =>
      obtain rfl := Option.some.inj ho
      exact ⟨[], info.releasedAmount + amount, rfl⟩
  | removed => exact absurd rfl hstays

/-- A removal leaves the accounts alone that it does not name. -/
theorem removeVestingAccounts_others {s s' : Storage} {env : Env} {info : MessageInfo}
    {vestingAccounts : List Addr} {clawbackAccount : Addr} {msgs : List TransferMsg}
    (h : removeVestingAccounts s env info vestingAccounts clawbackAccount = .ok (s', msgs))
    (ha : a ∉ vestingAccounts) : s'.vestingInfo.mayLoad a = s.vestingInfo.mayLoad a := by
  unfold removeVestingAccounts at h
  simp only [bind_eq_ok] at h
  obtain ⟨_, -, token, -, hloop⟩ := h
  refine foldlM_unchanged (fun st : Storage × List TransferMsg => st.1.vestingInfo.mayLoad a) ?_
    hloop
  intro st st' addr haddr hround
  unfold removeAccount at hround
  split at hround
  · obtain rfl := Except.ok.inj hround
    rfl
  · simp only [bind_eq_ok, Except.ok.injEq] at hround
    obtain ⟨_, -, _, -, _, -, _, -, _, -, rfl⟩ := hround
    have hne : a ≠ addr := fun heq => ha (heq ▸ haddr)
    dsimp only
    rw [Storage.mayLoad_removeInfo, if_neg hne]
    rfl

/-- A message runs its handler, and the transfers change neither the storage nor the block. -/
theorem call_ok {info : MessageInfo} {msg : ExecuteMsg} (h : w.call accepts info msg = .ok w') :
    ∃ msgs, execute w.storage w.env info msg = .ok (w'.storage, msgs) ∧ w'.env = w.env := by
  unfold World.call at h
  rw [bind_eq_ok] at h
  obtain ⟨⟨s', msgs⟩, hexec, hrun⟩ := h
  dsimp only at hrun
  have hframe : w'.storage = s' ∧ w'.env = w.env := by
    refine foldlM_invariant (fun v : World => v.storage = s' ∧ v.env = w.env) ?_ ?_ hrun
    · exact ⟨rfl, rfl⟩
    · intro v v' m _ ⟨hstorage, henv⟩ hpay
      obtain ⟨hstorage', henv', -⟩ := payOut_ok hpay
      exact ⟨hstorage'.trans hstorage, henv'.trans henv⟩
  exact ⟨msgs, by rw [hframe.1]; exact hexec, hframe.2⟩

/-- A message that spares an account keeps it. Only managed contracts can remove accounts. -/
theorem Kept.call {info : MessageInfo} {msg : ExecuteMsg}
    (hspares : w.storage.config.extensions.managed = true → (Action.execute info msg).Spares a)
    (h : w.call accepts info msg = .ok w') : Kept a w w' := by
  have hevolves := call_evolves h a
  obtain ⟨msgs, hexec, henv⟩ := call_ok h
  have hkept : (w.storage.config.vestingToken ≠ none →
        w'.storage.config.vestingToken = w.storage.config.vestingToken) ∧
      (w.storage.vestingInfo.mayLoad a ≠ none → w'.storage.vestingInfo.mayLoad a ≠ none) := by
    have heffect := execute_effect hexec
    cases heffect with
    | idle _ hinfo _ _ htoken => exact ⟨fun hset => htoken.resolve_left hset, by simp [hinfo]⟩
    | registered _ _ _ _ _ _ hconfig haccounts =>
        refine ⟨fun _ => by rw [hconfig], fun hstored => ?_⟩
        rcases haccounts a with hsame | ⟨_, -, hsome⟩
        · rwa [hsame]
        · rw [hsome]
          exact Option.some_ne_none _
    | paid _ _ _ _ _ hpays =>
        refine ⟨fun _ => by rw [hpays.config], fun hstored => ?_⟩
        by_cases ha : a = info.sender
        · rw [ha, hpays.stored]
          exact Option.some_ne_none _
        · rwa [hpays.others a ha]
    | removed vestingAccounts clawbackAccount _ _ _ hconfig _ _ _ hmanaged =>
        refine ⟨fun _ => by rw [hconfig], fun hstored => ?_⟩
        simp only [execute, handleExecuteManagedMsg, bind_eq_ok] at hexec
        obtain ⟨_, -, hexec⟩ := hexec
        rwa [removeVestingAccounts_others hexec (hspares hmanaged)]
  refine ⟨henv ▸ le_rfl, hkept.1, fun account hload => hevolves.kept ?_ hload⟩
  exact hkept.2 (hload ▸ Option.some_ne_none _)

theorem Kept.exec {action : Action}
    (hspares : w.storage.config.extensions.managed = true → action.Spares a)
    (h : w.exec accepts action = .ok w') : Kept a w w' := by
  cases action with
  | advance seconds _ =>
      obtain rfl := Except.ok.inj h
      exact ⟨Nat.le_add_right _ _, fun _ => rfl, (Kept.refl a w).account⟩
  | transfer _ _ =>
      obtain rfl := Except.ok.inj h
      exact ⟨le_rfl, fun _ => rfl, (Kept.refl a w).account⟩
  | send token sender amount msg =>
      have hcall : (w.credit (.token token) amount).call accepts ⟨token, []⟩
          (.receive ⟨sender, amount, msg⟩) = .ok w' := h
      have hspares : (Action.execute ⟨token, []⟩ (.receive ⟨sender, amount, msg⟩)).Spares a :=
        trivial
      have hkept := Kept.call (fun _ => hspares) hcall
      exact ⟨hkept.time, hkept.token, hkept.account⟩
  | execute info msg =>
      simp only [World.exec, bind_eq_ok] at h
      obtain ⟨-, -, hcall⟩ := h
      obtain ⟨hstorage, henv, -⟩ := creditCoins_frame info.funds w
      obtain ⟨htime, htoken, haccount⟩ := Kept.call (by rwa [hstorage]) hcall
      rw [hstorage] at htoken haccount
      exact ⟨henv ▸ htime, htoken, haccount⟩

/-- How long an action takes. -/
def Action.seconds : Action → Nat
  | .advance seconds _ => seconds
  | _ => 0

/-- No action changes the address or what kind of contract it is. -/
theorem exec_frame {action : Action} (h : w.exec accepts action = .ok w') :
    w'.env.contract = w.env.contract ∧ w'.env.time = w.env.time + action.seconds ∧
      w'.storage.config.extensions = w.storage.config.extensions := by
  have hcall : ∀ {v : World} {info : MessageInfo} {msg : ExecuteMsg},
      v.call accepts info msg = .ok w' → v.storage = w.storage → v.env = w.env →
        w'.env.contract = w.env.contract ∧ w'.env.time = w.env.time ∧
          w'.storage.config.extensions = w.storage.config.extensions := by
    intro v info msg h hstorage henv
    obtain ⟨msgs, hexec, henv'⟩ := call_ok h
    obtain ⟨flow, hbooked⟩ := (execute_effect hexec).booked
    rw [henv', henv, ← hstorage]
    exact ⟨rfl, rfl, hbooked.rewrites.extensions⟩
  cases action with
  | advance seconds _ =>
      obtain rfl := Except.ok.inj h
      exact ⟨rfl, rfl, rfl⟩
  | transfer _ _ =>
      obtain rfl := Except.ok.inj h
      exact ⟨rfl, rfl, rfl⟩
  | send token sender amount msg =>
      have hsent : (w.credit (.token token) amount).call accepts ⟨token, []⟩
          (.receive ⟨sender, amount, msg⟩) = .ok w' := h
      exact hcall hsent rfl rfl
  | execute info msg =>
      simp only [World.exec, bind_eq_ok] at h
      obtain ⟨-, -, h⟩ := h
      obtain ⟨hstorage, henv, -⟩ := creditCoins_frame info.funds w
      exact hcall h hstorage henv

theorem Kept.run {as : List Action} (h : ∀ action ∈ as, action.Spares a) :
    Kept a w (run (World.exec accepts) w as) :=
  run_relation_along (fun _ => True) (Kept a) (Kept.refl a) (fun _ _ _ => Kept.trans)
    (fun _ _ _ _ _ _ => trivial) (fun _ _ _ _ hspares => Kept.exec fun _ => hspares) trivial
    (along_of_forall _ h)

/-! ### Registered schedules -/

/-- The account has the schedule. -/
def Storage.Holds (s : Storage) (a : Addr) (sch : VestingSchedule) : Prop :=
  ∃ account, s.vestingInfo.mayLoad a = some account ∧ sch ∈ account.schedules

theorem Kept.holds (h : Kept a w w') {sch : VestingSchedule} (hholds : w.storage.Holds a sch) :
    w'.storage.Holds a sch := by
  obtain ⟨account, hload, hsch⟩ := hholds
  obtain ⟨added, released, hload'⟩ := h.account account hload
  exact ⟨_, hload', List.mem_append_right _ hsch⟩

theorem registerAccount_holds {height : Nat} {st st' : Nat × Storage} {registered : VestingAccount}
    (h : registerAccount height st registered = .ok st') {sch : VestingSchedule} :
    (sch ∈ registered.schedules → st'.2.Holds registered.address sch) ∧
      (st.2.Holds a sch → st'.2.Holds a sch) := by
  unfold registerAccount at h
  simp only [bind_eq_ok, Except.ok.injEq] at h
  obtain ⟨_, -, toDeposit, -, rfl⟩ := h
  constructor
  · intro hsch
    refine ⟨_, by rw [Storage.mayLoad_saveInfo, if_pos rfl], ?_⟩
    split <;> simp [hsch]
  · rintro ⟨account, hload, hsch⟩
    unfold Storage.Holds
    rw [Storage.mayLoad_saveInfo]
    split_ifs with ha
    · refine ⟨_, rfl, ?_⟩
      rw [ha] at hload
      rw [hload]
      exact List.mem_append_right _ hsch
    · exact ⟨account, hload, hsch⟩

/-- A registration puts every schedule into its account. -/
theorem registerVestingAccounts_holds {s s' : Storage} {vestingAccounts : List VestingAccount}
    {amount height : Nat}
    (h : registerVestingAccounts s vestingAccounts amount height = .ok s')
    {registered : VestingAccount} (hregistered : registered ∈ vestingAccounts)
    {sch : VestingSchedule} (hsch : sch ∈ registered.schedules) :
    s'.Holds registered.address sch := by
  unfold registerVestingAccounts at h
  simp only [bind_eq_ok, exists_const, rejectIf_eq_ok] at h
  obtain ⟨⟨toDeposit, t⟩, hloop, -, htotal⟩ := h
  have hholds : t.Holds registered.address sch := by
    obtain ⟨before, after, rfl⟩ := List.append_of_mem hregistered
    obtain ⟨st, -, hafter⟩ := foldlM_append_ok.mp hloop
    obtain ⟨st', hround, hafter⟩ := foldlM_cons_ok.mp hafter
    refine foldlM_invariant (fun st : Nat × Storage => st.2.Holds registered.address sch)
      ((registerAccount_holds (a := registered.address) hround).1 hsch) ?_ hafter
    intro st₁ st₂ _ _ hst hround'
    exact (registerAccount_holds hround').2 hst
  unfold Storage.Holds
  rw [(grantTotal_ok htotal).2]
  exact hholds

/-- The tokens that are sent with a registration bring the schedules along. -/
theorem send_holds {token sender : Addr} {amount : Nat} {vestingAccounts : List VestingAccount}
    (h : w.exec accepts (.send token sender amount
      (some (.registerVestingAccounts vestingAccounts))) = .ok w')
    {registered : VestingAccount} (hregistered : registered ∈ vestingAccounts)
    {sch : VestingSchedule} (hsch : sch ∈ registered.schedules) :
    w'.storage.Holds registered.address sch := by
  have hcall : (w.credit (.token token) amount).call accepts ⟨token, []⟩
      (.receive ⟨sender, amount, some (.registerVestingAccounts vestingAccounts)⟩) = .ok w' := h
  obtain ⟨msgs, hexec, -⟩ := call_ok hcall
  simp only [execute, receiveCw20, Cw20ReceiveMsg.fromJson, bind_eq_ok, okOr_eq_ok] at hexec
  obtain ⟨_, -, _, -, hook, hpayload, hexec⟩ := hexec
  obtain rfl := Option.some.inj hpayload
  simp only [Except.ok.injEq, Prod.mk.injEq] at hexec
  obtain ⟨s', hregister, rfl, -⟩ := hexec
  exact registerVestingAccounts_holds hregister hregistered hsch

/-! ### Claims -/

/-- A claim within the available amount pays it. -/
theorem World.Inv.claim_pays (h : w.Inv) {available : Nat} {requested : Option Nat}
    (recipient : Option Addr) (hload : w.storage.vestingInfo.mayLoad a = some account)
    (havailable : computeAvailableAmount w.env.time account = .ok available)
    (hle : ∀ n ∈ requested, n ≤ available)
    (hcaller : w.storage.config.vestingToken ≠ some (.token a))
    (haccepts : AcceptsPositive accepts) :
    ∃ w', w.exec accepts (.execute ⟨a, []⟩ (.claim recipient requested)) = .ok w' ∧
      w'.claimed a = w.claimed a + requested.getD available ∧
      w.Loses w' (recipient.getD a) (requested.getD available) := by
  obtain ⟨w', hexec, hsaved, hloses⟩ :=
    h.claim_within [] recipient hload havailable hle hcaller haccepts
  refine ⟨w', hexec, ?_, hloses⟩
  rw [(h.exec hexec).claimed, h.claimed, Storage.account, Storage.account, hsaved, hload,
    Option.getD_some, Option.getD_some]

/-- From the end of a schedule on, a claim without amount brings what was claimed to all that
the schedule grants. -/
theorem World.Inv.claim_ended (h : w.Inv) {sch : VestingSchedule} (hholds : w.storage.Holds a sch)
    (hends : sch.EndsBy w.env.time) (hcaller : w.storage.config.vestingToken ≠ some (.token a))
    (haccepts : AcceptsPositive accepts) (recipient : Option Addr) :
    ∃ w', w.exec accepts (.execute ⟨a, []⟩ (.claim recipient none)) = .ok w' ∧
      grantedAmount sch ≤ w'.claimed a := by
  obtain ⟨account, hload, hsch⟩ := hholds
  have hearned := h.storage.earned a account hload
  have havailable := hearned.available (h.storage.granted_lt hload) le_rfl
  have hwithin : ∀ n ∈ (none : Option Nat),
      n ≤ vested w.env.time account.schedules - account.releasedAmount := by simp
  obtain ⟨w', hexec, hclaimed, -⟩ :=
    h.claim_pays recipient hload havailable hwithin hcaller haccepts
  refine ⟨w', hexec, ?_⟩
  have hmember : vestedAmount w.env.time sch ≤ vested w.env.time account.schedules :=
    List.le_sum_of_mem (List.mem_map_of_mem hsch)
  rw [vestedAmount_of_endsBy (hearned.valid sch hsch) hends] at hmember
  have hreleased := hearned.released
  rw [hclaimed, h.claimed, Storage.account, hload, Option.getD_some, Option.getD_none]
  omega

/-! ### The promise -/

/-- As long as the account is not removed, a claim goes through that stays within what
`AvailableAmount` answered once, less what was claimed since, whatever else happened. -/
theorem available_stays {b : VestingBaseBuilder} {owner tokenInfoManager : Addr} {env : Env}
    {held : AssetInfo → Nat} {before after : List Action} {available amount : Nat}
    (hw : run (World.exec accepts) (World.start b owner tokenInfoManager env held) before = w)
    (hquery : queryVestingAvailableAmount w.storage w.env a = .ok available)
    (hspares : ∀ action ∈ after, action.Spares a)
    (hw' : run (World.exec accepts) w after = w')
    (hle : w'.claimed a + amount ≤ w.claimed a + available)
    (hcaller : w.storage.config.vestingToken ≠ some (.token a))
    (haccepts : AcceptsPositive accepts) (recipient : Option Addr) :
    ∃ v, w'.exec accepts (.execute ⟨a, []⟩ (.claim recipient (some amount))) = .ok v ∧
      v.claimed a = w'.claimed a + amount ∧ w'.Loses v (recipient.getD a) amount := by
  have hinv : w.Inv := hw ▸ World.Inv.run accepts b owner tokenInfoManager env held before
  have hinv' : w'.Inv := hw' ▸ run_invariant World.Inv (fun _ _ _ => World.Inv.exec) hinv
  have hkept : Kept a w w' := hw' ▸ Kept.run hspares
  simp only [queryVestingAvailableAmount, bind_eq_ok, SnapshotMap.load, Map.load_eq_ok] at hquery
  obtain ⟨account, hload, havailable⟩ := hquery
  replace hload : w.storage.vestingInfo.mayLoad a = some account := hload
  obtain ⟨added, released, hload'⟩ := hkept.account account hload
  have hset : w.storage.config.vestingToken ≠ none := by
    intro hnone
    rw [SnapshotMap.mayLoad, hinv.storage.unset hnone] at hload
    cases hload
  have hearned := hinv.storage.earned a account hload
  obtain rfl := Except.ok.inj
    (havailable.symm.trans (hearned.available (hinv.storage.granted_lt hload) le_rfl))
  have havailable' := (hinv'.storage.earned a _ hload').available
    (hinv'.storage.granted_lt hload') le_rfl
  -- time passes and schedules are added: what was vested stays vested
  have hvested : vested w.env.time account.schedules ≤
      vested w'.env.time (added ++ account.schedules) := by
    rw [vested_append]
    exact (vested_mono _ hkept.time).trans (Nat.le_add_left _ _)
  have hclaimed := hinv.claimed a
  -- released and claimed are the same amount, before and after
  have hclaimed' := hinv'.claimed a
  rw [Storage.account, hload, Option.getD_some] at hclaimed
  rw [Storage.account, hload', Option.getD_some] at hclaimed'
  have hreleased := hearned.released
  refine hinv'.claim_pays recipient hload' havailable' (fun n hn => ?_) ?_ haccepts
  · obtain rfl := Option.some.inj hn
    dsimp only at hclaimed' ⊢
    omega
  · rwa [hkept.token hset]

/-- Half of Bob's 200 tokens is available after 50 seconds. He claims 60, and 30 seconds later, when
Mallory has claimed too and the owner has registered him again, the other 40. -/
def samplePromise : List Action :=
  [.execute ⟨"bob", []⟩ (.claim none (some 60)),
    .advance 30 3,
    .execute ⟨"mallory", []⟩ (.claim none none),
    .send "token" "owner" 50 (some (.registerVestingAccounts [⟨"bob", [⟨⟨500, 50⟩, none⟩]⟩]))]

theorem available_stays_sample :
    let start := World.start ⟨[], true, false, false⟩ "owner" "manager" ⟨0, 1, "vesting"⟩
      fun _ => 0
    let w := run (World.exec fun _ => true) start (sampleTransactions.take 4)
    let w' := run (World.exec fun _ => true) w samplePromise
    ∃ v, w'.exec (fun _ => true) (.execute ⟨"bob", []⟩ (.claim none (some 40))) = .ok v ∧
      v.claimed "bob" = w'.claimed "bob" + 40 ∧ w'.Loses v "bob" 40 := by
  intro start w w'
  have hquery : queryVestingAvailableAmount w.storage w.env "bob" = .ok 100 := by decide +kernel
  have hspares : ∀ action ∈ samplePromise, action.Spares "bob" := by
    simp [samplePromise, Action.Spares]
  exact available_stays rfl hquery hspares rfl (by decide +kernel) (by decide +kernel)
    (fun _ _ => rfl) none

end NeutronTge.Vesting
