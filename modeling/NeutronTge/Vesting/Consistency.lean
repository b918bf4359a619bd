import NeutronTge.Vesting.Chain

/-!
# NeutronTge.Vesting.Consistency

The books of a vesting contract and its claims, in every state of every run. The invariant
has one part for the totals, one for the tokens, one for the accounts and one for the past;
`Effect` says what a message does to each of them.
-/

namespace NeutronTge.Vesting

open CosmWasm Astroport

/-! ### Accounts -/

/-- The schedules are valid and no more was released than has vested by `time`. -/
structure VestingInfo.Earned (time : Nat) (info : VestingInfo) : Prop where
  valid : ∀ sch ∈ info.schedules, sch.Valid
  released : info.releasedAmount ≤ vested time info.schedules

theorem VestingInfo.Earned.mono {info : VestingInfo} {t t' : Nat} (h : info.Earned t)
    (hle : t ≤ t') : info.Earned t' :=
  ⟨h.valid, h.released.trans (vested_mono _ hle)⟩

theorem VestingInfo.Earned.sound {info : VestingInfo} {t : Nat} (h : info.Earned t)
    (hlt : granted info.schedules < 2 ^ 128) : info.Sound :=
  ⟨h.released.trans (vested_le_granted h.valid t), hlt⟩

/-- From `t` on the available amount is what has vested and was not released. -/
theorem VestingInfo.Earned.available {info : VestingInfo} {t t' : Nat} (h : info.Earned t)
    (hlt : granted info.schedules < 2 ^ 128) (hle : t ≤ t') :
    computeAvailableAmount t' info = .ok (vested t' info.schedules - info.releasedAmount) := by
  rw [computeAvailableAmount_eq h.valid hlt]
  exact Uint.checkedSub_eq_ok.mpr ⟨(h.mono hle).released, rfl⟩

/-- No call releases more than has vested. -/
theorem Evolves.earned {time : Nat} {o o' : Option VestingInfo} (h : Evolves time o o')
    (ho : ∀ info, o = some info → info.Earned time ∧ granted info.schedules < 2 ^ 128) :
    ∀ info, o' = some info → info.Earned time := by
  intro info' hinfo'
  cases h with
  | same => exact (ho info' hinfo').1
  | extended _ added hvalid =>
      obtain rfl := Option.some.inj hinfo'
      have hold : (o.getD ⟨[], 0⟩).Earned time := by
        cases o with
        | none => exact ⟨by simp, le_refl 0⟩
        | some info => exact (ho info rfl).1
      constructor
      · intro sch hsch
        rcases List.mem_append.mp hsch with hsch | hsch
        · exact hvalid sch hsch
        · exact hold.valid sch hsch
      · rw [vested_append]
        exact hold.released.trans (Nat.le_add_left _ _)
  | paid info amount available havailable hle =>
      obtain rfl := Option.some.inj hinfo'
      obtain ⟨hearned, hlt⟩ := ho info rfl
      obtain rfl := Except.ok.inj (havailable.symm.trans (hearned.available hlt (le_refl time)))
      have hreleased := hearned.released
      refine ⟨hearned.valid, ?_⟩
      dsimp only
      omega
  | removed info => cases hinfo'

/-- What is vested of an account that stays never shrinks. -/
theorem Evolves.vested_le {time : Nat} {o o' : Option VestingInfo} {info info' : VestingInfo}
    (h : Evolves time o o') (ho : o = some info) (ho' : o' = some info') (t : Nat) :
    vested t info.schedules ≤ vested t info'.schedules := by
  cases h with
  | same =>
      obtain rfl := Option.some.inj (ho.symm.trans ho')
      exact le_refl _
  | extended _ added hvalid =>
      obtain rfl := ho
      obtain rfl := Option.some.inj ho'
      rw [Option.getD_some, vested_append]
      exact Nat.le_add_left _ _
  | paid =>
      obtain rfl := Option.some.inj ho
      obtain rfl := Option.some.inj ho'
      exact le_refl _
  | removed => cases ho'

/-! ### The invariant -/

/-- What holds of the storage between two transactions. -/
structure Storage.Inv (time : Nat) (s : Storage) : Prop where
  granted : s.grantedGap = 0
  released : s.releasedGap = 0
  bounded : s.totals.totalGranted < 2 ^ 128
  /-- Without a vesting token nobody was registered. -/
  unset : s.config.vestingToken = none → s.vestingInfo.primary = ∅
  earned : ∀ a info, s.vestingInfo.mayLoad a = some info → info.Earned time

theorem Storage.Inv.granted_lt {time : Nat} {s : Storage} (h : s.Inv time) {a : Addr}
    {info : VestingInfo} (hload : s.vestingInfo.mayLoad a = some info) :
    Vesting.granted info.schedules < 2 ^ 128 := by
  have hle : Vesting.granted info.schedules ≤ s.grantedSum :=
    Map.le_sum (show s.vestingInfo.primary.mayLoad a = some info from hload)
      fun _ i => Vesting.granted i.schedules
  have hgap := h.granted
  have hlt := h.bounded
  unfold Storage.grantedGap at hgap
  omega

theorem Storage.Inv.sound {time : Nat} {s : Storage} (h : s.Inv time) {a : Addr}
    {info : VestingInfo} (hload : s.vestingInfo.mayLoad a = some info) : info.Sound :=
  (h.earned a info hload).sound (h.granted_lt hload)

theorem Storage.Inv.owed_unset {time : Nat} {s : Storage} (h : s.Inv time)
    (hnone : s.config.vestingToken = none) : s.owed = 0 := by
  rw [Storage.owed, h.unset hnone, Map.sum_empty]

theorem Storage.Inv.booked {env : Env} {s s' : Storage} {flow : Int} (h : s.Inv env.time)
    (hbooked : Booked env s s' flow)
    (hunset : s'.config.vestingToken = none → s'.vestingInfo.primary = ∅) :
    s'.Inv env.time where
  granted := hbooked.granted.trans h.granted
  released := hbooked.released.trans h.released
  bounded := hbooked.bounded h.bounded
  unset := hunset
  earned a := (hbooked.accounts a).earned fun info hload =>
    ⟨h.earned a info hload, h.granted_lt hload⟩

/-- No message drops the vesting token, and without one no account is written. -/
theorem Effect.token {env : Env} {info : MessageInfo} {s s' : Storage} {msg : ExecuteMsg}
    {msgs : List TransferMsg} (h : Effect env info s s' msg msgs) :
    (s'.config.vestingToken = none → s.config.vestingToken = none) ∧
      (s.config.vestingToken = none → s'.vestingInfo = s.vestingInfo) := by
  cases h with
  | idle _ hinfo _ _ htoken =>
      refine ⟨fun hnone => ?_, fun _ => hinfo⟩
      rcases htoken with htoken | htoken
      · exact htoken
      · exact htoken ▸ hnone
  | registered _ _ _ htoken _ _ hconfig _ _ =>
      exact ⟨fun hnone => hconfig ▸ hnone, fun hnone => by simp [hnone] at htoken⟩
  | paid _ _ _ _ _ hpays =>
      refine ⟨fun hnone => hpays.config ▸ hnone, fun hnone => ?_⟩
      have htoken := hpays.vestingToken
      simp [hnone] at htoken
  | removed _ _ _ _ htoken hconfig _ _ _ _ =>
      exact ⟨fun hnone => hconfig ▸ hnone, fun hnone => by simp [hnone] at htoken⟩

theorem Storage.Inv.effect {env : Env} {info : MessageInfo} {s s' : Storage} {msg : ExecuteMsg}
    {msgs : List TransferMsg} (h : s.Inv env.time) (heffect : Effect env info s s' msg msgs) :
    s'.Inv env.time := by
  obtain ⟨flow, hbooked⟩ := heffect.booked
  obtain ⟨hkeeps, hsame⟩ := heffect.token
  refine h.booked hbooked fun hnone => ?_
  rw [hsame (hkeeps hnone)]
  exact h.unset (hkeeps hnone)

/-- What holds between two transactions. -/
structure World.Inv (w : World) : Prop where
  storage : w.storage.Inv w.env.time
  solvent : ∀ token, w.storage.config.vestingToken = some token → w.storage.owed ≤ w.held token
  history : w.storage.config.extensions.historical = true → History w.env.height w.storage
  claimed : ∀ a, w.claimed a = (w.storage.account a).releasedAmount

/-- The answers about past blocks still agree after a message. -/
theorem Effect.history {env : Env} {info : MessageInfo} {s s' : Storage} {msg : ExecuteMsg}
    {msgs : List TransferMsg} (h : Effect env info s s' msg msgs) (hinv : s'.Inv env.time)
    (hhistory : s.config.extensions.historical = true → History env.height s) :
    s'.config.extensions.historical = true → History env.height s' := by
  intro hon
  obtain ⟨flow, hbooked⟩ := h.booked
  have hon' : s.config.extensions.historical = true := by
    rw [← hbooked.rewrites.extensions]
    exact hon
  refine (hhistory hon').step hon' hbooked.rewrites (agrees_of_gaps ?_ fun a info hload => ?_)
  · rw [hinv.granted, hinv.released]
  · exact hinv.sound hload

/-- The record of what claims have paid keeps up with the released amounts. -/
theorem Effect.claimed {env : Env} {info : MessageInfo} {s s' : Storage} {msg : ExecuteMsg}
    {msgs : List TransferMsg} {w : World} (h : Effect env info s s' msg msgs)
    (hclaimed : ∀ a, w.claimed a = (s.account a).releasedAmount) (a : Addr) :
    w.claimedAfter s' info msg msgs a = (s'.account a).releasedAmount := by
  unfold World.claimedAfter
  cases hload : s'.vestingInfo.mayLoad a with
  | none => simp [Storage.account, hload]
  | some i' =>
      have haccount : s'.account a = i' := by simp [Storage.account, hload]
      -- a message that is no claim keeps what was released to an account that stays
      have hother : s'.vestingInfo.mayLoad a = s.vestingInfo.mayLoad a ∨
          Extended (s.vestingInfo.mayLoad a) (s'.vestingInfo.mayLoad a) →
          w.claimed a = i'.releasedAmount := by
        rintro (hsame | hsame | ⟨added, -, hextended⟩)
        · rw [hclaimed, ← haccount, Storage.account, Storage.account, hsame]
        · rw [hclaimed, ← haccount, Storage.account, Storage.account, hsame]
        · rw [hclaimed, ← haccount]
          simp only [Storage.account, hextended, Option.getD_some]
      rw [haccount]
      cases h with
      | idle _ hinfo _ _ _ =>
          have hkept := hother (Or.inl (by rw [hinfo]))
          cases msg with
          | claim recipient amount =>
              show w.claimed a + (if a = info.sender then quantities [] else 0) = _
              rw [hkept, quantities_nil, ite_self, Nat.add_zero]
          | _ => exact hkept
      | registered _ _ _ _ hdeposit _ _ haccounts _ =>
          have hkept := hother (Or.inr (haccounts a))
          cases hdeposit with
          | hook => exact hkept
          | coins => exact hkept
      | paid recipient requested token paid _ hpays =>
          have hpaid : quantities msgs = paid := by
            rcases hpays.messages with ⟨rfl, rfl⟩ | rfl
            · rfl
            · rw [quantities_singleton, intoMsg_quantity]
          dsimp only
          by_cases ha : a = info.sender
          · rw [if_pos ha, hpaid, hclaimed, ← haccount, ha]
            exact hpays.released.symm
          · rw [if_neg ha, Nat.add_zero]
            exact hother (Or.inl (hpays.others a ha))
      | removed _ _ _ _ _ _ _ haccounts _ _ =>
          refine hother (Or.inl ?_)
          rcases haccounts a with hsame | hnone
          · exact hsame
          · rw [hload] at hnone
            cases hnone

/-! ### Runs -/

/-- The tokens cover what is owed after a message, when those that came in with it are
already there: `w` is the world the handler runs in. -/
theorem Effect.solvent {accepts : TransferMsg → Bool} {info : MessageInfo} {w w' : World}
    {s' : Storage} {msg : ExecuteMsg} {msgs : List TransferMsg} {claimed : Addr → Nat}
    (h : Effect w.env info w.storage s' msg msgs) (hinv : w.storage.Inv w.env.time)
    (hcovered : ∀ token, w.storage.config.vestingToken = some token → ∀ amount,
      Deposit token info msg amount → w.storage.owed + amount ≤ w.held token)
    (hsolvent : ∀ token, w.storage.config.vestingToken = some token →
      w.storage.owed ≤ w.held token)
    (hrun : msgs.foldlM (World.payOut accepts) { w with storage := s', claimed := claimed } =
      .ok w') :
    w'.storage = s' ∧ w'.env = w.env ∧ w'.claimed = claimed ∧
      ∀ token, s'.config.vestingToken = some token → s'.owed ≤ w'.held token := by
  -- the transfers are all of the vesting token, and there is none before it is set
  have hrest : ∀ token flow, w.storage.config.vestingToken = some token →
      s'.config = w.storage.config → (∀ m ∈ msgs, m.info = token) →
      s'.owed = w.storage.owed + flow → w.storage.owed + flow + quantities msgs ≤ w.held token →
      w'.storage = s' ∧ w'.env = w.env ∧ w'.claimed = claimed ∧
        ∀ token, s'.config.vestingToken = some token → s'.owed ≤ w'.held token := by
    intro token flow htoken hconfig hmsgs howed hle
    obtain ⟨hstorage, henv, hclaimed, hheld⟩ := payOuts_ok hmsgs hrun
    refine ⟨hstorage, henv, hclaimed, fun token' htoken' => ?_⟩
    rw [hconfig] at htoken'
    obtain rfl := Option.some.inj (htoken.symm.trans htoken')
    dsimp only at hheld
    omega
  cases h with
  | idle _ hinfo _ _ htoken =>
      obtain rfl := Except.ok.inj hrun
      refine ⟨rfl, rfl, rfl, fun token htoken' => ?_⟩
      have howed : s'.owed = w.storage.owed := by simp only [Storage.owed, hinfo]
      rw [howed]
      rcases htoken with hnone | hsame
      · rw [hinv.owed_unset hnone]
        exact Int.natCast_nonneg _
      · exact hsolvent token (hsame ▸ htoken')
  | registered _ token amount htoken hdeposit hbooked hconfig _ _ =>
      refine hrest token amount htoken hconfig (by simp) hbooked.owed ?_
      have hle := hcovered token htoken amount hdeposit
      rw [quantities_nil]
      omega
  | paid recipient requested token paid _ hpays =>
      have hle := hsolvent token hpays.vestingToken
      have hmsgs : (∀ m ∈ msgs, m.info = token) ∧ quantities msgs = paid := by
        rcases hpays.messages with ⟨rfl, rfl⟩ | rfl
        · simp
        · simp
      refine hrest token _ hpays.vestingToken hpays.config hmsgs.1 hpays.booked.owed ?_
      rw [hmsgs.2]
      omega
  | removed _ _ token _ htoken hconfig hbooked _ hmsgs _ =>
      have hle := hsolvent token htoken
      refine hrest token _ htoken hconfig hmsgs hbooked.owed ?_
      omega

/-- A message keeps the invariant when the tokens it deposits are already there. -/
theorem World.Inv.call {accepts : TransferMsg → Bool} {w w' : World} {info : MessageInfo}
    {msg : ExecuteMsg} (h : w.Inv)
    (hcovered : ∀ token, w.storage.config.vestingToken = some token → ∀ amount,
      Deposit token info msg amount → w.storage.owed + amount ≤ w.held token)
    (hcall : w.call accepts info msg = .ok w') : w'.Inv := by
  unfold World.call at hcall
  rw [bind_eq_ok] at hcall
  obtain ⟨⟨s', msgs⟩, hexec, hrun⟩ := hcall
  have heffect := execute_effect hexec
  dsimp only at hrun
  obtain ⟨hstorage, henv, hclaimed, hsolvent⟩ :=
    heffect.solvent h.storage hcovered h.solvent hrun
  have hinv := h.storage.effect heffect
  constructor
  · rw [hstorage, henv]
    exact hinv
  · rw [hstorage]
    exact hsolvent
  · rw [hstorage, henv]
    exact heffect.history hinv h.history
  · rw [hstorage, hclaimed]
    exact heffect.claimed h.claimed

/-- More tokens do no harm. -/
theorem World.Inv.of_held {w w' : World} (h : w.Inv) (hstorage : w'.storage = w.storage)
    (henv : w'.env = w.env) (hclaimed : w'.claimed = w.claimed)
    (hheld : ∀ a, w.held a ≤ w'.held a) : w'.Inv := by
  constructor
  · rw [hstorage, henv]
    exact h.storage
  · intro token htoken
    rw [hstorage] at htoken ⊢
    have hle := h.solvent token htoken
    have hmore := hheld token
    omega
  · rw [hstorage, henv]
    exact h.history
  · rw [hstorage, hclaimed]
    exact h.claimed

theorem World.Inv.exec {accepts : TransferMsg → Bool} {w w' : World} {a : Action} (h : w.Inv)
    (hexec : w.exec accepts a = .ok w') : w'.Inv := by
  cases a with
  | advance seconds blocks =>
      obtain rfl := Except.ok.inj hexec
      refine ⟨⟨h.storage.granted, h.storage.released, h.storage.bounded, h.storage.unset, ?_⟩,
        h.solvent, ?_, h.claimed⟩
      · intro a info hload
        exact (h.storage.earned a info hload).mono (Nat.le_add_right _ _)
      · exact fun hon => (h.history hon).mono (Nat.le_add_right _ _)
  | transfer asset amount =>
      obtain rfl := Except.ok.inj hexec
      exact h.of_held rfl rfl rfl fun a => held_le_credit ..
  | send token sender amount msg =>
      -- the tokens are there before the hook is called
      have hcredited : (w.credit (.token token) amount).Inv :=
        h.of_held rfl rfl rfl fun a => held_le_credit ..
      have hcall : (w.credit (.token token) amount).call accepts ⟨token, []⟩
          (.receive ⟨sender, amount, msg⟩) = .ok w' := hexec
      refine hcredited.call ?_ hcall
      intro token' htoken' deposited hdeposit
      cases hdeposit with
      | hook _ _ _ htoken =>
          obtain rfl := htoken
          have hle := h.solvent _ htoken'
          dsimp only at hle ⊢
          rw [credit_held, credit_storage]
          push_cast
          omega
  | execute info msg =>
      simp only [World.exec, bind_eq_ok, rejectIf_eq_ok, exists_const] at hexec
      obtain ⟨hnot, hcall⟩ := hexec
      obtain ⟨hstorage, henv, hclaimed, hheld⟩ := creditCoins_frame info.funds w
      refine (h.of_held hstorage henv hclaimed hheld).call ?_ hcall
      rw [hstorage]
      intro token htoken amount hdeposit
      cases hdeposit with
      -- nobody sends messages in the token's name
      | hook _ _ _ hcaller => exact absurd (hcaller ▸ htoken) hnot
      | coins denom _ vestingAccounts hdenom hfunds =>
          obtain rfl := hdenom
          have hle := h.solvent _ htoken
          rw [hfunds]
          show _ ≤ (((w.credit (.nativeToken denom) amount).held (.nativeToken denom) : Nat) : Int)
          rw [credit_held]
          push_cast
          omega

theorem World.Inv.start (b : VestingBaseBuilder) (owner tokenInfoManager : Addr) (env : Env)
    (held : AssetInfo → Nat) : (World.start b owner tokenInfoManager env held).Inv := by
  constructor
  · refine ⟨rfl, rfl, Nat.two_pow_pos 128, fun _ => rfl, fun a info hload => ?_⟩
    cases hload
  · intro token htoken
    cases htoken
  · exact fun _ => History.init rfl rfl
  · exact fun _ => rfl

/-- The invariant holds in every state a run reaches. -/
theorem World.Inv.run (accepts : TransferMsg → Bool) (b : VestingBaseBuilder)
    (owner tokenInfoManager : Addr) (env : Env) (held : AssetInfo → Nat) (as : List Action) :
    (run (World.exec accepts) (World.start b owner tokenInfoManager env held) as).Inv :=
  run_invariant World.Inv (fun _ _ _ => World.Inv.exec) (.start b owner tokenInfoManager env held)

/-! ### The books -/

/-- The totals are the sums over the accounts, the tokens cover what is not released, and
with the historical extension the answers about every block agree. -/
structure World.Consistent (w : World) : Prop where
  granted : w.storage.totals.totalGranted = w.storage.grantedSum
  released : w.storage.totals.totalReleased = w.storage.releasedSum
  covered : ∀ token, w.storage.config.vestingToken = some token →
    w.storage.totals.totalGranted ≤ w.storage.totals.totalReleased + w.held token
  history : w.storage.config.extensions.historical = true → w.storage.HistoryAgrees

theorem World.Inv.consistent {w : World} (h : w.Inv) : w.Consistent := by
  have hgranted : w.storage.totals.totalGranted = w.storage.grantedSum := by
    have hgap := h.storage.granted
    unfold Storage.grantedGap at hgap
    omega
  have hreleased : w.storage.totals.totalReleased = w.storage.releasedSum := by
    have hgap := h.storage.released
    unfold Storage.releasedGap at hgap
    omega
  refine ⟨hgranted, hreleased, fun token htoken => ?_, fun hon => ?_⟩
  · have hle := h.solvent token htoken
    rw [Storage.owed_eq] at hle
    omega
  · exact (h.history hon).historyAgrees hon

/-- Every contract built from `vesting-base` keeps its books, whatever it is sent. -/
theorem ledger_consistent (accepts : TransferMsg → Bool) (b : VestingBaseBuilder)
    (owner tokenInfoManager : Addr) (env : Env) (held : AssetInfo → Nat) (as : List Action) :
    (run (World.exec accepts) (World.start b owner tokenInfoManager env held) as).Consistent :=
  (World.Inv.run accepts b owner tokenInfoManager env held as).consistent

/-! ### Claims -/

/-- A claim within the available amount is booked, when the totals have room for it. -/
theorem claim_isOk {s : Storage} {env : Env} {token : AssetInfo} {account : VestingInfo}
    {available : Nat} (info : MessageInfo) (recipient : Option Addr) {requested : Option Nat}
    (htoken : s.config.vestingToken = some token)
    (hload : s.vestingInfo.mayLoad info.sender = some account)
    (havailable : computeAvailableAmount env.time account = .ok available)
    (hle : ∀ n ∈ requested, n ≤ available)
    (hreleased : account.releasedAmount + requested.getD available < 2 ^ 128)
    (htotal : requested.getD available ≠ 0 → ∃ state, s.vestingState.mayLoad () = some state ∧
      state.totalReleased + requested.getD available < 2 ^ 128) :
    ∃ s' msgs, claim s env info recipient requested = .ok (s', msgs) ∧
      s'.vestingInfo.mayLoad info.sender = some
        { account with releasedAmount := account.releasedAmount + requested.getD available } ∧
      (requested.getD available = 0 ∧ msgs = [] ∨
        requested.getD available ≠ 0 ∧
          msgs = [(Asset.mk token (requested.getD available)).intoMsg
            (recipient.getD info.sender)]) := by
  -- the amount asked for is within what is available
  have hnot : ¬ ∃ n ∈ requested, available < n := by
    rintro ⟨n, hn, hlt⟩
    exact absurd (hle n hn) (Nat.not_le_of_lt hlt)
  generalize hpaid : requested.getD available = paid at *
  unfold claim
  simp only [bind_eq_ok, mapError_eq_ok, exists_const, rejectIf_eq_ok, getVestingToken,
    okOr_eq_ok, SnapshotMap.load, Map.load_eq_ok]
  by_cases hzero : paid = 0
  · refine ⟨s, [], ⟨token, htoken, account, hload, available, havailable, hnot, ?_⟩, ?_,
      Or.inl ⟨hzero, rfl⟩⟩
    · rw [hpaid, if_pos hzero]
    · rw [hload, hzero, Nat.add_zero]
  · obtain ⟨state, hstate, hlt⟩ := htotal hzero
    let t := (s.saveInfo info.sender
      { account with releasedAmount := account.releasedAmount + paid } env.height).saveState
        { state with totalReleased := state.totalReleased + paid } env.height
    refine ⟨t, _, ⟨token, htoken, account, hload, available, havailable, hnot, ?_⟩, ?_,
      Or.inr ⟨hzero, rfl⟩⟩
    · rw [hpaid, if_neg hzero]
      simp only [bind_eq_ok, mapError_eq_ok, okOr_eq_ok, Uint.checkedAdd_eq_ok]
      exact ⟨_, ⟨hreleased, rfl⟩, state, hstate, _, ⟨hlt, rfl⟩, rfl⟩
    · rw [Storage.saveState_vestingInfo, Storage.mayLoad_saveInfo, if_pos rfl]

/-- A transfer that the balance covers goes through. -/
theorem payOut_covered {accepts : TransferMsg → Bool} {w : World} {m : TransferMsg}
    (haccepts : accepts m = true) (hheld : m.quantity ≤ w.held m.info) :
    ∃ w', w.payOut accepts m = .ok w' ∧
      w.held m.info = w'.held m.info + if m.recipient = w.env.contract then 0 else m.quantity := by
  have hok : rejectIf (accepts m = false ∨ w.held m.info < m.quantity)
      (ContractError.std (.overflow .sub)) = .ok () := by
    rw [rejectIf_eq_ok, haccepts]
    simp
    omega
  by_cases hself : m.recipient = w.env.contract
  · refine ⟨w, bind_eq_ok.mpr ⟨_, hok, by rw [if_pos hself]⟩, ?_⟩
    rw [if_pos hself, Nat.add_zero]
  · refine ⟨_, bind_eq_ok.mpr ⟨_, hok, by rw [if_neg hself]⟩, ?_⟩
    dsimp only
    rw [if_pos rfl, if_neg hself]
    omega

/-- What one account has not claimed is owed, and within the totals. -/
theorem Storage.Inv.rest_le {time : Nat} {s : Storage} (h : s.Inv time) {a : Addr}
    {info : VestingInfo} (hload : s.vestingInfo.mayLoad a = some info) :
    (info.rest : Int) ≤ s.owed ∧ s.totals.totalReleased + info.rest ≤ s.totals.totalGranted := by
  have hsum := Storage.sum_rest fun _ _ hload => h.sound hload
  have hle : info.rest ≤ s.vestingInfo.primary.sum fun _ => VestingInfo.rest :=
    Map.le_sum (show s.vestingInfo.primary.mayLoad a = some info from hload)
      fun _ => VestingInfo.rest
  have hgranted := h.granted
  have hreleased := h.released
  unfold Storage.grantedGap at hgranted
  unfold Storage.releasedGap at hreleased
  rw [Storage.owed_eq]
  omega

/-- What a claim takes out of the contract, unless it pays the contract itself. -/
def World.Loses (w w' : World) (recipient : Addr) (amount : Nat) : Prop :=
  ∀ token, w.storage.config.vestingToken = some token →
    w.held token = w'.held token + if recipient = w.env.contract then 0 else amount

/-- What an account can get is at most what it has not claimed. -/
theorem VestingInfo.Earned.requested_le {time available : Nat} {requested : Option Nat}
    {account : VestingInfo} (hearned : account.Earned time)
    (hbounded : granted account.schedules < 2 ^ 128)
    (havailable : computeAvailableAmount time account = .ok available)
    (hle : ∀ n ∈ requested, n ≤ available) : requested.getD available ≤ account.rest := by
  obtain rfl := Except.ok.inj (havailable.symm.trans (hearned.available hbounded le_rfl))
  have hvested := vested_le_granted hearned.valid time
  have hpaid : requested.getD (vested time account.schedules - account.releasedAmount) ≤
      vested time account.schedules - account.releasedAmount := by
    cases requested with
    | none => exact le_rfl
    | some n => exact hle n rfl
  exact hpaid.trans (Nat.sub_le_sub_right hvested _)

/-- A claim within the available amount goes through and pays. -/
theorem World.Inv.claim_within {accepts : TransferMsg → Bool} {w : World} (h : w.Inv) {a : Addr}
    {account : VestingInfo} {available : Nat} {requested : Option Nat} (funds : List Coin)
    (recipient : Option Addr) (hload : w.storage.vestingInfo.mayLoad a = some account)
    (havailable : computeAvailableAmount w.env.time account = .ok available)
    (hle : ∀ n ∈ requested, n ≤ available)
    (hcaller : w.storage.config.vestingToken ≠ some (.token a))
    (haccepts : AcceptsPositive accepts) :
    ∃ w', w.exec accepts (.execute ⟨a, funds⟩ (.claim recipient requested)) = .ok w' ∧
      w'.storage.vestingInfo.mayLoad a = some
        { account with releasedAmount := account.releasedAmount + requested.getD available } ∧
      (w.creditCoins funds).Loses w' (recipient.getD a) (requested.getD available) := by
  obtain ⟨token, htoken⟩ : ∃ token, w.storage.config.vestingToken = some token := by
    refine Option.ne_none_iff_exists'.mp fun hnone => ?_
    rw [SnapshotMap.mayLoad, h.storage.unset hnone] at hload
    cases hload
  have hsound := h.storage.sound hload
  have hrest := (h.storage.earned a account hload).requested_le hsound.bounded havailable hle
  generalize hpaid : requested.getD available = paid at *
  obtain ⟨howed, htotal⟩ := h.storage.rest_le hload
  have hbounded := h.storage.bounded
  have hreleased : account.releasedAmount + paid < 2 ^ 128 := by
    have hsum : account.releasedAmount + account.rest = granted account.schedules :=
      Nat.add_sub_cancel' hsound.released
    have hlt := hsound.bounded
    omega
  have hstate : paid ≠ 0 → ∃ state, w.storage.vestingState.mayLoad () = some state ∧
      state.totalReleased + paid < 2 ^ 128 := by
    intro hpos
    unfold Storage.totals at htotal hbounded
    cases hst : w.storage.vestingState.mayLoad () with
    | none =>
        rw [hst, Option.getD_none] at htotal
        dsimp only at htotal
        omega
    | some state =>
        rw [hst, Option.getD_some] at htotal hbounded
        exact ⟨state, rfl, by omega⟩
  obtain ⟨s', msgs, hclaim, hsaved, hmsgs⟩ := claim_isOk ⟨a, funds⟩ recipient htoken hload
    havailable hle (hpaid ▸ hreleased) (hpaid ▸ hstate)
  rw [hpaid] at hsaved hmsgs
  obtain ⟨hstorage, henv, -, hheld⟩ := creditCoins_frame funds w
  let v : World :=
    { w.creditCoins funds with
      storage := s'
      claimed := (w.creditCoins funds).claimedAfter s' ⟨a, funds⟩ (.claim recipient requested)
        msgs }
  have hpays : ∃ w', msgs.foldlM (World.payOut accepts) v = .ok w' ∧
      (w.creditCoins funds).Loses w' (recipient.getD a) paid := by
    rcases hmsgs with ⟨rfl, rfl⟩ | ⟨hpos, rfl⟩
    · refine ⟨v, rfl, fun token' _ => ?_⟩
      rw [ite_self, Nat.add_zero]
    · -- the transfer is covered by what is owed to the account alone
      have hsolvent := h.solvent token htoken
      have hmore : w.held token ≤ v.held token := hheld token
      obtain ⟨w', hw', hlost⟩ := payOut_covered (w := v)
        (m := (Asset.mk token paid).intoMsg (recipient.getD a))
        (haccepts _ (by rw [intoMsg_quantity]; exact Nat.pos_of_ne_zero hpos)) (by
          rw [intoMsg_quantity, intoMsg_info]
          show paid ≤ v.held token
          omega)
      refine ⟨w', foldlM_cons_ok.mpr ⟨w', hw', rfl⟩, fun token' htoken' => ?_⟩
      rw [hstorage] at htoken'
      obtain rfl := Option.some.inj (htoken.symm.trans htoken')
      rw [intoMsg_info, intoMsg_recipient, intoMsg_quantity] at hlost
      exact hlost
  obtain ⟨w', hw', hloses⟩ := hpays
  have hsame : w'.storage = s' := by
    have hinfo : ∀ m ∈ msgs, m.info = token := by
      rcases hmsgs with ⟨-, rfl⟩ | ⟨-, rfl⟩ <;> simp
    exact (payOuts_ok hinfo hw').1
  refine ⟨w', ?_, by rw [hsame]; exact hsaved, hloses⟩
  simp only [World.exec, bind_eq_ok, rejectIf_eq_ok, exists_const, World.call]
  refine ⟨hcaller, ⟨s', msgs⟩, ?_, hw'⟩
  rw [hstorage, henv]
  exact hclaim

/-- After the last end time a claim without amount goes through and releases everything. -/
theorem World.Inv.claim_all {accepts : TransferMsg → Bool} {w : World} (h : w.Inv) {a : Addr}
    {info : VestingInfo} (hload : w.storage.vestingInfo.mayLoad a = some info)
    (hends : ∀ sch ∈ info.schedules, sch.EndsBy w.env.time)
    (hcaller : w.storage.config.vestingToken ≠ some (.token a))
    (haccepts : AcceptsPositive accepts) (funds : List Coin) (recipient : Option Addr) :
    ∃ w', w.exec accepts (.execute ⟨a, funds⟩ (.claim recipient none)) = .ok w' ∧
      w'.storage.vestingInfo.mayLoad a =
        some { info with releasedAmount := granted info.schedules } := by
  have hearned := h.storage.earned a info hload
  have hsound := h.storage.sound hload
  have havailable : computeAvailableAmount w.env.time info = .ok info.rest := by
    rw [hearned.available hsound.bounded (le_refl _), vested_of_endsBy hearned.valid hends]
    rfl
  have hsum : info.releasedAmount + info.rest = granted info.schedules :=
    Nat.add_sub_cancel' hsound.released
  have hnone : ∀ n ∈ (none : Option Nat), n ≤ info.rest := by simp
  obtain ⟨w', hexec, hsaved, -⟩ :=
    h.claim_within funds recipient hload havailable hnone hcaller haccepts
  rw [Option.getD_none, hsum] at hsaved
  exact ⟨w', hexec, hsaved⟩

/-- Claims follow the schedules: in a reached state, for every stored account. -/
structure World.FollowsSchedules (accepts : TransferMsg → Bool) (w : World) : Prop where
  /-- From now on the available amount is what has vested less what was released. -/
  available : ∀ a info, w.storage.vestingInfo.mayLoad a = some info → ∀ t, w.env.time ≤ t →
    info.releasedAmount ≤ vested t info.schedules ∧
      computeAvailableAmount t info = .ok (vested t info.schedules - info.releasedAmount)
  /-- Waiting takes nothing back. -/
  waiting : ∀ a info, w.storage.vestingInfo.mayLoad a = some info → ∀ t t', t ≤ t' →
    vested t info.schedules ≤ vested t' info.schedules
  /-- Nothing that happens next lowers what is vested of an account that stays. -/
  registering : ∀ action w' a info info', w.exec accepts action = .ok w' →
    w.storage.vestingInfo.mayLoad a = some info →
    w'.storage.vestingInfo.mayLoad a = some info' →
    ∀ t, vested t info.schedules ≤ vested t info'.schedules
  /-- All claims together are below the lines of the schedules. -/
  claimed : ∀ a info, w.storage.vestingInfo.mayLoad a = some info →
    (w.claimed a : ℚ) ≤ (info.schedules.map (interpolation w.env.time)).sum
  /-- After the last end time one claim releases the rest. -/
  finished : ∀ a info funds recipient, w.storage.vestingInfo.mayLoad a = some info →
    (∀ sch ∈ info.schedules, sch.EndsBy w.env.time) →
    w.storage.config.vestingToken ≠ some (.token a) → AcceptsPositive accepts →
    ∃ w', w.exec accepts (.execute ⟨a, funds⟩ (.claim recipient none)) = .ok w' ∧
      w'.storage.vestingInfo.mayLoad a =
        some { info with releasedAmount := granted info.schedules }

/-- The accounts after a message are those its handler left. -/
theorem call_evolves {accepts : TransferMsg → Bool} {w w' : World} {info : MessageInfo}
    {msg : ExecuteMsg} (h : w.call accepts info msg = .ok w') (a : Addr) :
    Evolves w.env.time (w.storage.vestingInfo.mayLoad a) (w'.storage.vestingInfo.mayLoad a) := by
  unfold World.call at h
  rw [bind_eq_ok] at h
  obtain ⟨⟨s', msgs⟩, hexec, hrun⟩ := h
  obtain ⟨flow, hbooked⟩ := (execute_effect hexec).booked
  have hstorage : w'.storage = s' :=
    foldlM_unchanged World.storage (fun _ _ _ _ hpay => (payOut_ok hpay).1) hrun
  rw [hstorage]
  exact hbooked.accounts a

theorem exec_evolves {accepts : TransferMsg → Bool} {w w' : World} {action : Action}
    (h : w.exec accepts action = .ok w') (a : Addr) :
    Evolves w.env.time (w.storage.vestingInfo.mayLoad a) (w'.storage.vestingInfo.mayLoad a) := by
  cases action with
  | advance seconds blocks =>
      obtain rfl := Except.ok.inj h
      exact .same _
  | transfer asset amount =>
      obtain rfl := Except.ok.inj h
      exact .same _
  | send token sender amount msg =>
      have hcall : (w.credit (.token token) amount).call accepts ⟨token, []⟩
          (.receive ⟨sender, amount, msg⟩) = .ok w' := h
      exact call_evolves hcall a
  | execute info msg =>
      simp only [World.exec, bind_eq_ok, rejectIf_eq_ok, exists_const] at h
      obtain ⟨-, hcall⟩ := h
      obtain ⟨hstorage, henv, -, -⟩ := creditCoins_frame info.funds w
      have hevolves := call_evolves hcall a
      rwa [hstorage, henv] at hevolves

theorem World.Inv.followsSchedules {w : World} (h : w.Inv) (accepts : TransferMsg → Bool) :
    w.FollowsSchedules accepts := by
  constructor
  · intro a info hload t hle
    have hearned := h.storage.earned a info hload
    exact ⟨(hearned.mono hle).released, hearned.available (h.storage.granted_lt hload) hle⟩
  · intro a info _ t t' hle
    exact vested_mono info.schedules hle
  · intro action w' a info info' hexec hload hload' t
    exact (exec_evolves hexec a).vested_le hload hload' t
  · intro a info hload
    have hearned := h.storage.earned a info hload
    rw [h.claimed, Storage.account, hload, Option.getD_some]
    exact (Nat.cast_le.mpr hearned.released).trans (vested_le_interpolation hearned.valid _)
  · intro a info funds recipient hload hends hcaller haccepts
    exact h.claim_all hload hends hcaller haccepts funds recipient

/-- In every state that a contract built from `vesting-base` reaches, claims follow the
schedules. -/
theorem claims_follow_schedules (accepts : TransferMsg → Bool) (b : VestingBaseBuilder)
    (owner tokenInfoManager : Addr) (env : Env) (held : AssetInfo → Nat) (as : List Action) :
    (run (World.exec accepts) (World.start b owner tokenInfoManager env held)
      as).FollowsSchedules accepts :=
  (World.Inv.run accepts b owner tokenInfoManager env held as).followsSchedules accepts

end NeutronTge.Vesting
