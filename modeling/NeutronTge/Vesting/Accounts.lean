import NeutronTge.Vesting.Schedule
import NeutronTge.Vesting.Ledger

/-!
# NeutronTge.Vesting.Accounts

What one call of `vesting-base` does to the accounts and to the totals beside them.
`Booked` says it all at once: how each account evolves, that the totals move with the sums
over the accounts, how much more is owed, and that all writes belong to the block of the
call. Each handler has its `Booked` lemma, and `execute_booked` puts them together with the
tokens that came in and went out. The invariants of the vesting contracts are read off
`Booked` and never look into a handler again.
-/

namespace NeutronTge.Vesting

open CosmWasm Astroport

/-! ### Accounts and totals -/

namespace Storage

/-- The account of an address; an address that is not stored has an empty one. -/
def account (s : Storage) (addr : Addr) : VestingInfo :=
  (s.vestingInfo.mayLoad addr).getD ⟨[], 0⟩

/-- The stored totals. -/
def totals (s : Storage) : VestingState := (s.vestingState.mayLoad ()).getD ⟨0, 0⟩

/-- How far the granted total is ahead of the sum over the accounts. -/
def grantedGap (s : Storage) : Int := (s.totals.totalGranted : Int) - s.grantedSum

/-- How far the released total is ahead of the sum over the accounts. -/
def releasedGap (s : Storage) : Int := (s.totals.totalReleased : Int) - s.releasedSum

theorem owed_eq (s : Storage) : s.owed = (s.grantedSum : Int) - s.releasedSum := by
  unfold owed grantedSum releasedSum Map.sum VestingInfo.owed
  induction s.vestingInfo.primary.entries with
  | nil => rfl
  | cons e es ih =>
      simp only [List.map_cons, List.sum_cons, Nat.cast_add] at ih ⊢
      omega

@[simp] theorem saveInfo_totals (s : Storage) (a : Addr) (i : VestingInfo) (h : Nat) :
    (s.saveInfo a i h).totals = s.totals := rfl

@[simp] theorem saveState_mayLoad (s : Storage) (v : VestingState) (h : Nat) :
    (s.saveState v h).vestingState.mayLoad () = some v := by
  unfold saveState
  dsimp only
  split
  · exact SnapshotMap.mayLoad_save ..
  · exact Map.mayLoad_save ..

@[simp] theorem saveState_totals (s : Storage) (v : VestingState) (h : Nat) :
    (s.saveState v h).totals = v := by
  simp [totals]

@[simp] theorem removeInfo_config (s : Storage) (a : Addr) (h : Nat) :
    (s.removeInfo a h).config = s.config := rfl

@[simp] theorem removeInfo_vestingState (s : Storage) (a : Addr) (h : Nat) :
    (s.removeInfo a h).vestingState = s.vestingState := rfl

@[simp] theorem removeInfo_primary (s : Storage) (a : Addr) (h : Nat) :
    (s.removeInfo a h).vestingInfo.primary = s.vestingInfo.primary.remove a := by
  unfold removeInfo
  dsimp only
  split <;> rfl

theorem mayLoad_saveInfo (s : Storage) (a a' : Addr) (i : VestingInfo) (h : Nat) :
    (s.saveInfo a i h).vestingInfo.mayLoad a' =
      if a' = a then some i else s.vestingInfo.mayLoad a' := by
  unfold SnapshotMap.mayLoad
  rw [saveInfo_primary, Map.mayLoad_save_eq]

theorem mayLoad_removeInfo (s : Storage) (a a' : Addr) (h : Nat) :
    (s.removeInfo a h).vestingInfo.mayLoad a' =
      if a' = a then none else s.vestingInfo.mayLoad a' := by
  unfold SnapshotMap.mayLoad
  rw [removeInfo_primary, Map.mayLoad_remove_eq]

/-- Storing an account replaces its summand in a sum over the accounts. -/
theorem sum_saveInfo (s : Storage) (a : Addr) (i : VestingInfo) (h : Nat)
    (f : VestingInfo → Nat) (hf : f ⟨[], 0⟩ = 0) :
    (s.saveInfo a i h).vestingInfo.primary.sum (fun _ => f) + f (s.account a) =
      s.vestingInfo.primary.sum (fun _ => f) + f i := by
  rw [saveInfo_primary]
  unfold account SnapshotMap.mayLoad
  cases hold : s.vestingInfo.primary.mayLoad a with
  | none =>
      rw [Map.sum_save_new hold, Option.getD_none, hf]
      omega
  | some old =>
      have hsum := Map.sum_save_old hold i fun _ => f
      rw [Option.getD_some]
      omega

theorem grantedSum_saveInfo (s : Storage) (a : Addr) (i : VestingInfo) (h : Nat) :
    (s.saveInfo a i h).grantedSum + granted (s.account a).schedules =
      s.grantedSum + granted i.schedules :=
  sum_saveInfo s a i h (fun i => granted i.schedules) rfl

theorem releasedSum_saveInfo (s : Storage) (a : Addr) (i : VestingInfo) (h : Nat) :
    (s.saveInfo a i h).releasedSum + (s.account a).releasedAmount =
      s.releasedSum + i.releasedAmount :=
  sum_saveInfo s a i h VestingInfo.releasedAmount rfl

@[simp] theorem saveState_grantedSum (s : Storage) (v : VestingState) (h : Nat) :
    (s.saveState v h).grantedSum = s.grantedSum := rfl

@[simp] theorem saveState_releasedSum (s : Storage) (v : VestingState) (h : Nat) :
    (s.saveState v h).releasedSum = s.releasedSum := rfl

/-- Removing an account takes its summand out of a sum over the accounts. -/
theorem sum_removeInfo {s : Storage} {a : Addr} {i : VestingInfo}
    (hload : s.vestingInfo.mayLoad a = some i) (h : Nat) (f : VestingInfo → Nat) :
    (s.removeInfo a h).vestingInfo.primary.sum (fun _ => f) + f i =
      s.vestingInfo.primary.sum (fun _ => f) := by
  have hsum := Map.sum_remove (show s.vestingInfo.primary.mayLoad a = some i from hload)
    fun _ => f
  rw [removeInfo_primary]
  omega

end Storage

/-! ### The writes of a call -/

/-- All writes belong to block `now`. Only a contract with the historical extension keeps
track of them. -/
structure Rewrites (now : Nat) (s s' : Storage) : Prop where
  extensions : s'.config.extensions = s.config.extensions
  infos : s.config.extensions.historical = true →
    SnapshotMap.Rewritten now s.vestingInfo s'.vestingInfo
  states : s.config.extensions.historical = true →
    SnapshotMap.Rewritten now s.vestingState s'.vestingState

namespace Rewrites

variable {now : Nat} {s s' t : Storage}

theorem refl (now : Nat) (s : Storage) : Rewrites now s s :=
  ⟨rfl, fun _ => .refl, fun _ => .refl⟩

theorem trans (h : Rewrites now s s') (h' : Rewrites now s' t) : Rewrites now s t where
  extensions := h'.extensions.trans h.extensions
  infos hon := (h.infos hon).trans (h'.infos (by rw [h.extensions]; exact hon))
  states hon := (h.states hon).trans (h'.states (by rw [h.extensions]; exact hon))

theorem saveInfo (s : Storage) (a : Addr) (i : VestingInfo) (now : Nat) :
    Rewrites now s (s.saveInfo a i now) where
  extensions := rfl
  infos hon := by
    unfold Storage.saveInfo
    simp only [hon, if_true]
    exact .save a i
  states _ := .refl

theorem removeInfo (s : Storage) (a : Addr) (now : Nat) :
    Rewrites now s (s.removeInfo a now) where
  extensions := rfl
  infos hon := by
    unfold Storage.removeInfo
    simp only [hon, if_true]
    exact .remove a
  states _ := .refl

theorem saveState (s : Storage) (v : VestingState) (now : Nat) :
    Rewrites now s (s.saveState v now) where
  extensions := rfl
  infos _ := .refl
  states hon := by
    unfold Storage.saveState
    simp only [hon, if_true]
    exact .save () v

/-- A call that writes neither the accounts nor the totals. -/
theorem of_eq (hext : s'.config.extensions = s.config.extensions)
    (hinfo : s'.vestingInfo = s.vestingInfo) (hstate : s'.vestingState = s.vestingState) :
    Rewrites now s s' where
  extensions := hext
  infos _ := by rw [hinfo]; exact .refl
  states _ := by rw [hstate]; exact .refl

end Rewrites

/-! ### How an account evolves -/

/-- What one call can do to one account. -/
inductive Evolves (time : Nat) : Option VestingInfo → Option VestingInfo → Prop
  | same (o : Option VestingInfo) : Evolves time o o
  /-- Valid schedules are put in front; what was released stays. -/
  | extended (o : Option VestingInfo) (added : List VestingSchedule)
      (hvalid : ∀ sch ∈ added, sch.Valid) :
      Evolves time o
        (some ⟨added ++ (o.getD ⟨[], 0⟩).schedules, (o.getD ⟨[], 0⟩).releasedAmount⟩)
  /-- A part of the available amount is released. -/
  | paid (info : VestingInfo) (amount available : Nat)
      (havailable : computeAvailableAmount time info = .ok available)
      (hle : amount ≤ available) :
      Evolves time (some info) (some { info with releasedAmount := info.releasedAmount + amount })
  | removed (info : VestingInfo) : Evolves time (some info) none

/-- What one call does to the books: `flow` is how much more is owed after it. -/
structure Booked (env : Env) (s s' : Storage) (flow : Int) : Prop where
  granted : s'.grantedGap = s.grantedGap
  released : s'.releasedGap = s.releasedGap
  bounded : s.totals.totalGranted < 2 ^ 128 → s'.totals.totalGranted < 2 ^ 128
  owed : s'.owed = s.owed + flow
  rewrites : Rewrites env.height s s'
  accounts : ∀ a, Evolves env.time (s.vestingInfo.mayLoad a) (s'.vestingInfo.mayLoad a)

/-- A call that leaves the accounts and the totals alone. -/
theorem Booked.of_eq {env : Env} {s s' : Storage}
    (hext : s'.config.extensions = s.config.extensions)
    (hinfo : s'.vestingInfo = s.vestingInfo) (hstate : s'.vestingState = s.vestingState) :
    Booked env s s' 0 where
  granted := by simp only [Storage.grantedGap, Storage.totals, Storage.grantedSum, hinfo, hstate]
  released := by
    simp only [Storage.releasedGap, Storage.totals, Storage.releasedSum, hinfo, hstate]
  bounded := by simp only [Storage.totals, hstate, imp_self]
  owed := by simp only [Storage.owed, hinfo, add_zero]
  rewrites := .of_eq hext hinfo hstate
  accounts a := by
    rw [hinfo]
    exact .same _

/-! ### Registrations -/

/-- An account after a registration: unchanged, or with valid schedules put in front. -/
def Extended (o o' : Option VestingInfo) : Prop :=
  o' = o ∨ ∃ added : List VestingSchedule, (∀ sch ∈ added, sch.Valid) ∧
    o' = some ⟨added ++ (o.getD ⟨[], 0⟩).schedules, (o.getD ⟨[], 0⟩).releasedAmount⟩

theorem Extended.trans {o o' o'' : Option VestingInfo} (h : Extended o o')
    (h' : Extended o' o'') : Extended o o'' := by
  rcases h with rfl | ⟨added, hvalid, rfl⟩
  · exact h'
  · rcases h' with rfl | ⟨added', hvalid', rfl⟩
    · exact Or.inr ⟨added, hvalid, rfl⟩
    · refine Or.inr ⟨added' ++ added, ?_, ?_⟩
      · intro sch hsch
        rcases List.mem_append.mp hsch with hsch | hsch
        · exact hvalid' sch hsch
        · exact hvalid sch hsch
      · simp

theorem Extended.evolves {time : Nat} {o o' : Option VestingInfo} (h : Extended o o') :
    Evolves time o o' := by
  rcases h with rfl | ⟨added, hvalid, rfl⟩
  · exact .same _
  · exact .extended _ added hvalid

/-- What the loop of a registration has done so far. -/
structure Grants (height : Nat) (s s' : Storage) (amount : Nat) : Prop where
  registers : Registers s s' amount
  state : s'.vestingState = s.vestingState
  rewrites : Rewrites height s s'
  accounts : ∀ a, Extended (s.vestingInfo.mayLoad a) (s'.vestingInfo.mayLoad a)

theorem Grants.refl (height : Nat) (s : Storage) : Grants height s s 0 :=
  ⟨.refl s, rfl, .refl _ s, fun _ => Or.inl rfl⟩

theorem Grants.trans {height : Nat} {s t u : Storage} {a b : Nat} (h : Grants height s t a)
    (h' : Grants height t u b) : Grants height s u (a + b) :=
  ⟨h.registers.trans h'.registers, h'.state.trans h.state, h.rewrites.trans h'.rewrites,
    fun addr => (h.accounts addr).trans (h'.accounts addr)⟩

theorem registerAccount_grants {height : Nat} {st st' : Nat × Storage}
    {account : VestingAccount} (h : registerAccount height st account = .ok st') :
    st'.1 = st.1 + granted account.schedules ∧
      Grants height st.2 st'.2 (granted account.schedules) := by
  obtain ⟨hamount, hregisters⟩ := registerAccount_ok h
  unfold registerAccount at h
  simp only [bind_eq_ok, mapError_eq_ok, Except.ok.injEq] at h
  obtain ⟨_, hassert, toDeposit, -, rfl⟩ := h
  refine ⟨hamount, hregisters, rfl, .saveInfo .., fun a => ?_⟩
  dsimp only
  rw [Storage.mayLoad_saveInfo]
  split
  · rename_i heq
    subst heq
    refine Or.inr ⟨account.schedules, assertVestingSchedules_ok hassert, ?_⟩
    cases st.2.vestingInfo.mayLoad account.address with
    | none => simp
    | some old => rfl
  · exact Or.inl rfl

theorem grantTotal_totals {s s' : Storage} {toDeposit height : Nat}
    (h : grantTotal s toDeposit height = .ok s') :
    s'.totals = { s.totals with totalGranted := s.totals.totalGranted + toDeposit } ∧
      s'.totals.totalGranted < 2 ^ 128 ∧ Rewrites height s s' := by
  unfold grantTotal at h
  simp only [bind_eq_ok, mapError_eq_ok, Uint.checkedAdd_eq_ok, Except.ok.injEq] at h
  obtain ⟨totalGranted, ⟨hlt, rfl⟩, rfl⟩ := h
  rw [Storage.saveState_totals]
  exact ⟨rfl, hlt, .saveState ..⟩

/-- A registration leaves the accounts alone that it does not name. -/
theorem registerVestingAccounts_others {s s' : Storage} {vestingAccounts : List VestingAccount}
    {amount height : Nat} {a : Addr}
    (h : registerVestingAccounts s vestingAccounts amount height = .ok s')
    (ha : ∀ account ∈ vestingAccounts, account.address ≠ a) :
    s'.vestingInfo.mayLoad a = s.vestingInfo.mayLoad a := by
  unfold registerVestingAccounts at h
  simp only [bind_eq_ok, exists_const, rejectIf_eq_ok] at h
  obtain ⟨⟨toDeposit, t⟩, hloop, -, htotal⟩ := h
  rw [(grantTotal_ok htotal).2]
  refine foldlM_invariant (fun st : Nat × Storage =>
    st.2.vestingInfo.mayLoad a = s.vestingInfo.mayLoad a) rfl ?_ hloop
  intro st st' account haccount hst hround
  unfold registerAccount at hround
  simp only [bind_eq_ok, Except.ok.injEq] at hround
  obtain ⟨-, -, toDeposit, -, rfl⟩ := hround
  dsimp only
  rw [Storage.mayLoad_saveInfo, if_neg (Ne.symm (ha account haccount)), hst]

/-- A registration books what it grants. -/
theorem registerVestingAccounts_booked {s s' : Storage} {env : Env}
    {vestingAccounts : List VestingAccount} {amount : Nat}
    (h : registerVestingAccounts s vestingAccounts amount env.height = .ok s') :
    Booked env s s' amount ∧ s'.config = s.config ∧
      ∀ a, Extended (s.vestingInfo.mayLoad a) (s'.vestingInfo.mayLoad a) := by
  unfold registerVestingAccounts at h
  simp only [bind_eq_ok, exists_const, rejectIf_eq_ok, not_not] at h
  obtain ⟨⟨toDeposit, t⟩, hloop, rfl, htotal⟩ := h
  -- the loop writes the accounts only; `VESTING_STATE` follows in one step
  have hgrants : Grants env.height s t toDeposit := by
    refine foldlM_invariant (fun st : Nat × Storage => Grants env.height s st.2 st.1)
      (Grants.refl env.height s) ?_ hloop
    intro st st' account _ hst hround
    obtain ⟨hamount, hround⟩ := registerAccount_grants hround
    rw [hamount]
    exact hst.trans hround
  obtain ⟨hconfig, hinfo⟩ := grantTotal_ok htotal
  obtain ⟨htotals, hlt, hrewrites⟩ := grantTotal_totals htotal
  have hold : t.totals = s.totals := by
    unfold Storage.totals
    rw [hgrants.state]
  have hgranted : s'.grantedSum = s.grantedSum + toDeposit := by
    rw [← hgrants.registers.grantedSum]
    unfold Storage.grantedSum
    rw [hinfo]
  have hreleased : s'.releasedSum = s.releasedSum := by
    rw [← hgrants.registers.releasedSum]
    unfold Storage.releasedSum
    rw [hinfo]
  have haccounts : ∀ a, Extended (s.vestingInfo.mayLoad a) (s'.vestingInfo.mayLoad a) := by
    intro a
    rw [hinfo]
    exact hgrants.accounts a
  refine ⟨?_, hconfig.trans hgrants.registers.config, haccounts⟩
  constructor
  · simp only [Storage.grantedGap, htotals, hold, hgranted]
    push_cast
    omega
  · simp only [Storage.releasedGap, htotals, hold, hreleased]
  · intro _
    exact hlt
  · rw [Storage.owed_eq, Storage.owed_eq, hgranted, hreleased]
    push_cast
    omega
  · exact hgrants.rewrites.trans hrewrites
  · exact fun a => (haccounts a).evolves

/-! ### Claims -/

/-- A claim that pays `paid` of the vesting token. -/
structure Pays (env : Env) (info : MessageInfo) (recipient : Option Addr) (s s' : Storage)
    (msgs : List TransferMsg) (token : AssetInfo) (paid : Nat) : Prop where
  vestingToken : s.config.vestingToken = some token
  booked : Booked env s s' (-(paid : Int))
  config : s'.config = s.config
  others : ∀ a, a ≠ info.sender → s'.vestingInfo.mayLoad a = s.vestingInfo.mayLoad a
  stored : s'.vestingInfo.mayLoad info.sender = some { s.account info.sender with
    releasedAmount := (s.account info.sender).releasedAmount + paid }
  available : ∃ available, computeAvailableAmount env.time (s.account info.sender) =
    .ok available ∧ paid ≤ available
  messages : (paid = 0 ∧ msgs = []) ∨
    msgs = [(Asset.mk token paid).intoMsg (recipient.getD info.sender)]

theorem Pays.released {env : Env} {info : MessageInfo} {recipient : Option Addr}
    {s s' : Storage} {msgs : List TransferMsg} {token : AssetInfo} {paid : Nat}
    (h : Pays env info recipient s s' msgs token paid) :
    (s'.account info.sender).releasedAmount =
      (s.account info.sender).releasedAmount + paid := by
  rw [Storage.account, h.stored, Option.getD_some]

/-- A claim books what it pays: nothing, or one transfer of the vesting token. -/
theorem claim_pays {s s' : Storage} {env : Env} {info : MessageInfo} {recipient : Option Addr}
    {amount : Option Nat} {msgs : List TransferMsg}
    (h : claim s env info recipient amount = .ok (s', msgs)) :
    ∃ token paid, Pays env info recipient s s' msgs token paid := by
  unfold claim at h
  simp only [bind_eq_ok, mapError_eq_ok, exists_const, rejectIf_eq_ok, getVestingToken,
    okOr_eq_ok, SnapshotMap.load, Map.load_eq_ok] at h
  obtain ⟨token, htoken, account, hload, available, havailable, henough, h⟩ := h
  have hload' : s.vestingInfo.mayLoad info.sender = some account := hload
  refine ⟨token, amount.getD available, ?_⟩
  have hle : amount.getD available ≤ available := by
    cases amount with
    | none => exact le_refl _
    | some a =>
        by_contra hlt
        exact henough ⟨a, rfl, Nat.lt_of_not_le hlt⟩
  have haccount : s.account info.sender = account := by
    rw [Storage.account, hload', Option.getD_some]
  have hall : ∃ n, computeAvailableAmount env.time (s.account info.sender) = .ok n ∧
      amount.getD available ≤ n := ⟨available, by rw [haccount]; exact havailable, hle⟩
  split at h
  -- nothing claimed: nothing is written
  · rename_i hzero
    simp only [Except.ok.injEq, Prod.mk.injEq] at h
    obtain ⟨rfl, rfl⟩ := h
    rw [hzero] at hall ⊢
    refine ⟨htoken, .of_eq rfl rfl rfl, rfl, fun _ _ => rfl, ?_, hall, Or.inl ⟨rfl, rfl⟩⟩
    rw [haccount]
    exact hload'
  · simp only [bind_eq_ok, mapError_eq_ok, okOr_eq_ok, Uint.checkedAdd_eq_ok,
      Except.ok.injEq, Prod.mk.injEq] at h
    obtain ⟨released, ⟨-, rfl⟩, state, hstate, totalReleased, ⟨-, rfl⟩, rfl, rfl⟩ := h
    -- the account is written first, which does not change `VESTING_STATE`
    have htotals : s.totals = state := by
      unfold Storage.totals
      rw [← Storage.saveInfo_vestingState s info.sender _ env.height, hstate, Option.getD_some]
    have hgranted := Storage.grantedSum_saveInfo s info.sender
      { account with releasedAmount := account.releasedAmount + amount.getD available } env.height
    have hreleased := Storage.releasedSum_saveInfo s info.sender
      { account with releasedAmount := account.releasedAmount + amount.getD available } env.height
    rw [haccount] at hgranted hreleased
    dsimp only at hgranted hreleased
    refine ⟨htoken, ⟨?_, ?_, ?_, ?_, ?_, ?_⟩, rfl, ?_, ?_, hall, Or.inr rfl⟩
    · rw [Storage.grantedGap, Storage.grantedGap, Storage.saveState_totals, htotals,
        Storage.saveState_grantedSum]
      dsimp only
      omega
    · rw [Storage.releasedGap, Storage.releasedGap, Storage.saveState_totals, htotals,
        Storage.saveState_releasedSum]
      push_cast
      omega
    · rw [Storage.saveState_totals, htotals]
      exact id
    · rw [Storage.owed_eq, Storage.owed_eq, Storage.saveState_grantedSum,
        Storage.saveState_releasedSum]
      omega
    · exact (Rewrites.saveInfo ..).trans (.saveState ..)
    · intro a
      rw [Storage.saveState_vestingInfo, Storage.mayLoad_saveInfo]
      split
      · rename_i heq
        rw [heq, hload']
        exact .paid account _ available havailable hle
      · exact .same _
    · intro a hne
      rw [Storage.saveState_vestingInfo, Storage.mayLoad_saveInfo, if_neg hne]
    · rw [haccount, Storage.saveState_vestingInfo, Storage.mayLoad_saveInfo, if_pos rfl]

/-! ### Removals -/

/-- What transfers move together. -/
def quantities (msgs : List TransferMsg) : Nat := (msgs.map TransferMsg.quantity).sum

@[simp] theorem quantities_nil : quantities [] = 0 := rfl

@[simp] theorem quantities_append (xs ys : List TransferMsg) :
    quantities (xs ++ ys) = quantities xs + quantities ys := by
  simp [quantities]

@[simp] theorem quantities_singleton (m : TransferMsg) : quantities [m] = m.quantity := by
  simp [quantities]

/-- What the loop of a removal has done so far. -/
structure Removes (height : Nat) (token : AssetInfo) (s s' : Storage)
    (msgs : List TransferMsg) : Prop where
  config : s'.config = s.config
  granted : s'.grantedGap = s.grantedGap
  released : s'.releasedGap = s.releasedGap
  bounded : s'.totals.totalGranted ≤ s.totals.totalGranted
  owed : s'.owed = s.owed - quantities msgs
  rewrites : Rewrites height s s'
  accounts : ∀ a, s'.vestingInfo.mayLoad a = s.vestingInfo.mayLoad a ∨
    s'.vestingInfo.mayLoad a = none
  messages : ∀ m ∈ msgs, m.info = token

theorem Removes.refl (height : Nat) (token : AssetInfo) (s : Storage) :
    Removes height token s s [] :=
  ⟨rfl, rfl, rfl, le_refl _, by simp, .refl _ s, fun _ => Or.inl rfl, by simp⟩

theorem Removes.trans {height : Nat} {token : AssetInfo} {s t u : Storage}
    {xs ys : List TransferMsg} (h : Removes height token s t xs)
    (h' : Removes height token t u ys) : Removes height token s u (xs ++ ys) where
  config := h'.config.trans h.config
  granted := h'.granted.trans h.granted
  released := h'.released.trans h.released
  bounded := h'.bounded.trans h.bounded
  owed := by
    rw [h'.owed, h.owed, quantities_append]
    push_cast
    omega
  rewrites := h.rewrites.trans h'.rewrites
  accounts a := by
    rcases h'.accounts a with heq | hnone
    · rw [heq]
      exact h.accounts a
    · exact Or.inr hnone
  messages m hm := by
    rcases List.mem_append.mp hm with hm | hm
    · exact h.messages m hm
    · exact h'.messages m hm

/-- One round of the loop: an address that is not stored is skipped, also one that an
earlier round removed. -/
theorem removeAccount_removes {vestingToken : AssetInfo} {clawbackAddress : Addr} {height : Nat}
    {st st' : Storage × List TransferMsg} {address : Addr}
    (h : removeAccount vestingToken clawbackAddress height st address = .ok st') :
    ∃ msgs, st'.2 = st.2 ++ msgs ∧ Removes height vestingToken st.1 st'.1 msgs := by
  unfold removeAccount at h
  split at h
  · obtain rfl := Except.ok.inj h
    exact ⟨[], (List.append_nil _).symm, .refl _ _ _⟩
  · rename_i account hload
    simp only [bind_eq_ok, mapError_eq_ok, okOr_eq_ok, Uint.checkedSub_eq_ok,
      Except.ok.injEq] at h
    obtain ⟨total, htotal, amount, ⟨hle, rfl⟩, state, hstate, _, ⟨hgranted, rfl⟩, _,
      ⟨hreleased, rfl⟩, rfl⟩ := h
    have htotal := addGranted_eq_ok htotal
    rw [Nat.zero_add] at htotal
    subst htotal
    have htotals : st.1.totals = state := by
      unfold Storage.totals
      rw [hstate, Option.getD_some]
    have hsumGranted : (st.1.removeInfo address height).grantedSum + granted account.schedules =
        st.1.grantedSum := Storage.sum_removeInfo hload height fun i => granted i.schedules
    have hsumReleased : (st.1.removeInfo address height).releasedSum + account.releasedAmount =
        st.1.releasedSum := Storage.sum_removeInfo hload height VestingInfo.releasedAmount
    refine ⟨_, rfl, ?_⟩
    -- the totals are written first, so the sums are those of the removal alone
    generalize hs : (st.1.saveState ⟨state.totalGranted - granted account.schedules,
      state.totalReleased - account.releasedAmount⟩ height).removeInfo address height = s'
    have hgrantedSum : s'.grantedSum = (st.1.removeInfo address height).grantedSum := by
      rw [← hs]
      rfl
    have hreleasedSum : s'.releasedSum = (st.1.removeInfo address height).releasedSum := by
      rw [← hs]
      rfl
    have htotals' : s'.totals = ⟨state.totalGranted - granted account.schedules,
        state.totalReleased - account.releasedAmount⟩ := by
      rw [← hs]
      exact Storage.saveState_totals ..
    constructor
    · rw [← hs]
      rfl
    · rw [Storage.grantedGap, Storage.grantedGap, htotals', htotals, hgrantedSum]
      dsimp only
      omega
    · rw [Storage.releasedGap, Storage.releasedGap, htotals', htotals, hreleasedSum]
      dsimp only
      omega
    · rw [htotals', htotals]
      exact Nat.sub_le ..
    · rw [Storage.owed_eq, Storage.owed_eq, hgrantedSum, hreleasedSum, quantities_singleton,
        intoMsg_quantity]
      dsimp only
      omega
    · rw [← hs]
      exact (Rewrites.saveState ..).trans (.removeInfo ..)
    · intro a
      rw [← hs, Storage.mayLoad_removeInfo, Storage.saveState_vestingInfo]
      split
      · exact Or.inr rfl
      · exact Or.inl rfl
    · intro m hm
      rw [List.mem_singleton.mp hm, intoMsg_info]

/-- A removal books the transfers it asks for. -/
theorem removeVestingAccounts_booked {s s' : Storage} {env : Env} {info : MessageInfo}
    {vestingAccounts : List Addr} {clawbackAccount : Addr} {msgs : List TransferMsg}
    (h : removeVestingAccounts s env info vestingAccounts clawbackAccount = .ok (s', msgs)) :
    ∃ token, s.config.vestingToken = some token ∧ s'.config = s.config ∧
      Booked env s s' (-(quantities msgs : Int)) ∧
      (∀ a, s'.vestingInfo.mayLoad a = s.vestingInfo.mayLoad a ∨
        s'.vestingInfo.mayLoad a = none) ∧
      ∀ m ∈ msgs, m.info = token := by
  unfold removeVestingAccounts at h
  simp only [bind_eq_ok, exists_const, rejectIf_eq_ok, getVestingToken, okOr_eq_ok] at h
  obtain ⟨-, token, htoken, hloop⟩ := h
  have hremoves : Removes env.height token s s' msgs := by
    refine foldlM_invariant (fun st : Storage × List TransferMsg =>
      Removes env.height token s st.1 st.2) (Removes.refl env.height token s) ?_ hloop
    intro st st' a _ hst hround
    obtain ⟨ms, hms, hround⟩ := removeAccount_removes hround
    rw [hms]
    exact hst.trans hround
  refine ⟨token, htoken, hremoves.config, ?_, hremoves.accounts, hremoves.messages⟩
  constructor
  · exact hremoves.granted
  · exact hremoves.released
  · exact fun hlt => Nat.lt_of_le_of_lt hremoves.bounded hlt
  · rw [hremoves.owed]
    omega
  · exact hremoves.rewrites
  · intro a
    rcases hremoves.accounts a with heq | hnone
    · rw [heq]
      exact .same _
    · rw [hnone]
      cases hload : s.vestingInfo.mayLoad a with
      | none => exact .same _
      | some i => exact .removed i

/-! ### Messages -/

/-- The ways the vesting token comes in with a registration: the token delivers its hook,
or the call carries the coins. -/
inductive Deposit (token : AssetInfo) (info : MessageInfo) : ExecuteMsg → Nat → Prop
  | hook (sender : Addr) (amount : Nat) (payload : Option Cw20HookMsg)
      (htoken : AssetInfo.token info.sender = token) :
      Deposit token info (.receive ⟨sender, amount, payload⟩) amount
  | coins (denom : String) (amount : Nat) (vestingAccounts : List VestingAccount)
      (htoken : token = .nativeToken denom) (hfunds : info.funds = [⟨denom, amount⟩]) :
      Deposit token info (.registerVestingAccounts vestingAccounts) amount

/-- The accounts that a message registers. -/
def ExecuteMsg.registered : ExecuteMsg → List VestingAccount
  | .registerVestingAccounts vestingAccounts => vestingAccounts
  | .receive ⟨_, _, some (.registerVestingAccounts vestingAccounts)⟩ => vestingAccounts
  | _ => []

/-- What a successful message can be. -/
inductive Effect (env : Env) (info : MessageInfo) (s s' : Storage) :
    ExecuteMsg → List TransferMsg → Prop
  /-- Neither the accounts nor the totals are touched. The vesting token is set once. -/
  | idle (msg : ExecuteMsg) (hinfo : s'.vestingInfo = s.vestingInfo)
      (hstate : s'.vestingState = s.vestingState)
      (hext : s'.config.extensions = s.config.extensions)
      (htoken : s.config.vestingToken = none ∨ s'.config.vestingToken = s.config.vestingToken) :
      Effect env info s s' msg []
  | registered (msg : ExecuteMsg) (token : AssetInfo) (amount : Nat)
      (htoken : s.config.vestingToken = some token) (hdeposit : Deposit token info msg amount)
      (hbooked : Booked env s s' amount) (hconfig : s'.config = s.config)
      (haccounts : ∀ a, Extended (s.vestingInfo.mayLoad a) (s'.vestingInfo.mayLoad a))
      (hothers : ∀ a, (∀ account ∈ msg.registered, account.address ≠ a) →
        s'.vestingInfo.mayLoad a = s.vestingInfo.mayLoad a) :
      Effect env info s s' msg []
  | paid (recipient : Option Addr) (requested : Option Nat) (token : AssetInfo) (paid : Nat)
      (msgs : List TransferMsg) (hpays : Pays env info recipient s s' msgs token paid) :
      Effect env info s s' (.claim recipient requested) msgs
  | removed (vestingAccounts : List Addr) (clawbackAccount : Addr) (token : AssetInfo)
      (msgs : List TransferMsg) (htoken : s.config.vestingToken = some token)
      (hconfig : s'.config = s.config) (hbooked : Booked env s s' (-(quantities msgs : Int)))
      (haccounts : ∀ a, s'.vestingInfo.mayLoad a = s.vestingInfo.mayLoad a ∨
        s'.vestingInfo.mayLoad a = none)
      (hmsgs : ∀ m ∈ msgs, m.info = token) (hmanaged : s.config.extensions.managed = true) :
      Effect env info s s'
        (.managedExtension (.removeVestingAccounts vestingAccounts clawbackAccount)) msgs

theorem receiveCw20_effect {s s' : Storage} {env : Env} {info : MessageInfo}
    {cw20Msg : Cw20ReceiveMsg Cw20HookMsg} {msgs : List TransferMsg}
    (h : receiveCw20 s env info cw20Msg = .ok (s', msgs)) :
    Effect env info s s' (.receive cw20Msg) msgs := by
  obtain ⟨sender, amount, payload⟩ := cw20Msg
  unfold receiveCw20 at h
  simp only [bind_eq_ok, exists_const, getVestingToken, okOr_eq_ok, authorizeDeposit,
    rejectIf_eq_ok, not_or, not_not] at h
  obtain ⟨token, htoken, ⟨-, hcaller⟩, hook, hpayload, h⟩ := h
  obtain rfl : payload = some hook := okOr_eq_ok.mp hpayload
  cases hook with
  | registerVestingAccounts vestingAccounts =>
      simp only [Except.ok.injEq, Prod.mk.injEq] at h
      obtain ⟨t, hregister, rfl, rfl⟩ := h
      obtain ⟨hbooked, hconfig, haccounts⟩ := registerVestingAccounts_booked hregister
      exact .registered _ token amount htoken (.hook sender amount _ hcaller) hbooked hconfig
        haccounts fun a ha => registerVestingAccounts_others hregister ha

theorem registerWithCoins_effect {s s' : Storage} {env : Env} {info : MessageInfo}
    {vestingAccounts : List VestingAccount} {msgs : List TransferMsg}
    (h : registerWithCoins s env info vestingAccounts = .ok (s', msgs)) :
    Effect env info s s' (.registerVestingAccounts vestingAccounts) msgs := by
  unfold registerWithCoins at h
  simp only [bind_eq_ok, getVestingToken, okOr_eq_ok] at h
  obtain ⟨token, htoken, h⟩ := h
  cases token with
  | token contractAddr => cases h
  | nativeToken denom =>
      simp only [bind_eq_ok, rejectIf_eq_ok, exists_const, mapError_eq_ok, Except.ok.injEq,
        Prod.mk.injEq] at h
      obtain ⟨-, amount, hpay, t, hregister, rfl, rfl⟩ := h
      obtain ⟨hbooked, hconfig, haccounts⟩ := registerVestingAccounts_booked hregister
      exact .registered _ _ amount htoken
        (.coins denom amount vestingAccounts rfl (mustPay_pos hpay).1) hbooked hconfig haccounts
        fun a ha => registerVestingAccounts_others hregister ha

/-- Every successful message is one of the four. -/
theorem execute_effect {s s' : Storage} {env : Env} {info : MessageInfo} {msg : ExecuteMsg}
    {msgs : List TransferMsg} (h : execute s env info msg = .ok (s', msgs)) :
    Effect env info s s' msg msgs := by
  cases msg with
  | claim recipient amount =>
      obtain ⟨token, paid, hpays⟩ := claim_pays h
      exact .paid recipient amount token paid msgs hpays
  | receive msg => exact receiveCw20_effect h
  | registerVestingAccounts vestingAccounts => exact registerWithCoins_effect h
  | proposeNewOwner owner expiresIn =>
      simp only [execute, bind_eq_ok, Except.ok.injEq, Prod.mk.injEq] at h
      obtain ⟨p, -, rfl, rfl⟩ := h
      exact .idle _ rfl rfl rfl (Or.inr rfl)
  | dropOwnershipProposal =>
      simp only [execute, bind_eq_ok, Except.ok.injEq, Prod.mk.injEq] at h
      obtain ⟨_, -, rfl, rfl⟩ := h
      exact .idle _ rfl rfl rfl (Or.inr rfl)
  | claimOwnership =>
      simp only [execute, bind_eq_ok, Except.ok.injEq, Prod.mk.injEq] at h
      obtain ⟨owner, -, rfl, rfl⟩ := h
      exact .idle _ rfl rfl rfl (Or.inr rfl)
  | setVestingToken vestingToken =>
      have hnone := setVestingToken_ok h
      simp only [execute, setVestingToken, bind_eq_ok, exists_unit_and, Except.ok.injEq,
        Prod.mk.injEq] at h
      obtain ⟨-, -, -, rfl, rfl⟩ := h
      exact .idle _ rfl rfl rfl (Or.inl hnone)
  | managedExtension msg =>
      have hmanaged := handleExecuteManagedMsg_ok h
      simp only [execute, handleExecuteManagedMsg, bind_eq_ok, exists_unit_and] at h
      obtain ⟨-, h⟩ := h
      cases msg with
      | removeVestingAccounts vestingAccounts clawbackAccount =>
          obtain ⟨token, htoken, hconfig, hbooked, haccounts, hmsgs⟩ :=
            removeVestingAccounts_booked h
          exact .removed vestingAccounts clawbackAccount token msgs htoken hconfig hbooked
            haccounts hmsgs hmanaged
  | withManagersExtension msg =>
      obtain ⟨huntouched, rfl⟩ := handleExecuteWithManagersMsg_ok h
      have hstate : s'.vestingState = s.vestingState := by
        simp only [execute, handleExecuteWithManagersMsg, bind_eq_ok, exists_unit_and] at h
        obtain ⟨-, -, h⟩ := h
        cases msg <;>
        · simp only [Except.ok.injEq, Prod.mk.injEq] at h
          obtain ⟨rfl, -⟩ := h
          rfl
      exact .idle _ huntouched.vestingInfo hstate huntouched.extensions
        (Or.inr huntouched.vestingToken)

/-- A message books the tokens that came in with it less those it sends out. -/
theorem Effect.booked {env : Env} {info : MessageInfo} {s s' : Storage} {msg : ExecuteMsg}
    {msgs : List TransferMsg} (h : Effect env info s s' msg msgs) :
    ∃ flow, Booked env s s' flow := by
  cases h with
  | idle _ hinfo hstate hext _ => exact ⟨0, .of_eq hext hinfo hstate⟩
  | registered _ _ amount _ _ hbooked _ _ _ => exact ⟨amount, hbooked⟩
  | paid _ _ _ paid _ hpays => exact ⟨_, hpays.booked⟩
  | removed _ _ _ _ _ _ hbooked _ _ _ => exact ⟨_, hbooked⟩

end NeutronTge.Vesting
