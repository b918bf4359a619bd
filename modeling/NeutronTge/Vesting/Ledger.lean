import Mathlib.Tactic.Ring
import NeutronTge.Vesting.Base

/-!
# NeutronTge.Vesting.Ledger

What the handlers of `vesting-base` do to the two sums over the accounts: the granted
amounts and the released amounts. Each handler has one lemma that inverts a successful
call; everything about runs is derived from these lemmas and never looks into a handler
again.
-/

namespace NeutronTge.Vesting

open CosmWasm Astroport

/-- The amount an account can still claim in the future. It is negative when more was
released than its schedules grant. -/
def VestingInfo.owed (info : VestingInfo) : Int :=
  (granted info.schedules : Int) - info.releasedAmount

namespace Storage

/-- The granted amounts of all stored accounts. -/
def grantedSum (s : Storage) : Nat :=
  s.vestingInfo.primary.sum fun _ info => granted info.schedules

/-- The released amounts of all stored accounts. -/
def releasedSum (s : Storage) : Nat :=
  s.vestingInfo.primary.sum fun _ info => info.releasedAmount

/-- The amounts still owed to all stored accounts. -/
def owed (s : Storage) : Int := s.vestingInfo.primary.sum fun _ info => info.owed

/-- The amount still owed to one address. -/
def owedTo (s : Storage) (addr : Addr) : Int :=
  match s.vestingInfo.mayLoad addr with
  | some info => info.owed
  | none => 0

/-- Storing an account changes the owed amount by what the account is owed now instead
of before. -/
theorem owed_saveInfo (s : Storage) (addr : Addr) (info : VestingInfo) (height : Nat) :
    (s.saveInfo addr info height).owed = s.owed + info.owed - s.owedTo addr := by
  unfold owed owedTo SnapshotMap.mayLoad
  rw [saveInfo_primary]
  cases hold : s.vestingInfo.primary.mayLoad addr with
  | none =>
      rw [Map.sum_save_new hold]
      dsimp only
      omega
  | some old =>
      have hsum := Map.sum_save_old hold info fun _ (i : VestingInfo) => i.owed
      dsimp only at hsum ⊢
      omega

end Storage

/-! ### Registration -/

/-- What a registration of `amount` in total does to the ledger. -/
structure Registers (s s' : Storage) (amount : Nat) : Prop where
  config : s'.config = s.config
  grantedSum : s'.grantedSum = s.grantedSum + amount
  releasedSum : s'.releasedSum = s.releasedSum
  owed : s'.owed = s.owed + amount

theorem Registers.refl (s : Storage) : Registers s s 0 :=
  ⟨rfl, rfl, rfl, by simp⟩

theorem Registers.trans {s t u : Storage} {a b : Nat} (h : Registers s t a)
    (h' : Registers t u b) : Registers s u (a + b) where
  config := h'.config.trans h.config
  grantedSum := by rw [h'.grantedSum, h.grantedSum, Nat.add_assoc]
  releasedSum := h'.releasedSum.trans h.releasedSum
  owed := by
    rw [h'.owed, h.owed]
    push_cast
    ring

/-- Registering one account adds its schedules to the granted sum and keeps what was
released. -/
theorem registerAccount_ok {height : Nat} {st st' : Nat × Storage} {account : VestingAccount}
    (h : registerAccount height st account = .ok st') :
    st'.1 = st.1 + granted account.schedules ∧
      Registers st.2 st'.2 (granted account.schedules) := by
  unfold registerAccount at h
  simp only [bind_eq_ok, mapError_eq_ok, Except.ok.injEq] at h
  obtain ⟨_, -, toDeposit, hadd, rfl⟩ := h
  refine ⟨addGranted_eq_ok hadd, ?_⟩
  cases hold : st.2.vestingInfo.primary.mayLoad account.address with
  | none =>
      have hload : st.2.vestingInfo.mayLoad account.address = none := hold
      constructor
      · rfl
      · simp only [Storage.grantedSum, hload, Storage.saveInfo_primary]
        rw [Map.sum_save_new hold, Nat.add_comm]
      · simp only [Storage.releasedSum, hload, Storage.saveInfo_primary]
        rw [Map.sum_save_new hold, Nat.zero_add]
      · rw [Storage.owed_saveInfo]
        simp [Storage.owedTo, VestingInfo.owed, hload]
  | some old =>
      have hload : st.2.vestingInfo.mayLoad account.address = some old := hold
      constructor
      · rfl
      · simp only [Storage.grantedSum, hload, Storage.saveInfo_primary]
        have hsum := Map.sum_save_old hold
          ⟨account.schedules ++ old.schedules, old.releasedAmount⟩
          fun _ (i : VestingInfo) => granted i.schedules
        simp only [granted_append] at hsum
        omega
      · simp only [Storage.releasedSum, hload, Storage.saveInfo_primary]
        exact Map.sum_save_same hold rfl
      · rw [Storage.owed_saveInfo]
        simp only [Storage.owedTo, VestingInfo.owed, hload, granted_append]
        push_cast
        ring

theorem grantTotal_ok {s s' : Storage} {toDeposit height : Nat}
    (h : grantTotal s toDeposit height = .ok s') :
    s'.config = s.config ∧ s'.vestingInfo = s.vestingInfo := by
  unfold grantTotal at h
  simp only [bind_eq_ok, mapError_eq_ok, Except.ok.injEq] at h
  obtain ⟨_, -, rfl⟩ := h
  exact ⟨rfl, rfl⟩

/-- A successful registration grants exactly the amount that was paid for it. -/
theorem registerVestingAccounts_ok {s s' : Storage} {vestingAccounts : List VestingAccount}
    {amount height : Nat}
    (h : registerVestingAccounts s vestingAccounts amount height = .ok s') :
    Registers s s' amount := by
  unfold registerVestingAccounts at h
  simp only [bind_eq_ok, exists_const, rejectIf_eq_ok, not_not] at h
  obtain ⟨⟨toDeposit, t⟩, hloop, rfl, htotal⟩ := h
  have hregistered : Registers s t toDeposit := by
    refine foldlM_invariant (fun st : Nat × Storage => Registers s st.2 st.1)
      (Registers.refl s) ?_ hloop
    intro st st' account _ hst hround
    obtain ⟨hamount, hround⟩ := registerAccount_ok hround
    rw [hamount]
    exact hst.trans hround
  obtain ⟨hconfig, hinfo⟩ := grantTotal_ok htotal
  constructor
  · rw [hconfig, hregistered.config]
  · rw [← hregistered.grantedSum, Storage.grantedSum, hinfo]
    rfl
  · rw [← hregistered.releasedSum, Storage.releasedSum, hinfo]
    rfl
  · rw [← hregistered.owed, Storage.owed, hinfo]
    rfl

/-! ### Claims -/

/-- A successful claim either pays nothing and changes nothing, or pays `amount` of the
vesting token and books it as released. -/
theorem claim_ok {s s' : Storage} {env : Env} {info : MessageInfo} {recipient : Option Addr}
    {amount : Option Nat} {msgs : List TransferMsg}
    (h : claim s env info recipient amount = .ok (s', msgs)) :
    (s' = s ∧ msgs = []) ∨
      ∃ token account claimAmount, s.config.vestingToken = some token ∧
        s.vestingInfo.mayLoad info.sender = some account ∧
        msgs = [(Asset.mk token claimAmount).intoMsg (recipient.getD info.sender)] ∧
        s'.config = s.config ∧
        s'.vestingInfo.primary = s.vestingInfo.primary.save info.sender
          { account with releasedAmount := account.releasedAmount + claimAmount } := by
  unfold claim at h
  simp only [bind_eq_ok, mapError_eq_ok, exists_unit_and, getVestingToken, okOr_eq_ok,
    SnapshotMap.load, Map.load_eq_ok] at h
  obtain ⟨token, htoken, account, haccount, available, -, -, h⟩ := h
  split at h
  · simp only [Except.ok.injEq, Prod.mk.injEq] at h
    exact Or.inl ⟨h.1.symm, h.2.symm⟩
  · simp only [bind_eq_ok, mapError_eq_ok, okOr_eq_ok, Uint.checkedAdd_eq_ok,
      Except.ok.injEq, Prod.mk.injEq] at h
    obtain ⟨released, ⟨-, rfl⟩, state, -, totalReleased, -, hs, hmsgs⟩ := h
    refine Or.inr ⟨token, account, amount.getD available, htoken, haccount, hmsgs.symm, ?_, ?_⟩
    · rw [← hs]
      rfl
    · rw [← hs, Storage.saveState_vestingInfo, Storage.saveInfo_primary]

/-- A paying claim lowers what is owed by exactly what it pays. -/
theorem owed_claim {s s' : Storage} {addr : Addr} {account : VestingInfo} {amount : Nat}
    (hload : s.vestingInfo.mayLoad addr = some account)
    (hsave : s'.vestingInfo.primary = s.vestingInfo.primary.save addr
      { account with releasedAmount := account.releasedAmount + amount }) :
    s'.owed = s.owed - amount := by
  have hsum := Map.sum_save_old (show s.vestingInfo.primary.mayLoad addr = some account from hload)
    { account with releasedAmount := account.releasedAmount + amount }
    fun _ (i : VestingInfo) => i.owed
  unfold Storage.owed
  rw [hsave]
  simp only [VestingInfo.owed] at hsum ⊢
  push_cast at hsum ⊢
  omega

/-! ### Messages that leave the accounts alone -/

/-- A call that changes nothing the ledger is about. -/
structure Untouched (s s' : Storage) : Prop where
  vestingToken : s'.config.vestingToken = s.config.vestingToken
  extensions : s'.config.extensions = s.config.extensions
  vestingInfo : s'.vestingInfo = s.vestingInfo

/-- Once the vesting token is set it stays. -/
theorem setVestingToken_ok {s s' : Storage} {info : MessageInfo} {token : AssetInfo}
    {msgs : List TransferMsg} (h : setVestingToken s info token = .ok (s', msgs)) :
    s.config.vestingToken = none := by
  unfold setVestingToken at h
  simp only [bind_eq_ok, exists_const, rejectIf_eq_ok] at h
  obtain ⟨-, hset, -⟩ := h
  simpa using hset

theorem handleExecuteWithManagersMsg_ok {s s' : Storage} {info : MessageInfo}
    {msg : ExecuteMsgWithManagers} {msgs : List TransferMsg}
    (h : handleExecuteWithManagersMsg s info msg = .ok (s', msgs)) :
    Untouched s s' ∧ msgs = [] := by
  unfold handleExecuteWithManagersMsg at h
  simp only [bind_eq_ok, exists_unit_and] at h
  obtain ⟨-, -, h⟩ := h
  cases msg with
  | addVestingManagers managers =>
      simp only [Except.ok.injEq, Prod.mk.injEq] at h
      obtain ⟨rfl, rfl⟩ := h
      exact ⟨⟨rfl, rfl, rfl⟩, rfl⟩
  | removeVestingManagers managers =>
      simp only [Except.ok.injEq, Prod.mk.injEq] at h
      obtain ⟨rfl, rfl⟩ := h
      exact ⟨⟨rfl, rfl, rfl⟩, rfl⟩

theorem handleExecuteManagedMsg_ok {s s' : Storage} {env : Env} {info : MessageInfo}
    {msg : ExecuteMsgManaged} {msgs : List TransferMsg}
    (h : handleExecuteManagedMsg s env info msg = .ok (s', msgs)) :
    s.config.extensions.managed = true := by
  unfold handleExecuteManagedMsg at h
  simp only [bind_eq_ok, exists_const, rejectIf_eq_ok, not_not] at h
  exact h.1

end NeutronTge.Vesting
