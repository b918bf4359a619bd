import NeutronTge.CosmWasm.Storage
import NeutronTge.Astroport.Asset

/-!
# NeutronTge.Vesting.Base

The `vesting-base` package: the storage and the handlers that every vesting contract
shares. An account is a list of schedules and the amount that was already released
to it. Accounts are registered by the owner or a manager together with a payment of
exactly the granted amounts, and each account claims what its schedules have vested.

A handler takes the storage to the storage it leaves and the transfers it asks for.
-/

namespace NeutronTge.Vesting

open CosmWasm Astroport

/-! ### Types -/

/-- A time and the amount that is vested by then. -/
structure VestingSchedulePoint where
  time : Nat
  amount : Nat
  deriving Repr, DecidableEq

/-- One schedule: everything at the start, or linear from the start to the end. -/
structure VestingSchedule where
  startPoint : VestingSchedulePoint
  endPoint : Option VestingSchedulePoint
  deriving Repr, DecidableEq

/-- The schedules of an account, and what it has claimed. -/
structure VestingInfo where
  schedules : List VestingSchedule
  releasedAmount : Nat
  deriving Repr, DecidableEq

/-- A registration of schedules for an address. -/
structure VestingAccount where
  address : Addr
  schedules : List VestingSchedule
  deriving Repr, DecidableEq

/-- The accumulated amounts of all accounts. -/
structure VestingState where
  totalGranted : Nat
  totalReleased : Nat
  deriving Repr, DecidableEq

/-- The extensions a vesting contract is built with. -/
structure Extensions where
  historical : Bool
  managed : Bool
  withManagers : Bool
  deriving Repr, DecidableEq

/-- The configuration of a vesting contract. -/
structure Config where
  owner : Addr
  vestingToken : Option AssetInfo
  tokenInfoManager : Addr
  extensions : Extensions
  deriving Repr, DecidableEq

/-- The errors of the contract. -/
inductive ContractError
  | std (e : StdError)
  | payment (e : PaymentError)
  | unauthorized
  | amountIsNotAvailable
  | vestingScheduleError (addr : Addr)
  | vestingScheduleExtractError (addr : Addr)
  | vestingScheduleAmountError
  | migrationError
  | vestingTokenIsNotSet
  | vestingTokenAlreadySet
  deriving Repr, DecidableEq

/-- `ext_unsupported_err`. -/
def extUnsupportedErr (extension : String) : StdError :=
  .genericErr ("Extension is not enabled for the contract: " ++ extension ++ ".")

/-- A cw20 hook call. `msg` is the attached payload, and `none` when it does not parse
as the hook message `Hook` of the receiving contract. -/
structure Cw20ReceiveMsg (Hook : Type) where
  sender : Addr
  amount : Nat
  msg : Option Hook
  deriving Repr, DecidableEq

/-- `from_json` of the payload. -/
def Cw20ReceiveMsg.fromJson {Hook : Type} (m : Cw20ReceiveMsg Hook) :
    Except ContractError Hook :=
  okOr m.msg (.std (.genericErr "Error parsing into type Cw20HookMsg"))

/-- The messages that come with vesting tokens. -/
inductive Cw20HookMsg
  | registerVestingAccounts (vestingAccounts : List VestingAccount)
  deriving Repr, DecidableEq

/-- The messages of the managed extension. -/
inductive ExecuteMsgManaged
  | removeVestingAccounts (vestingAccounts : List Addr) (clawbackAccount : Addr)
  deriving Repr, DecidableEq

/-- The messages of the extension with managers. -/
inductive ExecuteMsgWithManagers
  | addVestingManagers (managers : List Addr)
  | removeVestingManagers (managers : List Addr)
  deriving Repr, DecidableEq

/-- The messages of the contract. -/
inductive ExecuteMsg
  | claim (recipient : Option Addr) (amount : Option Nat)
  | receive (msg : Cw20ReceiveMsg Cw20HookMsg)
  | registerVestingAccounts (vestingAccounts : List VestingAccount)
  | proposeNewOwner (owner : Addr) (expiresIn : Nat)
  | dropOwnershipProposal
  | claimOwnership
  | setVestingToken (vestingToken : AssetInfo)
  | managedExtension (msg : ExecuteMsgManaged)
  | withManagersExtension (msg : ExecuteMsgWithManagers)
  deriving Repr, DecidableEq

/-- The storage of a vesting contract. -/
structure Storage where
  config : Config
  ownershipProposal : Option OwnershipProposal
  vestingManagers : Map Addr Unit
  vestingState : SnapshotMap Unit VestingState
  vestingInfo : SnapshotMap Addr VestingInfo

namespace Storage

/-- `vesting_info(historical).save`: the changelog is kept with the extension only. -/
def saveInfo (s : Storage) (addr : Addr) (info : VestingInfo) (height : Nat) : Storage :=
  { s with
    vestingInfo :=
      if s.config.extensions.historical then s.vestingInfo.save addr info height
      else { s.vestingInfo with primary := s.vestingInfo.primary.save addr info } }

/-- `vesting_info(historical).remove`. -/
def removeInfo (s : Storage) (addr : Addr) (height : Nat) : Storage :=
  { s with
    vestingInfo :=
      if s.config.extensions.historical then s.vestingInfo.remove addr height
      else { s.vestingInfo with primary := s.vestingInfo.primary.remove addr } }

/-- `vesting_state(historical).save`. -/
def saveState (s : Storage) (state : VestingState) (height : Nat) : Storage :=
  { s with
    vestingState :=
      if s.config.extensions.historical then s.vestingState.save () state height
      else { s.vestingState with primary := s.vestingState.primary.save () state } }

@[simp] theorem saveInfo_config (s : Storage) (a : Addr) (i : VestingInfo) (h : Nat) :
    (s.saveInfo a i h).config = s.config := rfl

@[simp] theorem saveInfo_vestingState (s : Storage) (a : Addr) (i : VestingInfo) (h : Nat) :
    (s.saveInfo a i h).vestingState = s.vestingState := rfl

@[simp] theorem saveInfo_primary (s : Storage) (a : Addr) (i : VestingInfo) (h : Nat) :
    (s.saveInfo a i h).vestingInfo.primary = s.vestingInfo.primary.save a i := by
  unfold saveInfo
  dsimp only
  split <;> rfl

@[simp] theorem saveState_config (s : Storage) (v : VestingState) (h : Nat) :
    (s.saveState v h).config = s.config := rfl

@[simp] theorem saveState_vestingInfo (s : Storage) (v : VestingState) (h : Nat) :
    (s.saveState v h).vestingInfo = s.vestingInfo := rfl

end Storage

/-! ### Amounts of schedules -/

/-- What a schedule grants in the end. -/
def grantedAmount (sch : VestingSchedule) : Nat :=
  match sch.endPoint with
  | some endPoint => endPoint.amount
  | none => sch.startPoint.amount

/-- The loop that adds up what the schedules grant, from `acc` on. -/
def addGranted (acc : Nat) (schedules : List VestingSchedule) : Except StdError Nat :=
  schedules.foldlM (fun acc sch => Uint.checkedAdd 128 acc (grantedAmount sch)) acc

/-- What the schedules grant together. -/
def granted (schedules : List VestingSchedule) : Nat := (schedules.map grantedAmount).sum

@[simp] theorem granted_append (xs ys : List VestingSchedule) :
    granted (xs ++ ys) = granted xs + granted ys := by
  simp [granted]

theorem addGranted_eq_ok {schedules : List VestingSchedule} :
    ∀ {acc r : Nat}, addGranted acc schedules = .ok r → r = acc + granted schedules := by
  induction schedules with
  | nil =>
      intro acc r h
      exact (Except.ok.inj h).symm
  | cons sch rest ih =>
      intro acc r h
      obtain ⟨acc', hacc, hrest⟩ := foldlM_cons_ok.mp h
      rw [Uint.checkedAdd_eq_ok] at hacc
      have hr := ih hrest
      simp only [granted, List.map_cons, List.sum_cons] at hr ⊢
      omega

/-- What one schedule adds to the available amount at `currentTime`. -/
def addVested (currentTime availableAmount : Nat) (sch : VestingSchedule) :
    Except StdError Nat :=
  if currentTime < sch.startPoint.time then .ok availableAmount
  else do
    let availableAmount ← Uint.checkedAdd 128 availableAmount sch.startPoint.amount
    match sch.endPoint with
    | none => .ok availableAmount
    | some endPoint => do
        let passedTime ← Uint.sub (min currentTime endPoint.time) sch.startPoint.time
        let timePeriod ← Uint.sub endPoint.time sch.startPoint.time
        if passedTime ≠ 0 ∧ timePeriod ≠ 0 then do
          let gain ← Uint.checkedSub endPoint.amount sch.startPoint.amount
          let releaseAmount ← Uint.multiplyRatio 128 passedTime gain timePeriod
          Uint.checkedAdd 128 availableAmount releaseAmount
        else .ok availableAmount

/-- `compute_available_amount`. -/
def computeAvailableAmount (currentTime : Nat) (info : VestingInfo) : Except StdError Nat := do
  let availableAmount ← info.schedules.foldlM (addVested currentTime) 0
  Uint.checkedSub availableAmount info.releasedAmount

/-- `assert_vesting_schedules`. -/
def assertVestingSchedules (addr : Addr) (schedules : List VestingSchedule) :
    Except ContractError Unit :=
  rejectIf (∃ sch ∈ schedules, ∃ endPoint ∈ sch.endPoint,
      ¬ (sch.startPoint.time < endPoint.time ∧ sch.startPoint.amount < endPoint.amount))
    (.vestingScheduleError addr)

/-! ### Handlers -/

/-- `get_vesting_token`. -/
def getVestingToken (config : Config) : Except ContractError AssetInfo :=
  okOr config.vestingToken .vestingTokenIsNotSet

/-- `is_sender_whitelisted`. -/
def isSenderWhitelisted (s : Storage) (sender : Addr) : Bool :=
  sender = s.config.owner || s.vestingManagers.has sender

/-- One round of the loop of `register_vesting_accounts`: the amount to deposit so far
and the storage. -/
def registerAccount (height : Nat) (st : Nat × Storage) (account : VestingAccount) :
    Except ContractError (Nat × Storage) := do
  assertVestingSchedules account.address account.schedules
  let toDeposit ← (addGranted st.1 account.schedules).mapError .std
  let info : VestingInfo :=
    match st.2.vestingInfo.mayLoad account.address with
    -- an account that exists keeps what it was paid; its new schedules come first
    | some oldInfo => ⟨account.schedules ++ oldInfo.schedules, oldInfo.releasedAmount⟩
    | none => ⟨account.schedules, 0⟩
  .ok (toDeposit, st.2.saveInfo account.address info height)

/-- `vesting_state.update` with `total_granted` increased. -/
def grantTotal (s : Storage) (toDeposit height : Nat) : Except ContractError Storage := do
  let state := (s.vestingState.mayLoad ()).getD ⟨0, 0⟩
  let totalGranted ← (Uint.checkedAdd 128 state.totalGranted toDeposit).mapError .std
  .ok (s.saveState { state with totalGranted := totalGranted } height)

/-- `register_vesting_accounts`. -/
def registerVestingAccounts (s : Storage) (vestingAccounts : List VestingAccount)
    (amount height : Nat) : Except ContractError Storage := do
  let (toDeposit, s) ← vestingAccounts.foldlM (registerAccount height) (0, s)
  rejectIf (toDeposit ≠ amount) .vestingScheduleAmountError
  grantTotal s toDeposit height

/-- `claim`. -/
def claim (s : Storage) (env : Env) (info : MessageInfo) (recipient : Option Addr)
    (amount : Option Nat) : Except ContractError (Storage × List TransferMsg) := do
  let vestingToken ← getVestingToken s.config
  let senderInfo ← (s.vestingInfo.load info.sender).mapError .std
  let availableAmount ← (computeAvailableAmount env.time senderInfo).mapError .std
  rejectIf (∃ a ∈ amount, availableAmount < a) .amountIsNotAvailable
  let claimAmount := amount.getD availableAmount
  -- a claim of nothing succeeds without a transfer
  if claimAmount = 0 then .ok (s, [])
  else do
    let transfer := (Asset.mk vestingToken claimAmount).intoMsg (recipient.getD info.sender)
    let released ← (Uint.checkedAdd 128 senderInfo.releasedAmount claimAmount).mapError .std
    let s := s.saveInfo info.sender { senderInfo with releasedAmount := released } env.height
    let state ← okOr (s.vestingState.mayLoad ()) .amountIsNotAvailable
    let totalReleased ← (Uint.checkedAdd 128 state.totalReleased claimAmount).mapError .std
    .ok (s.saveState { state with totalReleased := totalReleased } env.height, [transfer])

/-- The payment check of `receive_cw20`, which both versions of the hook share: the
payload names a whitelisted account and the vesting token is calling. -/
def authorizeDeposit (s : Storage) (info : MessageInfo) (sender : Addr)
    (vestingToken : AssetInfo) : Except ContractError Unit :=
  rejectIf (¬ (isSenderWhitelisted s sender = true) ∨
    AssetInfo.token info.sender ≠ vestingToken) .unauthorized

/-- `receive_cw20`. -/
def receiveCw20 (s : Storage) (env : Env) (info : MessageInfo)
    (cw20Msg : Cw20ReceiveMsg Cw20HookMsg) :
    Except ContractError (Storage × List TransferMsg) := do
  let vestingToken ← getVestingToken s.config
  -- the token is authenticated before the payload is read
  authorizeDeposit s info cw20Msg.sender vestingToken
  match ← cw20Msg.fromJson with
  | .registerVestingAccounts vestingAccounts => do
      let s ← registerVestingAccounts s vestingAccounts cw20Msg.amount env.height
      .ok (s, [])

/-- The `RegisterVestingAccounts` message, which comes with native coins. -/
def registerWithCoins (s : Storage) (env : Env) (info : MessageInfo)
    (vestingAccounts : List VestingAccount) :
    Except ContractError (Storage × List TransferMsg) := do
  let vestingToken ← getVestingToken s.config
  match vestingToken with
  | .nativeToken denom => do
      rejectIf (¬ (isSenderWhitelisted s info.sender = true)) .unauthorized
      let amount ← (mustPay info denom).mapError .payment
      let s ← registerVestingAccounts s vestingAccounts amount env.height
      .ok (s, [])
  | .token _ => .error .unauthorized

/-- `set_vesting_token`. -/
def setVestingToken (s : Storage) (info : MessageInfo) (token : AssetInfo) :
    Except ContractError (Storage × List TransferMsg) := do
  rejectIf (info.sender ≠ s.config.owner ∧ info.sender ≠ s.config.tokenInfoManager)
    .unauthorized
  rejectIf (s.config.vestingToken.isSome = true) .vestingTokenAlreadySet
  token.check.mapError .std
  .ok ({ s with config := { s.config with vestingToken := some token } }, [])

/-- One round of the loop of `remove_vesting_accounts`. -/
def removeAccount (vestingToken : AssetInfo) (clawbackAddress : Addr) (height : Nat)
    (st : Storage × List TransferMsg) (address : Addr) :
    Except ContractError (Storage × List TransferMsg) :=
  match st.1.vestingInfo.mayLoad address with
  -- an address without an account is passed over, as is one that was listed before
  | none => .ok st
  | some accountInfo => do
      let totalGrantedForUser ← (addGranted 0 accountInfo.schedules).mapError .std
      let amountToClawBack ←
        (Uint.checkedSub totalGrantedForUser accountInfo.releasedAmount).mapError .std
      -- a transfer goes out for every account, also of an amount of zero
      let transfer := (Asset.mk vestingToken amountToClawBack).intoMsg clawbackAddress
      let state ← okOr (st.1.vestingState.mayLoad ()) .amountIsNotAvailable
      let totalGranted ←
        (Uint.checkedSub state.totalGranted totalGrantedForUser).mapError .std
      let totalReleased ←
        (Uint.checkedSub state.totalReleased accountInfo.releasedAmount).mapError .std
      let s := st.1.saveState ⟨totalGranted, totalReleased⟩ height
      .ok (s.removeInfo address height, st.2 ++ [transfer])

/-- `remove_vesting_accounts`. -/
def removeVestingAccounts (s : Storage) (env : Env) (info : MessageInfo)
    (vestingAccounts : List Addr) (clawbackAccount : Addr) :
    Except ContractError (Storage × List TransferMsg) := do
  rejectIf (info.sender ≠ s.config.owner) .unauthorized
  let vestingToken ← getVestingToken s.config
  vestingAccounts.foldlM (removeAccount vestingToken clawbackAccount env.height) (s, [])

/-- `handle_execute_managed_msg`. -/
def handleExecuteManagedMsg (s : Storage) (env : Env) (info : MessageInfo)
    (msg : ExecuteMsgManaged) : Except ContractError (Storage × List TransferMsg) := do
  rejectIf (¬ (s.config.extensions.managed = true)) (.std (extUnsupportedErr "managed"))
  match msg with
  | .removeVestingAccounts vestingAccounts clawbackAccount =>
      removeVestingAccounts s env info vestingAccounts clawbackAccount

/-- `handle_execute_with_managers_msg`, with `add_vesting_managers` and
`remove_vesting_managers`. -/
def handleExecuteWithManagersMsg (s : Storage) (info : MessageInfo)
    (msg : ExecuteMsgWithManagers) : Except ContractError (Storage × List TransferMsg) := do
  rejectIf (¬ (s.config.extensions.withManagers = true))
    (.std (extUnsupportedErr "with_managers"))
  rejectIf (info.sender ≠ s.config.owner) .unauthorized
  match msg with
  | .addVestingManagers managers =>
      .ok ({ s with
        vestingManagers := managers.foldl (fun m a => if m.has a then m else m.save a ())
          s.vestingManagers }, [])
  | .removeVestingManagers managers =>
      .ok ({ s with vestingManagers := managers.foldl Map.remove s.vestingManagers }, [])

/-- `execute`. -/
def execute (s : Storage) (env : Env) (info : MessageInfo) (msg : ExecuteMsg) :
    Except ContractError (Storage × List TransferMsg) :=
  match msg with
  | .claim recipient amount => claim s env info recipient amount
  | .receive msg => receiveCw20 s env info msg
  | .registerVestingAccounts vestingAccounts => registerWithCoins s env info vestingAccounts
  | .proposeNewOwner owner expiresIn => do
      let p ← (proposeNewOwner info env owner expiresIn s.config.owner).mapError .std
      .ok ({ s with ownershipProposal := some p }, [])
  | .dropOwnershipProposal => do
      (dropOwnershipProposal info s.config.owner).mapError .std
      .ok ({ s with ownershipProposal := none }, [])
  -- the new owner takes over once, with the proposal gone
  | .claimOwnership => do
      let owner ← (claimOwnership info env s.ownershipProposal).mapError .std
      .ok ({ s with config := { s.config with owner := owner }, ownershipProposal := none }, [])
  | .setVestingToken vestingToken => setVestingToken s info vestingToken
  | .managedExtension msg => handleExecuteManagedMsg s env info msg
  | .withManagersExtension msg => handleExecuteWithManagersMsg s info msg

end NeutronTge.Vesting
