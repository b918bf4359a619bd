import NeutronTge.CosmWasm.Run
import NeutronTge.Vesting.Ledger

/-!
# NeutronTge.Vesting.Pcl

The `vesting-lp-pcl` contract and the cw20 token it vests. The contract has its own
cw20 hook, which also takes over accounts from the XYK vesting contract.

The environment of the contract is an honest cw20 token: `Send` moves the tokens first
and then calls the hook with the real sender and the real amount, while everybody else
can call the contract directly with any message. The world counts the tokens that came
in and the tokens that claims have paid out.
-/

namespace NeutronTge.Vesting.Pcl

open CosmWasm Astroport

/-! ### The contract -/

/-- The configuration that `instantiate` gets. -/
structure InstantiateMsg where
  owner : Addr
  vestingManagers : List Addr
  tokenInfoManager : Addr
  xykVestingLpContract : Addr
  vestingToken : AssetInfo
  deriving Repr, DecidableEq

/-- The messages that come with vesting tokens. -/
inductive Cw20HookMsg
  | registerVestingAccounts (vestingAccounts : List VestingAccount)
  | migrateXYKLiquidity (userAddressRaw : Addr) (userVestingInfo : VestingInfo)
  deriving Repr, DecidableEq

/-- The messages of the contract. -/
inductive ExecuteMsg
  | claim (recipient : Option Addr) (amount : Option Nat)
  | registerVestingAccounts (vestingAccounts : List VestingAccount)
  | proposeNewOwner (owner : Addr) (expiresIn : Nat)
  | dropOwnershipProposal
  | claimOwnership
  | setVestingToken (vestingToken : AssetInfo)
  | managedExtension (msg : ExecuteMsgManaged)
  | withManagersExtension (msg : ExecuteMsgWithManagers)
  | receive (msg : Cw20ReceiveMsg Cw20HookMsg)
  deriving Repr, DecidableEq

/-- `From<ExecuteMsg> for BaseExecute`, which panics on a hook call. -/
def ExecuteMsg.intoBase : ExecuteMsg → Except ContractError Vesting.ExecuteMsg
  | .claim recipient amount => .ok (.claim recipient amount)
  | .registerVestingAccounts vestingAccounts => .ok (.registerVestingAccounts vestingAccounts)
  | .proposeNewOwner owner expiresIn => .ok (.proposeNewOwner owner expiresIn)
  | .dropOwnershipProposal => .ok .dropOwnershipProposal
  | .claimOwnership => .ok .claimOwnership
  | .setVestingToken vestingToken => .ok (.setVestingToken vestingToken)
  | .managedExtension msg => .ok (.managedExtension msg)
  | .withManagersExtension msg => .ok (.withManagersExtension msg)
  | .receive _ => .error (.std .aborted)

/-- The storage of the contract: that of vesting-base, and where accounts are migrated from. -/
structure Storage where
  base : Vesting.Storage
  xykVestingLpContract : Addr

/-- `instantiate`. -/
def instantiate (msg : InstantiateMsg) : Storage where
  base :=
    { config :=
        { owner := msg.owner
          vestingToken := some msg.vestingToken
          tokenInfoManager := msg.tokenInfoManager
          extensions := { historical := true, managed := false, withManagers := true } }
      ownershipProposal := none
      vestingManagers := msg.vestingManagers.foldl (fun m a => m.save a ()) ∅
      vestingState := SnapshotMap.empty
      vestingInfo := SnapshotMap.empty }
  xykVestingLpContract := msg.xykVestingLpContract

/-- `is_sender_xyk_vesting_lp`. -/
def isSenderXykVestingLp (s : Storage) (sender : Addr) : Bool :=
  sender = s.xykVestingLpContract

/-- `handle_migrate_xyk_liquidity`. -/
def handleMigrateXykLiquidity (s : Storage) (env : Env) (userAddr : Addr)
    (userVestingInfo : VestingInfo) : Except ContractError (Storage × List TransferMsg) := do
  let toDeposit ← (addGranted 0 userVestingInfo.schedules).mapError .std
  let base := s.base.saveInfo userAddr userVestingInfo env.height
  let base ← grantTotal base toDeposit env.height
  .ok ({ s with base := base }, [])

/-- `receive_cw20`. The first branch checks the whitelist and that the vesting token is
calling; the second one only looks at the sender named in the payload. -/
def receiveCw20 (s : Storage) (env : Env) (info : MessageInfo)
    (cw20Msg : Cw20ReceiveMsg Cw20HookMsg) :
    Except ContractError (Storage × List TransferMsg) := do
  let vestingToken ← getVestingToken s.base.config
  match ← cw20Msg.fromJson with
  | .registerVestingAccounts vestingAccounts => do
      authorizeDeposit s.base info cw20Msg.sender vestingToken
      let base ← Vesting.registerVestingAccounts s.base vestingAccounts cw20Msg.amount
        env.height
      .ok ({ s with base := base }, [])
  | .migrateXYKLiquidity userAddressRaw userVestingInfo => do
      rejectIf (¬ (isSenderXykVestingLp s cw20Msg.sender = true)) .unauthorized
      handleMigrateXykLiquidity s env userAddressRaw userVestingInfo

/-- `execute`. -/
def execute (s : Storage) (env : Env) (info : MessageInfo) (msg : ExecuteMsg) :
    Except ContractError (Storage × List TransferMsg) :=
  match msg with
  | .receive msg => receiveCw20 s env info msg
  | msg => do
      let baseMsg ← msg.intoBase
      let (base, msgs) ← Vesting.execute s.base env info baseMsg
      .ok ({ s with base := base }, msgs)

/-! ### What a call can do -/

/-- What is fixed when the contract vests the cw20 token `token`. -/
structure Vests (s : Storage) (token : Addr) : Prop where
  vestingToken : s.base.config.vestingToken = some (.token token)
  notManaged : s.base.config.extensions.managed = false

theorem vests_instantiate {msg : InstantiateMsg} {token : Addr}
    (h : msg.vestingToken = .token token) : Vests (instantiate msg) token :=
  ⟨congrArg some h, rfl⟩

/-- The four things a successful call can be. -/
inductive Effect (token : Addr) (info : MessageInfo) (s s' : Storage) :
    ExecuteMsg → List TransferMsg → Prop
  /-- The accounts are left alone and nothing is paid. -/
  | idle (msg : ExecuteMsg) (hinfo : s'.base.vestingInfo = s.base.vestingInfo) :
      Effect token info s s' msg []
  /-- An account is paid `amount` and owed as much less. -/
  | paid (recipient : Option Addr) (requested : Option Nat) (amount : Nat)
      (howed : s'.base.owed = s.base.owed - amount) :
      Effect token info s s' (.claim recipient requested)
        [.cw20 token (recipient.getD info.sender) amount]
  /-- The token delivered a registration that grants what was sent. -/
  | registered (sender : Addr) (amount : Nat) (vestingAccounts : List VestingAccount)
      (hsender : info.sender = token) (howed : s'.base.owed = s.base.owed + amount) :
      Effect token info s s'
        (.receive ⟨sender, amount, some (.registerVestingAccounts vestingAccounts)⟩) []
  /-- A payload that names the XYK contract overwrote an account. -/
  | migrated (amount : Nat) (user : Addr) (account : VestingInfo)
      (howed : s'.base.owed = s.base.owed + account.owed - s.base.owedTo user) :
      Effect token info s s'
        (.receive ⟨s.xykVestingLpContract, amount, some (.migrateXYKLiquidity user account)⟩) []

theorem handleMigrateXykLiquidity_ok {s s' : Storage} {env : Env} {userAddr : Addr}
    {userVestingInfo : VestingInfo} {msgs : List TransferMsg}
    (h : handleMigrateXykLiquidity s env userAddr userVestingInfo = .ok (s', msgs)) :
    s'.base.config = s.base.config ∧ s'.xykVestingLpContract = s.xykVestingLpContract ∧
      msgs = [] ∧
      s'.base.owed = s.base.owed + userVestingInfo.owed - s.base.owedTo userAddr := by
  unfold handleMigrateXykLiquidity at h
  simp only [bind_eq_ok, mapError_eq_ok, Except.ok.injEq, Prod.mk.injEq] at h
  obtain ⟨toDeposit, -, base, htotal, rfl, rfl⟩ := h
  obtain ⟨hconfig, hinfo⟩ := grantTotal_ok htotal
  refine ⟨hconfig, rfl, rfl, ?_⟩
  rw [← Storage.owed_saveInfo s.base userAddr userVestingInfo env.height]
  simp only [Storage.owed, hinfo]

theorem receiveCw20_ok {s s' : Storage} {env : Env} {info : MessageInfo} {token : Addr}
    {cw20Msg : Cw20ReceiveMsg Cw20HookMsg} {msgs : List TransferMsg} (hv : Vests s token)
    (h : receiveCw20 s env info cw20Msg = .ok (s', msgs)) :
    Vests s' token ∧ s'.xykVestingLpContract = s.xykVestingLpContract ∧
      Effect token info s s' (.receive cw20Msg) msgs := by
  obtain ⟨sender, amount, payload⟩ := cw20Msg
  unfold receiveCw20 at h
  simp only [bind_eq_ok, getVestingToken, okOr_eq_ok, Cw20ReceiveMsg.fromJson,
    hv.vestingToken, Option.some.injEq] at h
  obtain ⟨_, rfl, hook, hhook, h⟩ := h
  obtain rfl : payload = some hook := hhook
  cases hook with
  | registerVestingAccounts vestingAccounts =>
      simp only [bind_eq_ok, authorizeDeposit, rejectIf_eq_ok, exists_const,
        Except.ok.injEq, Prod.mk.injEq] at h
      obtain ⟨hauth, base, hreg, rfl, rfl⟩ := h
      have hreg := registerVestingAccounts_ok hreg
      have hsender : info.sender = token := by
        by_contra hne
        exact hauth (Or.inr fun heq => hne (AssetInfo.token.inj heq))
      have hv' : Vests { s with base := base } token := by
        constructor
        · rw [hreg.config]
          exact hv.vestingToken
        · rw [hreg.config]
          exact hv.notManaged
      exact ⟨hv', rfl, Effect.registered sender amount vestingAccounts hsender hreg.owed⟩
  | migrateXYKLiquidity user account =>
      simp only [bind_eq_ok, rejectIf_eq_ok, exists_const, isSenderXykVestingLp,
        decide_eq_true_eq, not_not] at h
      obtain ⟨rfl, h⟩ := h
      obtain ⟨hconfig, hxyk, rfl, howed⟩ := handleMigrateXykLiquidity_ok h
      have hv' : Vests s' token := by
        constructor
        · rw [hconfig]
          exact hv.vestingToken
        · rw [hconfig]
          exact hv.notManaged
      exact ⟨hv', hxyk, Effect.migrated amount user account howed⟩

theorem untouched_vests {s : Storage} {base : Vesting.Storage} {token : Addr}
    (hv : Vests s token) (h : Untouched s.base base) : Vests { s with base := base } token :=
  ⟨h.vestingToken.trans hv.vestingToken, by rw [h.extensions]; exact hv.notManaged⟩

theorem claim_effect {s : Storage} {base : Vesting.Storage} {env : Env} {info : MessageInfo}
    {token : Addr} {recipient : Option Addr} {amount : Option Nat} {msgs : List TransferMsg}
    (hv : Vests s token) (h : claim s.base env info recipient amount = .ok (base, msgs)) :
    Vests { s with base := base } token ∧
      Effect token info s { s with base := base } (.claim recipient amount) msgs := by
  rcases claim_ok h with ⟨rfl, rfl⟩ | ⟨t, account, paid, htoken, hload, rfl, hconfig, hsave⟩
  · exact ⟨hv, Effect.idle _ rfl⟩
  · obtain rfl : AssetInfo.token token = t :=
      Option.some.inj (hv.vestingToken.symm.trans htoken)
    have hv' : Vests { s with base := base } token := by
      constructor
      · rw [hconfig]
        exact hv.vestingToken
      · rw [hconfig]
        exact hv.notManaged
    exact ⟨hv', Effect.paid recipient amount paid (owed_claim hload hsave)⟩

/-- Every successful call is one of the four effects, and the configuration of the
token stays. -/
theorem execute_ok {s s' : Storage} {env : Env} {info : MessageInfo} {token : Addr}
    {msg : ExecuteMsg} {msgs : List TransferMsg} (hv : Vests s token)
    (h : execute s env info msg = .ok (s', msgs)) :
    Vests s' token ∧ s'.xykVestingLpContract = s.xykVestingLpContract ∧
      Effect token info s s' msg msgs := by
  cases msg with
  | receive msg => exact receiveCw20_ok hv h
  | claim recipient amount =>
      simp only [execute, ExecuteMsg.intoBase, bind_eq_ok, Except.ok.injEq, exists_eq_left',
        Vesting.execute, Prod.mk.injEq] at h
      obtain ⟨⟨base, msgs'⟩, hclaim, rfl, rfl⟩ := h
      obtain ⟨hv', heffect⟩ := claim_effect hv hclaim
      exact ⟨hv', rfl, heffect⟩
  | registerVestingAccounts vestingAccounts =>
      simp only [execute, ExecuteMsg.intoBase, bind_eq_ok, Except.ok.injEq, exists_eq_left',
        Vesting.execute, registerWithCoins, getVestingToken, okOr_eq_ok, hv.vestingToken,
        Option.some.injEq, reduceCtorEq, false_and, exists_false] at h
  | proposeNewOwner owner expiresIn =>
      simp only [execute, ExecuteMsg.intoBase, bind_eq_ok, Except.ok.injEq, exists_eq_left',
        Vesting.execute, mapError_eq_ok, Prod.mk.injEq] at h
      obtain ⟨⟨base, msgs'⟩, ⟨p, -, rfl, rfl⟩, rfl, rfl⟩ := h
      exact ⟨untouched_vests hv ⟨rfl, rfl, rfl⟩, rfl, Effect.idle _ rfl⟩
  | dropOwnershipProposal =>
      simp only [execute, ExecuteMsg.intoBase, bind_eq_ok, Except.ok.injEq, exists_eq_left',
        Vesting.execute, mapError_eq_ok, Prod.mk.injEq] at h
      obtain ⟨⟨base, msgs'⟩, ⟨_, -, rfl, rfl⟩, rfl, rfl⟩ := h
      exact ⟨untouched_vests hv ⟨rfl, rfl, rfl⟩, rfl, Effect.idle _ rfl⟩
  | claimOwnership =>
      simp only [execute, ExecuteMsg.intoBase, bind_eq_ok, Except.ok.injEq, exists_eq_left',
        Vesting.execute, mapError_eq_ok, Prod.mk.injEq] at h
      obtain ⟨⟨base, msgs'⟩, ⟨owner, -, rfl, rfl⟩, rfl, rfl⟩ := h
      exact ⟨untouched_vests hv ⟨rfl, rfl, rfl⟩, rfl, Effect.idle _ rfl⟩
  | setVestingToken vestingToken =>
      simp only [execute, ExecuteMsg.intoBase, bind_eq_ok, Except.ok.injEq, exists_eq_left',
        Vesting.execute, Prod.mk.injEq] at h
      obtain ⟨⟨base, msgs'⟩, hset, -⟩ := h
      have hnone := setVestingToken_ok hset
      simp [hv.vestingToken] at hnone
  | managedExtension msg =>
      simp only [execute, ExecuteMsg.intoBase, bind_eq_ok, Except.ok.injEq, exists_eq_left',
        Vesting.execute, Prod.mk.injEq] at h
      obtain ⟨⟨base, msgs'⟩, hmanaged, -⟩ := h
      have hon := handleExecuteManagedMsg_ok hmanaged
      simp [hv.notManaged] at hon
  | withManagersExtension msg =>
      simp only [execute, ExecuteMsg.intoBase, bind_eq_ok, Except.ok.injEq, exists_eq_left',
        Vesting.execute, Prod.mk.injEq] at h
      obtain ⟨⟨base, msgs'⟩, hmanagers, rfl, rfl⟩ := h
      obtain ⟨huntouched, rfl⟩ := handleExecuteWithManagersMsg_ok hmanagers
      exact ⟨untouched_vests hv huntouched, rfl, Effect.idle _ huntouched.vestingInfo⟩

/-! ### The token and the world -/

/-- The contract together with the tokens that came in and that claims paid out. -/
structure World where
  storage : Storage
  transferredIn : Nat
  paidOut : Nat

/-- Carry out a transfer the contract asked for. The token rejects what exceeds the
contract's balance; tokens the contract pays to itself come back in. -/
def World.transfer (token : Addr) (self : Addr) (w : World) (msg : TransferMsg) :
    Except ContractError World :=
  match msg with
  | .cw20 contractAddr recipient amount =>
      if contractAddr = token then
        if w.transferredIn - w.paidOut < amount then .error (.std (.overflow .sub))
        else .ok { w with
          transferredIn := w.transferredIn + if recipient = self then amount else 0
          paidOut := w.paidOut + amount }
      else .ok w
  | .bank _ _ => .ok w

/-- A transaction that reaches the contract. -/
inductive Action
  /-- A plain `Transfer` of vesting tokens to the contract. -/
  | transfer (amount : Nat)
  /-- A `Send` of vesting tokens by `sender`, with its payload. -/
  | send (env : Env) (sender : Addr) (amount : Nat) (msg : Option Cw20HookMsg)
  /-- A message somebody other than the token sends to the contract. -/
  | execute (env : Env) (info : MessageInfo) (msg : ExecuteMsg)

/-- Run the contract's handler and the transfers it asks for. -/
def World.call (token : Addr) (w : World) (env : Env) (info : MessageInfo) (msg : ExecuteMsg) :
    Except ContractError World := do
  let (storage, msgs) ← Pcl.execute w.storage env info msg
  msgs.foldlM (World.transfer token env.contract) { w with storage := storage }

/-- One transaction. The honest token never calls the contract but for a `Send`. -/
def World.exec (token : Addr) (w : World) : Action → Except ContractError World
  | .transfer amount => .ok { w with transferredIn := w.transferredIn + amount }
  | .send env sender amount msg =>
      World.call token { w with transferredIn := w.transferredIn + amount } env ⟨token, []⟩
        (.receive ⟨sender, amount, msg⟩)
  | .execute env info msg => do
      rejectIf (info.sender = token) .unauthorized
      World.call token w env info msg

/-- The world right after the contract was created. -/
def World.start (msg : InstantiateMsg) : World := ⟨instantiate msg, 0, 0⟩

/-- What is owed to all accounts is covered by the tokens the contract holds. -/
def World.Solvent (w : World) : Prop :=
  w.storage.base.owed ≤ (w.transferredIn : Int) - w.paidOut

instance (w : World) : Decidable w.Solvent := by
  unfold World.Solvent
  infer_instance

/-! ### Solvency -/

/-- A payload that names the XYK contract comes with the tokens for the account it
stores: the token delivers it, and the amount sent covers what the account is owed
beyond what it was owed before. -/
def MigrationFunded (w : World) : Action → Prop
  | .send _ sender amount (some (.migrateXYKLiquidity user account)) =>
      sender = w.storage.xykVestingLpContract →
        account.owed ≤ amount + w.storage.base.owedTo user
  | .execute _ _ (.receive ⟨sender, _, some (.migrateXYKLiquidity _ _)⟩) =>
      sender ≠ w.storage.xykVestingLpContract
  | _ => True

/-- The invariant of a run. -/
structure World.Inv (token : Addr) (w : World) : Prop where
  vests : Vests w.storage token
  solvent : w.Solvent

/-- A call of the contract keeps the world solvent when it is solvent after every
account change the call can make. -/
theorem call_inv {token : Addr} {w w' : World} {env : Env} {info : MessageInfo}
    {msg : ExecuteMsg} (hv : Vests w.storage token)
    (hcovered : ∀ s', Effect token info w.storage s' msg [] →
      (s'.base.owed : Int) ≤ (w.transferredIn : Int) - w.paidOut)
    (hsolvent : w.Solvent)
    (h : World.call token w env info msg = .ok w') : w'.Inv token := by
  unfold World.call at h
  rw [bind_eq_ok] at h
  obtain ⟨⟨s', msgs⟩, hexec, hmsgs⟩ := h
  obtain ⟨hv', -, heffect⟩ := execute_ok hv hexec
  dsimp only at hmsgs
  cases heffect with
  | idle msg hinfo =>
      obtain rfl := Except.ok.inj hmsgs
      exact ⟨hv', hcovered s' (Effect.idle msg hinfo)⟩
  | registered sender amount accounts hsender howed =>
      obtain rfl := Except.ok.inj hmsgs
      exact ⟨hv', hcovered s' (Effect.registered sender amount accounts hsender howed)⟩
  | migrated amount user account howed =>
      obtain rfl := Except.ok.inj hmsgs
      exact ⟨hv', hcovered s' (Effect.migrated amount user account howed)⟩
  | paid recipient requested amount howed =>
      have htransfer := foldlM_singleton_ok.mp hmsgs
      simp only [World.transfer, if_true] at htransfer
      split at htransfer
      · cases htransfer
      · obtain rfl := Except.ok.inj htransfer
        refine ⟨hv', ?_⟩
        unfold World.Solvent at hsolvent ⊢
        dsimp only
        push_cast
        split <;> omega

theorem exec_inv {token : Addr} {w w' : World} {a : Action} (hinv : w.Inv token)
    (hfunded : MigrationFunded w a) (h : World.exec token w a = .ok w') : w'.Inv token := by
  obtain ⟨hv, hsolvent⟩ := hinv
  have hs := hsolvent
  unfold World.Solvent at hs
  cases a with
  | transfer amount =>
      obtain rfl := Except.ok.inj h
      refine ⟨hv, ?_⟩
      unfold World.Solvent
      push_cast
      omega
  | send env sender amount msg =>
      refine call_inv (w := { w with transferredIn := w.transferredIn + amount }) hv ?_ ?_ h
      · intro s' heffect
        push_cast
        cases heffect with
        | idle msg hinfo =>
            simp only [Storage.owed, hinfo]
            unfold Storage.owed at hs
            omega
        | registered sender amount accounts hsender howed =>
            rw [howed]
            dsimp only
            omega
        | migrated amount user account howed =>
            have hcover := hfunded rfl
            rw [howed]
            dsimp only
            omega
      · unfold World.Solvent
        push_cast
        omega
  | execute env info msg =>
      simp only [World.exec, bind_eq_ok, rejectIf_eq_ok, exists_const] at h
      obtain ⟨hnot, h⟩ := h
      refine call_inv hv ?_ hsolvent h
      intro s' heffect
      cases heffect with
      | idle msg hinfo =>
          simp only [Storage.owed, hinfo]
          exact hs
      | registered sender amount accounts hsender howed => exact absurd hsender hnot
      | migrated amount user account howed => exact absurd rfl hfunded

/-- Nobody but the token changes the accounts through the hook, unless the payload names
the XYK contract. -/
theorem receive_not_token {token : Addr} {w : World} {env : Env} {info : MessageInfo}
    {msg : Cw20ReceiveMsg Cw20HookMsg} (hv : Vests w.storage token)
    (hsender : info.sender ≠ token)
    (hfunded : MigrationFunded w (.execute env info (.receive msg))) :
    (commit (World.exec token) w (.execute env info (.receive msg))).storage.base.vestingInfo =
      w.storage.base.vestingInfo := by
  rcases commit_cases (World.exec token) w (.execute env info (.receive msg)) with hok | hsame
  · generalize commit (World.exec token) w (.execute env info (.receive msg)) = w' at hok ⊢
    simp only [World.exec, World.call, bind_eq_ok] at hok
    obtain ⟨_, -, ⟨s', msgs⟩, hexec, hmsgs⟩ := hok
    obtain ⟨-, -, heffect⟩ := execute_ok hv hexec
    cases heffect with
    | idle msg hinfo =>
        obtain rfl := Except.ok.inj hmsgs
        exact hinfo
    | registered sender amount accounts htoken howed => exact absurd htoken hsender
    | migrated amount user account howed => exact absurd rfl hfunded
  · rw [hsame]

theorem start_inv {msg : InstantiateMsg} {token : Addr} (h : msg.vestingToken = .token token) :
    (World.start msg).Inv token :=
  ⟨vests_instantiate h, le_refl 0⟩

/-- As long as the migration payloads are funded, everything that is owed is covered by
the tokens the contract holds, and only the vesting token changes accounts through the
hook. -/
theorem solvent_of_migrationFunded (msg : InstantiateMsg) (token : Addr) (as : List Action)
    (htoken : msg.vestingToken = .token token)
    (h : Along (World.exec token) MigrationFunded (World.start msg) as) :
    (run (World.exec token) (World.start msg) as).Solvent ∧
      ∀ env info cw20Msg, info.sender ≠ token →
        MigrationFunded (run (World.exec token) (World.start msg) as)
          (.execute env info (.receive cw20Msg)) →
        (commit (World.exec token) (run (World.exec token) (World.start msg) as)
            (.execute env info (.receive cw20Msg))).storage.base.vestingInfo =
          (run (World.exec token) (World.start msg) as).storage.base.vestingInfo := by
  have hinv : (run (World.exec token) (World.start msg) as).Inv token :=
    run_invariant_along (World.Inv token) (fun _ _ _ => exec_inv) (start_inv htoken) h
  exact ⟨hinv.solvent, fun env info cw20Msg hsender hfunded =>
    receive_not_token hinv.vests hsender hfunded⟩

/-! ### A funded run and a forged one -/

/-- A contract that vests the token `pcl_lp`. -/
def sampleMsg : InstantiateMsg where
  owner := "owner"
  vestingManagers := []
  tokenInfoManager := "manager"
  xykVestingLpContract := "vesting_lp"
  vestingToken := .token "pcl_lp"

/-- An account that is granted `amount` from the start on. -/
def sampleInfo (amount : Nat) : VestingInfo := ⟨[⟨⟨0, amount⟩, none⟩], 0⟩

/-- A block of the small chain. -/
def sampleEnv : Env := ⟨10, 1, "vesting_lp_pcl"⟩

/-- The owner registers an account of 100 with the tokens for it. -/
def sampleDeposit : Action :=
  .send sampleEnv "owner" 100
    (some (.registerVestingAccounts [⟨"alice", (sampleInfo 100).schedules⟩]))

/-- A run with a genuine migration and a claim of the migrated account. -/
theorem solvent_of_migrationFunded_sample :
    (run (World.exec "pcl_lp") (World.start sampleMsg)
      [sampleDeposit,
        .send sampleEnv "vesting_lp" 50 (some (.migrateXYKLiquidity "bob" (sampleInfo 50))),
        .execute sampleEnv ⟨"bob", []⟩ (.claim none none)]).Solvent :=
  (solvent_of_migrationFunded sampleMsg "pcl_lp" _ rfl (by
    refine ⟨trivial, fun _ => ?_, trivial, trivial⟩
    decide)).1

/-- Anybody can call the hook directly with a payload that names the XYK contract. The
account he makes up is paid with the tokens of the others. -/
theorem forged_migration_insolvent :
    ∃ w, run (World.exec "pcl_lp") (World.start sampleMsg)
        [sampleDeposit,
          .execute sampleEnv ⟨"mallory", []⟩ (.receive ⟨"vesting_lp", 0,
            some (.migrateXYKLiquidity "mallory" (sampleInfo 100))⟩),
          .execute sampleEnv ⟨"mallory", []⟩ (.claim none none)] = w ∧
      w.storage.base.vestingInfo.mayLoad "mallory" =
        some { sampleInfo 100 with releasedAmount := 100 } ∧
      w.transferredIn = 100 ∧ w.paidOut = 100 ∧ w.storage.base.owed = 100 ∧ ¬ w.Solvent := by
  refine ⟨_, rfl, ?_⟩
  decide

end NeutronTge.Vesting.Pcl
