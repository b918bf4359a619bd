import NeutronTge.CosmWasm.Dispatch
import NeutronTge.Vesting.Chain
import NeutronTge.Vesting.Pcl

/-!
# NeutronTge.Vesting.Lp

The `vesting-lp` contract: a vesting contract for the LP tokens of an XYK pair whose
accounts can be migrated to the PCL pair. A migration takes the account's LP tokens out of
the XYK pair, provides the assets to the PCL pair and sends the new LP tokens to the PCL
vesting contract, in four steps that call each other; LP tokens that are worth too little
are sent to the user instead.

The pairs and the tokens are a parameter (`Externals`): a state of any type, what the
contract can read from it and what its messages do to it. They do not call back.
-/

namespace NeutronTge.Vesting.Lp

open CosmWasm Astroport

/-! ### Types -/

/-- What the migration of the code sets up. -/
structure XykToClMigrationConfig where
  maxSlippage : Decimal
  ntrnDenom : String
  xykPair : Addr
  pairedDenom : String
  clPair : Addr
  newLpToken : Addr
  pclVesting : Addr
  deriving Repr, DecidableEq

/-- An account together with its address, as the callbacks pass it on. -/
structure VestingAccountFullInfo where
  address : Addr
  info : VestingInfo
  deriving Repr, DecidableEq

/-- The messages that the contract sends to itself during a migration. -/
inductive CallbackMsg
  | migrateLiquidityToClPair (xykPair xykLpToken : Addr) (amount : Nat)
      (slippageTolerance : Decimal) (clPair : Addr) (ntrnDenom pairedAssetDenom : String)
      (user : VestingAccountFullInfo)
  | provideLiquidityToClPairAfterWithdrawal (ntrnDenom : String) (ntrnInitBalance : Nat)
      (pairedAssetDenom : String) (pairedAssetInitBalance : Nat) (clPair : Addr)
      (slippageTolerance : Decimal) (user : VestingAccountFullInfo)
  | postMigrationVestingReschedule (user : VestingAccountFullInfo) (initBalancePclLp : Nat)
  deriving Repr, DecidableEq

/-- What the contract asks of others, and of itself. -/
inductive CosmosMsg
  | transfer (msg : TransferMsg)
  /-- A `Send` of LP tokens to their pair with `WithdrawLiquidity`. -/
  | withdrawLiquidity (lpToken pair : Addr) (amount : Nat)
  | provideLiquidity (pair : Addr) (assets : List Asset) (slippageTolerance : Option Decimal)
      (funds : List Coin)
  /-- A `Send` of LP tokens to the PCL vesting contract with `MigrateXYKLiquidity`. -/
  | migrateXykLiquidity (lpToken contract : Addr) (amount : Nat) (user : Addr)
      (userVestingInfo : VestingInfo)
  | callback (msg : CallbackMsg)
  deriving Repr, DecidableEq

/-- The messages of the contract. -/
inductive ExecuteMsg
  | claim (recipient : Option Addr) (amount : Option Nat)
  | receive (msg : Cw20ReceiveMsg Cw20HookMsg)
  | registerVestingAccounts (vestingAccounts : List VestingAccount)
  | proposeNewOwner (owner : Addr) (expiresIn : Nat)
  | dropOwnershipProposal
  | claimOwnership
  | setVestingToken (vestingToken : AssetInfo)
  | managedExtension (msg : ExecuteMsgManaged)
  | withManagersExtension (msg : ExecuteMsgWithManagers)
  | migrateLiquidityToPCLPool (user : Option Addr)
  | callback (msg : CallbackMsg)
  deriving Repr, DecidableEq

/-- `From<ExecuteMsg> for BaseExecute`, which panics on the messages of its own. -/
def ExecuteMsg.intoBase : ExecuteMsg → Except ContractError Vesting.ExecuteMsg
  | .claim recipient amount => .ok (.claim recipient amount)
  | .receive msg => .ok (.receive msg)
  | .registerVestingAccounts vestingAccounts => .ok (.registerVestingAccounts vestingAccounts)
  | .proposeNewOwner owner expiresIn => .ok (.proposeNewOwner owner expiresIn)
  | .dropOwnershipProposal => .ok .dropOwnershipProposal
  | .claimOwnership => .ok .claimOwnership
  | .setVestingToken vestingToken => .ok (.setVestingToken vestingToken)
  | .managedExtension msg => .ok (.managedExtension msg)
  | .withManagersExtension msg => .ok (.withManagersExtension msg)
  | .migrateLiquidityToPCLPool _ => .error (.std .aborted)
  | .callback _ => .error (.std .aborted)

/-- The configuration that `instantiate` gets. -/
structure InstantiateMsg where
  owner : Addr
  vestingManagers : List Addr
  tokenInfoManager : Addr
  deriving Repr, DecidableEq

/-- The storage of the contract: that of vesting-base, and where liquidity is migrated to. -/
structure Storage where
  base : Vesting.Storage
  migrationConfig : Option XykToClMigrationConfig

/-- What the contract reads from the others. -/
structure Querier where
  /-- `Pair {}`: the pair's LP token. -/
  liquidityToken : Addr → Except StdError Addr
  /-- `Share { amount }`: what an amount of LP tokens is worth. -/
  share : Addr → Nat → Except StdError (List Asset)
  /-- The contract's own balance of a native token. -/
  balance : String → Except StdError Nat
  /-- The contract's own balance of a cw20 token. -/
  tokenBalance : Addr → Except StdError Nat

/-- What a handler leaves: the storage and the messages it sends. -/
structure Response where
  storage : Storage
  messages : List CosmosMsg

/-! ### Handlers -/

/-- `instantiate`. -/
def instantiate (msg : InstantiateMsg) : Storage where
  base :=
    VestingBaseBuilder.build
      { vestingManagers := msg.vestingManagers
        historical := true
        managed := false
        withManagers := true }
      msg.owner msg.tokenInfoManager
  migrationConfig := none

/-- `migrate`. -/
def migrate (s : Storage) (msg : XykToClMigrationConfig) : Storage :=
  { s with migrationConfig := some msg }

/-- The loop of `compute_share`: only schedules with an end point count. -/
def addShare (acc : Nat) (sch : VestingSchedule) : Except StdError Nat :=
  match sch.endPoint with
  | some endPoint => Uint.checkedAdd 128 acc endPoint.amount
  | none => .ok acc

/-- `compute_share`. -/
def computeShare (info : VestingInfo) : Except StdError Nat := do
  let availableAmount ← info.schedules.foldlM addShare 0
  Uint.checkedSub availableAmount info.releasedAmount

/-- `execute_migrate_liquidity`. -/
def executeMigrateLiquidity (q : Querier) (s : Storage) (env : Env) (info : MessageInfo)
    (slippageTolerance : Option Decimal) (user : Option Addr) : Except ContractError Response := do
  let migrationConfig ← okOr s.migrationConfig (.std .notFound)
  let address := user.getD info.sender
  let account ← (s.base.vestingInfo.load address).mapError .std
  let lpToken ← (q.liquidityToken migrationConfig.xykPair).mapError .std
  let userShare ← (computeShare account).mapError .std
  let userShareAssets ← (q.share migrationConfig.xykPair userShare).mapError .std
  -- nothing to migrate, or only dust
  if ∃ a ∈ userShareAssets, a.amount = 0 then
    let messages :=
      if userShare = 0 then [] else [CosmosMsg.transfer (.cw20 lpToken address userShare)]
    let base :=
      -- the account is emptied, but `VESTING_STATE` still counts it
      if account.schedules = [] then s.base else s.base.saveInfo address ⟨[], 0⟩ env.height
    .ok ⟨{ s with base := base }, messages⟩
  else do
    -- this version of the message gives no tolerance, so the configured one is used
    rejectIf (∃ t ∈ slippageTolerance, migrationConfig.maxSlippage.atomics < t.atomics)
      .migrationError
    .ok ⟨s, [.callback (.migrateLiquidityToClPair migrationConfig.xykPair lpToken userShare
      (slippageTolerance.getD migrationConfig.maxSlippage) migrationConfig.clPair
      migrationConfig.ntrnDenom migrationConfig.pairedDenom ⟨address, account⟩)]⟩

/-- `migrate_liquidity_to_cl_pair_callback`. -/
def migrateLiquidityToClPairCallback (q : Querier) (s : Storage) (env : Env)
    (xykPair xykLpToken : Addr) (amount : Nat) (slippageTolerance : Decimal) (clPair : Addr)
    (ntrnDenom pairedAssetDenom : String) (user : VestingAccountFullInfo) :
    Except ContractError Response := do
  let ntrnInitBalance ← (q.balance ntrnDenom).mapError .std
  let pairedAssetInitBalance ← (q.balance pairedAssetDenom).mapError .std
  let state := (s.base.vestingState.mayLoad ()).getD ⟨0, 0⟩
  -- what was released stays in both sums
  let totalGranted ← (Uint.checkedSub state.totalGranted amount).mapError .std
  let base := s.base.saveState { state with totalGranted := totalGranted } env.height
  .ok ⟨{ s with base := base }, [.withdrawLiquidity xykLpToken xykPair amount,
    .callback (.provideLiquidityToClPairAfterWithdrawal ntrnDenom ntrnInitBalance
      pairedAssetDenom pairedAssetInitBalance clPair slippageTolerance user)]⟩

/-- `provide_liquidity_to_cl_pair_after_withdrawal_callback`. -/
def provideLiquidityToClPairAfterWithdrawalCallback (q : Querier) (s : Storage)
    (ntrnDenom : String) (ntrnInitBalance : Nat) (pairedAssetDenom : String)
    (pairedAssetInitBalance : Nat) (clPair : Addr) (slippageTolerance : Decimal)
    (user : VestingAccountFullInfo) : Except ContractError Response := do
  let ntrnBalance ← (q.balance ntrnDenom).mapError .std
  let pairedAssetBalance ← (q.balance pairedAssetDenom).mapError .std
  let withdrawnNtrn ← (Uint.checkedSub ntrnBalance ntrnInitBalance).mapError .std
  let withdrawnPairedAsset ←
    (Uint.checkedSub pairedAssetBalance pairedAssetInitBalance).mapError .std
  let migrationConfig ← okOr s.migrationConfig (.std .notFound)
  let currentBalance ← (q.tokenBalance migrationConfig.newLpToken).mapError .std
  .ok ⟨s, [.provideLiquidity clPair
      [⟨.nativeToken ntrnDenom, withdrawnNtrn⟩,
        ⟨.nativeToken pairedAssetDenom, withdrawnPairedAsset⟩]
      (some slippageTolerance)
      [⟨ntrnDenom, withdrawnNtrn⟩, ⟨pairedAssetDenom, withdrawnPairedAsset⟩],
    .callback (.postMigrationVestingReschedule user currentBalance)]⟩

/-- The schedule that takes the place of `schedule`: its dates, nothing at the start and
`balanceDiff` at the end, when there is an end. -/
def newSchedule (schedule : VestingSchedule) (balanceDiff : Nat) : VestingSchedule where
  startPoint := ⟨schedule.startPoint.time, 0⟩
  endPoint := schedule.endPoint.map fun endPoint => ⟨endPoint.time, balanceDiff⟩

/-- `post_migration_vesting_reschedule_callback`. -/
def postMigrationVestingRescheduleCallback (q : Querier) (s : Storage) (env : Env)
    (user : VestingAccountFullInfo) (initBalancePclLp : Nat) : Except ContractError Response := do
  let migrationConfig ← okOr s.migrationConfig (.std .notFound)
  let balance ← (q.tokenBalance migrationConfig.newLpToken).mapError .std
  let balanceDiff ← (Uint.checkedSub balance initBalancePclLp).mapError .std
  -- the last schedule gives the dates of the one that takes the place of all of them
  let schedule ← okOr user.info.schedules.getLast? (.vestingScheduleExtractError user.address)
  let base := s.base.saveInfo user.address ⟨[], 0⟩ env.height
  let messages :=
    if balanceDiff = 0 then []
    else [CosmosMsg.migrateXykLiquidity migrationConfig.newLpToken migrationConfig.pclVesting
      balanceDiff user.address ⟨[newSchedule schedule balanceDiff], 0⟩]
  .ok ⟨{ s with base := base }, messages⟩

/-- `_handle_callback`, for a message the contract sent to itself. -/
def handleCallback (q : Querier) (s : Storage) (env : Env) :
    CallbackMsg → Except ContractError Response
  | .migrateLiquidityToClPair xykPair xykLpToken amount slippageTolerance clPair ntrnDenom
      pairedAssetDenom user =>
      migrateLiquidityToClPairCallback q s env xykPair xykLpToken amount slippageTolerance clPair
        ntrnDenom pairedAssetDenom user
  | .provideLiquidityToClPairAfterWithdrawal ntrnDenom ntrnInitBalance pairedAssetDenom
      pairedAssetInitBalance clPair slippageTolerance user =>
      provideLiquidityToClPairAfterWithdrawalCallback q s ntrnDenom ntrnInitBalance
        pairedAssetDenom pairedAssetInitBalance clPair slippageTolerance user
  | .postMigrationVestingReschedule user initBalancePclLp =>
      postMigrationVestingRescheduleCallback q s env user initBalancePclLp

/-- `execute`. -/
def execute (q : Querier) (s : Storage) (env : Env) (info : MessageInfo) (msg : ExecuteMsg) :
    Except ContractError Response :=
  match msg with
  | .migrateLiquidityToPCLPool user => executeMigrateLiquidity q s env info none user
  | .callback msg => do
      rejectIf (info.sender ≠ env.contract) .unauthorized
      handleCallback q s env msg
  | msg => do
      let baseMsg ← msg.intoBase
      let (base, msgs) ← Vesting.execute s.base env info baseMsg
      .ok ⟨{ s with base := base }, msgs.map .transfer⟩

/-! ### The chain -/

/-- The pairs and the tokens around the contract. -/
structure Externals (E : Type) where
  querier : E → Querier
  exec : E → Env → CosmosMsg → Except ContractError E

/-- The contract on its chain, with a trace of the messages that went out. -/
structure World (E : Type) where
  storage : Storage
  ext : E
  env : Env
  trace : List CosmosMsg

variable {E : Type}

/-- The callback that a message is, if it is one. -/
def CosmosMsg.asCallback : CosmosMsg → Option CallbackMsg
  | .callback msg => some msg
  | _ => none

section Exec

variable (x : Externals E)

/-- How the messages of the contract are executed. -/
def Externals.calls : Calls (World E) CosmosMsg CallbackMsg Response E ContractError where
  callback := CosmosMsg.asCallback
  handle w msg := handleCallback (x.querier w.ext) w.storage w.env msg
  respond w r := { w with storage := r.storage }
  messages := Response.messages
  exec w msg := x.exec w.ext w.env msg
  sent w ext msg := { w with ext := ext, trace := w.trace ++ [msg] }
  tooDeep := .std .aborted

/-- Execute one message, and the messages it leads to before the next one. The number bounds
the nesting of callbacks. -/
def dispatch : Nat → World E → CosmosMsg → Except ContractError (World E) := x.calls.dispatch

/-- How deep callbacks nest: the three steps of a migration. -/
def callDepth : Nat := 3

/-- A transaction that somebody sends to the contract. -/
def World.execute (w : World E) (info : MessageInfo) (msg : ExecuteMsg) :
    Except ContractError (World E) := do
  rejectIf (info.sender = w.env.contract) (.std .aborted)
  let r ← Lp.execute (x.querier w.ext) w.storage w.env info msg
  r.messages.foldlM (dispatch x callDepth) { w with storage := r.storage }

/-- What happens in a run. -/
inductive Action (E : Type)
  /-- Time passes. -/
  | advance (seconds blocks : Nat)
  /-- The pairs and the tokens change by themselves. -/
  | drift (ext : E)
  /-- The code is migrated and learns the PCL contracts. -/
  | migrate (msg : XykToClMigrationConfig)
  | execute (info : MessageInfo) (msg : ExecuteMsg)

/-- One action of a run. -/
def World.exec (w : World E) : Action E → Except ContractError (World E)
  | .advance seconds blocks =>
      .ok { w with env :=
        { w.env with time := w.env.time + seconds, height := w.env.height + blocks } }
  | .drift ext => .ok { w with ext := ext }
  | .migrate msg => .ok { w with storage := Lp.migrate w.storage msg }
  | .execute info msg => w.execute x info msg

end Exec

/-- The contract right after it was created. -/
def World.start (msg : InstantiateMsg) (ext : E) (env : Env) : World E :=
  ⟨instantiate msg, ext, env, []⟩

/-! ### A small chain

Two pairs for the runs on concrete inputs: ten LP tokens of the XYK pair are worth one unit
of each asset, and the PCL pair mints as many LP tokens as it gets of the first asset. -/

/-- The balances of the contract on the small chain. -/
structure SampleExt where
  ntrn : Nat
  paired : Nat
  pclLp : Nat

/-- An LP token of the small chain is worth a tenth of each asset. -/
def SampleExt.querier (e : SampleExt) : Querier where
  liquidityToken _ := .ok "xyk_lp"
  share _ amount :=
    .ok [⟨.nativeToken "untrn", amount / 10⟩, ⟨.nativeToken "uusd", amount / 10⟩]
  balance denom := .ok (if denom = "untrn" then e.ntrn else e.paired)
  tokenBalance _ := .ok e.pclLp

/-- What the messages of a migration do on the small chain. -/
def SampleExt.exec (e : SampleExt) : CosmosMsg → Except ContractError SampleExt
  | .withdrawLiquidity _ _ amount =>
      .ok { e with ntrn := e.ntrn + amount / 10, paired := e.paired + amount / 10 }
  | .provideLiquidity _ _ _ [ntrn, paired] => do
      let ntrnLeft ← (Uint.checkedSub e.ntrn ntrn.amount).mapError .std
      let pairedLeft ← (Uint.checkedSub e.paired paired.amount).mapError .std
      .ok ⟨ntrnLeft, pairedLeft, e.pclLp + ntrn.amount⟩
  | .migrateXykLiquidity _ _ amount _ _ => do
      let left ← (Uint.checkedSub e.pclLp amount).mapError .std
      .ok { e with pclLp := left }
  | _ => .ok e

/-- The small chain as the contracts around this one. -/
def sampleExternals : Externals SampleExt := ⟨SampleExt.querier, fun e _ m => e.exec m⟩

/-- The configuration of the small chain. -/
def sampleInstantiateMsg : InstantiateMsg where
  owner := "owner"
  vestingManagers := []
  tokenInfoManager := "manager"

/-- Where liquidity is migrated to on the small chain. -/
def sampleConfig : XykToClMigrationConfig where
  maxSlippage := ⟨FixedPoint.fractional / 100⟩
  ntrnDenom := "untrn"
  xykPair := "xyk_pair"
  pairedDenom := "uusd"
  clPair := "pcl_pair"
  newLpToken := "pcl_lp"
  pclVesting := "vesting_lp_pcl"

/-- The contract right after it was created. -/
def sampleStart : World SampleExt :=
  World.start sampleInstantiateMsg ⟨0, 0, 0⟩ ⟨0, 1, "vesting_lp"⟩

/-- The token is set, the owner registers schedules for Alice, and the code learns the PCL
contracts. -/
def sampleSetup (schedules : List VestingSchedule) (amount : Nat) : List (Action E) :=
  [.execute ⟨"owner", []⟩ (.setVestingToken (.token "xyk_lp")),
    .execute ⟨"xyk_lp", []⟩
      (.receive ⟨"owner", amount, some (.registerVestingAccounts [⟨"alice", schedules⟩])⟩),
    .migrate sampleConfig]

/-- Somebody migrates Alice. -/
def sampleMigration : Action E :=
  .execute ⟨"anybody", []⟩ (.migrateLiquidityToPCLPool (some "alice"))

end NeutronTge.Vesting.Lp
