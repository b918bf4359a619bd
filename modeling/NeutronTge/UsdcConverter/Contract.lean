import NeutronTge.Astroport.Asset

/-!
# NeutronTge.UsdcConverter.Contract

The converter of USDC.axl<>NTRN liquidity into liquidity of a pool with another USDC. LP tokens
that are sent to it are withdrawn, the USDC.axl is swapped by a transmuter pool, and the
outcome is provided to a noble pool for the one who sent the LP tokens. Amounts are what the
contract's own balances changed by between two calls.
-/

namespace NeutronTge.UsdcConverter

open CosmWasm Astroport

/-- `NTRN_DENOM`. -/
def ntrnDenom : String := "untrn"

/-- The pool whose LP tokens are converted, and the denom of its USDC. -/
structure Config where
  axlPool : Addr
  axlUsdcDenom : String
  deriving Repr, DecidableEq

/-! ### Messages -/

/-- `ConvertAndStake`, the only message of `Cw20HookMsg`. -/
structure ConvertAndStake where
  transmuterPool : Addr
  noblePool : Addr
  nobleUsdcDenom : String
  provideLiquiditySlippageTolerance : Decimal
  deriving Repr, DecidableEq

/-- LP tokens that arrive with a message. -/
structure Cw20ReceiveMsg where
  sender : Addr
  amount : Nat
  /-- The decoded message, if it is one. -/
  msg : Option ConvertAndStake
  deriving Repr, DecidableEq

/-- The messages that the converter sends to itself. -/
inductive CallbackMsg
  | swapCallback (transmuterPool : Addr) (axlUsdcPrevBalance ntrnPrevBalance : Nat)
      (provideLiquiditySlippageTolerance : Decimal) (caller noblePool : Addr)
      (nobleUsdcDenom : String)
  | stakeCallback (nobleUsdcPrevBalance ntrnToProvide : Nat)
      (provideLiquiditySlippageTolerance : Decimal) (caller noblePool : Addr)
      (nobleUsdcDenom : String)
  deriving Repr, DecidableEq

/-- The messages of the contract. -/
inductive ExecuteMsg
  | receive (msg : Cw20ReceiveMsg)
  | callback (msg : CallbackMsg)
  deriving Repr, DecidableEq

/-- `ProvideLiquidity` of a pair. -/
structure ProvideLiquidity where
  assets : List Asset
  slippageTolerance : Option Decimal
  autoStake : Option Bool
  receiver : Option Addr
  deriving Repr, DecidableEq

/-- The messages the contract sends. -/
inductive CosmosMsg
  /-- `Send` of LP tokens with `WithdrawLiquidity`. -/
  | withdrawLiquidity (lpToken contract : Addr) (amount : Nat)
  /-- A `Swap` without limits that pays the converter. -/
  | swap (pool : Addr) (offerAsset : Asset) (funds : List Coin)
  | provideLiquidity (pool : Addr) (msg : ProvideLiquidity) (funds : List Coin)
  | callback (msg : CallbackMsg)
  deriving Repr, DecidableEq

/-- What the contract reads from the chain and from the pairs. -/
structure Querier where
  /-- The contract's balance of a native token. -/
  balance : String → Except StdError Nat
  /-- The LP token that a pair's `Pair` query returns. -/
  liquidityToken : Addr → Except StdError Addr

section Handlers

variable (q : Querier) (config : Config)

/-- `execute_convert_and_stake`. -/
def executeConvertAndStake (caller : Addr) (amountToConvert : Nat) (axlPoolLpToken : Addr)
    (hook : ConvertAndStake) : Except StdError (List CosmosMsg) := do
  let ntrnBalance ← q.balance ntrnDenom
  let axlUsdcBalance ← q.balance config.axlUsdcDenom
  .ok [.withdrawLiquidity axlPoolLpToken config.axlPool amountToConvert,
    .callback (.swapCallback hook.transmuterPool axlUsdcBalance ntrnBalance
      hook.provideLiquiditySlippageTolerance caller hook.noblePool hook.nobleUsdcDenom)]

/-- `receive_cw20`. -/
def receiveCw20 (info : MessageInfo) (cw20Msg : Cw20ReceiveMsg) :
    Except StdError (List CosmosMsg) := do
  let liquidityToken ← q.liquidityToken config.axlPool
  rejectIf (info.sender ≠ liquidityToken)
    (.genericErr "only USDC.axl<>NTRN pool LP tokens are supported for conversion")
  let hook ← okOr cw20Msg.msg (.genericErr "Error parsing into type Cw20HookMsg")
  executeConvertAndStake q config cw20Msg.sender cw20Msg.amount liquidityToken hook

/-- `handle_swap_callback`: what was withdrawn is the change of the balances. -/
def handleSwapCallback (transmuterPool : Addr) (axlUsdcPrevBalance ntrnPrevBalance : Nat)
    (provideLiquiditySlippageTolerance : Decimal) (caller noblePool : Addr)
    (nobleUsdcDenom : String) : Except StdError (List CosmosMsg) := do
  let ntrnBalance ← q.balance ntrnDenom
  let ntrnWithdrawn ← Uint.checkedSub ntrnBalance ntrnPrevBalance
  let axlUsdcBalance ← q.balance config.axlUsdcDenom
  let axlUsdcWithdrawn ← Uint.checkedSub axlUsdcBalance axlUsdcPrevBalance
  let nobleUsdcBalance ← q.balance nobleUsdcDenom
  .ok [.swap transmuterPool ⟨.nativeToken config.axlUsdcDenom, axlUsdcWithdrawn⟩
      [⟨config.axlUsdcDenom, axlUsdcWithdrawn⟩],
    .callback (.stakeCallback nobleUsdcBalance ntrnWithdrawn provideLiquiditySlippageTolerance
      caller noblePool nobleUsdcDenom)]

/-- `handle_stake_callback`: what the swap returned is the change of the balance. -/
def handleStakeCallback (nobleUsdcPrevBalance ntrnToProvide : Nat)
    (provideLiquiditySlippageTolerance : Decimal) (caller noblePool : Addr)
    (nobleUsdcDenom : String) : Except StdError (List CosmosMsg) := do
  let nobleUsdcBalance ← q.balance nobleUsdcDenom
  let nobleUsdcSwapped ← Uint.checkedSub nobleUsdcBalance nobleUsdcPrevBalance
  .ok [.provideLiquidity noblePool
    { assets := [⟨.nativeToken ntrnDenom, ntrnToProvide⟩,
        ⟨.nativeToken nobleUsdcDenom, nobleUsdcSwapped⟩]
      slippageTolerance := some provideLiquiditySlippageTolerance
      autoStake := some true
      receiver := some caller }
    [⟨ntrnDenom, ntrnToProvide⟩, ⟨nobleUsdcDenom, nobleUsdcSwapped⟩]]

/-- `handle_callback`, for a call by the contract itself. -/
def handleCallback : CallbackMsg → Except StdError (List CosmosMsg)
  | .swapCallback transmuterPool axlUsdcPrevBalance ntrnPrevBalance slippageTolerance caller
      noblePool nobleUsdcDenom =>
      handleSwapCallback q config transmuterPool axlUsdcPrevBalance ntrnPrevBalance
        slippageTolerance caller noblePool nobleUsdcDenom
  | .stakeCallback nobleUsdcPrevBalance ntrnToProvide slippageTolerance caller noblePool
      nobleUsdcDenom =>
      handleStakeCallback q nobleUsdcPrevBalance ntrnToProvide slippageTolerance caller noblePool
        nobleUsdcDenom

/-- `execute`. -/
def execute (contract : Addr) (info : MessageInfo) :
    ExecuteMsg → Except StdError (List CosmosMsg)
  | .receive msg => receiveCw20 q config info msg
  | .callback msg => do
      rejectIf (info.sender ≠ contract)
        (.genericErr "callbacks cannot be invoked externally")
      handleCallback q config msg

end Handlers

end NeutronTge.UsdcConverter
