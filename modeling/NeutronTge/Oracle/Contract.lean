import NeutronTge.Astroport.Asset
import NeutronTge.CosmWasm.Storage

/-!
# NeutronTge.Oracle.Contract

The oracle of one pair. `Update` stores the cumulative prices of the pair, and the average
prices since the last update, under the height of the block; `TWAPAtHeight` reads what was
stored at the start of a past block. An average of zero is no price: in its place the pair is
asked what it would pay at present. That happens after the first update, which has nothing to
compare with, and after a period in which a cumulative price did not move.
-/

namespace NeutronTge.Oracle

open CosmWasm Astroport

/-! ### Storage -/

/-- A pair as the factory knows it. -/
structure PairInfo where
  assetInfos : List AssetInfo
  contractAddr : Addr
  liquidityToken : Addr
  deriving Repr, DecidableEq

/-- The configuration of the oracle. -/
structure Config where
  owner : Addr
  factory : Addr
  assetInfos : Option (List AssetInfo)
  pair : Option PairInfo
  /-- The time between two updates. -/
  period : Nat
  /-- The one who may set the assets. -/
  manager : Addr
  deriving Repr, DecidableEq

/-- The counters of the pair at the last update, and the averages until then. -/
structure PriceCumulativeLast where
  cumulativePrices : List (AssetInfo × AssetInfo × Nat)
  averagePrices : List (AssetInfo × AssetInfo × Decimal256)
  blockTimestampLast : Nat
  deriving Repr, DecidableEq

/-- The storage of the contract. -/
structure Storage where
  config : Config
  priceLast : SnapshotMap Unit PriceCumulativeLast
  precisions : Map String Nat

/-! ### Messages -/

/-- The configuration that `instantiate` gets. -/
structure InstantiateMsg where
  factoryContract : Addr
  period : Nat
  manager : Addr
  deriving Repr, DecidableEq

/-- The messages of the contract. -/
inductive ExecuteMsg
  | update
  | updatePeriod (newPeriod : Nat)
  | updateManager (newManager : Addr)
  | setAssetInfos (assetInfos : List AssetInfo)
  deriving Repr, DecidableEq

/-- The errors of the contract. -/
inductive ContractError
  | std (e : StdError)
  | unauthorized
  | wrongPeriod
  | assetInfosNotSet
  | assetInfosAlreadySet
  | pricesNotFound
  | invalidToken
  deriving Repr, DecidableEq

/-- What other contracts answer. -/
structure Querier where
  /-- `query_token_precision`, with the factory. -/
  tokenPrecision : Addr → AssetInfo → Except StdError Nat
  /-- The factory's `Pair`. -/
  pairInfo : Addr → List AssetInfo → Except StdError PairInfo
  /-- The pair's `CumulativePrices`. -/
  cumulativePrices : Addr → Except StdError (List (AssetInfo × AssetInfo × Nat))
  /-- `return_amount` of the pair's `Simulation`. -/
  simulation : Addr → Asset → Option AssetInfo → Except StdError Nat

/-! ### Handlers -/

/-- `instantiate`. -/
def instantiate (info : MessageInfo) (msg : InstantiateMsg) : Except StdError Storage := do
  let factory ← addrValidateToLower msg.factoryContract
  .ok ⟨⟨info.sender, factory, none, none, msg.period, msg.manager⟩, .empty, ∅⟩

/-- `update_period`. -/
def updatePeriod (s : Storage) (info : MessageInfo) (newPeriod : Nat) :
    Except ContractError Storage := do
  rejectIf (info.sender ≠ s.config.owner) .unauthorized
  .ok { s with config := { s.config with period := newPeriod } }

/-- `update_manager`. -/
def updateManager (s : Storage) (info : MessageInfo) (newManager : Addr) :
    Except ContractError Storage := do
  rejectIf (info.sender ≠ s.config.owner) .unauthorized
  .ok { s with config := { s.config with manager := newManager } }

/-- `AssetInfo` as text, the key of its precision. -/
def display : AssetInfo → String
  | .token contractAddr => contractAddr
  | .nativeToken denom => denom

/-- `store_precisions`. -/
def storePrecisions (q : Querier) (factory : Addr) (precisions : Map String Nat)
    (assetInfo : AssetInfo) : Except StdError (Map String Nat) := do
  assetInfo.check
  let precision ← q.tokenPrecision factory assetInfo
  .ok (precisions.save (display assetInfo) precision)

/-- `get_precision`. -/
def getPrecision (s : Storage) (assetInfo : AssetInfo) : Except StdError Nat :=
  s.precisions.load (display assetInfo)

/-- `set_asset_infos`. -/
def setAssetInfos (q : Querier) (s : Storage) (info : MessageInfo) (assetInfos : List AssetInfo) :
    Except ContractError Storage := do
  rejectIf (info.sender ≠ s.config.manager) .unauthorized
  rejectIf (s.config.assetInfos.isSome = true) .assetInfosAlreadySet
  let precisions ←
    (assetInfos.foldlM (storePrecisions q s.config.factory) s.precisions).mapError .std
  let pairInfo ← (q.pairInfo s.config.factory assetInfos).mapError .std
  .ok { s with
    config := { s.config with assetInfos := some assetInfos, pair := some pairInfo }
    precisions := precisions }

/-- `wrapping_sub` of two `Uint128`. -/
def wrappingSub (a b : Nat) : Nat := (a + (2 ^ 128 - b)) % 2 ^ 128

/-- The averages over `timeElapsed` of the prices that were known before. -/
def averagesSince (timeElapsed : Nat) (last prices : List (AssetInfo × AssetInfo × Nat)) :
    Except StdError (List (AssetInfo × AssetInfo × Decimal256)) :=
  let pairs := last.flatMap fun l =>
    (prices.filter fun p => p.1 = l.1 ∧ p.2.1 = l.2.1).map fun p => (p, l.2.2)
  pairs.mapM fun (p, priceLast) => do
    let average ← FixedPoint.fromRatio 256 (wrappingSub p.2.2 priceLast) timeElapsed
    .ok (p.1, p.2.1, average)

/-- The averages that an update stores. -/
def newAverages (s : Storage) (env : Env) (prices : List (AssetInfo × AssetInfo × Nat)) :
    Except ContractError (List (AssetInfo × AssetInfo × Decimal256)) :=
  match s.priceLast.mayLoad () with
  | some priceLast => do
      let timeElapsed ← (Uint.sub env.time priceLast.blockTimestampLast).mapError .std
      rejectIf (timeElapsed < s.config.period) .wrongPeriod
      (averagesSince timeElapsed priceLast.cumulativePrices prices).mapError .std
  | none => .ok (prices.map fun p => (p.1, p.2.1, FixedPoint.zero))

/-- `update`. -/
def update (q : Querier) (s : Storage) (env : Env) : Except ContractError Storage := do
  let pair ← okOr s.config.pair .assetInfosNotSet
  let prices ← (q.cumulativePrices pair.contractAddr).mapError .std
  let averagePrices ← newAverages s env prices
  .ok { s with priceLast := s.priceLast.save () ⟨prices, averagePrices, env.time⟩ env.height }

/-- `execute`. -/
def execute (q : Querier) (s : Storage) (env : Env) (info : MessageInfo) :
    ExecuteMsg → Except ContractError Storage
  | .update => update q s env
  | .updatePeriod newPeriod => updatePeriod s info newPeriod
  | .updateManager newManager => updateManager s info newManager
  | .setAssetInfos assetInfos => setAssetInfos q s info assetInfos

/-! ### Queries -/

/-- `10_u128.pow`. -/
def powTen (p : Nat) : Except StdError Nat :=
  if 10 ^ p < 2 ^ 128 then .ok (10 ^ p) else .error .aborted

/-- `TWAP_PRECISION`. -/
def twapPrecision : Nat := 6

/-- The average prices of `token` in the other assets. -/
def averagesOf (token : AssetInfo) (priceLast : PriceCumulativeLast) :
    List (AssetInfo × Decimal256) :=
  (priceLast.averagePrices.filter fun p => p.1 = token).map Prod.snd

section Queries

variable (q : Querier) (s : Storage)

/-- What `consult` makes of one average price. -/
def consultPrice (pair : PairInfo) (token : AssetInfo) (one amount : Nat)
    (average : AssetInfo × Decimal256) : Except StdError (AssetInfo × Nat) :=
  if average.2.atomics = 0 then do
    let price ← q.simulation pair.contractAddr ⟨token, one⟩ (some average.1)
    let value ← Uint.multiplyRatio 256 price amount one
    .ok (average.1, value)
  else do
    let value ← Uint.multiplyRatio 256 amount average.2.atomics FixedPoint.fractional
    .ok (average.1, value / 10 ^ twapPrecision)

/-- `consult`. -/
def consult (token : AssetInfo) (amount : Nat) :
    Except ContractError (List (AssetInfo × Nat)) := do
  let pair ← okOr s.config.pair .assetInfosNotSet
  let priceLast ← okOr (s.priceLast.mayLoad ()) .pricesNotFound
  let averagePrices := averagesOf token priceLast
  rejectIf (averagePrices = []) .invalidToken
  let p ← (getPrecision s token).mapError .std
  let one ← (powTen p).mapError .std
  (averagePrices.mapM (consultPrice q pair token one amount)).mapError .std

/-- What `twap_at_height` makes of one average price. -/
def twapPrice (pair : PairInfo) (token : AssetInfo) (one : Nat)
    (average : AssetInfo × Decimal256) : Except StdError (AssetInfo × Decimal256) :=
  if average.2.atomics = 0 then do
    let price ← q.simulation pair.contractAddr ⟨token, one⟩ (some average.1)
    let whole ← FixedPoint.fromRatio 256 price 1
    let unit ← FixedPoint.ofUint one
    let twap ← FixedPoint.div whole (⟨unit.atomics⟩ : Decimal256)
    .ok (average.1, twap)
  else .ok (average.1, ⟨average.2.atomics / 10 ^ twapPrecision⟩)

/-- `twap_at_height`. -/
def twapAtHeight (token : AssetInfo) (height : Nat) :
    Except ContractError (List (AssetInfo × Decimal256)) := do
  let pair ← okOr s.config.pair .assetInfosNotSet
  let priceLast ← okOr (s.priceLast.mayLoadAtHeight () height) .pricesNotFound
  let averagePrices := averagesOf token priceLast
  rejectIf (averagePrices = []) .invalidToken
  let p ← (getPrecision s token).mapError .std
  let one ← (powTen p).mapError .std
  (averagePrices.mapM (twapPrice q pair token one)).mapError .std

end Queries

end NeutronTge.Oracle
