import Mathlib.Data.List.Sort
import NeutronTge.CosmWasm.Storage
import NeutronTge.CosmWasm.Message

/-!
# NeutronTge.PriceFeed.Contract

The price feed: it asks an oracle on another chain for the rates of a list of symbols, over
the channel that connected last, and stores the rates of every response packet it gets. A
response does not say which symbols its rates are for; they are taken from the configuration.

A packet handler returns an error as an acknowledgement, so what it wrote before stays
(`doIbcPacketReceive`); only a panic takes everything back. The formats of the packets are
those of other packages and a parameter (`Codec`).
-/

namespace NeutronTge.PriceFeed

open CosmWasm

/-! ### Storage -/

/-- The configuration: what the oracle is asked, and how often. -/
structure Config where
  clientId : String
  oracleScriptId : Nat
  askCount : Nat
  minCount : Nat
  feeLimit : List Coin
  prepareGas : Nat
  executeGas : Nat
  multiplier : Nat
  /-- The symbols to ask for. -/
  symbols : List String
  maxUpdateInterval : Nat
  owner : Addr
  deriving Repr, DecidableEq

/-- The rate of a symbol. -/
structure PriceFeedRate where
  rate : Nat
  /-- The time at which the response arrived. -/
  resolveTime : Nat
  requestId : Nat
  deriving Repr, DecidableEq

/-- An end of a channel. -/
structure IbcEndpoint where
  portId : String
  channelId : String
  deriving Repr, DecidableEq

/-- The storage of the contract. -/
structure Storage where
  config : Config
  rates : Map String PriceFeedRate
  error : Option String
  endpoint : Option IbcEndpoint
  lastUpdate : Option Nat

/-! ### Messages -/

/-- The configuration that `instantiate` gets. -/
structure InstantiateMsg where
  clientId : String
  oracleScriptId : Nat
  askCount : Nat
  minCount : Nat
  feeLimit : List Coin
  prepareGas : Nat
  executeGas : Nat
  multiplier : Nat
  symbols : List String
  owner : Option Addr
  maxUpdateInterval : Option Nat
  deriving Repr, DecidableEq

/-- The new values of the configuration; a missing one keeps the old. -/
structure UpdateConfigMsg where
  clientId : Option String
  oracleScriptId : Option Nat
  askCount : Option Nat
  minCount : Option Nat
  feeLimit : Option (List Coin)
  prepareGas : Option Nat
  executeGas : Option Nat
  multiplier : Option Nat
  symbols : Option (List String)
  maxUpdateInterval : Option Nat
  deriving Repr, DecidableEq

/-- The messages of the contract. -/
inductive ExecuteMsg
  | request
  | updateConfig (newConfig : UpdateConfigMsg)
  | updateOwner (newOwner : Addr)
  deriving Repr, DecidableEq

/-- `Input`: the calldata of a request. -/
structure Input where
  symbols : List String
  multiplier : Nat
  deriving Repr, DecidableEq

/-- What a request asks the oracle. -/
structure OracleRequestPacketData where
  clientId : String
  oracleScriptId : Nat
  calldata : Input
  askCount : Nat
  minCount : Nat
  feeLimit : List Coin
  prepareGas : Nat
  executeGas : Nat
  deriving Repr, DecidableEq

/-- `IbcMsg::SendPacket`. -/
structure SendPacket where
  channelId : String
  data : OracleRequestPacketData
  timeout : Nat
  deriving Repr, DecidableEq

/-- How a request ended at the oracle. -/
inductive ResolveStatus
  | open_
  | success
  | failure
  | expired
  deriving Repr, DecidableEq

/-- The answer of the oracle, which does not name the symbols of its rates. -/
structure OracleResponsePacketData where
  clientId : String
  requestId : Nat
  ansCount : Nat
  requestTime : Nat
  resolveTime : Nat
  resolveStatus : ResolveStatus
  result : String
  deriving Repr, DecidableEq

/-- The data of a packet. -/
abbrev Bytes := List UInt8

/-- A packet with the two ends of its channel. -/
structure IbcPacket where
  data : Bytes
  src : IbcEndpoint
  dest : IbcEndpoint
  sequence : Nat
  deriving Repr, DecidableEq

/-- Whether a channel delivers its packets in order. -/
inductive IbcOrder
  | unordered
  | ordered
  deriving Repr, DecidableEq

/-- A channel between two chains. -/
structure IbcChannel where
  endpoint : IbcEndpoint
  counterpartyEndpoint : IbcEndpoint
  order : IbcOrder
  version : String
  connectionId : String
  deriving Repr, DecidableEq

/-- The first half of a handshake, begun here or at the other end. -/
inductive IbcChannelOpenMsg
  | openInit (channel : IbcChannel)
  | openTry (channel : IbcChannel) (counterpartyVersion : String)
  deriving Repr, DecidableEq

/-- The channel of a handshake that begins. -/
def IbcChannelOpenMsg.channel : IbcChannelOpenMsg → IbcChannel
  | .openInit channel => channel
  | .openTry channel _ => channel

/-- The version of the other end, when it began the handshake. -/
def IbcChannelOpenMsg.counterpartyVersion : IbcChannelOpenMsg → Option String
  | .openInit _ => none
  | .openTry _ version => some version

/-- The second half of a handshake. -/
inductive IbcChannelConnectMsg
  | openAck (channel : IbcChannel) (counterpartyVersion : String)
  | openConfirm (channel : IbcChannel)
  deriving Repr, DecidableEq

/-- The channel of a handshake that ends. -/
def IbcChannelConnectMsg.channel : IbcChannelConnectMsg → IbcChannel
  | .openAck channel _ => channel
  | .openConfirm channel => channel

/-- The version of the other end, when it answered the handshake. -/
def IbcChannelConnectMsg.counterpartyVersion : IbcChannelConnectMsg → Option String
  | .openAck _ version => some version
  | .openConfirm _ => none

/-- The errors of the contract. -/
inductive ContractError
  | unauthorized
  | std (e : StdError)
  | requestNotSuccess
  | invalidIbcVersion (version : String)
  | onlyUnorderedChannel
  | tooEarly
  deriving Repr, DecidableEq

/-- The acknowledgements of a packet: `ack_success`, and `ack_fail` with an error. -/
inductive Ack
  | success
  | fail (error : ContractError)
  deriving Repr, DecidableEq

/-- The formats of a packet. -/
structure Codec where
  /-- `from_json` of a packet's data. -/
  response : Bytes → Except StdError OracleResponsePacketData
  /-- `Binary::from_base64`. -/
  fromBase64 : String → Except StdError Bytes
  /-- `OBIDecode::decode` of a list of rates. -/
  rates : Bytes → Option (List Nat)

/-- `IBC_APP_VERSION`. -/
def ibcAppVersion : String := "bandchain-1"

/-- `DEFAULT_MAX_UPDATE_INTERVAL`. -/
def defaultMaxUpdateInterval : Nat := 120

/-! ### Handlers -/

/-- `instantiate`. -/
def instantiate (info : MessageInfo) (msg : InstantiateMsg) : Storage where
  config :=
    { clientId := msg.clientId
      oracleScriptId := msg.oracleScriptId
      askCount := msg.askCount
      minCount := msg.minCount
      feeLimit := msg.feeLimit
      prepareGas := msg.prepareGas
      executeGas := msg.executeGas
      multiplier := msg.multiplier
      symbols := msg.symbols
      maxUpdateInterval := msg.maxUpdateInterval.getD defaultMaxUpdateInterval
      owner := msg.owner.getD info.sender }
  -- until the first answer there is no rate, not even a default
  rates := ∅
  error := none
  endpoint := none
  lastUpdate := none

/-- The packet of a request. -/
def Config.request (c : Config) : OracleRequestPacketData where
  clientId := c.clientId
  oracleScriptId := c.oracleScriptId
  calldata := ⟨c.symbols, c.multiplier⟩
  askCount := c.askCount
  minCount := c.minCount
  feeLimit := c.feeLimit
  prepareGas := c.prepareGas
  executeGas := c.executeGas

/-- `try_request`. -/
def tryRequest (s : Storage) (env : Env) : Except ContractError (Storage × List SendPacket) := do
  let endpoint ← okOr s.endpoint (.std .notFound)
  -- before the first request the time since the epoch has passed
  let passed ← (Uint.sub env.time (s.lastUpdate.getD 0)).mapError .std
  rejectIf (passed < s.config.maxUpdateInterval) .tooEarly
  .ok ({ s with lastUpdate := some env.time },
    -- the packet times out after a minute
    [⟨endpoint.channelId, s.config.request, env.time + 60⟩])

/-- The fields of a message that are set. The new `max_update_interval` is not read. -/
def Config.update (c : Config) (newConfig : UpdateConfigMsg) : Config :=
  { c with
    clientId := newConfig.clientId.getD c.clientId
    oracleScriptId := newConfig.oracleScriptId.getD c.oracleScriptId
    askCount := newConfig.askCount.getD c.askCount
    minCount := newConfig.minCount.getD c.minCount
    feeLimit := newConfig.feeLimit.getD c.feeLimit
    prepareGas := newConfig.prepareGas.getD c.prepareGas
    executeGas := newConfig.executeGas.getD c.executeGas
    multiplier := newConfig.multiplier.getD c.multiplier
    symbols := newConfig.symbols.getD c.symbols }

/-- `try_update_config`. -/
def tryUpdateConfig (s : Storage) (info : MessageInfo) (newConfig : UpdateConfigMsg) :
    Except ContractError Storage := do
  rejectIf (info.sender ≠ s.config.owner) .unauthorized
  .ok { s with config := s.config.update newConfig }

/-- `try_update_owner`. -/
def tryUpdateOwner (s : Storage) (info : MessageInfo) (newOwner : Addr) :
    Except ContractError Storage := do
  rejectIf (info.sender ≠ s.config.owner) .unauthorized
  .ok { s with config := { s.config with owner := newOwner } }

/-- `execute`. -/
def execute (s : Storage) (env : Env) (info : MessageInfo) (msg : ExecuteMsg) :
    Except ContractError (Storage × List SendPacket) :=
  match msg with
  | .request => tryRequest s env
  | .updateConfig newConfig => do
      let s ← tryUpdateConfig s info newConfig
      .ok (s, [])
  | .updateOwner newOwner => do
      let s ← tryUpdateOwner s info newOwner
      .ok (s, [])

/-- `enforce_order_and_version`. -/
def enforceOrderAndVersion (channel : IbcChannel) (counterpartyVersion : Option String) :
    Except ContractError Unit := do
  rejectIf (channel.version ≠ ibcAppVersion) (.invalidIbcVersion channel.version)
  -- the version of the other side is known only to some of the handshake's steps
  match counterpartyVersion with
  | some version => rejectIf (version ≠ ibcAppVersion) (.invalidIbcVersion version)
  | none => .ok ()
  rejectIf (channel.order ≠ .unordered) .onlyUnorderedChannel

/-- `ibc_channel_open`: the version that is agreed on. -/
def ibcChannelOpen (msg : IbcChannelOpenMsg) : Except ContractError String := do
  enforceOrderAndVersion msg.channel msg.counterpartyVersion
  .ok msg.channel.version

/-- `ibc_channel_connect`: the channel takes the place of the one before it. -/
def ibcChannelConnect (s : Storage) (msg : IbcChannelConnectMsg) :
    Except ContractError Storage := do
  enforceOrderAndVersion msg.channel msg.counterpartyVersion
  .ok { s with endpoint := some msg.channel.endpoint }

/-- The loop of `do_ibc_packet_receive`. A rate for which there is no symbol is an index out of
bounds. -/
def saveRates (time requestId : Nat) :
    Map String PriceFeedRate → List String → List Nat → Except StdError (Map String PriceFeedRate)
  -- symbols without a rate keep the rate they had
  | m, _, [] => .ok m
  | m, symbol :: symbols, rate :: rates =>
      saveRates time requestId (m.save symbol ⟨rate, time, requestId⟩) symbols rates
  | _, [], _ :: _ => .error .aborted

/-- `do_ibc_packet_receive`: what it returns, and the storage as far as it was written. -/
def doIbcPacketReceive (c : Codec) (s : Storage) (env : Env) (packet : IbcPacket) :
    Except StdError (Except ContractError Unit × Storage) :=
  match c.response packet.data with
  | .error e => .ok (.error (.std e), s)
  | .ok resp =>
      if resp.resolveStatus ≠ .success then
        -- kept although the acknowledgement is an error
        .ok (.error .requestNotSuccess, { s with error := some resp.result })
      else
        match c.fromBase64 resp.result with
        | .error e => .ok (.error (.std e), s)
        | .ok binRes =>
            match c.rates binRes with
            | none => .ok (.error .requestNotSuccess, s)
            | some rates => do
                let stored ← saveRates env.time resp.requestId s.rates s.config.symbols rates
                .ok (.ok (), { s with rates := stored })

/-- `ibc_packet_receive`: an error becomes an acknowledgement. -/
def ibcPacketReceive (c : Codec) (s : Storage) (env : Env) (packet : IbcPacket) :
    Except StdError (Ack × Storage) := do
  let (result, s) ← doIbcPacketReceive c s env packet
  match result with
  | .ok _ => .ok (.success, s)
  | .error e => .ok (.fail e, s)

/-- `query_rate`: the rates in the order of their symbols. -/
def queryRate (s : Storage) : Except StdError (List PriceFeedRate) :=
  (s.config.symbols.insertionSort (· ≤ ·)).mapM fun symbol => s.rates.load symbol

end NeutronTge.PriceFeed
