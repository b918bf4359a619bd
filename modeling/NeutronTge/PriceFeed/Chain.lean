import NeutronTge.CosmWasm.Run
import NeutronTge.CosmWasm.Trace
import NeutronTge.PriceFeed.Packets

/-!
# NeutronTge.PriceFeed.Chain

The price feed on its chain. Anybody may open a channel to it: the chain gives the channel an
identifier of its own and asks the contract twice, when the handshake begins and when it is
done. From then on packets of the other end are delivered, in any order. The trace lists the
channels, the requests and the packets.
-/

namespace NeutronTge.PriceFeed

open CosmWasm

/-- What the trace of a run records. -/
inductive Event
  | connected (channel : IbcChannel)
  | sent (packet : SendPacket)
  /-- A packet that got an acknowledgement, with the symbols and the time of its arrival. -/
  | received (packet : IbcPacket) (symbols : List String) (time : Nat)
  deriving DecidableEq

/-- The channel that an event connects. -/
def Event.channel? : Event → Option IbcChannel
  | .connected channel => some channel
  | _ => none

/-- The channels of a trace. -/
def channels (trace : List Event) : List IbcChannel := trace.filterMap Event.channel?

/-- The price feed, its channels and the time. -/
structure World where
  storage : Storage
  env : Env
  /-- The handshakes that have begun. -/
  opened : List IbcChannel
  trace : List Event

/-- What happens in a run. -/
inductive Action
  /-- Time passes. -/
  | advance (seconds blocks : Nat)
  | channelOpen (msg : IbcChannelOpenMsg)
  | channelConnect (msg : IbcChannelConnectMsg)
  | execute (info : MessageInfo) (msg : ExecuteMsg)
  | receive (packet : IbcPacket)

/-- The ends of a channel are those of a packet. -/
def IbcChannel.carries (channel : IbcChannel) (packet : IbcPacket) : Bool :=
  channel.endpoint = packet.dest ∧ channel.counterpartyEndpoint = packet.src

/-- One action of a run. A failed one, also one that panics, leaves nothing behind. -/
def World.exec (c : Codec) (w : World) : Action → Except ContractError World
  | .advance seconds blocks =>
      .ok { w with env :=
        { w.env with time := w.env.time + seconds, height := w.env.height + blocks } }
  | .channelOpen msg => do
      -- an endpoint is opened once
      rejectIf ((w.opened.any fun channel => channel.endpoint = msg.channel.endpoint) = true)
        (.std .aborted)
      let version ← ibcChannelOpen msg
      .ok { w with opened := w.opened ++ [{ msg.channel with version := version }] }
  | .channelConnect msg => do
      -- and connected once, after it was opened, over the same connection
      rejectIf ((w.opened.any fun channel => channel.endpoint = msg.channel.endpoint ∧
        channel.connectionId = msg.channel.connectionId) = false) (.std .aborted)
      rejectIf (((channels w.trace).any fun channel =>
        channel.endpoint = msg.channel.endpoint) = true) (.std .aborted)
      let s ← ibcChannelConnect w.storage msg
      .ok { w with storage := s, trace := w.trace ++ [.connected msg.channel] }
  | .execute info msg => do
      let (s, packets) ← execute w.storage w.env info msg
      .ok { w with storage := s, trace := w.trace ++ packets.map .sent }
  | .receive packet => do
      -- a packet comes only over a channel that is connected
      rejectIf (((channels w.trace).any fun channel => channel.carries packet) = false)
        (.std .aborted)
      let (_, s) ← (ibcPacketReceive c w.storage w.env packet).mapError .std
      .ok { w with
        storage := s
        trace := w.trace ++ [.received packet w.storage.config.symbols w.env.time] }

/-- The contract right after `instantiate`. -/
structure Started (w : World) : Prop where
  storage : ∃ info msg, w.storage = instantiate info msg
  opened : w.opened = []
  trace : w.trace = []

/-! ### What an action does -/

/-- The rate of a symbol that an event stores. -/
def Event.rate (c : Codec) (symbol : String) : Event → Option PriceFeedRate
  | .received packet symbols time =>
      (c.read packet.data).bind fun r =>
        (rateOf symbol symbols r.2).map fun rate => ⟨rate, time, r.1.requestId⟩
  | _ => none

/-- What each action does. -/
inductive Effect (c : Codec) (w w' : World) : Action → List Event → Prop
  | advance (seconds blocks : Nat)
      (hworld : w' = { w with env :=
        { w.env with time := w.env.time + seconds, height := w.env.height + blocks } }) :
      Effect c w w' (.advance seconds blocks) []
  | opens (msg : IbcChannelOpenMsg) (opened : List IbcChannel)
      (hworld : w' = { w with opened := opened }) : Effect c w w' (.channelOpen msg) []
  | connects (msg : IbcChannelConnectMsg) (hversion : msg.channel.version = ibcAppVersion)
      (horder : msg.channel.order = .unordered)
      (hworld : w' = { w with
        storage := { w.storage with endpoint := some msg.channel.endpoint }
        trace := w.trace ++ [.connected msg.channel] }) :
      Effect c w w' (.channelConnect msg) [.connected msg.channel]
  | requests (info : MessageInfo) (endpoint : IbcEndpoint)
      (hendpoint : w.storage.endpoint = some endpoint)
      (hworld : w' = { w with
        storage := { w.storage with lastUpdate := some w.env.time }
        trace := w.trace ++
          [.sent ⟨endpoint.channelId, w.storage.config.request, w.env.time + 60⟩] }) :
      Effect c w w' (.execute info .request)
        [.sent ⟨endpoint.channelId, w.storage.config.request, w.env.time + 60⟩]
  | configures (info : MessageInfo) (newConfig : UpdateConfigMsg)
      (hworld : w' = { w with storage := { w.storage with
        config := w.storage.config.update newConfig } }) :
      Effect c w w' (.execute info (.updateConfig newConfig)) []
  | hands (info : MessageInfo) (newOwner : Addr)
      (hworld : w' = { w with storage := { w.storage with
        config := { w.storage.config with owner := newOwner } } }) :
      Effect c w w' (.execute info (.updateOwner newOwner)) []
  | receives (packet : IbcPacket) (ack : Ack) (s : Storage) (channel : IbcChannel)
      (hchannel : channel ∈ channels w.trace) (hcarries : channel.carries packet = true)
      (hhandles : Handles c w.storage s w.env packet ack)
      (hworld : w' = { w with
        storage := s
        trace := w.trace ++ [.received packet w.storage.config.symbols w.env.time] }) :
      Effect c w w' (.receive packet) [.received packet w.storage.config.symbols w.env.time]

variable {c : Codec} {w w' : World}

theorem enforceOrderAndVersion_ok {channel : IbcChannel} {version : Option String} {u : Unit}
    (h : enforceOrderAndVersion channel version = .ok u) :
    channel.version = ibcAppVersion ∧ channel.order = .unordered := by
  unfold enforceOrderAndVersion at h
  rw [bind_eq_ok] at h
  obtain ⟨_, hversion, h⟩ := h
  rw [rejectIf_eq_ok, not_not] at hversion
  refine ⟨hversion, ?_⟩
  cases version with
  | none => simpa [bind_eq_ok] using h
  | some v =>
      simp only [bind_eq_ok, rejectIf_eq_ok, exists_const, not_not] at h
      exact h.2

theorem exec_effect {a : Action} (h : w.exec c a = .ok w') :
    ∃ events, Effect c w w' a events ∧ w'.trace = w.trace ++ events := by
  cases a with
  | advance seconds blocks =>
      obtain rfl := Except.ok.inj h
      exact ⟨[], Effect.advance seconds blocks rfl, (List.append_nil _).symm⟩
  | channelOpen msg =>
      simp only [World.exec, bind_eq_ok, rejectIf_eq_ok, exists_const, Except.ok.injEq] at h
      obtain ⟨-, version, -, rfl⟩ := h
      exact ⟨[], Effect.opens msg _ rfl, (List.append_nil _).symm⟩
  | channelConnect msg =>
      simp only [World.exec, ibcChannelConnect, bind_eq_ok, rejectIf_eq_ok, exists_const,
        Except.ok.injEq] at h
      obtain ⟨-, -, _, ⟨_, henforce, rfl⟩, rfl⟩ := h
      obtain ⟨hversion, horder⟩ := enforceOrderAndVersion_ok henforce
      exact ⟨_, Effect.connects msg hversion horder rfl, rfl⟩
  | execute info msg =>
      simp only [World.exec, bind_eq_ok, Except.ok.injEq] at h
      obtain ⟨⟨s, packets⟩, hexec, rfl⟩ := h
      cases msg with
      | request =>
          simp only [execute, tryRequest, bind_eq_ok, okOr_eq_ok, rejectIf_eq_ok, exists_const,
            Except.ok.injEq, Prod.mk.injEq] at hexec
          obtain ⟨endpoint, hendpoint, _, -, -, rfl, rfl⟩ := hexec
          exact ⟨_, Effect.requests info endpoint hendpoint rfl, rfl⟩
      | updateConfig newConfig =>
          simp only [execute, tryUpdateConfig, bind_eq_ok, rejectIf_eq_ok, exists_const,
            Except.ok.injEq, Prod.mk.injEq] at hexec
          obtain ⟨_, ⟨-, rfl⟩, rfl, rfl⟩ := hexec
          exact ⟨[], Effect.configures info newConfig (by simp), rfl⟩
      | updateOwner newOwner =>
          simp only [execute, tryUpdateOwner, bind_eq_ok, rejectIf_eq_ok, exists_const,
            Except.ok.injEq, Prod.mk.injEq] at hexec
          obtain ⟨_, ⟨-, rfl⟩, rfl, rfl⟩ := hexec
          exact ⟨[], Effect.hands info newOwner (by simp), rfl⟩
  | receive packet =>
      simp only [World.exec, bind_eq_ok, rejectIf_eq_ok, exists_const, mapError_eq_ok,
        Except.ok.injEq, Bool.not_eq_false] at h
      obtain ⟨hopen, ⟨ack, s⟩, hreceive, rfl⟩ := h
      obtain ⟨channel, hchannel, hcarries⟩ := List.any_eq_true.mp hopen
      exact ⟨_, Effect.receives packet ack s channel hchannel hcarries
        (ibcPacketReceive_ok hreceive) rfl, rfl⟩

/-! ### The time of packets -/

/-- When a packet arrived. -/
def Event.time? : Event → Option Nat
  | .received _ _ time => some time
  | _ => none

/-- The times of the packets of a trace. -/
def times (trace : List Event) : List Nat := trace.filterMap Event.time?

/-- Packets arrive one after the other, up to now. -/
structure Timely (w : World) : Prop where
  sorted : (times w.trace).Pairwise (· ≤ ·)
  past : ∀ t ∈ times w.trace, t ≤ w.env.time

theorem Timely.started (h : Started w) : Timely w := by
  constructor
  · rw [h.trace]
    exact List.Pairwise.nil
  · rw [h.trace]
    intro t ht
    cases ht

theorem Timely.exec {a : Action} (h : Timely w) (hexec : w.exec c a = .ok w') : Timely w' := by
  obtain ⟨events, heffect, -⟩ := exec_effect hexec
  cases heffect with
  | advance seconds blocks hworld =>
      subst hworld
      exact ⟨h.sorted, fun t ht => (h.past t ht).trans (Nat.le_add_right _ _)⟩
  | opens msg opened hworld =>
      subst hworld
      exact ⟨h.sorted, h.past⟩
  | connects msg hversion horder hworld =>
      subst hworld
      have htimes : times (w.trace ++ [.connected msg.channel]) = times w.trace := by
        simp [times, Event.time?]
      exact ⟨htimes ▸ h.sorted, htimes ▸ h.past⟩
  | requests info endpoint hendpoint hworld =>
      subst hworld
      have htimes : times (w.trace ++
          [.sent ⟨endpoint.channelId, w.storage.config.request, w.env.time + 60⟩]) =
          times w.trace := by
        simp [times, Event.time?]
      exact ⟨htimes ▸ h.sorted, htimes ▸ h.past⟩
  | configures info newConfig hworld =>
      subst hworld
      exact ⟨h.sorted, h.past⟩
  | hands info newOwner hworld =>
      subst hworld
      exact ⟨h.sorted, h.past⟩
  | receives packet ack s channel hchannel hcarries hhandles hworld =>
      subst hworld
      have htimes : times (w.trace ++
          [.received packet w.storage.config.symbols w.env.time]) =
          times w.trace ++ [w.env.time] := by
        simp [times, Event.time?]
      constructor
      · -- the new packet arrives now, after all others
        rw [htimes, List.pairwise_append]
        refine ⟨h.sorted, List.pairwise_singleton _ _, fun t ht t' ht' => ?_⟩
        rw [List.mem_singleton.mp ht']
        exact h.past t ht
      · rw [htimes]
        intro t ht
        rcases List.mem_append.mp ht with ht | ht
        · exact h.past t ht
        · exact (List.mem_singleton.mp ht).le

/-! ### A small chain -/

/-- The price feed right after `instantiate`. -/
def sampleStart : World where
  storage := instantiate ⟨"owner", []⟩ sampleInstantiateMsg
  env := ⟨50, 1, "feed"⟩
  opened := []
  trace := []

/-- A channel to the port of an oracle on the other end of a connection. -/
def sampleChannel (channelId connectionId : String) : IbcChannel :=
  ⟨⟨"wasm.feed", channelId⟩, ⟨"oracle", "channel-9"⟩, .unordered, ibcAppVersion, connectionId⟩

/-- The handshake of a channel that the other end began. -/
def sampleHandshake (channelId connectionId : String) : List Action :=
  [.channelOpen (.openTry (sampleChannel channelId connectionId) ibcAppVersion),
    .channelConnect (.openConfirm (sampleChannel channelId connectionId))]

/-- Anybody may ask for rates. -/
def bobRequests : Action := .execute ⟨"bob", []⟩ .request

theorem sampleStart_started : Started sampleStart := ⟨⟨_, _, rfl⟩, rfl, rfl⟩

end NeutronTge.PriceFeed
