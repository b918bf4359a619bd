import NeutronTge.PriceFeed.Chain

/-!
# NeutronTge.PriceFeed.Authenticity

Where the rates come from. The trace tells the whole storage (`Recorded`): requests go to the
channel that connected last, and a symbol has the rate of the last packet with one for it,
whichever open channel it came in on. Nothing looks at the chain behind a channel, so the
rates are those of the oracle only if no other chain connects (`rates_provenance`).
-/

namespace NeutronTge.PriceFeed

open CosmWasm

variable {c : Codec} {w w' : World}

/-! ### What the trace tells -/

/-- What an event needs from those before it. -/
def Fits (before : List Event) : Event → Prop
  | .connected channel => channel.version = ibcAppVersion ∧ channel.order = .unordered
  | .sent packet => ∃ channel, (channels before).getLast? = some channel ∧
      packet.channelId = channel.endpoint.channelId
  | .received packet _ _ => ∃ channel ∈ channels before, channel.carries packet = true

/-- The channels passed the checks of the contract. -/
theorem accepted_of_fits {trace : List Event} (h : Throughout Fits trace) {channel : IbcChannel}
    (hmem : channel ∈ channels trace) :
    channel.version = ibcAppVersion ∧ channel.order = .unordered := by
  obtain ⟨e, he, hchannel⟩ := List.mem_filterMap.mp hmem
  obtain ⟨before, after, -, hfits⟩ := h.mem he
  cases e with
  | connected channel' =>
      obtain rfl := Option.some.inj hchannel
      exact hfits
  | sent packet => cases hchannel
  | received packet symbols time => cases hchannel

theorem channels_snoc (trace : List Event) (e : Event) :
    channels (trace ++ [e]) = channels trace ++ e.channel?.toList := by
  unfold channels
  rw [List.filterMap_append]
  cases he : e.channel? <;> simp [he]

/-- The storage, as the trace tells it. -/
structure Recorded (c : Codec) (w : World) : Prop where
  endpoint : w.storage.endpoint = (channels w.trace).getLast?.map IbcChannel.endpoint
  rates : ∀ symbol, w.storage.rates.mayLoad symbol =
    (w.trace.filterMap (Event.rate c symbol)).getLast?
  fits : Throughout Fits w.trace

theorem Recorded.started (h : Started w) : Recorded c w := by
  obtain ⟨⟨info, msg, hstorage⟩, -, htrace⟩ := h
  constructor
  · rw [hstorage, htrace]
    rfl
  · intro symbol
    rw [hstorage, htrace]
    rfl
  · rw [htrace]
    exact Throughout.nil

/-- The rates that a packet stores are those of its event. -/
theorem Handles.rates {s : Storage} {packet : IbcPacket} {ack : Ack}
    (h : Handles c w.storage s w.env packet ack) (symbol : String) :
    s.rates.mayLoad symbol =
      (Event.rate c symbol (.received packet w.storage.config.symbols w.env.time)).or
        (w.storage.rates.mayLoad symbol) := by
  cases h with
  | stored resp rates stored hreads hsave hstorage =>
      simp only [Event.rate, Codec.read_of_reads hreads, hstorage]
      exact saveRates_eq_ok hsave symbol
  | failed e error hno hstorage =>
      simp only [Event.rate, Codec.read_eq_none.mpr hno, hstorage]
      rfl

theorem Handles.endpoint {s s' : Storage} {env : Env} {packet : IbcPacket} {ack : Ack}
    (h : Handles c s s' env packet ack) : s'.endpoint = s.endpoint := by
  cases h with
  | stored resp rates stored hreads hsave hstorage => rw [hstorage]
  | failed e error hno hstorage => rw [hstorage]

theorem Recorded.exec {a : Action} (h : Recorded c w) (hexec : w.exec c a = .ok w') :
    Recorded c w' := by
  obtain ⟨events, heffect, -⟩ := exec_effect hexec
  cases heffect with
  | advance seconds blocks hworld =>
      subst hworld
      exact ⟨h.endpoint, h.rates, h.fits⟩
  | opens msg opened hworld =>
      subst hworld
      exact ⟨h.endpoint, h.rates, h.fits⟩
  | connects msg hversion horder hworld =>
      subst hworld
      refine ⟨?_, fun symbol => ?_, h.fits.snoc ⟨hversion, horder⟩⟩
      · simp [channels_snoc, Event.channel?]
      · rw [getLast?_filterMap_snoc]
        exact h.rates symbol
  | requests info endpoint hendpoint hworld =>
      subst hworld
      refine ⟨?_, fun symbol => ?_, h.fits.snoc ?_⟩
      · simpa [channels_snoc, Event.channel?] using h.endpoint
      · rw [getLast?_filterMap_snoc]
        exact h.rates symbol
      · -- the endpoint is that of the channel that connected last
        have hlast := h.endpoint
        rw [hendpoint] at hlast
        obtain ⟨channel, hchannel, heq⟩ := Option.map_eq_some_iff.mp hlast.symm
        exact ⟨channel, hchannel, by rw [heq]⟩
  | configures info newConfig hworld =>
      subst hworld
      exact ⟨h.endpoint, h.rates, h.fits⟩
  | hands info newOwner hworld =>
      subst hworld
      exact ⟨h.endpoint, h.rates, h.fits⟩
  | receives packet ack s channel hchannel hcarries hhandles hworld =>
      subst hworld
      refine ⟨?_, fun symbol => ?_, h.fits.snoc ⟨channel, hchannel, hcarries⟩⟩
      · rw [channels_snoc]
        show s.endpoint = _
        rw [hhandles.endpoint, h.endpoint]
        simp [Event.channel?]
      · rw [getLast?_filterMap_snoc, ← h.rates symbol]
        exact hhandles.rates symbol

theorem Recorded.run {w₀ : World} (h : Started w₀) (as : List Action) :
    Recorded c (run (World.exec c) w₀ as) :=
  run_invariant (Recorded c) (fun _ _ _ ht hexec => Recorded.exec ht hexec) (.started h)

/-! ### Where the rates come from -/

/-- A symbol has the rate of a packet that came in after `before`, and no later packet has one
for it. -/
structure StoredBy (c : Codec) (trace before : List Event) (packet : IbcPacket)
    (symbol : String) (rate : PriceFeedRate) : Prop where
  split : ∃ symbols time after, trace = before ++ .received packet symbols time :: after ∧
    Event.rate c symbol (.received packet symbols time) = some rate ∧
    ∀ e ∈ after, Event.rate c symbol e = none

theorem Recorded.storedBy (h : Recorded c w) {symbol : String} {rate : PriceFeedRate}
    (hrate : w.storage.rates.mayLoad symbol = some rate) :
    ∃ before packet, StoredBy c w.trace before packet symbol rate ∧
      ∃ channel ∈ channels before, channel.carries packet = true := by
  rw [h.rates] at hrate
  obtain ⟨before, e, after, hsplit, he, hafter⟩ := getLast?_filterMap_eq_some hrate
  cases e with
  | connected channel => cases he
  | sent packet => cases he
  | received packet symbols time =>
      exact ⟨before, packet, ⟨symbols, time, after, hsplit, he, hafter⟩,
        h.fits before _ after hsplit⟩

/-! ### Only the intended chain -/

section Intended

variable (c : Codec) (intended : IbcChannel → Prop) (answers : SendPacket → IbcPacket → Prop)

/-- A request went out on the channel of a packet, and the packet is an answer to it. -/
def Answered (trace : List Event) (packet : IbcPacket) : Prop :=
  ∃ request, .sent request ∈ trace ∧ request.channelId = packet.dest.channelId ∧
    answers request packet

/-- No other chain connects, and a packet with rates answers a request. -/
def OnlyIntended (w : World) : Action → Prop
  | .channelConnect msg => intended msg.channel
  | .receive packet => c.read packet.data ≠ none → Answered answers w.trace packet
  | _ => True

/-- What an event is when only the intended chain takes part. -/
def Intended (before : List Event) : Event → Prop
  | .connected channel => intended channel
  | .sent _ => True
  | .received packet _ _ => c.read packet.data ≠ none → Answered answers before packet

/-- Every rate comes from a packet on a channel of the intended chain, in answer to a request
on that channel, and every request goes to such a channel. -/
structure Authentic (w : World) : Prop where
  rates : ∀ symbol rate, w.storage.rates.mayLoad symbol = some rate →
    ∃ before packet, StoredBy c w.trace before packet symbol rate ∧
      (∃ channel ∈ channels before, intended channel ∧ channel.carries packet = true) ∧
      Answered answers before packet
  requests : ∀ before request after, w.trace = before ++ .sent request :: after →
    ∃ channel ∈ channels before, intended channel ∧
      request.channelId = channel.endpoint.channelId

end Intended

section Run

variable {intended : IbcChannel → Prop} {answers : SendPacket → IbcPacket → Prop}

theorem intended_exec {a : Action} (h : Throughout (Intended c intended answers) w.trace)
    (ha : OnlyIntended c intended answers w a) (hexec : w.exec c a = .ok w') :
    Throughout (Intended c intended answers) w'.trace := by
  obtain ⟨events, heffect, htrace⟩ := exec_effect hexec
  rw [htrace]
  cases heffect with
  | connects msg hversion horder hworld => exact h.snoc ha
  | requests info endpoint hendpoint hworld => exact h.snoc trivial
  | receives packet ack s channel hchannel hcarries hhandles hworld => exact h.snoc ha
  | _ =>
      rw [List.append_nil]
      exact h

theorem intended_channel {trace : List Event} (h : Throughout (Intended c intended answers) trace)
    {channel : IbcChannel} (hmem : channel ∈ channels trace) : intended channel := by
  obtain ⟨e, he, hchannel⟩ := List.mem_filterMap.mp hmem
  obtain ⟨before, after, -, hintended⟩ := h.mem he
  cases e with
  | connected channel' =>
      obtain rfl := Option.some.inj hchannel
      exact hintended
  | sent packet => cases hchannel
  | received packet symbols time => cases hchannel

theorem Recorded.authentic (h : Recorded c w)
    (hintended : Throughout (Intended c intended answers) w.trace) :
    Authentic c intended answers w where
  rates symbol rate hrate := by
    obtain ⟨before, packet, hstored, channel, hchannel, hcarries⟩ := h.storedBy hrate
    obtain ⟨symbols, time, after, hsplit, hevent, -⟩ := hstored.split
    refine ⟨before, packet, hstored, ⟨channel, hchannel, ?_, hcarries⟩, ?_⟩
    · exact intended_channel (hintended.before hsplit) hchannel
    · refine hintended before _ after hsplit fun hnone => ?_
      rw [Event.rate, hnone] at hevent
      cases hevent
  requests before request after hsplit := by
    obtain ⟨channel, hchannel, heq⟩ := h.fits before _ after hsplit
    have hmem := List.mem_of_getLast? hchannel
    exact ⟨channel, hmem, intended_channel (hintended.before hsplit) hmem, heq⟩

/-- Each rate comes from the last packet that had one for its symbol, on some channel that
passed the checks of order and version, and each request goes to the channel that connected
last. When no other chain connects and the packets with rates are answers, the rates are
those of the intended chain. -/
theorem rates_provenance {w₀ : World} (hstart : Started w₀) (as : List Action) :
    (∀ symbol rate, (run (World.exec c) w₀ as).storage.rates.mayLoad symbol = some rate →
      ∃ before packet, StoredBy c (run (World.exec c) w₀ as).trace before packet symbol rate ∧
        ∃ channel ∈ channels before, channel.carries packet = true ∧
          channel.version = ibcAppVersion ∧ channel.order = .unordered) ∧
      (∀ before request after,
        (run (World.exec c) w₀ as).trace = before ++ .sent request :: after →
          ∃ channel, (channels before).getLast? = some channel ∧
            request.channelId = channel.endpoint.channelId) ∧
      ∀ intended answers, Along (World.exec c) (OnlyIntended c intended answers) w₀ as →
        Authentic c intended answers (run (World.exec c) w₀ as) := by
  have hrecorded : Recorded c (run (World.exec c) w₀ as) := .run hstart as
  refine ⟨fun symbol rate hrate => ?_, fun before request after hsplit => ?_,
    fun intended answers has => ?_⟩
  · obtain ⟨before, packet, hstored, channel, hchannel, hcarries⟩ := hrecorded.storedBy hrate
    obtain ⟨symbols, time, after, hsplit, -⟩ := hstored.split
    exact ⟨before, packet, hstored, channel, hchannel, hcarries,
      accepted_of_fits (hrecorded.fits.before hsplit) hchannel⟩
  · exact hrecorded.fits before _ after hsplit
  · refine hrecorded.authentic (run_invariant_along
      (fun t : World => Throughout (Intended c intended answers) t.trace)
      (fun _ _ _ ht ha hexec => intended_exec ht ha hexec) ?_ has)
    rw [hstart.trace]
    exact Throughout.nil

end Run

/-! ### An oracle and a second chain -/

/-- The oracle connects, is asked and answers. -/
def sampleAnswer : List Action :=
  sampleHandshake "channel-0" "connection-0" ++
    [bobRequests, .advance 5 1,
      .receive (samplePacket "channel-0" 1 "AAAAAgAAAAAAAAAHAAAAAAAAAAE=")]

/-- The rates are those of the oracle when nobody else connects. -/
theorem rates_provenance_sample :
    Authentic sampleCodec (fun channel => channel.connectionId = "connection-0")
      (fun _ packet => packet.sequence = 1)
      (run (World.exec sampleCodec) sampleStart sampleAnswer) :=
  (rates_provenance sampleStart_started sampleAnswer).2.2 _ _
    ⟨trivial, rfl, trivial, trivial, fun _ => ⟨_, List.mem_append_right _ (List.mem_singleton.mpr
      rfl), by decide, rfl⟩, trivial⟩

/-- A second chain connects on a connection of its own and sends rates. Nobody has asked for
rates yet, and they are stored; the first request goes to the second chain. -/
theorem second_chain_sets_rates :
    ∃ w, run (World.exec sampleCodec) sampleStart
        (sampleHandshake "channel-0" "connection-0" ++ sampleHandshake "channel-1" "connection-1" ++
          [.receive (samplePacket "channel-1" 1 "AAAAAgAAAAAAAAAHAAAAAAAAAAE="), bobRequests]) = w ∧
      w.trace = [.connected (sampleChannel "channel-0" "connection-0"),
        .connected (sampleChannel "channel-1" "connection-1"),
        .received (samplePacket "channel-1" 1 "AAAAAgAAAAAAAAAHAAAAAAAAAAE=") ["ATOM", "USDC"] 50,
        .sent ⟨"channel-1", w.storage.config.request, 110⟩] ∧
      w.storage.rates.mayLoad "ATOM" = some ⟨7, 50, 1⟩ := by
  refine ⟨_, rfl, ?_⟩
  decide +kernel

end NeutronTge.PriceFeed
