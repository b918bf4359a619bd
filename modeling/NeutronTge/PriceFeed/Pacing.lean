import NeutronTge.CosmWasm.Pacing
import NeutronTge.PriceFeed.Authenticity

/-!
# NeutronTge.PriceFeed.Pacing

How often the oracle is asked. Anybody may ask, and every request costs fees; between two
requests `max_update_interval` seconds pass, and nothing the owner sends shortens the interval.
Whether a request goes out is told by the trace and the clock alone (`requests_paced`).
-/

namespace NeutronTge.PriceFeed

open CosmWasm

variable {c : Codec} {w w' w₀ : World} {interval : Nat}

/-- When a request went out. It times out 60 seconds later. -/
def Event.sentAt? : Event → Option Nat
  | .sent packet => some (packet.timeout - 60)
  | _ => none

/-- When the requests of a trace went out. -/
def requestTimes (trace : List Event) : List Nat := trace.filterMap Event.sentAt?

/-- Until then no further request goes out. -/
def nextRequest (interval : Nat) (trace : List Event) : Nat :=
  (requestTimes trace).getLast?.getD 0 + interval

theorem requestTimes_append (trace events : List Event) :
    requestTimes (trace ++ events) = requestTimes trace ++ requestTimes events :=
  List.filterMap_append

/-- What the contract remembers of its requests. -/
structure Paced (interval : Nat) (w : World) : Prop where
  config : w.storage.config.maxUpdateInterval = interval
  lastUpdate : w.storage.lastUpdate = (requestTimes w.trace).getLast?
  spaced : Spaced interval (requestTimes w.trace)
  past : (requestTimes w.trace).getLast?.getD 0 ≤ w.env.time

theorem Paced.started (h : Started w) : Paced w.storage.config.maxUpdateInterval w := by
  obtain ⟨⟨info, msg, hstorage⟩, -, htrace⟩ := h
  refine ⟨rfl, ?_, ?_, ?_⟩
  · rw [hstorage, htrace]
    rfl
  · rw [htrace]
    exact Spaced.nil
  · rw [htrace]
    exact Nat.zero_le _

theorem tryRequest_ok {s s' : Storage} {env : Env} {packets : List SendPacket}
    (h : tryRequest s env = .ok (s', packets)) :
    s.lastUpdate.getD 0 + s.config.maxUpdateInterval ≤ env.time := by
  simp only [tryRequest, bind_eq_ok, okOr_eq_ok, rejectIf_eq_ok, exists_const, mapError_eq_ok,
    Uint.sub_eq_ok, Except.ok.injEq, Prod.mk.injEq] at h
  obtain ⟨endpoint, -, passed, ⟨hle, rfl⟩, hpassed, -⟩ := h
  omega

/-- A packet of the oracle changes the rates and the error only. -/
theorem Handles.frame {s s' : Storage} {env : Env} {packet : IbcPacket} {ack : Ack}
    (h : Handles c s s' env packet ack) :
    s'.config = s.config ∧ s'.lastUpdate = s.lastUpdate := by
  cases h with
  | stored resp rates stored hreads hsave hstorage =>
      subst hstorage
      exact ⟨rfl, rfl⟩
  | failed e error hno hstorage =>
      subst hstorage
      exact ⟨rfl, rfl⟩

/-- A step that sends nothing and leaves the interval alone. -/
theorem Paced.quiet (h : Paced interval w)
    (hconfig : w'.storage.config.maxUpdateInterval = w.storage.config.maxUpdateInterval)
    (hlast : w'.storage.lastUpdate = w.storage.lastUpdate)
    (htimes : requestTimes w'.trace = requestTimes w.trace)
    (htime : w.env.time ≤ w'.env.time) : Paced interval w' where
  config := hconfig.trans h.config
  lastUpdate := by rw [hlast, htimes, h.lastUpdate]
  spaced := htimes ▸ h.spaced
  past := htimes ▸ h.past.trans htime

/-- A request goes out only when the interval is over. -/
theorem Paced.request {info : MessageInfo} {endpoint : IbcEndpoint} (h : Paced interval w)
    (hexec : w.exec c (.execute info .request) = .ok w')
    (hworld : w' = { w with
      storage := { w.storage with lastUpdate := some w.env.time }
      trace := w.trace ++
        [.sent ⟨endpoint.channelId, w.storage.config.request, w.env.time + 60⟩] }) :
    Paced interval w' := by
  simp only [World.exec, execute, bind_eq_ok] at hexec
  obtain ⟨⟨s, packets⟩, hrequest, -⟩ := hexec
  have hdue := tryRequest_ok hrequest
  rw [h.lastUpdate, h.config] at hdue
  have htimes : requestTimes w'.trace = requestTimes w.trace ++ [w.env.time] := by
    rw [hworld, requestTimes_append]
    simp [requestTimes, Event.sentAt?]
  refine ⟨?_, ?_, ?_, ?_⟩
  · rw [hworld]
    exact h.config
  · rw [htimes, List.getLast?_concat, hworld]
  · rw [htimes]
    exact h.spaced.snoc hdue
  · rw [htimes, List.getLast?_concat, hworld]
    exact le_refl _

theorem Paced.exec {a : Action} (h : Paced interval w) (hexec : w.exec c a = .ok w') :
    Paced interval w' := by
  obtain ⟨events, heffect, -⟩ := exec_effect hexec
  cases heffect with
  | advance seconds blocks hworld =>
      subst hworld
      exact h.quiet rfl rfl rfl (Nat.le_add_right _ _)
  | opens msg opened hworld =>
      subst hworld
      exact h.quiet rfl rfl rfl (le_refl _)
  | connects msg hversion horder hworld =>
      subst hworld
      refine h.quiet rfl rfl ?_ (le_refl _)
      rw [requestTimes_append]
      exact List.append_nil _
  | requests info endpoint hendpoint hworld => exact h.request hexec hworld
  | configures info newConfig hworld =>
      -- the new interval of the message is not read
      subst hworld
      exact h.quiet rfl rfl rfl (le_refl _)
  | hands info newOwner hworld =>
      subst hworld
      exact h.quiet rfl rfl rfl (le_refl _)
  | receives packet ack s channel hchannel hcarries hhandles hworld =>
      subst hworld
      obtain ⟨hconfig, hlast⟩ := hhandles.frame
      refine h.quiet (congrArg Config.maxUpdateInterval hconfig) hlast ?_ (le_refl _)
      rw [requestTimes_append]
      exact List.append_nil _

theorem Paced.run (hstart : Started w₀) (as : List Action) :
    Paced w₀.storage.config.maxUpdateInterval (run (World.exec c) w₀ as) :=
  run_invariant (Paced w₀.storage.config.maxUpdateInterval)
    (fun _ _ _ ht hexec => Paced.exec ht hexec) (.started hstart)

/-! ### What a request gets -/

/-- The answer to a request, as the trace and the clock tell it. -/
inductive Asked (c : Codec) (interval : Nat) (w : World) (info : MessageInfo) : Prop
  | nobody (hchannel : channels w.trace = [])
      (hexec : w.exec c (.execute info .request) = .error (.std .notFound))
  | early (hchannel : channels w.trace ≠ []) (htime : w.env.time < nextRequest interval w.trace)
      (hexec : w.exec c (.execute info .request) = .error .tooEarly)
  | sent (channel : IbcChannel) (hchannel : (channels w.trace).getLast? = some channel)
      (htime : nextRequest interval w.trace ≤ w.env.time)
      (hexec : w.exec c (.execute info .request) = .ok { w with
        storage := { w.storage with lastUpdate := some w.env.time }
        trace := w.trace ++ [.sent
          ⟨channel.endpoint.channelId, w.storage.config.request, w.env.time + 60⟩] })

theorem Paced.asked (h : Paced interval w) (hrecorded : Recorded c w) (info : MessageInfo) :
    Asked c interval w info := by
  have hendpoint := hrecorded.endpoint
  cases hchannel : (channels w.trace).getLast? with
  | none =>
      rw [hchannel, Option.map_none] at hendpoint
      refine .nobody (List.getLast?_eq_none_iff.mp hchannel) ?_
      simp only [World.exec, execute, tryRequest, hendpoint]
      rfl
  | some channel =>
      rw [hchannel, Option.map_some] at hendpoint
      have hsub : Uint.sub w.env.time (w.storage.lastUpdate.getD 0) =
          .ok (w.env.time - w.storage.lastUpdate.getD 0) := by
        rw [Uint.sub_eq_ok, h.lastUpdate]
        exact ⟨h.past, rfl⟩
      have hpast := h.past
      rw [← h.lastUpdate] at hpast
      by_cases htime : w.env.time < nextRequest interval w.trace
      · refine .early (fun hnil => ?_) htime ?_
        · rw [hnil] at hchannel
          cases hchannel
        · rw [nextRequest, ← h.lastUpdate, ← h.config] at htime
          have hearly : w.env.time - w.storage.lastUpdate.getD 0 <
              w.storage.config.maxUpdateInterval := by omega
          simp only [World.exec, execute, tryRequest, hendpoint, hsub]
          simp [okOr, Except.mapError, rejectIf, hearly, bind, Except.bind]
      · refine .sent channel hchannel (not_lt.mp htime) ?_
        rw [nextRequest, ← h.lastUpdate, ← h.config] at htime
        have hdue : ¬w.env.time - w.storage.lastUpdate.getD 0 <
            w.storage.config.maxUpdateInterval := by omega
        simp only [World.exec, execute, tryRequest, hendpoint, hsub]
        simp [okOr, Except.mapError, rejectIf, hdue, bind, Except.bind]

/-- After the interval anybody's request goes out, on whichever channel connected last. -/
theorem request_after_interval (h : Paced interval w) (hrecorded : Recorded c w)
    (hchannel : channels w.trace ≠ []) (info : MessageInfo) {seconds : Nat} (blocks : Nat)
    (hseconds : interval ≤ seconds) :
    requestTimes
        (run (World.exec c) w [.advance seconds blocks, .execute info .request]).trace =
      requestTimes w.trace ++ [w.env.time + seconds] := by
  have hpast := h.past
  set later : World := { w with env :=
    { w.env with time := w.env.time + seconds, height := w.env.height + blocks } } with hlater
  have hadvance : w.exec c (.advance seconds blocks) = .ok later := rfl
  have hasked := (h.exec hadvance).asked (hrecorded.exec hadvance) info
  rw [run_cons, run_cons, run_nil, commit_of_ok _ hadvance]
  cases hasked with
  | nobody hnone hexec => exact absurd hnone hchannel
  | early hsome htime hexec =>
      have hlate : w.env.time + seconds < nextRequest interval w.trace := htime
      rw [nextRequest] at hlate
      omega
  | sent channel hlast htime hexec =>
      rw [commit_of_ok _ hexec, requestTimes_append]
      simp [requestTimes, Event.sentAt?, hlater]

/-- Requests go out at least the interval of `instantiate` apart, so any `d` seconds contain at
most `d / interval + 1` of them. The next one goes out for anybody who asks when the interval is
over and some channel has connected. -/
theorem requests_paced (hstart : Started w₀) (as : List Action) :
    Spaced w₀.storage.config.maxUpdateInterval
        (requestTimes (run (World.exec c) w₀ as).trace) ∧
      (0 < w₀.storage.config.maxUpdateInterval → ∀ start d,
        ((requestTimes (run (World.exec c) w₀ as).trace).filter fun t =>
          start ≤ t ∧ t ≤ start + d).length ≤ d / w₀.storage.config.maxUpdateInterval + 1) ∧
      (∀ info, Asked c w₀.storage.config.maxUpdateInterval (run (World.exec c) w₀ as) info) ∧
      ∀ info seconds blocks, w₀.storage.config.maxUpdateInterval ≤ seconds →
        channels (run (World.exec c) w₀ as).trace ≠ [] →
        requestTimes (run (World.exec c) w₀
            (as ++ [.advance seconds blocks, .execute info .request])).trace =
          requestTimes (run (World.exec c) w₀ as).trace ++
            [(run (World.exec c) w₀ as).env.time + seconds] := by
  have hpaced : Paced _ (run (World.exec c) w₀ as) := .run hstart as
  have hrecorded : Recorded c (run (World.exec c) w₀ as) := .run hstart as
  refine ⟨hpaced.spaced, fun hpos => hpaced.spaced.window hpos, hpaced.asked hrecorded, ?_⟩
  intro info seconds blocks hseconds hchannel
  rw [run_append]
  exact request_after_interval hpaced hrecorded hchannel info blocks hseconds

/-- Bob asks twice, ten seconds apart. -/
theorem requests_paced_sample :
    requestTimes (run (World.exec sampleCodec) sampleStart
        (sampleHandshake "channel-0" "connection-0" ++ [bobRequests] ++
          [.advance 10 2, bobRequests])).trace = [50, 60] :=
  ((requests_paced sampleStart_started
    (sampleHandshake "channel-0" "connection-0" ++ [bobRequests])).2.2.2 ⟨"bob", []⟩ 10 2
      (by decide) (by decide +kernel)).trans (by decide +kernel)

end NeutronTge.PriceFeed
