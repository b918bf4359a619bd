import NeutronTge.PriceFeed.Authenticity

/-!
# NeutronTge.PriceFeed.Matching

Responses and the requests they answer. The oracle answers a request with one rate for each
symbol of the request, but the price feed reads the rates against the symbols that are
configured when the response arrives, and stores them whatever was stored before. So the rates
are those of the latest request only if the responses arrive in order and the symbols are
still those of the request (`rates_matched`).
-/

namespace NeutronTge.PriceFeed

open CosmWasm

variable {c : Codec} {w w' : World}

/-! ### Requests and answers -/

/-- The request of an event. -/
def Event.request? : Event → Option SendPacket
  | .sent packet => some packet
  | _ => none

/-- The requests of a trace, in the order they were sent. -/
def requests (trace : List Event) : List SendPacket := trace.filterMap Event.request?

/-- The symbols of a request. -/
def symbolsOf (trace : List Event) (n : Nat) : List String :=
  ((requests trace)[n]?).elim [] fun packet => packet.data.calldata.symbols

/-- The oracle: which request a packet answers, and the rates it computed for a request. -/
structure Oracle where
  answers : IbcPacket → Nat
  rates : Nat → List Nat

/-- The request that an event answers with rates. -/
def Event.answers? (c : Codec) (o : Oracle) : Event → Option Nat
  | .received packet _ _ => (c.read packet.data).map fun _ => o.answers packet
  | _ => none

/-- The requests that were answered with rates. -/
def answered (c : Codec) (o : Oracle) (trace : List Event) : List Nat :=
  trace.filterMap (Event.answers? c o)

/-- A packet with rates is the oracle's answer to a request that was sent. -/
def Genuine (c : Codec) (o : Oracle) (w : World) : Action → Prop
  | .receive packet => ∀ resp rates, c.read packet.data = some (resp, rates) →
      rates = o.rates (o.answers packet) ∧ o.answers packet < (requests w.trace).length ∧
        rates.length = (symbolsOf w.trace (o.answers packet)).length
  | _ => True

/-- A packet with rates arrives before the answers to later requests for any of its symbols,
and while the list of symbols still begins with that of its request. -/
def InOrder (c : Codec) (o : Oracle) (w : World) : Action → Prop
  | .receive packet => c.read packet.data ≠ none →
      (∀ n ∈ answered c o w.trace, ∀ symbol ∈ symbolsOf w.trace n,
        symbol ∈ symbolsOf w.trace (o.answers packet) → n ≤ o.answers packet) ∧
      symbolsOf w.trace (o.answers packet) <+: w.storage.config.symbols
  | _ => True

/-- The latest request for a symbol that was answered. -/
structure Latest (c : Codec) (o : Oracle) (trace : List Event) (symbol : String) (n : Nat) :
    Prop where
  answered : n ∈ answered c o trace
  asked : symbol ∈ symbolsOf trace n
  latest : ∀ m ∈ PriceFeed.answered c o trace, symbol ∈ symbolsOf trace m → m ≤ n

/-- Each symbol has the rate that the oracle computed for it in the latest request that was
answered, if there is one. -/
structure Matched (c : Codec) (o : Oracle) (w : World) : Prop where
  sent : ∀ n ∈ answered c o w.trace, n < (requests w.trace).length
  rates : ∀ symbol rate, w.storage.rates.mayLoad symbol = some rate →
    ∃ n, Latest c o w.trace symbol n ∧
      rateOf symbol (symbolsOf w.trace n) (o.rates n) = some rate.rate
  stored : ∀ n ∈ answered c o w.trace, ∀ symbol ∈ symbolsOf w.trace n,
    w.storage.rates.mayLoad symbol ≠ none

/-! ### One step -/

section Traces

variable {o : Oracle} {trace : List Event} {e : Event}

theorem requests_snoc (trace : List Event) (e : Event) :
    requests (trace ++ [e]) = requests trace ++ e.request?.toList := by
  unfold requests
  rw [List.filterMap_append]
  cases he : e.request? <;> simp [he]

theorem answered_snoc (trace : List Event) (e : Event) :
    answered c o (trace ++ [e]) = answered c o trace ++ (e.answers? c o).toList := by
  unfold answered
  rw [List.filterMap_append]
  cases he : e.answers? c o <;> simp [he]

/-- A request keeps its symbols. -/
theorem symbolsOf_snoc {n : Nat} (hn : n < (requests trace).length) :
    symbolsOf (trace ++ [e]) n = symbolsOf trace n := by
  unfold symbolsOf
  rw [requests_snoc, List.getElem?_append_left hn]

theorem requests_le_snoc : (requests trace).length ≤ (requests (trace ++ [e])).length := by
  rw [requests_snoc, List.length_append]
  exact Nat.le_add_right _ _

end Traces

/-- The symbols after those that have rates do not matter. -/
theorem rateOf_append {symbol : String} {ys : List String} : ∀ {xs : List String}
    {rates : List Nat}, rates.length = xs.length →
      rateOf symbol (xs ++ ys) rates = rateOf symbol xs rates := by
  intro xs
  induction xs with
  | nil =>
      intro rates h
      rw [List.length_eq_zero_iff.mp h, rateOf_nil, rateOf_nil]
  | cons x xs ih =>
      intro rates h
      cases rates with
      | nil => cases h
      | cons rate rates =>
          rw [List.cons_append, rateOf, rateOf, ih (Nat.succ.inj h)]

section Step

variable {o : Oracle}

/-- A step that answers nothing. -/
theorem Matched.frame (h : Matched c o w) (hrates : w'.storage.rates = w.storage.rates)
    (htrace : w'.trace = w.trace ∨ ∃ e, w'.trace = w.trace ++ [e] ∧ e.answers? c o = none) :
    Matched c o w' := by
  rcases htrace with htrace | ⟨e, htrace, he⟩
  · obtain ⟨hsent, hall, hstored⟩ := h
    constructor
    · rw [htrace]
      exact hsent
    · intro symbol rate hrate
      rw [hrates] at hrate
      obtain ⟨n, hlatest, hof⟩ := hall symbol rate hrate
      rw [htrace]
      exact ⟨n, ⟨htrace ▸ hlatest.answered, htrace ▸ hlatest.asked, htrace ▸ hlatest.latest⟩, hof⟩
    · rw [htrace, hrates]
      exact hstored
  · have hanswered : answered c o w'.trace = answered c o w.trace := by
      rw [htrace, answered_snoc, he]
      exact List.append_nil _
    -- a later request does not change what an earlier one asked for
    have hsymbols : ∀ n ∈ answered c o w.trace, symbolsOf w'.trace n = symbolsOf w.trace n := by
      intro n hn
      rw [htrace]
      exact symbolsOf_snoc (h.sent n hn)
    constructor
    · intro n hn
      rw [hanswered] at hn
      rw [htrace]
      exact (h.sent n hn).trans_le requests_le_snoc
    · intro symbol rate hrate
      rw [hrates] at hrate
      obtain ⟨n, hlatest, hof⟩ := h.rates symbol rate hrate
      have hn := hlatest.answered
      refine ⟨n, ⟨hanswered ▸ hn, ?_, fun m hm hasked => ?_⟩, ?_⟩
      · rw [hsymbols n hn]
        exact hlatest.asked
      · rw [hanswered] at hm
        rw [hsymbols m hm] at hasked
        exact hlatest.latest m hm hasked
      · rw [hsymbols n hn]
        exact hof
    · intro n hn symbol hasked
      rw [hanswered] at hn
      rw [hsymbols n hn] at hasked
      rw [hrates]
      exact h.stored n hn symbol hasked

/-- A response that arrives in order, with the symbols of its request. -/
theorem Matched.receives {packet : IbcPacket} {s : Storage} {ack : Ack} (h : Matched c o w)
    (hgenuine : Genuine c o w (.receive packet)) (horder : InOrder c o w (.receive packet))
    (hhandles : Handles c w.storage s w.env packet ack) :
    Matched c o { w with
      storage := s
      trace := w.trace ++ [.received packet w.storage.config.symbols w.env.time] } := by
  have hrates := hhandles.rates
  cases hread : c.read packet.data with
  | none =>
      -- nothing is stored
      have hnone : ∀ symbol, s.rates.mayLoad symbol = w.storage.rates.mayLoad symbol := by
        intro symbol
        rw [hrates]
        simp [Event.rate, hread]
      have hframe : Matched c o { w with
          trace := w.trace ++ [.received packet w.storage.config.symbols w.env.time] } :=
        h.frame rfl (Or.inr ⟨_, rfl, by simp [Event.answers?, hread]⟩)
      exact ⟨hframe.sent, fun symbol rate hrate => hframe.rates symbol rate
        ((hnone symbol).symm.trans hrate),
        fun n hn symbol hasked => by
          show s.rates.mayLoad symbol ≠ none
          rw [hnone]
          exact hframe.stored n hn symbol hasked⟩
  | some r =>
      obtain ⟨resp, rates⟩ := r
      obtain ⟨rfl, hn, hlength⟩ := hgenuine resp rates hread
      obtain ⟨hlatest, hprefix⟩ := horder (by rw [hread]; simp)
      generalize hnew : o.answers packet = n at *
      have hanswers : Event.answers? c o
          (.received packet w.storage.config.symbols w.env.time) = some n := by
        simp [Event.answers?, hread, hnew]
      have hsymbols : ∀ m ∈ answered c o w.trace ++ [n],
          symbolsOf (w.trace ++ [.received packet w.storage.config.symbols w.env.time]) m =
            symbolsOf w.trace m := by
        intro m hm
        refine symbolsOf_snoc ?_
        rcases List.mem_append.mp hm with hm | hm
        · exact h.sent m hm
        · rw [List.mem_singleton.mp hm]
          exact hn
      have hself := hsymbols n (by simp)
      -- what is stored, by the symbols of the request
      have hof : ∀ symbol, s.rates.mayLoad symbol =
          ((rateOf symbol (symbolsOf w.trace n) (o.rates n)).map fun rate =>
            ⟨rate, w.env.time, resp.requestId⟩).or (w.storage.rates.mayLoad symbol) := by
        intro symbol
        obtain ⟨rest, hsplit⟩ := hprefix
        rw [hrates, Event.rate, hread, Option.bind_some, ← hsplit, rateOf_append hlength]
      have hasked_iff : ∀ symbol, symbol ∈ symbolsOf w.trace n ↔
          (rateOf symbol (symbolsOf w.trace n) (o.rates n)).isSome = true := by
        intro symbol
        rw [rateOf_isSome, hlength, List.take_length]
      constructor
      · intro m hm
        dsimp only at hm ⊢
        rw [answered_snoc, hanswers] at hm
        rcases List.mem_append.mp hm with hm | hm
        · exact (h.sent m hm).trans_le requests_le_snoc
        · rw [List.mem_singleton.mp hm]
          exact hn.trans_le requests_le_snoc
      · intro symbol rate hrate
        change s.rates.mayLoad symbol = some rate at hrate
        dsimp only
        rw [hof] at hrate
        by_cases hasked : symbol ∈ symbolsOf w.trace n
        · obtain ⟨r, hr⟩ := Option.isSome_iff_exists.mp ((hasked_iff symbol).mp hasked)
          rw [hr] at hrate
          obtain rfl := Option.some.inj hrate
          refine ⟨n, ⟨?_, hself.symm ▸ hasked, fun m hm hm' => ?_⟩, hself.symm ▸ hr⟩
          · rw [answered_snoc, hanswers]
            simp
          · rw [answered_snoc, hanswers] at hm
            change m ∈ answered c o w.trace ++ [n] at hm
            rw [hsymbols m hm] at hm'
            rcases List.mem_append.mp hm with hm | hm
            · exact hlatest m hm symbol hm' hasked
            · exact (List.mem_singleton.mp hm).le
        · have hnone : rateOf symbol (symbolsOf w.trace n) (o.rates n) = none := by
            rw [rateOf_eq_none, hlength, List.take_length]
            exact hasked
          rw [hnone] at hrate
          obtain ⟨m, hm, hr⟩ := h.rates symbol rate hrate
          have hmem : m ∈ answered c o w.trace ++ [n] := List.mem_append_left _ hm.answered
          rw [← hsymbols m hmem] at hr
          refine ⟨m, ⟨?_, ?_, fun k hk hk' => ?_⟩, hr⟩
          · rw [answered_snoc, hanswers]
            exact hmem
          · rw [hsymbols m hmem]
            exact hm.asked
          · rw [answered_snoc, hanswers] at hk
            change k ∈ answered c o w.trace ++ [n] at hk
            rw [hsymbols k hk] at hk'
            rcases List.mem_append.mp hk with hk | hk
            · exact hm.latest k hk hk'
            · rw [List.mem_singleton.mp hk] at hk'
              exact absurd hk' hasked
      · intro m hm symbol hasked
        show s.rates.mayLoad symbol ≠ none
        dsimp only at hm hasked
        rw [answered_snoc, hanswers] at hm
        change m ∈ answered c o w.trace ++ [n] at hm
        rw [hsymbols m hm] at hasked
        intro hload
        rw [hof, Option.or_eq_none_iff, Option.map_eq_none_iff] at hload
        obtain ⟨hnone, hold⟩ := hload
        rcases List.mem_append.mp hm with hm | hm
        · exact h.stored m hm symbol hasked hold
        · rw [List.mem_singleton.mp hm] at hasked
          exact Option.isSome_iff_ne_none.mp ((hasked_iff symbol).mp hasked) hnone

/-- A genuine step that keeps the order. -/
theorem Matched.exec {a : Action} (h : Matched c o w)
    (ha : Genuine c o w a ∧ InOrder c o w a) (hexec : w.exec c a = .ok w') :
    Matched c o w' := by
  obtain ⟨events, heffect, htrace⟩ := exec_effect hexec
  cases heffect with
  | advance seconds blocks hworld =>
      subst hworld
      exact h.frame rfl (Or.inl rfl)
  | opens msg opened hworld =>
      subst hworld
      exact h.frame rfl (Or.inl rfl)
  | connects msg hversion horder hworld =>
      subst hworld
      exact h.frame rfl (Or.inr ⟨_, rfl, rfl⟩)
  | requests info endpoint hendpoint hworld =>
      subst hworld
      exact h.frame rfl (Or.inr ⟨_, rfl, rfl⟩)
  | configures info newConfig hworld =>
      subst hworld
      exact h.frame rfl (Or.inl rfl)
  | hands info newOwner hworld =>
      subst hworld
      exact h.frame rfl (Or.inl rfl)
  | receives packet ack s channel hchannel hcarries hhandles hworld =>
      subst hworld
      exact h.receives ha.1 ha.2 hhandles

theorem Matched.started (h : Started w) : Matched c o w := by
  obtain ⟨⟨info, msg, hstorage⟩, -, htrace⟩ := h
  constructor
  · rw [htrace]
    intro n hn
    cases hn
  · rw [hstorage]
    intro symbol rate hrate
    cases hrate
  · rw [htrace]
    intro n hn
    cases hn

end Step

/-! ### Runs -/

section Run

variable {o : Oracle}

/-- The rates of an event are those of a request before it. -/
def Genuinely (c : Codec) (o : Oracle) (before : List Event) : Event → Prop
  | .received packet _ _ => ∀ resp rates, c.read packet.data = some (resp, rates) →
      rates = o.rates (o.answers packet) ∧ o.answers packet < (requests before).length
  | _ => True

theorem genuinely_exec {a : Action} (h : Throughout (Genuinely c o) w.trace)
    (ha : Genuine c o w a) (hexec : w.exec c a = .ok w') :
    Throughout (Genuinely c o) w'.trace := by
  obtain ⟨events, heffect, htrace⟩ := exec_effect hexec
  rw [htrace]
  cases heffect with
  | connects msg hversion horder hworld => exact h.snoc trivial
  | requests info endpoint hendpoint hworld => exact h.snoc trivial
  | receives packet ack s channel hchannel hcarries hhandles hworld =>
      refine h.snoc fun resp rates hread => ?_
      obtain ⟨hrates, hn, -⟩ := ha resp rates hread
      exact ⟨hrates, hn⟩
  | _ =>
      rw [List.append_nil]
      exact h

/-- A symbol has what stands at one of its positions, among the symbols that are configured
when a packet arrives, in the rates of the request that the packet answers; and no later
packet has a rate there. -/
def ByPosition (c : Codec) (o : Oracle) (trace : List Event) (symbol : String)
    (rate : PriceFeedRate) : Prop :=
  ∃ before packet symbols time after, trace = before ++ .received packet symbols time :: after ∧
    o.answers packet < (requests before).length ∧
    (∃ i : Nat, symbols[i]? = some symbol ∧
      (o.rates (o.answers packet))[i]? = some rate.rate) ∧
    ∀ e ∈ after, Event.rate c symbol e = none

theorem Recorded.byPosition (h : Recorded c w) (hgenuine : Throughout (Genuinely c o) w.trace)
    {symbol : String} {rate : PriceFeedRate}
    (hrate : w.storage.rates.mayLoad symbol = some rate) :
    ByPosition c o w.trace symbol rate := by
  obtain ⟨before, packet, hstored, -⟩ := h.storedBy hrate
  obtain ⟨symbols, time, after, hsplit, hevent, hafter⟩ := hstored.split
  obtain ⟨⟨resp, rates⟩, hread, hmap⟩ := Option.bind_eq_some_iff.mp hevent
  obtain ⟨r, hr, rfl⟩ := Option.map_eq_some_iff.mp hmap
  obtain ⟨rfl, hn⟩ := hgenuine before _ after hsplit resp rates hread
  exact ⟨before, packet, symbols, time, after, hsplit, hn, rateOf_eq_some hr, hafter⟩

/-- Whatever the order of requests, changes of the configuration and genuine responses, a
symbol has the rate at its position in the last response with a rate there. When the
responses arrive in order, with the symbols of their requests, it is the rate that was
computed for the symbol in the latest request that was answered. -/
theorem rates_matched {w₀ : World} (hstart : Started w₀) (as : List Action)
    (has : Along (World.exec c) (Genuine c o) w₀ as) :
    (∀ symbol rate, (run (World.exec c) w₀ as).storage.rates.mayLoad symbol = some rate →
      ByPosition c o (run (World.exec c) w₀ as).trace symbol rate) ∧
      (Along (World.exec c) (InOrder c o) w₀ as → Matched c o (run (World.exec c) w₀ as)) := by
  constructor
  · intro symbol rate hrate
    refine (Recorded.run hstart as).byPosition ?_ hrate
    refine run_invariant_along (fun t : World => Throughout (Genuinely c o) t.trace)
      (fun _ _ _ ht ha hexec => genuinely_exec ht ha hexec) ?_ has
    rw [hstart.trace]
    exact Throughout.nil
  · intro horder
    exact run_invariant_along (Matched c o) (fun _ _ _ ht ha hexec => ht.exec ha hexec)
      (.started hstart) ((along_and _).mpr ⟨has, horder⟩)

end Run

/-! ### Two requests -/

/-- The oracle answers by the number of the packet. -/
def sampleOracle : Oracle where
  answers packet := packet.sequence - 1
  rates n := if n = 0 then [7, 1] else [8, 1]

/-- Two requests before any answer. -/
def sampleRequests : List Action :=
  sampleHandshake "channel-0" "connection-0" ++ [bobRequests, .advance 20 4, bobRequests]

/-- The answer to the request of that number; the rates of the first one differ. -/
def sampleAnswers (n : Nat) : Action :=
  .receive (samplePacket "channel-0" (n + 1)
    (if n = 0 then "AAAAAgAAAAAAAAAHAAAAAAAAAAE=" else "AAAAAgAAAAAAAAAIAAAAAAAAAAE="))

/-- The owner turns the list of symbols around. -/
def sampleUpdateSymbols : Action :=
  .execute ⟨"owner", []⟩ (.updateConfig
    ⟨none, none, none, none, none, none, none, none, some ["USDC", "ATOM"], none⟩)

/-- An answer of the sample oracle is genuine once its request was sent. -/
theorem sampleAnswers_genuine {n : Nat} {w : World} (hn : n < 2)
    (hsent : n < (requests w.trace).length) (hsymbols : (symbolsOf w.trace n).length = 2) :
    Genuine sampleCodec sampleOracle w (sampleAnswers n) := by
  intro resp rates hread
  have hcases : n = 0 ∨ n = 1 := by omega
  have hread' : (sampleCodec.read (samplePacket "channel-0" (n + 1) (if n = 0 then
      "AAAAAgAAAAAAAAAHAAAAAAAAAAE=" else "AAAAAgAAAAAAAAAIAAAAAAAAAAE=")).data).map Prod.snd =
      some (sampleOracle.rates n) := by
    rcases hcases with rfl | rfl
    · decide +kernel
    · decide +kernel
  rw [hread] at hread'
  have hrates : rates = sampleOracle.rates n := Option.some.inj hread'
  refine ⟨hrates, hsent, ?_⟩
  show rates.length = (symbolsOf w.trace n).length
  rw [hsymbols, hrates]
  rcases hcases with rfl | rfl
  · rfl
  · rfl

/-- The answers arrive in the order of the requests. -/
theorem rates_matched_sample :
    Matched sampleCodec sampleOracle (run (World.exec sampleCodec) sampleStart
      (sampleRequests ++ [sampleAnswers 0, sampleAnswers 1])) := by
  have hgenuine : Along (World.exec sampleCodec) (Genuine sampleCodec sampleOracle) sampleStart
      (sampleRequests ++ [sampleAnswers 0, sampleAnswers 1]) :=
    ⟨trivial, trivial, trivial, trivial, trivial, sampleAnswers_genuine (by decide)
      (by decide +kernel) (by decide +kernel), sampleAnswers_genuine (by decide)
      (by decide +kernel) (by decide +kernel), trivial⟩
  exact (rates_matched sampleStart_started _ hgenuine).2
    ⟨trivial, trivial, trivial, trivial, trivial, fun _ => by decide +kernel,
      fun _ => by decide +kernel, trivial⟩

/-- A rate that no latest answered request has. -/
theorem not_matched {o : Oracle} {symbol : String} {rate : PriceFeedRate}
    (hrate : w.storage.rates.mayLoad symbol = some rate)
    (hno : ∀ n ∈ answered c o w.trace,
      (∀ m ∈ answered c o w.trace, symbol ∈ symbolsOf w.trace m → m ≤ n) →
        rateOf symbol (symbolsOf w.trace n) (o.rates n) ≠ some rate.rate) :
    ¬ Matched c o w := by
  intro h
  obtain ⟨n, hlatest, hof⟩ := h.rates symbol rate hrate
  exact hno n hlatest.answered hlatest.latest hof

/-- The answers arrive in the other order: the rate of the first request replaces that of the
second. The symbols are turned around while a request is in flight: the rates go to the wrong
symbols. -/
theorem late_answer_replaces_rate :
    (Along (World.exec sampleCodec) (Genuine sampleCodec sampleOracle) sampleStart
        (sampleRequests ++ [sampleAnswers 1, sampleAnswers 0]) ∧
      ¬ Matched sampleCodec sampleOracle (run (World.exec sampleCodec) sampleStart
        (sampleRequests ++ [sampleAnswers 1, sampleAnswers 0]))) ∧
    (Along (World.exec sampleCodec) (Genuine sampleCodec sampleOracle) sampleStart
        (sampleRequests ++ [sampleUpdateSymbols, sampleAnswers 0]) ∧
      ¬ Matched sampleCodec sampleOracle (run (World.exec sampleCodec) sampleStart
        (sampleRequests ++ [sampleUpdateSymbols, sampleAnswers 0]))) := by
  refine ⟨⟨?_, ?_⟩, ?_, ?_⟩
  · exact ⟨trivial, trivial, trivial, trivial, trivial, sampleAnswers_genuine (by decide)
      (by decide +kernel) (by decide +kernel), sampleAnswers_genuine (by decide)
      (by decide +kernel) (by decide +kernel), trivial⟩
  · refine @not_matched sampleCodec _ sampleOracle "ATOM" ⟨7, 70, 1⟩ ?_ ?_
    · decide +kernel
    · decide +kernel
  · exact ⟨trivial, trivial, trivial, trivial, trivial, trivial, sampleAnswers_genuine (by decide)
      (by decide +kernel) (by decide +kernel), trivial⟩
  · refine @not_matched sampleCodec _ sampleOracle "ATOM" ⟨1, 70, 1⟩ ?_ ?_
    · decide +kernel
    · decide +kernel

end NeutronTge.PriceFeed
