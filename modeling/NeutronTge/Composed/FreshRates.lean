import NeutronTge.Auction.Deposits
import NeutronTge.PriceFeed.Authenticity

/-!
# NeutronTge.Composed.FreshRates

The auction and its price feed. `SetPoolSize` looks at the time of the first of two rates
only, and the price feed stores the rates of a packet one symbol at a time, so a packet with
fewer rates than symbols leaves the second rate as old as it was. Both rates are fresh if no
packet gave the first symbol a rate without one for the second (`setPoolSize_fresh`).
-/

namespace NeutronTge.FreshRates

open CosmWasm

/-- The contracts around the auction and its price feed, with one state. -/
structure Outside (F : Type) where
  /-- The address of the price feed. -/
  feed : Addr
  tokenBalance : F → Addr → Except StdError Nat
  /-- `GetRate` of other contracts. -/
  getRate : F → Addr → Except StdError (List Auction.PriceFeedRate)
  exec : F → Auction.CosmosMsg → Except StdError F

/-- The auction's world, with the price feed's world in it. -/
abbrev World (F : Type) := Auction.World (PriceFeed.World × F)

/-- A rate, as the auction reads it. -/
def received (rate : PriceFeed.PriceFeedRate) : Auction.PriceFeedRate :=
  ⟨rate.rate, rate.resolveTime, rate.requestId⟩

variable {F : Type}

section Exec

variable (c : PriceFeed.Codec) (o : Outside F)

/-- The other contracts as the auction sees them. -/
def Outside.externals : Auction.Externals (PriceFeed.World × F) where
  tokenBalance e := o.tokenBalance e.2
  getRate e addr :=
    if addr = o.feed then (PriceFeed.queryRate e.1.storage).map fun rates => rates.map received
    else o.getRate e.2 addr
  exec e msg := (o.exec e.2 msg).map fun f => (e.1, f)

/-- What happens in a run of the auction with the price feed. -/
inductive Action (F : Type)
  /-- Something happens to the price feed, or time passes. -/
  | feed (a : PriceFeed.Action)
  /-- The other contracts change by themselves. -/
  | drift (ext : F)
  /-- Somebody sends coins to the auction. -/
  | donate (coins : List Coin)
  | auction (info : MessageInfo) (msg : Auction.ExecuteMsg)

/-- One action of a run. Both contracts are in the same block. -/
def exec (w : World F) : Action F → Except StdError (World F)
  | .feed a => do
      let feed ← (w.ext.1.exec c a).mapError fun _ => .aborted
      .ok { w with
        env := { w.env with time := feed.env.time, height := feed.env.height }
        ext := (feed, w.ext.2) }
  | .drift ext => .ok { w with ext := (w.ext.1, ext) }
  | .donate coins => .ok { w with bank := w.bank.receive coins }
  | .auction info msg => Auction.World.execute o.externals w info msg

end Exec

/-- Both contracts right after they were instantiated. -/
structure Started (w : World F) : Prop where
  auction : Auction.Started w
  feed : PriceFeed.Started w.ext.1
  time : w.env.time = w.ext.1.env.time

variable {c : PriceFeed.Codec} {o : Outside F} {w w' : World F}

/-! ### Runs -/

/-- The price feed's trace tells its storage and the times of its packets, and the two
contracts have one clock. -/
structure InStep (c : PriceFeed.Codec) (w : World F) : Prop where
  recorded : PriceFeed.Recorded c w.ext.1
  timely : PriceFeed.Timely w.ext.1
  time : w.env.time = w.ext.1.env.time

/-- The price feed and the block are the same. -/
def SameFeed (w w' : World F) : Prop := w'.ext.1 = w.ext.1 ∧ w'.env = w.env

/-- The auction's messages do not reach the price feed. -/
theorem execute_sameFeed {info : MessageInfo} {msg : Auction.ExecuteMsg}
    (h : Auction.World.execute o.externals w info msg = .ok w') : SameFeed w w' := by
  obtain ⟨r, -, hrun, -⟩ := Auction.execute_ok h
  have hstart : SameFeed w { w.receive info with storage := r.storage } := ⟨rfl, rfl⟩
  refine Calls.invariant_all (P := SameFeed w) (Q := fun _ => True) ?_ ?_ hstart
    (fun _ _ => trivial) hrun
  · intro v m e hv _ hexec
    obtain ⟨bank, -, hsend⟩ := bind_eq_ok.mp hexec
    obtain ⟨ext, hext, hret⟩ := bind_eq_ok.mp hsend
    obtain ⟨f, -, rfl⟩ := map_eq_ok.mp hext
    obtain rfl := Except.ok.inj hret
    exact hv
  · exact fun v c r hv _ => ⟨hv, fun _ _ => trivial⟩

theorem InStep.exec {a : Action F} (h : InStep c w) (hexec : exec c o w a = .ok w') :
    InStep c w' := by
  cases a with
  | feed a =>
      simp only [FreshRates.exec, bind_eq_ok, mapError_eq_ok, Except.ok.injEq] at hexec
      obtain ⟨feed, hfeed, rfl⟩ := hexec
      exact ⟨h.recorded.exec hfeed, h.timely.exec hfeed, rfl⟩
  | drift ext =>
      obtain rfl := Except.ok.inj hexec
      exact ⟨h.recorded, h.timely, h.time⟩
  | donate coins =>
      obtain rfl := Except.ok.inj hexec
      exact ⟨h.recorded, h.timely, h.time⟩
  | auction info msg =>
      obtain ⟨hfeed, henv⟩ := execute_sameFeed hexec
      refine ⟨?_, ?_, ?_⟩
      · rw [hfeed]
        exact h.recorded
      · rw [hfeed]
        exact h.timely
      · rw [hfeed, henv]
        exact h.time

theorem InStep.run {w₀ : World F} (hstart : Started w₀) (as : List (Action F)) :
    InStep c (run (FreshRates.exec c o) w₀ as) :=
  run_invariant (InStep c) (fun _ _ _ ht hexec => ht.exec hexec)
    ⟨.started hstart.feed, .started hstart.feed, hstart.time⟩

/-! ### The two rates -/

/-- A packet that came in at most `age` seconds ago gave a symbol its rate. -/
structure Fresh (c : PriceFeed.Codec) (w : World F) (age : Nat) (symbol : String)
    (rate : PriceFeed.PriceFeedRate) : Prop where
  stored : w.ext.1.storage.rates.mayLoad symbol = some rate
  arrived : ∃ before packet symbols time after,
    w.ext.1.trace = before ++ .received packet symbols time :: after ∧
      PriceFeed.Event.rate c symbol (.received packet symbols time) = some rate ∧
      w.env.time ≤ time + age

/-- No packet gave the first symbol a rate after the last one that gave the second a rate. -/
def SecondFollows (c : PriceFeed.Codec) (trace : List PriceFeed.Event) (first second : String) :
    Prop :=
  ∀ packet symbols time, .received packet symbols time ∈ trace →
    PriceFeed.Event.rate c first (.received packet symbols time) ≠ none →
      ∃ packet' symbols' time', .received packet' symbols' time' ∈ trace ∧
        PriceFeed.Event.rate c second (.received packet' symbols' time') ≠ none ∧ time ≤ time'

/-- What `SetPoolSize` reads: the rates of the two configured symbols, in their order. -/
structure Reads (w : World F) (first second : String) (atom usdc : PriceFeed.PriceFeedRate) :
    Prop where
  symbols : w.ext.1.storage.config.symbols.insertionSort (· ≤ ·) = [first, second]
  atom : w.ext.1.storage.rates.mayLoad first = some atom
  usdc : w.ext.1.storage.rates.mayLoad second = some usdc

theorem reads_of_rates {atom usdc : Auction.PriceFeedRate}
    (h : o.externals.getRate w.ext o.feed = .ok [atom, usdc]) :
    ∃ first second a u, Reads w first second a u ∧ atom = received a ∧ usdc = received u := by
  unfold Outside.externals at h
  dsimp only at h
  rw [if_pos rfl] at h
  obtain ⟨rates, hrates, hmap⟩ := map_eq_ok.mp h
  have hall := PriceFeed.queryRate_ok hrates
  match rates, hmap with
  | [a, u], hmap =>
      obtain ⟨hatom, husdc⟩ := List.cons.inj hmap
      generalize hsymbols : w.ext.1.storage.config.symbols.insertionSort (· ≤ ·) = symbols at hall
      cases hall with
      | cons hfirst hall =>
          cases hall with
          | cons hsecond hall =>
              cases hall with
              | nil =>
                  exact ⟨_, _, a, u, ⟨hsymbols, hfirst, hsecond⟩, hatom.symm,
                    (List.cons.inj husdc).1.symm⟩

/-- The time of a rate is that of a packet. -/
theorem InStep.arrived (h : InStep c w) {symbol : String} {rate : PriceFeed.PriceFeedRate}
    (hrate : w.ext.1.storage.rates.mayLoad symbol = some rate) :
    ∃ before packet symbols after,
      w.ext.1.trace = before ++ .received packet symbols rate.resolveTime :: after ∧
        PriceFeed.Event.rate c symbol (.received packet symbols rate.resolveTime) = some rate ∧
        ∀ e ∈ after, PriceFeed.Event.rate c symbol e = none := by
  obtain ⟨before, packet, hstored, -⟩ := h.recorded.storedBy hrate
  obtain ⟨symbols, time, after, hsplit, hevent, hafter⟩ := hstored.split
  obtain ⟨_, -, hmap⟩ := Option.bind_eq_some_iff.mp hevent
  obtain ⟨r, -, rfl⟩ := Option.map_eq_some_iff.mp hmap
  exact ⟨before, packet, symbols, after, hsplit, hevent, hafter⟩

theorem InStep.fresh (h : InStep c w) {age : Nat} {symbol : String}
    {rate : PriceFeed.PriceFeedRate} (hrate : w.ext.1.storage.rates.mayLoad symbol = some rate) :
    Fresh c w age symbol rate ↔ w.env.time ≤ rate.resolveTime + age := by
  constructor
  · intro hfresh
    obtain ⟨before, packet, symbols, time, after, -, hevent, hle⟩ := hfresh.arrived
    obtain ⟨_, -, hmap⟩ := Option.bind_eq_some_iff.mp hevent
    obtain ⟨r, -, rfl⟩ := Option.map_eq_some_iff.mp hmap
    exact hle
  · intro hle
    obtain ⟨before, packet, symbols, after, hsplit, hevent, -⟩ := h.arrived hrate
    exact ⟨hrate, before, packet, symbols, rate.resolveTime, after, hsplit, hevent, hle⟩

/-- No packet with a rate for a symbol came in after the time of its rate. -/
theorem InStep.latest (h : InStep c w) {symbol : String} {rate : PriceFeed.PriceFeedRate}
    (hrate : w.ext.1.storage.rates.mayLoad symbol = some rate) {packet : PriceFeed.IbcPacket}
    {symbols : List String} {time : Nat} (hmem : .received packet symbols time ∈ w.ext.1.trace)
    (hevent : PriceFeed.Event.rate c symbol (.received packet symbols time) ≠ none) :
    time ≤ rate.resolveTime := by
  obtain ⟨before, packet', symbols', after, hsplit, -, hafter⟩ := h.arrived hrate
  have hsorted := h.timely.sorted
  rw [hsplit] at hsorted hmem
  unfold PriceFeed.times at hsorted
  rw [List.filterMap_append, List.pairwise_append] at hsorted
  rcases List.mem_append.mp hmem with hmem | hmem
  · -- it came in before the packet that stored the rate
    refine hsorted.2.2 time (List.mem_filterMap.mpr ⟨_, hmem, rfl⟩) rate.resolveTime ?_
    exact List.mem_filterMap.mpr ⟨_, List.mem_cons_self, rfl⟩
  · rcases List.mem_cons.mp hmem with heq | hmem
    · exact (PriceFeed.Event.received.inj heq).2.2.le
    · exact absurd (hafter _ hmem) hevent

/-- The second rate follows exactly when it is not older than the first. -/
theorem InStep.secondFollows_iff (h : InStep c w) {first second : String}
    {atom usdc : PriceFeed.PriceFeedRate} (hreads : Reads w first second atom usdc) :
    SecondFollows c w.ext.1.trace first second ↔ atom.resolveTime ≤ usdc.resolveTime := by
  constructor
  · intro hfollows
    obtain ⟨before, packet, symbols, after, hsplit, hevent, -⟩ := h.arrived hreads.atom
    obtain ⟨packet', symbols', time', hmem, hevent', hle⟩ :=
      hfollows packet symbols atom.resolveTime (by rw [hsplit]; simp) (by rw [hevent]; simp)
    exact hle.trans (h.latest hreads.usdc hmem hevent')
  · intro hle packet symbols time hmem hevent
    obtain ⟨before, packet', symbols', after, hsplit, hevent', -⟩ := h.arrived hreads.usdc
    exact ⟨packet', symbols', usdc.resolveTime, by rw [hsplit]; simp, by rw [hevent']; simp,
      (h.latest hreads.atom hmem hevent).trans hle⟩

/-- `SetPoolSize` sizes the pools by two rates, and the first of them is fresh. If the second
one follows the first, it is fresh too; in the last second in which the first is fresh, only
then. -/
theorem setPoolSize_fresh {w₀ : World F} (hstart : Started w₀) (as : List (Action F))
    {info : MessageInfo}
    (hfeed : (run (exec c o) w₀ as).storage.config.priceFeedContract = o.feed)
    (h : exec c o (run (exec c o) w₀ as) (.auction info .setPoolSize) = .ok w') :
    ∃ first second atom usdc, Reads (run (exec c o) w₀ as) first second atom usdc ∧
      (∃ q ratio ntrnAmount usdcNtrnSize atomNtrnSize usdcLpSize atomLpSize,
        Auction.Sizes q (run (exec c o) w₀ as).storage w'.storage (run (exec c o) w₀ as).env
          (received atom) (received usdc) ratio ntrnAmount usdcNtrnSize atomNtrnSize usdcLpSize
          atomLpSize) ∧
      (SecondFollows c (run (exec c o) w₀ as).ext.1.trace first second →
        Fresh c (run (exec c o) w₀ as)
          (run (exec c o) w₀ as).storage.config.maxExchangeRateAge first atom ∧
        Fresh c (run (exec c o) w₀ as)
          (run (exec c o) w₀ as).storage.config.maxExchangeRateAge second usdc) ∧
      ((run (exec c o) w₀ as).env.time =
          atom.resolveTime + (run (exec c o) w₀ as).storage.config.maxExchangeRateAge →
        Fresh c (run (exec c o) w₀ as)
          (run (exec c o) w₀ as).storage.config.maxExchangeRateAge second usdc →
        SecondFollows c (run (exec c o) w₀ as).ext.1.trace first second) := by
  have hstep : InStep c (run (exec c o) w₀ as) := .run hstart as
  generalize run (exec c o) w₀ as = w at hfeed h hstep ⊢
  rcases Auction.execute_cases h with ⟨msgs, hresponds, -⟩ | ⟨hmsg, -⟩
  · cases hresponds.effect with
    | configure _ hconfigures => cases hconfigures
    | size atom usdc ratio ntrnAmount usdcNtrnSize atomNtrnSize usdcLpSize atomLpSize hmsgs
      hsizes =>
        have hrates : o.externals.getRate w.ext w.storage.config.priceFeedContract =
            .ok [atom, usdc] := hsizes.rates_eq
        rw [hfeed] at hrates
        obtain ⟨first, second, a, u, hreads, rfl, rfl⟩ := reads_of_rates hrates
        -- the code compares the first time only; the order of the answers decides on the second
        have hfresh : w.env.time - w.storage.config.maxExchangeRateAge ≤ a.resolveTime :=
          hsizes.fresh
        refine ⟨first, second, a, u, hreads, ⟨_, ratio, ntrnAmount, usdcNtrnSize, atomNtrnSize,
          usdcLpSize, atomLpSize, hsizes⟩, fun hfollows => ?_, fun htime hsecond => ?_⟩
        · have hle := (hstep.secondFollows_iff hreads).mp hfollows
          exact ⟨(hstep.fresh hreads.atom).mpr (by omega), (hstep.fresh hreads.usdc).mpr (by omega)⟩
        · have hle := (hstep.fresh hreads.usdc).mp hsecond
          exact (hstep.secondFollows_iff hreads).mpr (by omega)
  · cases hmsg

/-! ### A second rate that stays old -/

/-- The contracts other than the two of the small chain. -/
def sampleOutside : Outside Auction.SampleExt where
  feed := "price_feed"
  tokenBalance := Auction.sampleExternals.tokenBalance
  getRate _ _ := .error .aborted
  exec := Auction.SampleExt.exec

/-- Both contracts in one block. The auction accepts rates of the last five seconds. -/
def sampleStart : World Auction.SampleExt where
  storage := (Auction.sampleInstantiateMsg 10).storage ⟨"owner", []⟩
  bank _ := 0
  ext := ({ PriceFeed.sampleStart with env := ⟨10, 1, "price_feed"⟩ }, ⟨0, 0⟩)
  env := ⟨10, 1, "auction"⟩
  trace := []

theorem sampleStart_started : Started sampleStart where
  auction := ⟨⟨⟨10, 1, "auction"⟩, ⟨"owner", []⟩, Auction.sampleInstantiateMsg 10, rfl, rfl⟩, rfl⟩
  feed := ⟨⟨_, _, rfl⟩, rfl, rfl⟩
  time := rfl

/-- Deposits, and two rates a second before the windows are closed. -/
def sampleRates : List (Action Auction.SampleExt) :=
  [.auction ⟨"manager", []⟩ (.setTokenInfo (some "usdc") (some "atom") (some Auction.samplePools)),
    .auction ⟨"alice", [⟨"atom", 2000⟩, ⟨"usdc", 2000⟩]⟩ .deposit, .donate [⟨"untrn", 4000⟩]] ++
    (PriceFeed.sampleHandshake "channel-0" "connection-0" ++ [PriceFeed.bobRequests, .advance 19 1,
      .receive (PriceFeed.samplePacket "channel-0" 1 "AAAAAgAAAAAAAAAHAAAAAAAAAAE=")]).map .feed

/-- One more request, and a response with one rate only. -/
def sampleFewer : List (Action Auction.SampleExt) :=
  [PriceFeed.Action.advance 11 2, PriceFeed.bobRequests,
    .receive (PriceFeed.samplePacket "channel-0" 2 "AAAAAQAAAAAAAAAH")].map .feed

/-- Anybody may set the pool sizes. -/
def bobSetsPoolSize : Action Auction.SampleExt := .auction ⟨"bob", []⟩ .setPoolSize

/-- The state in which the pool size can be set, with two rates of the same packet. -/
def sampleReady : World Auction.SampleExt :=
  run (exec PriceFeed.sampleCodec sampleOutside) sampleStart
    (sampleRates ++ [.feed (.advance 1 1)])

theorem sampleReady_reads : Reads sampleReady "ATOM" "USDC" ⟨7, 29, 1⟩ ⟨1, 29, 1⟩ :=
  ⟨by decide +kernel, by decide +kernel, by decide +kernel⟩

theorem Reads.unique {first second first' second' : String}
    {atom usdc atom' usdc' : PriceFeed.PriceFeedRate} (h : Reads w first second atom usdc)
    (h' : Reads w first' second' atom' usdc') :
    first' = first ∧ second' = second ∧ atom' = atom ∧ usdc' = usdc := by
  obtain ⟨rfl, hsecond⟩ := List.cons.inj (h'.symbols.symm.trans h.symbols)
  obtain rfl := List.singleton_inj.mp hsecond
  exact ⟨rfl, rfl, Option.some.inj (h'.atom.symm.trans h.atom),
    Option.some.inj (h'.usdc.symm.trans h.usdc)⟩

/-- The second rate came in with the first. -/
theorem setPoolSize_fresh_sample :
    Fresh PriceFeed.sampleCodec sampleReady 5 "ATOM" ⟨7, 29, 1⟩ ∧
      Fresh PriceFeed.sampleCodec sampleReady 5 "USDC" ⟨1, 29, 1⟩ := by
  have hok :
      (exec PriceFeed.sampleCodec sampleOutside sampleReady bobSetsPoolSize).isOk = true := by
    decide +kernel
  obtain ⟨w', h⟩ : ∃ w', exec PriceFeed.sampleCodec sampleOutside sampleReady bobSetsPoolSize =
    .ok w' := ⟨_, ok_of_isOk _ hok⟩
  unfold sampleReady bobSetsPoolSize at h
  have hsized := @setPoolSize_fresh _ PriceFeed.sampleCodec sampleOutside w' sampleStart
    sampleStart_started (sampleRates ++ [.feed (.advance 1 1)]) ⟨"bob", []⟩
  obtain ⟨first, second, atom, usdc, hreads, -, hfresh, -⟩ := hsized (by decide +kernel) h
  obtain ⟨rfl, rfl, rfl, rfl⟩ := sampleReady_reads.unique hreads
  have hage : sampleReady.storage.config.maxExchangeRateAge = 5 := by decide +kernel
  rw [← hage]
  have hstep : InStep PriceFeed.sampleCodec sampleReady :=
    @InStep.run _ _ sampleOutside _ sampleStart_started _
  have hfollows := (hstep.secondFollows_iff hreads).mpr le_rfl
  unfold sampleReady at hfollows ⊢
  exact hfresh hfollows

/-- A response with one rate only leaves the second rate behind, and `SetPoolSize` takes it. -/
theorem setPoolSize_takes_old_rate :
    (exec PriceFeed.sampleCodec sampleOutside
        (run (exec PriceFeed.sampleCodec sampleOutside) sampleStart (sampleRates ++ sampleFewer))
        bobSetsPoolSize).isOk = true ∧
      Reads (run (exec PriceFeed.sampleCodec sampleOutside) sampleStart
        (sampleRates ++ sampleFewer)) "ATOM" "USDC" ⟨7, 40, 2⟩ ⟨1, 29, 1⟩ ∧
      ¬ Fresh PriceFeed.sampleCodec (run (exec PriceFeed.sampleCodec sampleOutside) sampleStart
        (sampleRates ++ sampleFewer)) 5 "USDC" ⟨1, 29, 1⟩ := by
  have hreads : Reads (run (exec PriceFeed.sampleCodec sampleOutside) sampleStart
      (sampleRates ++ sampleFewer)) "ATOM" "USDC" ⟨7, 40, 2⟩ ⟨1, 29, 1⟩ :=
    ⟨by decide +kernel, by decide +kernel, by decide +kernel⟩
  refine ⟨by decide +kernel, hreads, fun hfresh => ?_⟩
  have hstep : InStep PriceFeed.sampleCodec (run (exec PriceFeed.sampleCodec sampleOutside)
    sampleStart (sampleRates ++ sampleFewer)) := .run sampleStart_started _
  have hle := (hstep.fresh hreads.usdc).mp hfresh
  revert hle
  decide +kernel

end NeutronTge.FreshRates
