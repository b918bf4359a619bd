import NeutronTge.PriceFeed.Contract

/-!
# NeutronTge.PriceFeed.Packets

What a response packet does. A response that is a success gives each rate to the symbol at its
position, and the rest of the symbols keep what they have (`saveRates_eq_ok`); any other
packet leaves the rates alone. The handler aborts when there are more rates than symbols, and
it reports success when there are fewer (`packet_allOrNothing_iff`).
-/

namespace NeutronTge.PriceFeed

open CosmWasm

variable {c : Codec} {s s' : Storage} {env : Env} {packet : IbcPacket}

/-! ### Rates by symbol -/

/-- The rate that a response has for a symbol: the last one at a position of the symbol. -/
def rateOf (symbol : String) : List String → List Nat → Option Nat
  | s :: symbols, rate :: rates =>
      (rateOf symbol symbols rates).or (if s = symbol then some rate else none)
  | _, _ => none

@[simp] theorem rateOf_nil (symbol : String) (symbols : List String) :
    rateOf symbol symbols [] = none := by
  cases symbols <;> rfl

theorem rateOf_isSome {symbol : String} : ∀ {symbols : List String} {rates : List Nat},
    (rateOf symbol symbols rates).isSome = true ↔ symbol ∈ symbols.take rates.length := by
  intro symbols
  induction symbols with
  | nil => intro rates; simp [rateOf]
  | cons s symbols ih =>
      intro rates
      cases rates with
      | nil => simp
      | cons rate rates =>
          simp only [rateOf, Option.isSome_or, Bool.or_eq_true, ih, List.length_cons,
            List.take_succ_cons, List.mem_cons]
          by_cases hs : s = symbol
          · simp [hs]
          · simp [hs, Ne.symm hs]

theorem rateOf_eq_none {symbol : String} {symbols : List String} {rates : List Nat} :
    rateOf symbol symbols rates = none ↔ symbol ∉ symbols.take rates.length := by
  rw [← rateOf_isSome, Bool.not_eq_true, Option.isSome_eq_false_iff, Option.isNone_iff_eq_none]

/-- The rate stands in the response at a position of the symbol. -/
theorem rateOf_eq_some {symbol : String} {rate : Nat} : ∀ {symbols : List String}
    {rates : List Nat}, rateOf symbol symbols rates = some rate →
      ∃ i : Nat, symbols[i]? = some symbol ∧ rates[i]? = some rate := by
  intro symbols
  induction symbols with
  | nil => intro rates h; cases h
  | cons s symbols ih =>
      intro rates h
      cases rates with
      | nil => cases h
      | cons r rates =>
          rcases Option.or_eq_some_iff.mp h with h | ⟨-, h⟩
          · obtain ⟨i, hsymbol, hrate⟩ := ih h
            exact ⟨i + 1, hsymbol, hrate⟩
          · split_ifs at h with hs
            obtain rfl := Option.some.inj h
            exact ⟨0, by rw [hs]; rfl, rfl⟩

/-- The loop stores all rates, if there is a symbol for each of them. -/
theorem saveRates_isOk {time requestId : Nat} : ∀ {symbols : List String} {rates : List Nat}
    {m : Map String PriceFeedRate},
    (∃ m', saveRates time requestId m symbols rates = .ok m') ↔
      rates.length ≤ symbols.length := by
  intro symbols
  induction symbols with
  | nil =>
      intro rates m
      cases rates with
      | nil => simp [saveRates]
      | cons rate rates => simp [saveRates]
  | cons s symbols ih =>
      intro rates m
      cases rates with
      | nil => simp [saveRates]
      | cons rate rates =>
          rw [saveRates, ih, List.length_cons, List.length_cons, Nat.add_le_add_iff_right]

/-- What the loop stores. -/
theorem saveRates_eq_ok {time requestId : Nat} : ∀ {symbols : List String} {rates : List Nat}
    {m m' : Map String PriceFeedRate}, saveRates time requestId m symbols rates = .ok m' →
      ∀ symbol, m'.mayLoad symbol =
        ((rateOf symbol symbols rates).map fun rate => ⟨rate, time, requestId⟩).or
          (m.mayLoad symbol) := by
  intro symbols
  induction symbols with
  | nil =>
      intro rates m m' h symbol
      cases rates with
      | nil =>
          obtain rfl := Except.ok.inj h
          rfl
      | cons rate rates => cases h
  | cons s symbols ih =>
      intro rates m m' h symbol
      cases rates with
      | nil =>
          obtain rfl := Except.ok.inj h
          rfl
      | cons rate rates =>
          rw [ih h, Map.mayLoad_save_eq, rateOf]
          by_cases hs : s = symbol
          · cases rateOf symbol symbols rates <;> simp [hs]
          · cases rateOf symbol symbols rates <;> simp [hs, Ne.symm hs]

/-! ### Responses -/

/-- The packet is a response that is a success, with these rates. -/
structure Codec.Reads (c : Codec) (data : Bytes) (resp : OracleResponsePacketData)
    (rates : List Nat) : Prop where
  response_eq : c.response data = .ok resp
  success : resp.resolveStatus = .success
  rates_eq : ∃ binRes, c.fromBase64 resp.result = .ok binRes ∧ c.rates binRes = some rates

theorem Codec.Reads.unique {data : Bytes} {resp resp' : OracleResponsePacketData}
    {rates rates' : List Nat} (h : c.Reads data resp rates) (h' : c.Reads data resp' rates') :
    resp' = resp ∧ rates' = rates := by
  obtain rfl := Except.ok.inj (h.response_eq.symm.trans h'.response_eq)
  obtain ⟨bin, hbin, hrates⟩ := h.rates_eq
  obtain ⟨bin', hbin', hrates'⟩ := h'.rates_eq
  obtain rfl := Except.ok.inj (hbin.symm.trans hbin')
  exact ⟨rfl, Option.some.inj (hrates'.symm.trans hrates)⟩

/-- The response of a packet that is a success, and its rates. -/
def Codec.read (c : Codec) (data : Bytes) : Option (OracleResponsePacketData × List Nat) :=
  match c.response data with
  | .error _ => none
  | .ok resp =>
      if resp.resolveStatus = .success then
        match c.fromBase64 resp.result with
        | .error _ => none
        | .ok binRes => (c.rates binRes).map fun rates => (resp, rates)
      else none

theorem Codec.read_of_reads {data : Bytes} {resp : OracleResponsePacketData} {rates : List Nat}
    (h : c.Reads data resp rates) : c.read data = some (resp, rates) := by
  obtain ⟨bin, hbin, hrates⟩ := h.rates_eq
  simp only [read, h.response_eq, h.success, hbin, hrates, if_true, Option.map_some]

theorem Codec.reads_of_read {data : Bytes} {resp : OracleResponsePacketData} {rates : List Nat}
    (h : c.read data = some (resp, rates)) : c.Reads data resp rates := by
  unfold read at h
  cases hresp : c.response data with
  | error e =>
      rw [hresp] at h
      cases h
  | ok resp' =>
      rw [hresp] at h
      dsimp only at h
      split_ifs at h with hstatus
      cases hbin : c.fromBase64 resp'.result with
      | error e =>
          rw [hbin] at h
          cases h
      | ok bin =>
          rw [hbin] at h
          dsimp only at h
          obtain ⟨rates', hrates, heq⟩ := Option.map_eq_some_iff.mp h
          obtain ⟨rfl, rfl⟩ := Prod.mk.inj heq
          exact ⟨hresp, hstatus, bin, hbin, hrates⟩

theorem Codec.read_eq_none {data : Bytes} :
    c.read data = none ↔ ∀ resp rates, ¬ c.Reads data resp rates := by
  constructor
  · intro h resp rates hreads
    cases h.symm.trans (read_of_reads hreads)
  · intro h
    rcases hread : c.read data with - | ⟨resp, rates⟩
    · rfl
    · exact absurd (reads_of_read hread) (h resp rates)

/-- The handling of a packet: its rates are stored, or only an error is. -/
inductive Handles (c : Codec) (s s' : Storage) (env : Env) (packet : IbcPacket) : Ack → Prop
  | stored (resp : OracleResponsePacketData) (rates : List Nat)
      (stored : Map String PriceFeedRate) (hreads : c.Reads packet.data resp rates)
      (hsave : saveRates env.time resp.requestId s.rates s.config.symbols rates = .ok stored)
      (hstorage : s' = { s with rates := stored }) : Handles c s s' env packet .success
  | failed (e : ContractError) (error : Option String)
      (hno : ∀ resp rates, ¬ c.Reads packet.data resp rates)
      (hstorage : s' = { s with error := error }) : Handles c s s' env packet (.fail e)

theorem ibcPacketReceive_ok {ack : Ack} (h : ibcPacketReceive c s env packet = .ok (ack, s')) :
    Handles c s s' env packet ack := by
  unfold ibcPacketReceive at h
  rw [bind_eq_ok] at h
  obtain ⟨⟨result, t⟩, hdo, h⟩ := h
  unfold doIbcPacketReceive at hdo
  -- the errors, each before anything is stored
  have hfailed : ∀ {e : ContractError} {error : Option String},
      (∀ resp rates, ¬ c.Reads packet.data resp rates) →
      (.ok (.error e, { s with error := error }) :
        Except StdError (Except ContractError Unit × Storage)) = .ok (result, t) →
      Handles c s s' env packet ack := by
    intro e error hno heq
    obtain ⟨rfl, rfl⟩ := Prod.mk.inj (Except.ok.inj heq)
    obtain ⟨rfl, rfl⟩ := Prod.mk.inj (Except.ok.inj h)
    exact Handles.failed e error hno rfl
  cases hresp : c.response packet.data with
  | error e =>
      rw [hresp] at hdo
      refine hfailed (fun resp rates hreads => ?_) hdo
      cases hresp.symm.trans hreads.response_eq
  | ok resp =>
      rw [hresp] at hdo
      dsimp only at hdo
      split_ifs at hdo with hstatus
      · refine hfailed (fun resp' rates hreads => hstatus ?_) hdo
        obtain rfl := Except.ok.inj (hresp.symm.trans hreads.response_eq)
        exact hreads.success
      · cases hbin : c.fromBase64 resp.result with
        | error e =>
            rw [hbin] at hdo
            refine hfailed (fun resp' rates hreads => ?_) hdo
            obtain rfl := Except.ok.inj (hresp.symm.trans hreads.response_eq)
            obtain ⟨bin, hbin', -⟩ := hreads.rates_eq
            rw [hbin] at hbin'
            cases hbin'
        | ok bin =>
            rw [hbin] at hdo
            dsimp only at hdo
            cases hrates : c.rates bin with
            | none =>
                rw [hrates] at hdo
                refine hfailed (fun resp' rates hreads => ?_) hdo
                obtain rfl := Except.ok.inj (hresp.symm.trans hreads.response_eq)
                obtain ⟨bin', hbin', hrates'⟩ := hreads.rates_eq
                obtain rfl := Except.ok.inj (hbin.symm.trans hbin')
                rw [hrates] at hrates'
                cases hrates'
            | some rates =>
                rw [hrates] at hdo
                dsimp only at hdo
                rw [bind_eq_ok] at hdo
                obtain ⟨stored, hsave, heq⟩ := hdo
                obtain ⟨rfl, rfl⟩ := Prod.mk.inj (Except.ok.inj heq)
                obtain ⟨rfl, rfl⟩ := Prod.mk.inj (Except.ok.inj h)
                exact Handles.stored resp rates stored
                  ⟨hresp, not_not.mp hstatus, bin, hbin, hrates⟩ hsave rfl

/-- The handler gives an acknowledgement, unless there are more rates than symbols. -/
theorem ibcPacketReceive_isOk :
    (∃ ack s', ibcPacketReceive c s env packet = .ok (ack, s')) ↔
      ∀ resp rates, c.Reads packet.data resp rates → rates.length ≤ s.config.symbols.length := by
  constructor
  · rintro ⟨ack, s', h⟩ resp rates hreads
    cases ibcPacketReceive_ok h with
    | stored resp' rates' stored hreads' hsave =>
        obtain ⟨-, rfl⟩ := hreads.unique hreads'
        exact saveRates_isOk.mp ⟨stored, hsave⟩
    | failed e error hno => exact absurd hreads (hno resp rates)
  · intro h
    unfold ibcPacketReceive doIbcPacketReceive
    cases hresp : c.response packet.data with
    | error e => exact ⟨_, _, rfl⟩
    | ok resp =>
        dsimp only
        split_ifs with hstatus
        · exact ⟨_, _, rfl⟩
        · cases hbin : c.fromBase64 resp.result with
          | error e => exact ⟨_, _, rfl⟩
          | ok bin =>
              dsimp only
              cases hrates : c.rates bin with
              | none => exact ⟨_, _, rfl⟩
              | some rates =>
                  obtain ⟨stored, hsave⟩ := (@saveRates_isOk env.time resp.requestId
                    s.config.symbols rates s.rates).mpr
                      (h resp rates ⟨hresp, not_not.mp hstatus, bin, hbin, hrates⟩)
                  refine ⟨.success, { s with rates := stored }, ?_⟩
                  dsimp only
                  rw [hsave]
                  rfl

/-! ### All or nothing -/

/-- A packet gets an acknowledgement: a success when every symbol has a new rate with the
packet's request id, and else the rates are what they were. -/
def AllOrNothing (c : Codec) (s : Storage) (env : Env) (packet : IbcPacket) : Prop :=
  ∃ ack s', ibcPacketReceive c s env packet = .ok (ack, s') ∧
    if ack = .success then
      ∃ resp, c.response packet.data = .ok resp ∧ ∀ symbol ∈ s.config.symbols,
        ∃ rate, s'.rates.mayLoad symbol = some rate ∧ rate.requestId = resp.requestId ∧
          rate.resolveTime = env.time
    else s'.rates = s.rates

/-- Whatever is stored, a packet does all or nothing exactly when it is no success, or has no
more rates than there are symbols and one for each symbol. -/
theorem packet_allOrNothing_iff (c : Codec) (config : Config) (env : Env) (packet : IbcPacket) :
    (∀ s : Storage, s.config = config → AllOrNothing c s env packet) ↔
      ∀ resp rates, c.Reads packet.data resp rates → rates.length ≤ config.symbols.length ∧
        ∀ symbol ∈ config.symbols, symbol ∈ config.symbols.take rates.length := by
  constructor
  · intro h resp rates hreads
    -- a store without any rates shows which symbols get one
    obtain ⟨ack, s', hok, hack⟩ := h ⟨config, ∅, none, none, none⟩ rfl
    refine ⟨ibcPacketReceive_isOk.mp ⟨ack, s', hok⟩ resp rates hreads, fun symbol hsymbol => ?_⟩
    cases ibcPacketReceive_ok hok with
    | failed e error hno => exact absurd hreads (hno resp rates)
    | stored resp' rates' stored hreads' hsave hstorage =>
        obtain ⟨rfl, rfl⟩ := hreads.unique hreads'
        rw [if_pos rfl] at hack
        obtain ⟨_, -, hall⟩ := hack
        obtain ⟨rate, hrate, -⟩ := hall symbol hsymbol
        rw [hstorage] at hrate
        have hstored := saveRates_eq_ok hsave symbol
        rw [hrate, Map.mayLoad_empty, Option.or_none] at hstored
        refine rateOf_isSome.mp ?_
        show (rateOf symbol config.symbols rates').isSome = true
        cases hof : rateOf symbol config.symbols rates' with
        | none =>
            rw [hof] at hstored
            cases hstored
        | some r => rfl
  · rintro h s rfl
    obtain ⟨ack, s', hok⟩ := ibcPacketReceive_isOk.mpr fun resp rates hreads =>
      (h resp rates hreads).1
    refine ⟨ack, s', hok, ?_⟩
    cases ibcPacketReceive_ok hok with
    | failed e error hno hstorage =>
        rw [if_neg (by simp), hstorage]
    | stored resp rates stored hreads hsave hstorage =>
        rw [if_pos rfl]
        refine ⟨resp, hreads.response_eq, fun symbol hsymbol => ?_⟩
        have hgiven := rateOf_isSome.mpr ((h resp rates hreads).2 symbol hsymbol)
        obtain ⟨rate, hrate⟩ := Option.isSome_iff_exists.mp hgiven
        refine ⟨⟨rate, env.time, resp.requestId⟩, ?_, rfl, rfl⟩
        rw [hstorage]
        show stored.mayLoad symbol = _
        rw [saveRates_eq_ok hsave, hrate]
        rfl

/-! ### The query -/

/-- The rates are those of the symbols, in the order of the symbols. -/
theorem queryRate_ok {rates : List PriceFeedRate} (h : queryRate s = .ok rates) :
    List.Forall₂ (fun symbol rate => s.rates.mayLoad symbol = some rate)
      (s.config.symbols.insertionSort (· ≤ ·)) rates := by
  have hloads := mapM_eq_ok.mp h
  simpa only [Map.load_eq_ok] using hloads

/-! ### Responses of an oracle -/

/-- A big-endian number. -/
def ofBigEndian (bytes : Bytes) : Nat := bytes.foldl (fun n byte => n * 256 + byte.toNat) 0

/-- As many numbers of eight bytes. -/
def decodeU64s : Nat → Bytes → Option (List Nat)
  | 0, _ => some []
  | n + 1, bytes =>
      if bytes.length < 8 then none
      else (decodeU64s n (bytes.drop 8)).map (ofBigEndian (bytes.take 8) :: ·)

/-- A list of numbers comes after its length. -/
def decodeRates (bytes : Bytes) : Option (List Nat) :=
  if bytes.length < 4 then none
  else decodeU64s (ofBigEndian (bytes.take 4)) (bytes.drop 4)

/-- The response to a request, with its result in base64. -/
def sampleResponse (requestId : Nat) (result : String) : OracleResponsePacketData :=
  ⟨"tge", requestId, 4, 10, 20, .success, result⟩

/-- The text of a response. -/
def sampleData (requestId : Nat) (result : String) : Bytes :=
  ("\x7b\"client_id\":\"tge\",\"request_id\":\"" ++ toString requestId ++
    "\",\"ans_count\":\"4\",\"request_time\":\"10\",\"resolve_time\":\"20\"," ++
    "\"resolve_status\":\"RESOLVE_STATUS_SUCCESS\",\"result\":\"" ++ result ++
    "\"\x7d").toUTF8.data.toList

/-- Results in base64: one rate, two rates and three. -/
def sampleResults : List (String × Bytes) :=
  [("AAAAAQAAAAAAAAAH", [0, 0, 0, 1, 0, 0, 0, 0, 0, 0, 0, 7]),
    ("AAAAAgAAAAAAAAAHAAAAAAAAAAE=",
      [0, 0, 0, 2, 0, 0, 0, 0, 0, 0, 0, 7, 0, 0, 0, 0, 0, 0, 0, 1]),
    ("AAAAAgAAAAAAAAAIAAAAAAAAAAE=",
      [0, 0, 0, 2, 0, 0, 0, 0, 0, 0, 0, 8, 0, 0, 0, 0, 0, 0, 0, 1]),
    ("AAAAAwAAAAAAAAAHAAAAAAAAAAEAAAAAAAAAAw==",
      [0, 0, 0, 3, 0, 0, 0, 0, 0, 0, 0, 7, 0, 0, 0, 0, 0, 0, 0, 1, 0, 0, 0, 0, 0, 0, 0, 3])]

/-- The formats, as far as the samples need them. -/
def sampleCodec : Codec where
  response data :=
    match ([1, 2].product (sampleResults.map Prod.fst)).find? fun r =>
      sampleData r.1 r.2 = data with
    | some r => .ok (sampleResponse r.1 r.2)
    | none => .error (.genericErr "Error parsing")
  fromBase64 text := okOr (sampleResults.lookup text) (.genericErr "Invalid Base64")
  rates := decodeRates

/-- A price feed for two symbols. -/
def sampleInstantiateMsg : InstantiateMsg where
  clientId := "tge"
  oracleScriptId := 3
  askCount := 4
  minCount := 3
  feeLimit := [⟨"uband", 100⟩]
  prepareGas := 60000
  executeGas := 250000
  multiplier := 1
  symbols := ["ATOM", "USDC"]
  owner := none
  maxUpdateInterval := some 10

/-- A response on a channel of the price feed. -/
def samplePacket (channelId : String) (requestId : Nat) (result : String) : IbcPacket :=
  ⟨sampleData requestId result, ⟨"oracle", "channel-9"⟩, ⟨"wasm.feed", channelId⟩, requestId⟩

theorem sample_reads {requestId : Nat} {result : String} {bin : Bytes} {rates : List Nat}
    (h : sampleCodec.response (sampleData requestId result) = .ok (sampleResponse requestId result))
    (hbin : sampleResults.lookup result = some bin) (hrates : decodeRates bin = some rates) :
    sampleCodec.Reads (sampleData requestId result) (sampleResponse requestId result) rates :=
  ⟨h, rfl, bin, okOr_eq_ok.mpr hbin, hrates⟩

/-- Three rates for two symbols: the handler aborts. One rate: it reports success, and one of
the symbols has no rate. -/
theorem packet_not_allOrNothing :
    ¬ AllOrNothing sampleCodec (instantiate ⟨"owner", []⟩ sampleInstantiateMsg) ⟨50, 1, "feed"⟩
        (samplePacket "channel-0" 1 "AAAAAwAAAAAAAAAHAAAAAAAAAAEAAAAAAAAAAw==") ∧
      ¬ AllOrNothing sampleCodec (instantiate ⟨"owner", []⟩ sampleInstantiateMsg)
        ⟨50, 1, "feed"⟩ (samplePacket "channel-0" 1 "AAAAAQAAAAAAAAAH") := by
  constructor
  · rintro ⟨ack, s', h, -⟩
    have hreads := @sample_reads 1 "AAAAAwAAAAAAAAAHAAAAAAAAAAEAAAAAAAAAAw==" _ _
      (by decide +kernel) rfl rfl
    exact absurd (ibcPacketReceive_isOk.mp ⟨ack, s', h⟩ _ _ hreads) (by decide)
  · rintro ⟨ack, s', h, hack⟩
    have hreads := @sample_reads 1 "AAAAAQAAAAAAAAAH" _ _ (by decide +kernel) rfl rfl
    cases ibcPacketReceive_ok h with
    | failed e error hno => exact absurd hreads (hno _ _)
    | stored resp rates stored hreads' hsave hstorage =>
        obtain ⟨-, rfl⟩ := hreads.unique hreads'
        rw [if_pos rfl] at hack
        obtain ⟨_, -, hall⟩ := hack
        obtain ⟨rate, hrate, -⟩ := hall "USDC" (by decide)
        have hnone := saveRates_eq_ok hsave "USDC"
        rw [hstorage] at hrate
        rw [hrate] at hnone
        cases hnone

end NeutronTge.PriceFeed
