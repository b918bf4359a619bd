import NeutronTge.CosmWasm.Run
import NeutronTge.Oracle.Contract

/-!
# NeutronTge.Oracle.History

Runs of the oracle, and what they do to the answers about past heights. `Extends` is what one
transaction leaves alone: the pair and the precisions once they are set, and what is stored for
the present height and the earlier ones. With it an answer of `TWAPAtHeight` can change in one
way only. Where the stored average of an asset is zero, the answer is what the pair pays for
the token at the time of the query.
-/

namespace NeutronTge.Oracle

open CosmWasm Astroport

/-- The oracle, the time and the pair it asks. -/
structure World where
  storage : Storage
  env : Env
  /-- The answers of the other contracts. -/
  querier : Querier

/-- What happens in a run. -/
inductive Action
  | execute (info : MessageInfo) (msg : ExecuteMsg)
  /-- Time passes. -/
  | advance (seconds blocks : Nat)
  /-- Somebody trades, or does anything else to other contracts. -/
  | others (querier : Querier)

/-- One action of a run. -/
def World.exec (w : World) : Action → Except ContractError World
  | .execute info msg => do
      let s ← Oracle.execute w.querier w.storage w.env info msg
      .ok { w with storage := s }
  | .advance seconds blocks =>
      .ok { w with env :=
        { w.env with time := w.env.time + seconds, height := w.env.height + blocks } }
  | .others querier => .ok { w with querier := querier }

/-- The answer to `TWAPAtHeight`. -/
def World.twapAtHeight (w : World) (token : AssetInfo) (height : Nat) :
    Except ContractError (List (AssetInfo × Decimal256)) :=
  Oracle.twapAtHeight w.querier w.storage token height

/-- The contract right after `instantiate`. -/
def Started (w : World) : Prop := ∃ info msg, instantiate info msg = .ok w.storage

/-! ### What a transaction changes -/

/-- The part of the storage that answers about height `now` and the earlier ones rest on. -/
structure Extends (now : Nat) (s s' : Storage) : Prop where
  written : s.priceLast.Written now s'.priceLast
  pair : s.config.pair.isSome = true → s'.config.pair = s.config.pair
  precisions : s.config.pair.isSome = true → s'.precisions = s.precisions

/-- The assets are set together with the pair, and there are no prices before. -/
structure Storage.Valid (s : Storage) : Prop where
  together : s.config.pair.isSome = true → s.config.assetInfos.isSome = true
  unpaired : s.config.pair = none → s.priceLast = .empty

section Steps

variable {q : Querier} {s s' : Storage} {env : Env} {info : MessageInfo}

theorem setAssetInfos_ok {assetInfos : List AssetInfo}
    (h : setAssetInfos q s info assetInfos = .ok s') :
    s.config.assetInfos = none ∧ ∃ pairInfo precisions, s' = { s with
      config := { s.config with assetInfos := some assetInfos, pair := some pairInfo }
      precisions := precisions } := by
  unfold setAssetInfos at h
  simp only [bind_eq_ok, rejectIf_eq_ok, exists_const, mapError_eq_ok, Except.ok.injEq] at h
  obtain ⟨-, hunset, precisions, -, pairInfo, -, rfl⟩ := h
  exact ⟨by simpa using hunset, pairInfo, precisions, rfl⟩

theorem update_ok (h : update q s env = .ok s') :
    s.config.pair.isSome = true ∧ ∃ last, s' = { s with
      priceLast := s.priceLast.save () last env.height } := by
  unfold update at h
  simp only [bind_eq_ok, okOr_eq_ok, mapError_eq_ok, Except.ok.injEq] at h
  obtain ⟨pair, hpair, prices, -, averagePrices, -, rfl⟩ := h
  exact ⟨by rw [hpair]; rfl, _, rfl⟩

/-- A message that leaves everything but the period and the manager alone. -/
theorem extends_of_config {config : Config} (hpair : config.pair = s.config.pair) :
    Extends env.height s { s with config := config } where
  written := .refl
  pair _ := hpair
  precisions _ := rfl

theorem execute_extends {msg : ExecuteMsg} (hvalid : s.Valid)
    (h : execute q s env info msg = .ok s') : Extends env.height s s' ∧ s'.Valid := by
  cases msg with
  | update =>
      obtain ⟨hpair, last, rfl⟩ := update_ok h
      have hsome : s.config.pair ≠ none := by
        rintro hnone
        simp [hnone] at hpair
      exact ⟨⟨.save () last, fun _ => rfl, fun _ => rfl⟩,
        ⟨hvalid.together, fun hnone => absurd hnone hsome⟩⟩
  | updatePeriod newPeriod =>
      simp only [execute, updatePeriod, bind_eq_ok, Except.ok.injEq] at h
      obtain ⟨_, -, rfl⟩ := h
      exact ⟨extends_of_config rfl, ⟨hvalid.together, hvalid.unpaired⟩⟩
  | updateManager newManager =>
      simp only [execute, updateManager, bind_eq_ok, Except.ok.injEq] at h
      obtain ⟨_, -, rfl⟩ := h
      exact ⟨extends_of_config rfl, ⟨hvalid.together, hvalid.unpaired⟩⟩
  | setAssetInfos assetInfos =>
      obtain ⟨hunset, pairInfo, precisions, rfl⟩ := setAssetInfos_ok h
      -- the assets are unset, so there is no pair either
      have hnone : ¬ s.config.pair.isSome = true := by
        intro hpair
        simpa [hunset] using hvalid.together hpair
      exact ⟨⟨.refl, fun hpair => absurd hpair hnone, fun hpair => absurd hpair hnone⟩,
        ⟨fun _ => rfl, fun h => by cases h⟩⟩

end Steps

/-! ### Runs -/

/-- What holds of the state at every moment. -/
structure World.Inv (w : World) : Prop where
  valid : w.storage.Valid
  bounded : w.storage.priceLast.BoundedBy w.env.height

/-- What a later state has kept of an earlier one. -/
structure Kept (w w' : World) : Prop where
  height : w.env.height ≤ w'.env.height
  stored : ∀ height ≤ w.env.height, w'.storage.priceLast.mayLoadAtHeight () height =
    w.storage.priceLast.mayLoadAtHeight () height
  pair : w.storage.config.pair.isSome = true →
    w'.storage.config.pair = w.storage.config.pair
  precisions : w.storage.config.pair.isSome = true →
    w'.storage.precisions = w.storage.precisions

theorem Kept.refl (w : World) : Kept w w :=
  ⟨Nat.le_refl _, fun _ _ => rfl, fun _ => rfl, fun _ => rfl⟩

theorem Kept.trans {w₁ w₂ w₃ : World} (h : Kept w₁ w₂) (h' : Kept w₂ w₃) : Kept w₁ w₃ where
  height := h.height.trans h'.height
  stored height hle := (h'.stored height (hle.trans h.height)).trans (h.stored height hle)
  pair hsome := (h'.pair (by rw [h.pair hsome]; exact hsome)).trans (h.pair hsome)
  precisions hsome := (h'.precisions (by rw [h.pair hsome]; exact hsome)).trans (h.precisions hsome)

theorem exec_kept {w w' : World} {a : Action} (hinv : w.Inv) (h : w.exec a = .ok w') :
    w'.Inv ∧ Kept w w' := by
  cases a with
  | execute info msg =>
      simp only [World.exec, bind_eq_ok, Except.ok.injEq] at h
      obtain ⟨s, hexec, rfl⟩ := h
      obtain ⟨hextends, hvalid⟩ := execute_extends hinv.valid hexec
      refine ⟨⟨hvalid, hextends.written.boundedBy hinv.bounded⟩, Nat.le_refl _, ?_,
        hextends.pair, hextends.precisions⟩
      exact fun height hle => hextends.written.mayLoadAtHeight hinv.bounded hle ()
  | advance seconds blocks =>
      obtain rfl := Except.ok.inj h
      exact ⟨⟨hinv.valid, hinv.bounded.mono (Nat.le_add_right _ _)⟩, Nat.le_add_right _ _,
        fun _ _ => rfl, fun _ => rfl, fun _ => rfl⟩
  | others querier =>
      obtain rfl := Except.ok.inj h
      exact ⟨⟨hinv.valid, hinv.bounded⟩, Nat.le_refl _, fun _ _ => rfl, fun _ => rfl, fun _ => rfl⟩

theorem Started.inv {w : World} (h : Started w) : w.Inv := by
  obtain ⟨info, msg, hinit⟩ := h
  unfold instantiate at hinit
  simp only [bind_eq_ok, Except.ok.injEq] at hinit
  obtain ⟨factory, -, hstorage⟩ := hinit
  refine ⟨⟨?_, ?_⟩, ?_⟩ <;> rw [← hstorage]
  · exact fun hpair => by cases hpair
  · exact fun _ => rfl
  · exact SnapshotMap.boundedBy_empty _

theorem run_inv {w : World} (hinv : w.Inv) (as : List Action) : (run World.exec w as).Inv :=
  run_invariant World.Inv (fun _ _ _ h hexec => (exec_kept h hexec).1) hinv

theorem run_kept {w : World} (hinv : w.Inv) (as : List Action) :
    Kept w (run World.exec w as) :=
  run_relation_along World.Inv Kept Kept.refl (fun _ _ _ => Kept.trans)
    (fun _ _ _ h _ hexec => (exec_kept h hexec).1) (fun _ _ _ h _ hexec => (exec_kept h hexec).2)
    hinv along_true

/-! ### Answers about past heights -/

/-- The average that was stored for an asset is zero. -/
def ZeroAverage (w : World) (token : AssetInfo) (height : Nat) (asset : AssetInfo) : Prop :=
  ∃ priceLast average, w.storage.priceLast.mayLoadAtHeight () height = some priceLast ∧
    (asset, average) ∈ averagesOf token priceLast ∧ average.atomics = 0

/-- What is known of the answer in another state. -/
structure SameTwaps (w w' : World) (token : AssetInfo) (height : Nat)
    (prices : List (AssetInfo × Decimal256)) : Prop where
  /-- The assets are the same, and the prices are where no average is zero. -/
  priced : ∀ {prices'}, w'.twapAtHeight token height = .ok prices' →
    List.Forall₂ (fun p p' => p'.1 = p.1 ∧ (¬ ZeroAverage w token height p.1 → p'.2 = p.2))
      prices prices'
  /-- Everything is the same if the pair still pays the same where an average is zero. -/
  equal : (∀ asset, ZeroAverage w token height asset → ∀ pair one,
      w'.querier.simulation pair ⟨token, one⟩ (some asset) =
        w.querier.simulation pair ⟨token, one⟩ (some asset)) →
    w'.twapAtHeight token height = .ok prices

/-! ### Lists read off one list -/

section Lists

variable {α β γ : Type} {R : α → β → Prop} {T : α → γ → Prop} {xs : List α} {ys : List β}
  {zs : List γ}

theorem forall₂_of_mem (h : List.Forall₂ R xs ys) {R' : α → β → Prop}
    (hR : ∀ x y, x ∈ xs → R x y → R' x y) : List.Forall₂ R' xs ys := by
  induction h with
  | nil => exact .nil
  | cons hxy _ ih =>
      exact .cons (hR _ _ List.mem_cons_self hxy)
        (ih fun x y hx => hR x y (List.mem_cons_of_mem _ hx))

theorem forall₂_of_common {Q : β → γ → Prop} (h : List.Forall₂ R xs ys)
    (h' : List.Forall₂ T xs zs) (hQ : ∀ x y z, x ∈ xs → R x y → T x z → Q y z) :
    List.Forall₂ Q ys zs := by
  induction h generalizing zs with
  | nil =>
      cases h'
      exact .nil
  | cons hxy _ ih =>
      cases h' with
      | cons hxz hrest =>
          exact .cons (hQ _ _ _ List.mem_cons_self hxy hxz)
            (ih hrest fun x y z hx => hQ x y z (List.mem_cons_of_mem _ hx))

end Lists

section Twap

variable {q : Querier} {s : Storage} {token : AssetInfo} {height : Nat}
  {prices : List (AssetInfo × Decimal256)}

/-- What an answer is made of. -/
theorem twapAtHeight_eq_ok : twapAtHeight q s token height = .ok prices ↔
    ∃ pair priceLast p one, s.config.pair = some pair ∧
      s.priceLast.mayLoadAtHeight () height = some priceLast ∧
      averagesOf token priceLast ≠ [] ∧ getPrecision s token = .ok p ∧ powTen p = .ok one ∧
      List.Forall₂ (fun average price => twapPrice q pair token one average = .ok price)
        (averagesOf token priceLast) prices := by
  unfold twapAtHeight
  simp only [bind_eq_ok, okOr_eq_ok, rejectIf_eq_ok, exists_const, mapError_eq_ok, mapM_eq_ok]
  constructor
  · rintro ⟨pair, hpair, priceLast, hlast, hne, p, hp, one, hone, hprices⟩
    exact ⟨pair, priceLast, p, one, hpair, hlast, hne, hp, hone, hprices⟩
  · rintro ⟨pair, priceLast, p, one, hpair, hlast, hne, hp, hone, hprices⟩
    exact ⟨pair, hpair, priceLast, hlast, hne, p, hp, one, hone, hprices⟩

theorem twapPrice_fst {pair : PairInfo} {one : Nat} {average price : AssetInfo × Decimal256}
    (h : twapPrice q pair token one average = .ok price) : price.1 = average.1 := by
  unfold twapPrice at h
  split_ifs at h
  · simp only [bind_eq_ok, Except.ok.injEq] at h
    obtain ⟨_, -, _, -, _, -, _, -, rfl⟩ := h
    rfl
  · obtain rfl := Except.ok.inj h
    rfl

/-- Without a zero average the pair is not asked. -/
theorem twapPrice_congr {q' : Querier} {pair : PairInfo} {one : Nat}
    {average : AssetInfo × Decimal256}
    (h : average.2.atomics = 0 → q'.simulation pair.contractAddr ⟨token, one⟩ (some average.1) =
      q.simulation pair.contractAddr ⟨token, one⟩ (some average.1)) :
    twapPrice q' pair token one average = twapPrice q pair token one average := by
  unfold twapPrice
  by_cases hzero : average.2.atomics = 0
  · rw [if_pos hzero, if_pos hzero, h hzero]
  · rw [if_neg hzero, if_neg hzero]

/-- Two states with the same pair, precisions and stored averages. -/
theorem sameTwaps_of_stored {w w' : World}
    (hanswer : w.twapAtHeight token height = .ok prices)
    (hpair : w'.storage.config.pair = w.storage.config.pair)
    (hprecisions : w'.storage.precisions = w.storage.precisions)
    (hstored : w'.storage.priceLast.mayLoadAtHeight () height =
      w.storage.priceLast.mayLoadAtHeight () height) : SameTwaps w w' token height prices := by
  obtain ⟨pair, priceLast, p, one, hp, hlast, hne, hprec, hone, hprices⟩ :=
    twapAtHeight_eq_ok.mp hanswer
  have hprec' : getPrecision w'.storage token = .ok p := by
    unfold getPrecision at hprec ⊢
    rw [hprecisions, hprec]
  constructor
  · intro prices' h'
    obtain ⟨pair', priceLast', p', one', hp', hlast', -, hprec'', hone', hprices'⟩ :=
      twapAtHeight_eq_ok.mp h'
    obtain rfl := Option.some.inj ((hpair.trans hp).symm.trans hp')
    obtain rfl := Option.some.inj ((hstored.trans hlast).symm.trans hlast')
    obtain rfl := Except.ok.inj (hprec'.symm.trans hprec'')
    obtain rfl := Except.ok.inj (hone.symm.trans hone')
    refine forall₂_of_common hprices hprices' fun average price price' hmem hprice hprice' => ?_
    refine ⟨(twapPrice_fst hprice').trans (twapPrice_fst hprice).symm, fun hnot => ?_⟩
    rw [twapPrice_fst hprice] at hnot
    have hsame : twapPrice w'.querier pair token one average =
        twapPrice w.querier pair token one average :=
      twapPrice_congr fun hzero => absurd ⟨priceLast, average.2, hlast, hmem, hzero⟩ hnot
    rw [Except.ok.inj (hprice'.symm.trans (hsame.trans hprice))]
  · intro hsimulation
    refine twapAtHeight_eq_ok.mpr ⟨pair, priceLast, p, one, hpair.trans hp, hstored.trans hlast,
      hne, hprec', hone, ?_⟩
    refine forall₂_of_mem hprices fun average price hmem hprice => ?_
    rw [twapPrice_congr fun hzero =>
      hsimulation _ ⟨priceLast, average.2, hlast, hmem, hzero⟩ _ _]
    exact hprice

end Twap

/-- Two runs that agree until a height is past: what one of them answers about the height, the
other answers as well, except for the prices of assets whose stored average is zero. -/
theorem twap_stable {w₀ : World} (hstarted : Started w₀) (as bs cs : List Action)
    {token : AssetInfo} {height : Nat} {prices : List (AssetInfo × Decimal256)}
    (hpast : height ≤ (run World.exec w₀ as).env.height)
    (hanswer : (run World.exec w₀ (as ++ bs)).twapAtHeight token height = .ok prices) :
    SameTwaps (run World.exec w₀ (as ++ bs)) (run World.exec w₀ (as ++ cs)) token height
      prices := by
  have hinv : (run World.exec w₀ as).Inv := run_inv hstarted.inv as
  rw [run_append] at hanswer ⊢
  rw [run_append]
  generalize run World.exec w₀ as = w at hpast hanswer hinv ⊢
  have hb : Kept w (run World.exec w bs) := run_kept hinv bs
  have hc : Kept w (run World.exec w cs) := run_kept hinv cs
  have hpair : w.storage.config.pair.isSome = true := by
    obtain ⟨_, priceLast, _, _, -, hlast, -⟩ := twapAtHeight_eq_ok.mp hanswer
    rw [hb.stored height hpast] at hlast
    by_contra hnone
    -- without a pair nothing was stored
    rw [hinv.valid.unpaired (by simpa using hnone)] at hlast
    cases hlast
  refine sameTwaps_of_stored hanswer ?_ ?_ ?_
  · rw [hc.pair hpair, hb.pair hpair]
  · rw [hc.precisions hpair, hb.precisions hpair]
  · rw [hc.stored height hpast, hb.stored height hpast]

/-! ### A pair of two native tokens -/

/-- The tokens of the small market. -/
def sampleTokens : AssetInfo × AssetInfo := (.nativeToken "untrn", .nativeToken "usdc")

/-- The prices add up to `cumulative` by now, and the pair pays `price` for one token. -/
def sampleQuerier (cumulative price : Nat) : Querier where
  tokenPrecision _ _ := .ok 6
  pairInfo _ assetInfos := .ok ⟨assetInfos, "pair", "lp_token"⟩
  cumulativePrices _ := .ok [(sampleTokens.1, sampleTokens.2, cumulative)]
  simulation _ _ _ := .ok price

/-- An oracle whose assets are not set yet. -/
def sampleStart : World where
  storage := ⟨⟨"owner", "factory", none, none, 10, "manager"⟩, .empty, ∅⟩
  env := ⟨100, 1, "oracle"⟩
  querier := sampleQuerier 0 1000000

theorem sampleStart_started : Started sampleStart := by
  have hfactory : addrValidateToLower "factory" = .ok "factory" := by decide +kernel
  refine ⟨⟨"owner", []⟩, ⟨"factory", 10, "manager"⟩, ?_⟩
  unfold instantiate
  show (addrValidateToLower "factory" >>= _) = _
  rw [hfactory]
  rfl

/-- The first update, and a block after it. -/
def sampleFirst : List Action :=
  [.execute ⟨"manager", []⟩ (.setAssetInfos [sampleTokens.1, sampleTokens.2]),
    .execute ⟨"bob", []⟩ .update, .advance 20 1]

/-- The second update finds that the price moved. -/
def sampleSecond : List Action :=
  [.others (sampleQuerier 40000000 2000000), .execute ⟨"bob", []⟩ .update, .advance 20 1]

/-- The pair pays something else. -/
def sampleTrade : List Action := [.others (sampleQuerier 100000000 5000000)]

theorem twap_stable_sample :
    SameTwaps (run World.exec sampleStart ((sampleFirst ++ sampleSecond) ++ []))
      (run World.exec sampleStart ((sampleFirst ++ sampleSecond) ++ sampleTrade))
      sampleTokens.1 3 [(sampleTokens.2, ⟨2 * FixedPoint.fractional⟩)] :=
  twap_stable sampleStart_started _ _ _ (by decide +kernel) (by decide +kernel)

/-- After the first update the answer about a past height follows the pair. -/
theorem twap_moves :
    Started sampleStart ∧
      (run World.exec sampleStart (sampleFirst ++ [.advance 1 1])).env.height = 3 ∧
      (run World.exec sampleStart (sampleFirst ++ [.advance 1 1])).twapAtHeight
        sampleTokens.1 2 = .ok [(sampleTokens.2, ⟨FixedPoint.fractional⟩)] ∧
      (run World.exec sampleStart (sampleFirst ++ [.advance 1 1] ++ sampleTrade)).twapAtHeight
        sampleTokens.1 2 = .ok [(sampleTokens.2, ⟨5 * FixedPoint.fractional⟩)] :=
  ⟨sampleStart_started, by decide +kernel⟩

end NeutronTge.Oracle
