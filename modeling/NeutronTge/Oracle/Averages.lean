import NeutronTge.CosmWasm.Counter
import NeutronTge.Oracle.History

/-!
# NeutronTge.Oracle.Averages

What the oracle's averages mean. A pair adds up the price of each direction, second by second,
in counters of 128 bits that wrap around (`Market`). When the pair of every update answers with
such counters, what is stored after the update is the mean price of the time since the update
before, and what `TWAPAtHeight` and `Consult` answer lies between the lowest and the highest
price of that time.
-/

namespace NeutronTge.Oracle

open CosmWasm Astroport

/-- A direction of a pair: the price of `offer` in `ask` at every second, in units of
`1 / 10 ^ twapPrecision`, and where its counter started. -/
structure Direction where
  offer : AssetInfo
  ask : AssetInfo
  start : Nat
  price : Nat → Nat

/-- The directions of a pair, each of them once. -/
structure Market where
  directions : List Direction
  distinct : (directions.map fun d => (d.offer, d.ask)).Nodup

namespace Market

variable (m : Market)

/-- What the pair answers to `CumulativePrices`. -/
def cumulative (now : Nat) : List (AssetInfo × AssetInfo × Nat) :=
  m.directions.map fun d => (d.offer, d.ask, reading (2 ^ 128) d.start d.price now)

/-- The mean prices from `t` until `t'`. -/
def averages (t t' : Nat) : List (AssetInfo × AssetInfo × Decimal256) :=
  m.directions.map fun d => (d.offer, d.ask, ⟨mean FixedPoint.fractional d.price t t'⟩)

/-- The averages while there is nothing to compare with. -/
def unknown : List (AssetInfo × AssetInfo × Decimal256) :=
  m.directions.map fun d => (d.offer, d.ask, FixedPoint.zero)

end Market

/-! ### One update -/

/-- Where the keys of a list are distinct, one entry has the key of an entry. -/
theorem filter_key_eq {α κ : Type} [DecidableEq κ] {key : α → κ} : ∀ {xs : List α},
    (xs.map key).Nodup → ∀ {x}, x ∈ xs → (xs.filter fun y => key y = key x) = [x] := by
  intro xs
  induction xs with
  | nil => intro _ x hx; cases hx
  | cons a xs ih =>
      intro hnodup x hx
      rw [List.map_cons, List.nodup_cons] at hnodup
      obtain ⟨ha, hrest⟩ := hnodup
      rcases List.mem_cons.mp hx with rfl | hx
      · have hnone : (xs.filter fun y => key y = key x) = [] := by
          rw [List.filter_eq_nil_iff]
          intro y hy heq
          exact ha (of_decide_eq_true heq ▸ List.mem_map_of_mem hy)
        rw [List.filter_cons_of_pos (by simp), hnone]
      · have hne : key a ≠ key x := fun heq => ha (heq ▸ List.mem_map_of_mem hx)
        rw [List.filter_cons_of_neg (by simpa using hne), ih hrest hx]

/-- No counter went all the way around from `t` until `t'`. -/
def Market.Paced (m : Market) (t t' : Nat) : Prop :=
  ∀ d ∈ m.directions, accrued d.price t t' < 2 ^ 128

section Update

variable {m : Market} {t t' : Nat}

theorem averagesSince_eq (hle : t ≤ t') (hpaced : m.Paced t t')
    {averages : List (AssetInfo × AssetInfo × Decimal256)}
    (h : averagesSince (t' - t) (m.cumulative t) (m.cumulative t') = .ok averages) :
    averages = m.averages t t' ∧ (m.directions ≠ [] → t < t') := by
  -- each direction of the last time meets the same direction of this time
  have hpairs : ((m.cumulative t).flatMap fun l =>
      ((m.cumulative t').filter fun p => p.1 = l.1 ∧ p.2.1 = l.2.1).map fun p => (p, l.2.2)) =
        m.directions.map fun d =>
          ((d.offer, d.ask, reading (2 ^ 128) d.start d.price t'),
            reading (2 ^ 128) d.start d.price t) := by
    unfold Market.cumulative
    rw [List.flatMap_map]
    refine (List.flatMap_congr fun d hd => ?_).trans List.map_eq_flatMap.symm
    have hone := filter_key_eq m.distinct hd
    simp only [Prod.mk.injEq] at hone
    rw [List.filter_map, Function.comp_def]
    simp only [hone, List.map_cons, List.map_nil]
  have hall := mapM_eq_ok.mp h
  rw [hpairs, List.forall₂_map_left_iff] at hall
  have heach : List.Forall₂ (fun d average => t < t' ∧
      average = (d.offer, d.ask, ⟨mean FixedPoint.fractional d.price t t'⟩)) m.directions
        averages := by
    refine forall₂_of_mem hall fun d average hd haverage => ?_
    simp only [bind_eq_ok, Except.ok.injEq] at haverage
    obtain ⟨x, hx, rfl⟩ := haverage
    obtain ⟨hpos, -, hatomics⟩ := FixedPoint.fromRatio_eq_ok.mp hx
    unfold wrappingSub at hatomics
    rw [reading_sub hle (hpaced d hd)] at hatomics
    refine ⟨by omega, ?_⟩
    rw [show x = ⟨mean FixedPoint.fractional d.price t t'⟩ from congrArg FixedPoint.mk hatomics]
  constructor
  · rw [Market.averages, ← List.forall₂_eq_eq_eq, List.forall₂_map_right_iff]
    exact (heach.imp fun _ _ h => h.2).flip
  · intro hne
    obtain ⟨d, ds, hds⟩ := List.exists_cons_of_ne_nil hne
    rw [hds] at heach
    cases heach with
    | cons hd _ => exact hd.1

end Update

/-! ### Runs -/

/-- An update that succeeded. -/
structure Update where
  time : Nat
  height : Nat
  /-- The `period` of that moment. -/
  period : Nat
  deriving Repr, DecidableEq

/-- The update that an action asks for, with the period of that moment. -/
def Action.update? (w : World) : Action → Option Update
  | .execute _ .update => some ⟨w.env.time, w.env.height, w.storage.config.period⟩
  | _ => none

/-- The updates of a run, the last one first. -/
def updates (w : World) (as : List Action) : List Update :=
  history World.exec (fun w a _ record => (a.update? w).toList ++ record) w [] as

namespace Market

variable (m : Market)

/-- The pair of an update answers with the counters, and none of them went all the way around
since the update before. -/
def Feeds (w : World) : Action → Prop
  | .execute _ .update =>
      (∀ pair, w.storage.config.pair = some pair →
        w.querier.cumulativePrices pair.contractAddr = .ok (m.cumulative w.env.time)) ∧
      ∀ last, w.storage.priceLast.mayLoad () = some last →
        m.Paced last.blockTimestampLast w.env.time
  | _ => True

/-- What is stored after some updates: nothing, prices without averages, or prices with the
averages of the time between the two last updates. -/
def stored : List Update → Option PriceCumulativeLast
  | [] => none
  | [u] => some ⟨m.cumulative u.time, m.unknown, u.time⟩
  | u :: p :: _ => some ⟨m.cumulative u.time, m.averages p.time u.time, u.time⟩

/-- An update and the one before it. -/
def Spaced (u p : Update) : Prop :=
  p.time + u.period ≤ u.time ∧ (m.directions ≠ [] → p.time < u.time)

/-- The storage is what the updates make of the prices. -/
structure Recorded (w : World) (record : List Update) : Prop where
  stored : ∀ height, w.storage.priceLast.mayLoadAtHeight () height =
    m.stored (record.filter fun u => u.height < height)
  bounded : w.storage.priceLast.BoundedBy w.env.height
  spaced : record.IsChain m.Spaced
  past : ∀ u ∈ record, u.time ≤ w.env.time ∧ u.height ≤ w.env.height

end Market

section Runs

variable {m : Market} {w w' : World} {record : List Update}

/-- At a later height every update is in the past. -/
theorem Market.Recorded.filter_eq (h : m.Recorded w record) {height : Nat}
    (hlt : w.env.height < height) : (record.filter fun u => u.height < height) = record := by
  rw [List.filter_eq_self]
  intro u hu
  have := (h.past u hu).2
  simp only [decide_eq_true_eq]
  omega

theorem Market.Recorded.latest (h : m.Recorded w record) :
    w.storage.priceLast.mayLoad () = m.stored record := by
  have hlt : w.env.height < w.env.height + 1 := Nat.lt_succ_self _
  rw [← SnapshotMap.mayLoadAtHeight_of_lt h.bounded hlt, h.stored, h.filter_eq hlt]

theorem Market.stored_cons (m : Market) (p : Update) (rest : List Update) :
    ∃ averages, m.stored (p :: rest) = some ⟨m.cumulative p.time, averages, p.time⟩ := by
  cases rest with
  | nil => exact ⟨_, rfl⟩
  | cons _ _ => exact ⟨_, rfl⟩

/-- All that an update does. -/
theorem update_inv {q : Querier} {s s' : Storage} {env : Env} (h : update q s env = .ok s') :
    ∃ pair prices averages, s.config.pair = some pair ∧
      q.cumulativePrices pair.contractAddr = .ok prices ∧
      newAverages s env prices = .ok averages ∧
      s' = { s with priceLast := s.priceLast.save () ⟨prices, averages, env.time⟩ env.height } := by
  unfold update at h
  simp only [bind_eq_ok, okOr_eq_ok, mapError_eq_ok, Except.ok.injEq] at h
  obtain ⟨pair, hpair, prices, hprices, averages, haverages, rfl⟩ := h
  exact ⟨pair, prices, averages, hpair, hprices, haverages, rfl⟩

/-- The averages of an update, and the time since the update before. -/
theorem newAverages_stored {s : Storage} {env : Env}
    {averages : List (AssetInfo × AssetInfo × Decimal256)}
    (hlatest : s.priceLast.mayLoad () = m.stored record)
    (hpaced : ∀ last, s.priceLast.mayLoad () = some last →
      m.Paced last.blockTimestampLast env.time)
    (h : newAverages s env (m.cumulative env.time) = .ok averages) :
    m.stored (⟨env.time, env.height, s.config.period⟩ :: record) =
        some ⟨m.cumulative env.time, averages, env.time⟩ ∧
      ∀ p ∈ record.head?, m.Spaced ⟨env.time, env.height, s.config.period⟩ p := by
  unfold newAverages at h
  cases record with
  | nil =>
      rw [hlatest] at h
      simp only [Market.stored, Except.ok.injEq] at h
      obtain rfl := h
      refine ⟨?_, fun p hp => by cases hp⟩
      simp only [Market.stored, Market.cumulative, Market.unknown, List.map_map, Function.comp_def]
  | cons p rest =>
      obtain ⟨earlier, hstored⟩ := m.stored_cons p rest
      rw [hstored] at hlatest
      have hpaced := hpaced _ hlatest
      rw [hlatest] at h
      simp only [bind_eq_ok, mapError_eq_ok, Uint.sub_eq_ok, rejectIf_eq_ok, exists_const,
        Nat.not_lt] at h
      obtain ⟨_, ⟨hle, rfl⟩, hperiod, haverages⟩ := h
      obtain ⟨rfl, hlt⟩ := averagesSince_eq hle hpaced haverages
      refine ⟨rfl, fun p' hp' => ?_⟩
      obtain rfl := Option.some.inj hp'
      exact ⟨Nat.add_comm .. ▸ Nat.add_le_of_le_sub hle hperiod, hlt⟩

/-- The other messages leave the prices alone. -/
theorem execute_priceLast {q : Querier} {s s' : Storage} {env : Env} {info : MessageInfo}
    {msg : ExecuteMsg} (h : execute q s env info msg = .ok s') (hne : msg ≠ .update) :
    s'.priceLast = s.priceLast := by
  cases msg with
  | update => exact absurd rfl hne
  | updatePeriod newPeriod =>
      simp only [execute, updatePeriod, bind_eq_ok, Except.ok.injEq] at h
      obtain ⟨_, -, rfl⟩ := h
      rfl
  | updateManager newManager =>
      simp only [execute, updateManager, bind_eq_ok, Except.ok.injEq] at h
      obtain ⟨_, -, rfl⟩ := h
      rfl
  | setAssetInfos assetInfos =>
      obtain ⟨-, _, _, rfl⟩ := setAssetInfos_ok h
      rfl

/-- Nothing was stored, and time did not go back. -/
theorem Market.Recorded.of_same (h : m.Recorded w record)
    (hprices : w'.storage.priceLast = w.storage.priceLast) (htime : w.env.time ≤ w'.env.time)
    (hheight : w.env.height ≤ w'.env.height) : m.Recorded w' record where
  stored height := by rw [hprices, h.stored]
  bounded := hprices ▸ h.bounded.mono hheight
  spaced := h.spaced
  past u hu := ⟨(h.past u hu).1.trans htime, (h.past u hu).2.trans hheight⟩

theorem Market.Recorded.update (h : m.Recorded w record) {s : Storage} {info : MessageInfo}
    (hfeeds : m.Feeds w (.execute info .update)) (hok : update w.querier w.storage w.env = .ok s) :
    m.Recorded { w with storage := s }
      (⟨w.env.time, w.env.height, w.storage.config.period⟩ :: record) := by
  obtain ⟨pair, prices, averages, hpair, hprices, haverages, rfl⟩ := update_inv hok
  obtain ⟨hanswer, hpaced⟩ := hfeeds
  obtain rfl := Except.ok.inj ((hanswer pair hpair).symm.trans hprices)
  obtain ⟨hstored, hspaced⟩ := newAverages_stored h.latest hpaced haverages
  constructor
  · intro height
    rcases Nat.lt_or_ge w.env.height height with hlt | hge
    · -- after this block
      rw [SnapshotMap.mayLoadAtHeight_of_lt (h.bounded.save () _) hlt, SnapshotMap.mayLoad_save,
        List.filter_cons_of_pos (by simpa using hlt), h.filter_eq hlt, hstored]
    · rw [SnapshotMap.mayLoadAtHeight_save h.bounded hge, h.stored,
        List.filter_cons_of_neg (by simpa using hge)]
  · exact h.bounded.save () _
  · exact List.isChain_cons.mpr ⟨hspaced, h.spaced⟩
  · intro u hu
    rcases List.mem_cons.mp hu with rfl | hu
    · exact ⟨Nat.le_refl _, Nat.le_refl _⟩
    · exact h.past u hu

theorem exec_recorded {a : Action} (h : m.Recorded w record) (hfeeds : m.Feeds w a)
    (hok : w.exec a = .ok w') : m.Recorded w' ((a.update? w).toList ++ record) := by
  cases a with
  | execute info msg =>
      simp only [World.exec, bind_eq_ok, Except.ok.injEq] at hok
      obtain ⟨s, hexec, rfl⟩ := hok
      by_cases hupdate : msg = .update
      · subst hupdate
        exact h.update hfeeds hexec
      · have hnone : (Action.execute info msg).update? w = none := by
          cases msg <;> first | rfl | exact absurd rfl hupdate
        rw [hnone]
        exact h.of_same (execute_priceLast hexec hupdate) (Nat.le_refl _) (Nat.le_refl _)
  | advance seconds blocks =>
      obtain rfl := Except.ok.inj hok
      exact h.of_same rfl (Nat.le_add_right _ _) (Nat.le_add_right _ _)
  | others querier =>
      obtain rfl := Except.ok.inj hok
      exact h.of_same rfl (Nat.le_refl _) (Nat.le_refl _)

theorem run_recorded {w₀ : World} (hstarted : Started w₀) {as : List Action}
    (hfeeds : Along World.exec m.Feeds w₀ as) :
    m.Recorded (run World.exec w₀ as) (updates w₀ as) := by
  refine history_invariant_along (P := m.Feeds) m.Recorded
    (fun _ _ _ _ h ha hok => exec_recorded h ha hok) ?_ hfeeds
  have hempty : w₀.storage.priceLast = .empty := by
    obtain ⟨info, msg, hinit⟩ := hstarted
    unfold instantiate at hinit
    simp only [bind_eq_ok, Except.ok.injEq] at hinit
    obtain ⟨factory, -, hstorage⟩ := hinit
    rw [← hstorage]
  constructor
  · intro height
    rw [hempty]
    rfl
  · rw [hempty]
    exact SnapshotMap.boundedBy_empty _
  · exact .nil
  · exact fun u hu => by cases hu

theorem Market.Spaced.trans {u p q : Update} (h : m.Spaced u p) (h' : m.Spaced p q) :
    m.Spaced u q := by
  obtain ⟨hperiod, hlt⟩ := h
  obtain ⟨hperiod', hlt'⟩ := h'
  exact ⟨by omega, fun hne => (hlt' hne).trans (hlt hne)⟩

/-- The updates before a height are spaced as well. -/
theorem Market.Recorded.spaced_filter (h : m.Recorded w record) {height : Nat} {u p : Update}
    {rest : List Update} (hsplit : (record.filter fun u => u.height < height) = u :: p :: rest) :
    m.Spaced u p := by
  have htrans : IsTrans Update m.Spaced := ⟨fun _ _ _ => Market.Spaced.trans⟩
  have hpairwise := (List.isChain_iff_pairwise.mp h.spaced).filter fun u => u.height < height
  rw [hsplit] at hpairwise
  exact List.rel_of_pairwise_cons hpairwise List.mem_cons_self

end Runs

/-! ### Answers -/

/-- One answer for each direction from `token`: what `amount` is worth in units of `1 / unit`,
between the bounds of the price from `t` until `t'`. -/
def Market.Bounded (m : Market) (token : AssetInfo) (t t' amount unit : Nat)
    (answer : List (AssetInfo × Nat)) : Prop :=
  List.Forall₂ (fun d x => x.1 = d.ask ∧ ∀ lo hi, 0 < lo → Between d.price t t' lo hi →
    amount * lo / unit ≤ x.2 ∧ x.2 ≤ amount * hi / unit)
    (m.directions.filter fun d => d.offer = token) answer

section Answers

variable {m : Market} {q : Querier} {pair : PairInfo} {token : AssetInfo} {one : Nat}
  {d : Direction} {t t' : Nat}

theorem averagesOf_averages (cumulative : List (AssetInfo × AssetInfo × Nat)) :
    averagesOf token ⟨cumulative, m.averages t t', t'⟩ =
      (m.directions.filter fun d => d.offer = token).map fun d =>
        (d.ask, ⟨mean FixedPoint.fractional d.price t t'⟩) := by
  unfold averagesOf Market.averages
  rw [List.filter_map, List.map_map]
  rfl

/-- The average of a price that is bounded from below is a price. -/
theorem mean_ne_zero {lo hi : Nat} (hlt : t < t') (hlo : 0 < lo)
    (h : Between d.price t t' lo hi) : mean FixedPoint.fractional d.price t t' ≠ 0 :=
  Nat.ne_of_gt (Nat.lt_of_lt_of_le (Nat.mul_pos hlo FixedPoint.fractional_pos)
    (h.mean_bounds hlt).1)

theorem twapPrice_bounds {x : AssetInfo × Decimal256} (hlt : t < t')
    (hx : twapPrice q pair token one (d.ask, ⟨mean FixedPoint.fractional d.price t t'⟩) = .ok x)
    {lo hi : Nat} (hlo : 0 < lo) (h : Between d.price t t' lo hi) :
    FixedPoint.fractional * lo / 10 ^ twapPrecision ≤ x.2.atomics ∧
      x.2.atomics ≤ FixedPoint.fractional * hi / 10 ^ twapPrecision := by
  unfold twapPrice at hx
  rw [if_neg (mean_ne_zero hlt hlo h)] at hx
  obtain rfl := Except.ok.inj hx
  obtain ⟨hlow, hhigh⟩ := @Between.mean_bounds _ _ _ _ _ FixedPoint.fractional h hlt
  rw [Nat.mul_comm] at hlow hhigh
  exact ⟨Nat.div_le_div_right hlow, Nat.div_le_div_right hhigh⟩

theorem consultPrice_bounds {amount : Nat} {x : AssetInfo × Nat} (hlt : t < t')
    (hx : consultPrice q pair token one amount
      (d.ask, ⟨mean FixedPoint.fractional d.price t t'⟩) = .ok x)
    {lo hi : Nat} (hlo : 0 < lo) (h : Between d.price t t' lo hi) :
    amount * lo / 10 ^ twapPrecision ≤ x.2 ∧ x.2 ≤ amount * hi / 10 ^ twapPrecision := by
  unfold consultPrice at hx
  rw [if_neg (mean_ne_zero hlt hlo h)] at hx
  simp only [bind_eq_ok, Uint.multiplyRatio_eq_ok, Except.ok.injEq] at hx
  obtain ⟨_, ⟨-, -, rfl⟩, rfl⟩ := hx
  obtain ⟨hlow, hhigh⟩ := @Between.mean_bounds _ _ _ _ _ FixedPoint.fractional h hlt
  have hlow' : amount * lo ≤ amount * mean FixedPoint.fractional d.price t t' /
      FixedPoint.fractional := by
    rw [Nat.le_div_iff_mul_le FixedPoint.fractional_pos, Nat.mul_assoc]
    exact Nat.mul_le_mul_left _ hlow
  have hhigh' : amount * mean FixedPoint.fractional d.price t t' / FixedPoint.fractional ≤
      amount * hi := by
    refine Nat.div_le_of_le_mul ?_
    calc amount * mean FixedPoint.fractional d.price t t'
        ≤ amount * (hi * FixedPoint.fractional) := Nat.mul_le_mul_left _ hhigh
      _ = FixedPoint.fractional * (amount * hi) := by ring
  exact ⟨Nat.div_le_div_right hlow', Nat.div_le_div_right hhigh'⟩

theorem consultPrice_fst {amount : Nat} {average : AssetInfo × Decimal256} {x : AssetInfo × Nat}
    (h : consultPrice q pair token one amount average = .ok x) : x.1 = average.1 := by
  unfold consultPrice at h
  split_ifs at h
  · simp only [bind_eq_ok, Except.ok.injEq] at h
    obtain ⟨_, -, _, -, rfl⟩ := h
    rfl
  · simp only [bind_eq_ok, Except.ok.injEq] at h
    obtain ⟨_, -, rfl⟩ := h
    rfl

end Answers

/-! ### A counter that wraps around between two updates -/

/-- From second 100 on a token costs two. -/
def sampleMarket : Market where
  directions := [⟨sampleTokens.1, sampleTokens.2, 2 ^ 128 - 5,
    fun s => if s < 100 then 0 else 2000000⟩]
  distinct := by decide

/-- The counter of the small market wraps around between two updates. -/
def sampleWrap : List Action :=
  .others (sampleQuerier (2 ^ 128 - 5) 1000000) :: sampleFirst ++
    [.others (sampleQuerier 39999995 2000000), .execute ⟨"bob", []⟩ .update, .advance 20 1]

/-- The pair of the small market. -/
def samplePair : PairInfo := ⟨[sampleTokens.1, sampleTokens.2], "pair", "lp_token"⟩

/-- A state in which an update is fed with the prices. -/
theorem sampleMarket_update {w : World} {info : MessageInfo} {last : Option PriceCumulativeLast}
    (hpair : w.storage.config.pair = some samplePair)
    (hanswer : w.querier.cumulativePrices "pair" = .ok (sampleMarket.cumulative w.env.time))
    (hlast : w.storage.priceLast.mayLoad () = last)
    (hpaced : ∀ l ∈ last, sampleMarket.Paced l.blockTimestampLast w.env.time) :
    sampleMarket.Feeds w (.execute info .update) := by
  refine ⟨fun pair h => ?_, fun l hl => hpaced l (hlast ▸ hl)⟩
  obtain rfl := Option.some.inj (hpair.symm.trans h)
  exact hanswer

theorem sampleMarket_feeds : Along World.exec sampleMarket.Feeds sampleStart sampleWrap := by
  have hlast : ((run World.exec sampleStart (sampleWrap.take 5)).storage.priceLast.mayLoad ()) =
      sampleMarket.stored [⟨100, 1, 10⟩] := by decide +kernel
  refine ⟨trivial, trivial, sampleMarket_update (by decide +kernel) (by decide +kernel)
    (by decide +kernel : _ = none) fun l hl => ?_, trivial, trivial,
    sampleMarket_update (by decide +kernel) (by decide +kernel) hlast fun l hl => ?_, trivial,
    trivial⟩
  · cases hl
  · obtain rfl := Option.some.inj hl
    intro d hd
    obtain rfl := List.mem_singleton.mp hd
    decide +kernel

/-! ### Results -/

/-- At every height the storage is what the updates before it make of the prices: from the
second one on, the mean prices of the time between the two last updates. Two updates are at
least the period apart. -/
theorem averages_stored {w₀ : World} (hstarted : Started w₀) (m : Market) (as : List Action)
    (hfeeds : Along World.exec m.Feeds w₀ as) :
    (∀ height, (run World.exec w₀ as).storage.priceLast.mayLoadAtHeight () height =
        m.stored ((updates w₀ as).filter fun u => u.height < height)) ∧
      (updates w₀ as).IsChain m.Spaced :=
  have h := run_recorded hstarted hfeeds
  ⟨h.stored, h.spaced⟩

theorem averages_stored_sample :
    (∀ height, (run World.exec sampleStart sampleWrap).storage.priceLast.mayLoadAtHeight () height =
        sampleMarket.stored
          ((updates sampleStart sampleWrap).filter fun u => u.height < height)) ∧
      (updates sampleStart sampleWrap).IsChain sampleMarket.Spaced :=
  averages_stored sampleStart_started sampleMarket sampleWrap sampleMarket_feeds

/-- What `TWAPAtHeight` answers about a height after two updates lies, for each direction from
the token, between the lowest and the highest price of the time between these updates. -/
theorem twap_between {w₀ : World} (hstarted : Started w₀) (m : Market) (as : List Action)
    (hfeeds : Along World.exec m.Feeds w₀ as) {token : AssetInfo} {height : Nat}
    {u p : Update} {rest : List Update}
    (hupdates : (updates w₀ as).filter (fun u => u.height < height) = u :: p :: rest)
    {prices : List (AssetInfo × Decimal256)}
    (hanswer : (run World.exec w₀ as).twapAtHeight token height = .ok prices) :
    m.Bounded token p.time u.time FixedPoint.fractional (10 ^ twapPrecision)
      (prices.map fun x => (x.1, x.2.atomics)) := by
  have hrecorded := run_recorded hstarted hfeeds
  obtain ⟨pair, priceLast, _, one, -, hlast, -, -, -, hprices⟩ := twapAtHeight_eq_ok.mp hanswer
  rw [hrecorded.stored, hupdates] at hlast
  obtain rfl := Option.some.inj hlast
  rw [averagesOf_averages, List.forall₂_map_left_iff] at hprices
  rw [Market.Bounded, List.forall₂_map_right_iff]
  refine forall₂_of_mem hprices fun d x hd hx => ⟨twapPrice_fst hx, fun lo hi hlo hbetween => ?_⟩
  have hne : m.directions ≠ [] := List.ne_nil_of_mem (List.mem_of_mem_filter hd)
  exact twapPrice_bounds ((hrecorded.spaced_filter hupdates).2 hne) hx hlo hbetween

theorem twap_between_sample :
    sampleMarket.Bounded sampleTokens.1 100 120 FixedPoint.fractional (10 ^ twapPrecision)
      [(sampleTokens.2, 2 * FixedPoint.fractional)] :=
  twap_between sampleStart_started sampleMarket sampleWrap sampleMarket_feeds
    (by decide +kernel :
      (updates sampleStart sampleWrap).filter (fun u => u.height < 3) =
        [⟨120, 2, 10⟩, ⟨100, 1, 10⟩])
    (by decide +kernel :
      (run World.exec sampleStart sampleWrap).twapAtHeight sampleTokens.1 3 =
        .ok [(sampleTokens.2, ⟨2 * FixedPoint.fractional⟩)])

/-- And so does what `Consult` answers, with the two last updates of all. -/
theorem consult_between {w₀ : World} (hstarted : Started w₀) (m : Market) (as : List Action)
    (hfeeds : Along World.exec m.Feeds w₀ as) {token : AssetInfo} {amount : Nat}
    {u p : Update} {rest : List Update} (hupdates : updates w₀ as = u :: p :: rest)
    {values : List (AssetInfo × Nat)}
    (hanswer : consult (run World.exec w₀ as).querier (run World.exec w₀ as).storage token amount =
      .ok values) :
    m.Bounded token p.time u.time amount (10 ^ twapPrecision) values := by
  have hrecorded := run_recorded hstarted hfeeds
  unfold consult at hanswer
  simp only [bind_eq_ok, okOr_eq_ok, rejectIf_eq_ok, exists_const, mapError_eq_ok,
    mapM_eq_ok] at hanswer
  obtain ⟨pair, -, priceLast, hlast, -, _, -, one, -, hvalues⟩ := hanswer
  rw [hrecorded.latest, hupdates] at hlast
  obtain rfl := Option.some.inj hlast
  rw [averagesOf_averages, List.forall₂_map_left_iff] at hvalues
  refine forall₂_of_mem hvalues fun d x hd hx =>
    ⟨consultPrice_fst hx, fun lo hi hlo hbetween => ?_⟩
  have hne : m.directions ≠ [] := List.ne_nil_of_mem (List.mem_of_mem_filter hd)
  have hspaced : m.Spaced u p := by
    have hchain := hrecorded.spaced
    rw [hupdates] at hchain
    exact (List.isChain_cons_cons.mp hchain).1
  exact consultPrice_bounds (hspaced.2 hne) hx hlo hbetween

theorem consult_between_sample :
    sampleMarket.Bounded sampleTokens.1 100 120 5 (10 ^ twapPrecision) [(sampleTokens.2, 10)] :=
  consult_between sampleStart_started sampleMarket sampleWrap sampleMarket_feeds
    (by decide +kernel : updates sampleStart sampleWrap = [⟨120, 2, 10⟩, ⟨100, 1, 10⟩])
    (by decide +kernel :
      consult (run World.exec sampleStart sampleWrap).querier
        (run World.exec sampleStart sampleWrap).storage sampleTokens.1 5 =
          .ok [(sampleTokens.2, 10)])

end NeutronTge.Oracle
