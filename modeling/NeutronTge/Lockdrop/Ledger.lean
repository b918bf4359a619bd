import NeutronTge.Shares.Tally
import NeutronTge.Lockdrop.Transactions

/-!
# NeutronTge.Lockdrop.Ledger

The lockdrop keeps the locked units three times: in every lockup, in the pool and in a total
for every user. The three maps are the books of a `Grouping`. A fourth one counts the positions
of every user. `Ledger` says that the four agree, for the open lockups. It survives every step
(`LedgerStep`), as long as no lockup is closed while the auction can still change it: only a
migration can do that, because nothing makes it wait for the windows to close.
-/

namespace NeutronTge.Lockdrop

open CosmWasm Astroport Shares

/-! ### Cores -/

/-- The core of the lockup stored under a key. -/
def Storage.coreOf (s : Storage) (k : LockupKey) : Option LockupCore :=
  (s.lockupInfo.mayLoad k).map StoredLockup.core

/-- What a lockup has left with. -/
def Storage.leftWith (s : Storage) (k : LockupKey) : Option Nat :=
  (s.coreOf k).bind LockupCore.astroportLpTransferred

/-- The LP token of a pool. -/
def Storage.lpTokenOf (s : Storage) (p : PoolType) : Option Addr :=
  (s.assetPools.mayLoad p).map PoolInfo.lpToken

theorem coreOf_of_load {q : Querier} {s : Storage} {key : LockupKey} {lockup : LockupInfoV2}
    (h : compatibleLoad q s key = .ok lockup) : s.coreOf key = some lockup.core := by
  obtain ⟨st, hst, hcore, -⟩ := compatibleLoad_ok h
  rw [Storage.coreOf, hst, Option.map_some, hcore]

theorem coreOf_save {s s' : Storage} {key : LockupKey} {info : LockupInfoV2}
    (h : s'.lockupInfo = s.lockupInfo.save key (.v2 info)) (k : LockupKey) :
    s'.coreOf k = if k = key then some info.core else s.coreOf k := by
  unfold Storage.coreOf
  rw [h, Map.map_mayLoad_save, StoredLockup.core_v2]

theorem leftWith_of_core {s : Storage} {k : LockupKey} {core : LockupCore}
    (h : s.coreOf k = some core) : s.leftWith k = core.astroportLpTransferred := by
  rw [Storage.leftWith, h, Option.bind_some]

theorem lpTokenOf_of_mayLoad {s : Storage} {p : PoolType} {pool : PoolInfo}
    (h : s.assetPools.mayLoad p = some pool) : s.lpTokenOf p = some pool.lpToken := by
  rw [Storage.lpTokenOf, h, Option.map_some]

/-- Collecting rewards keeps the LP token of every pool. -/
theorem Collects.lpTokenOf {E : Type} {x : Externals E} {w w' : World E} {p : PoolType}
    (h : Collects x p w w') (p' : PoolType) : w'.storage.lpTokenOf p' = w.storage.lpTokenOf p' := by
  cases h with
  | nothing => rfl
  | booked _ _ _ _ _ _ _ _ _ _ hbooks =>
      have hpools := congrArg Storage.assetPools hbooks.storage
      unfold Storage.lpTokenOf
      dsimp only at hpools ⊢
      rw [hpools, SnapshotMap.mayLoad_save_eq]
      split_ifs with hp
      · rw [hp, hbooks.pool_eq, Option.map_some, Option.map_some]
      · rfl

/-! ### The four books -/

/-- The units of a lockup that has not left. -/
def LockupCore.openUnits (core : LockupCore) : Nat :=
  match core.astroportLpTransferred with
  | none => core.lpUnitsLocked
  | some _ => 0

theorem LockupCore.openUnits_of_open {core : LockupCore}
    (h : core.astroportLpTransferred = none) : core.openUnits = core.lpUnitsLocked := by
  simp [openUnits, h]

theorem LockupCore.openUnits_congr {c c' : LockupCore} (hunits : c.lpUnitsLocked = c'.lpUnitsLocked)
    (htransferred : c.astroportLpTransferred = c'.astroportLpTransferred) :
    c.openUnits = c'.openUnits := by
  unfold openUnits
  rw [hunits, htransferred]

/-- Lockups by pool and user. -/
def grouping : Grouping LockupKey StoredLockup PoolType Addr PoolInfo where
  group := LockupKey.poolType
  owner := LockupKey.user
  units st := st.core.openUnits
  amount := PoolInfo.amountInLockups

namespace Storage

/-- The three maps with locked units. -/
def books (s : Storage) : Accounts LockupKey StoredLockup PoolType Addr PoolInfo where
  parts := s.lockupInfo
  groups := s.assetPools
  totals := s.totalUserLockupAmount

/-- The open units stored under a key. -/
abbrev unitsOf (s : Storage) (key : LockupKey) : Nat := s.books.unitsOf grouping key

/-- The open units of a pool. -/
abbrev openSum (s : Storage) (p : PoolType) : Nat := s.books.groupSum grouping p

/-- The open units of a user in a pool. -/
abbrev userOpenSum (s : Storage) (p : PoolType) (u : Addr) : Nat := s.books.ownerSum grouping p u

/-- `amount_in_lockups` of a pool. -/
abbrev amountIn (s : Storage) (p : PoolType) : Nat := s.books.amountIn grouping p

/-- `TOTAL_USER_LOCKUP_AMOUNT` of a user. -/
abbrev userTotal (s : Storage) (p : PoolType) (u : Addr) : Nat := s.books.total p u

/-- The number of lockups stored for a user. -/
def positions (s : Storage) (u : Addr) : Nat :=
  s.lockupInfo.sum fun k _ => if k.user = u then 1 else 0

end Storage

/-- The number of a user's positions agrees with the index, and there is room for them. -/
structure Counts (s : Storage) : Prop where
  positions : ∀ u, (s.user u).lockupPositionsIndex = s.positions u
  room : ∀ u, (s.user u).lockupPositionsIndex ≤ s.config.maxPositionsPerUser

/-- The four books agree. -/
structure Ledger (s : Storage) : Prop extends Tally grouping s.books, Counts s

section Sums

variable {s s' : Storage}

theorem unitsOf_of_mayLoad {key : LockupKey} {st : StoredLockup}
    (h : s.lockupInfo.mayLoad key = some st) : s.unitsOf key = st.core.openUnits :=
  Shares.unitsOf_of_mayLoad h

theorem unitsOf_of_none {key : LockupKey} (h : s.lockupInfo.mayLoad key = none) :
    s.unitsOf key = 0 := by
  show (s.lockupInfo.mayLoad key).elim 0 _ = 0
  rw [h, Option.elim_none]

theorem unitsOf_congr (h : s'.lockupInfo = s.lockupInfo) (k : LockupKey) :
    s'.unitsOf k = s.unitsOf k :=
  congrArg (fun m => (m.mayLoad k).elim 0 fun st => st.core.openUnits) h

/-- The units after a lockup was written. -/
theorem unitsOf_save {key : LockupKey} {info : LockupInfoV2}
    (h : s'.lockupInfo = s.lockupInfo.save key (.v2 info)) (k : LockupKey) :
    s'.unitsOf k = if k = key then info.core.openUnits else s.unitsOf k := by
  have hparts : s'.books.parts = s.books.parts.save key (.v2 info) := h
  exact Shares.unitsOf_save hparts k

theorem amountIn_of_mayLoad {p : PoolType} {pool : PoolInfo}
    (h : s.assetPools.mayLoad p = some pool) : s.amountIn p = pool.amountInLockups :=
  Shares.amountIn_of_mayLoad h

theorem amountIn_congr (h : s'.assetPools = s.assetPools) (p : PoolType) :
    s'.amountIn p = s.amountIn p :=
  congrArg (fun m => (m.mayLoad p).elim 0 PoolInfo.amountInLockups) h

/-- `amount_in_lockups` after a pool was written. -/
theorem amountIn_save {p : PoolType} {pool : PoolInfo} {height : Nat}
    (h : s'.assetPools = s.assetPools.save p pool height) (p' : PoolType) :
    s'.amountIn p' = if p' = p then pool.amountInLockups else s.amountIn p' := by
  have hgroups : ∀ q, s'.books.groups.mayLoad q =
      if q = p then some pool else s.books.groups.mayLoad q := by
    intro q
    show s'.assetPools.mayLoad q = _
    rw [h]
    exact SnapshotMap.mayLoad_save_eq _ _ _ _ _
  exact Shares.amountIn_of_write hgroups p'

theorem userTotal_save {p : PoolType} {u : Addr} {total height : Nat}
    (h : s'.totalUserLockupAmount = s.totalUserLockupAmount.save (p, u) total height) :
    s'.userTotal p u = total ∧
      ∀ p' u', (p', u') ≠ (p, u) → s'.userTotal p' u' = s.userTotal p' u' := by
  have htotals : s'.books.totals = s.books.totals.save (p, u) total height := h
  exact Shares.total_save htotals

theorem positions_congr
    (h : ∀ k, (s'.lockupInfo.mayLoad k).isSome = (s.lockupInfo.mayLoad k).isSome) (u : Addr) :
    s'.positions u = s.positions u :=
  Map.sum_eq_of_mayLoad fun k => by
    have hk := h k
    cases hs : s.lockupInfo.mayLoad k <;> cases hs' : s'.lockupInfo.mayLoad k <;>
      simp_all

end Sums

/-- The counts still agree when no position comes or goes. -/
theorem Counts.of_still {s s' : Storage} (h : Counts s)
    (hstored : ∀ k, (s'.lockupInfo.mayLoad k).isSome = (s.lockupInfo.mayLoad k).isSome)
    (hindex : ∀ u, (s'.user u).lockupPositionsIndex = (s.user u).lockupPositionsIndex)
    (hmax : s'.config.maxPositionsPerUser = s.config.maxPositionsPerUser) : Counts s' where
  positions u := by rw [hindex, h.positions, positions_congr hstored]
  room u := by
    rw [hindex, hmax]
    exact h.room u

/-! ### The steps of the lockdrop -/

/-- A lockup is stored under the key, and it has left. -/
def Storage.Left (s : Storage) (key : LockupKey) : Prop :=
  ∃ st, s.lockupInfo.mayLoad key = some st ∧ st.core.astroportLpTransferred ≠ none

/-- A step within a block that keeps the books in agreement. Lockups leave only after the
windows closed, and the snapshots are only written in the present block. -/
structure LedgerStep (env : Env) (s s' : Storage) : Prop where
  tally : Tally grouping s.books → Tally grouping s'.books
  counts : Counts s → Counts s'
  pools : SnapshotMap.Written env.height s.assetPools s'.assetPools
  totals : SnapshotMap.Written env.height s.totalUserLockupAmount s'.totalUserLockupAmount
  terms : s.config.SameTerms s'.config
  left : ∀ key, s'.Left key → s.Left key ∨ s.config.closing ≤ env.time

namespace LedgerStep

variable {env : Env} {s t u : Storage}

theorem refl (s : Storage) : LedgerStep env s s :=
  ⟨id, id, .refl, .refl, .refl _, fun _ => Or.inl⟩

theorem trans (h : LedgerStep env s t) (h' : LedgerStep env t u) : LedgerStep env s u where
  tally := h'.tally ∘ h.tally
  counts := h'.counts ∘ h.counts
  pools := h.pools.trans h'.pools
  totals := h.totals.trans h'.totals
  terms := h.terms.trans h'.terms
  left key hleft := by
    rcases h'.left key hleft with hleft | hlate
    · exact h.left key hleft
    · exact Or.inr (h.terms.closing ▸ hlate)

theorem ledger (h : LedgerStep env s t) (hs : Ledger s) : Ledger t :=
  ⟨h.tally hs.toTally, h.counts hs.toCounts⟩

end LedgerStep

section Steps

variable {q : Querier} {env : Env} {s s' : Storage}

theorem isSome_save {key : LockupKey} {st : StoredLockup} {info : LockupInfoV2}
    (hst : s.lockupInfo.mayLoad key = some st)
    (h : s'.lockupInfo = s.lockupInfo.save key (.v2 info)) (k : LockupKey) :
    (s'.lockupInfo.mayLoad k).isSome = (s.lockupInfo.mayLoad k).isSome := by
  rw [h, Map.mayLoad_save_eq]
  split_ifs with hk
  · rw [hk, hst]
    rfl
  · rfl

/-- The lockups that have left after a lockup was written. -/
theorem left_save {key : LockupKey} {info : LockupInfoV2}
    (h : s'.lockupInfo = s.lockupInfo.save key (.v2 info)) {k : LockupKey} (hleft : s'.Left k) :
    s.Left k ∨ k = key ∧ info.astroportLpTransferred ≠ none := by
  obtain ⟨st', hst', hne⟩ := hleft
  rw [h, Map.mayLoad_save_eq] at hst'
  split_ifs at hst' with hk
  · obtain rfl := Option.some.inj hst'
    exact Or.inr ⟨hk, hne⟩
  · exact Or.inl ⟨st', hst', hne⟩

theorem SameBooks.unitsOf (h : SameBooks s s') (k : LockupKey) : s'.unitsOf k = s.unitsOf k := by
  have hk := h.lockups k
  show (s'.lockupInfo.mayLoad k).elim 0 _ = (s.lockupInfo.mayLoad k).elim 0 _
  cases hs : s.lockupInfo.mayLoad k <;> cases hs' : s'.lockupInfo.mayLoad k <;>
    simp_all [grouping]

theorem SameBooks.isSome (h : SameBooks s s') (k : LockupKey) :
    (s'.lockupInfo.mayLoad k).isSome = (s.lockupInfo.mayLoad k).isSome := by
  simpa only [Option.isSome_map] using congrArg Option.isSome (h.lockups k)

theorem SameBooks.ledgerStep (h : SameBooks s s') : LedgerStep env s s' where
  tally hs := hs.of_still h.unitsOf (amountIn_congr h.assetPools) h.totals
  counts hs := hs.of_still h.isSome h.index (by rw [h.config])
  pools := .of_eq h.assetPools
  totals := .of_eq h.totals
  terms := .of_eq h.config
  left key hleft := by
    obtain ⟨st', hst', hne⟩ := hleft
    obtain ⟨st, hst, hcore⟩ := h.wasStored hst'
    exact Or.inl ⟨st, hst, by rwa [hcore]⟩

/-- A write to a pool that keeps its `amount_in_lockups`. -/
theorem ledgerStep_of_pool {p : PoolType} {pool pool' : PoolInfo}
    (hpool : s.assetPools.mayLoad p = some pool)
    (hpools : s'.assetPools = s.assetPools.save p pool' env.height)
    (hamount : pool'.amountInLockups = pool.amountInLockups)
    (hlockups : s'.lockupInfo = s.lockupInfo) (husers : s'.userInfo = s.userInfo)
    (htotals : s'.totalUserLockupAmount = s.totalUserLockupAmount)
    (hterms : s.config.SameTerms s'.config) : LedgerStep env s s' where
  tally hs := by
    refine hs.of_still (unitsOf_congr hlockups) (fun p' => (amountIn_save hpools p').trans ?_)
      htotals
    split_ifs with hp
    · rw [hp, hamount]
      exact (amountIn_of_mayLoad hpool).symm
    · rfl
  counts hs := hs.of_still (fun k => by rw [hlockups]) (fun u => by rw [user_congr husers])
    hterms.maxPositionsPerUser
  pools := hpools ▸ .save p pool'
  totals := .of_eq htotals
  terms := hterms
  left key hleft := by
    obtain ⟨st, hst, hne⟩ := hleft
    exact Or.inl ⟨st, hlockups ▸ hst, hne⟩

theorem Books.ledgerStep {p : PoolType} {pool : PoolInfo} {generator : Addr}
    {deposit received : Nat} {proxyPerShare : RestrictedVector AssetInfo Decimal}
    (h : Books q s s' env p pool generator deposit received proxyPerShare) :
    LedgerStep env s s' := by
  obtain rfl := h.storage
  exact ledgerStep_of_pool h.pool_eq rfl rfl rfl rfl rfl (.refl _)

theorem Initializes.ledgerStep {p : PoolType} {incentivesShare amount : Nat} {pool : PoolInfo}
    {msgs : List CosmosMsg} (h : Initializes s s' env p incentivesShare amount pool msgs) :
    LedgerStep env s s' := by
  obtain rfl := h.storage
  exact ledgerStep_of_pool h.pool_eq rfl rfl rfl rfl rfl (.refl _)

theorem Reconfigures.ledgerStep (h : Reconfigures s s') : LedgerStep env s s' where
  tally hs := hs.of_still (unitsOf_congr h.lockupInfo) (amountIn_congr h.assetPools) h.totals
  counts hs := hs.of_still (fun k => by rw [h.lockupInfo])
    (fun u => by rw [user_congr h.userInfo]) h.terms.maxPositionsPerUser
  pools := .of_eq h.assetPools
  totals := .of_eq h.totals
  terms := h.terms
  left key hleft := by
    obtain ⟨st, hst, hne⟩ := hleft
    exact Or.inl ⟨st, h.lockupInfo ▸ hst, hne⟩

/-- A lockup is stored again with the units and the state it had. -/
theorem ledgerStep_of_lockup {key : LockupKey} {st : StoredLockup} {info : LockupInfoV2}
    (hst : s.lockupInfo.mayLoad key = some st)
    (hunits : info.lpUnitsLocked = st.core.lpUnitsLocked)
    (htransferred : info.astroportLpTransferred = st.core.astroportLpTransferred) :
    LedgerStep env s { s with lockupInfo := s.lockupInfo.save key (.v2 info) } where
  tally hs := by
    refine hs.of_still (fun k => (unitsOf_save rfl k).trans ?_) (fun _ => rfl) rfl
    split_ifs with hk
    · rw [hk]
      exact (LockupCore.openUnits_congr hunits htransferred).trans (unitsOf_of_mayLoad hst).symm
    · rfl
  counts hs := hs.of_still (isSome_save hst rfl) (fun _ => rfl) rfl
  pools := .refl
  totals := .refl
  terms := .refl _
  left k hleft := by
    rcases left_save rfl hleft with hleft | ⟨rfl, hne⟩
    · exact Or.inl hleft
    · exact Or.inl ⟨st, hst, htransferred ▸ hne⟩

/-- An open lockup leaves after the windows closed. -/
theorem Closes.ledgerStep {key : LockupKey} {pool : PoolInfo} {lockup : LockupInfoV2}
    {amount : Nat} {st : StoredLockup} (h : Closes s s' env.height key pool lockup amount)
    (hpool : s.assetPools.mayLoad key.poolType = some pool)
    (hst : s.lockupInfo.mayLoad key = some st)
    (hunits : lockup.lpUnitsLocked = st.core.lpUnitsLocked)
    (hopen : st.core.astroportLpTransferred = none) (hlate : s.config.closing ≤ env.time) :
    LedgerStep env s s' where
  tally hs := by
    have hopenUnits : s.unitsOf key = lockup.lpUnitsLocked := by
      rw [unitsOf_of_mayLoad hst, LockupCore.openUnits_of_open hopen, hunits]
    have hunitsOf := unitsOf_save h.lockupInfo
    have hamountIn := amountIn_save h.assetPools
    obtain ⟨htotal, hothers⟩ := userTotal_save h.totals
    refine hs.of_moves
      (show Moves grouping s.books s'.books key 0 lockup.lpUnitsLocked from ?_)
    constructor
    · have hclosed := (hunitsOf key).trans (if_pos rfl)
      show s'.unitsOf key + lockup.lpUnitsLocked = s.unitsOf key + 0
      rw [hclosed, hopenUnits]
      simp [LockupCore.openUnits, LockupInfoV2.core]
    · exact fun k hk => (hunitsOf k).trans (if_neg hk)
    · have hpooled := (hamountIn key.poolType).trans (if_pos rfl)
      show s'.amountIn key.poolType + _ = s.amountIn key.poolType + 0
      rw [hpooled, amountIn_of_mayLoad hpool]
      exact Nat.sub_add_cancel h.units_le
    · exact fun p hp => (hamountIn p).trans (if_neg hp)
    · exact htotal
    · exact hothers
    · exact hopenUnits.ge
  counts hs := hs.of_still (isSome_save hst h.lockupInfo) (fun u => by rw [user_congr h.userInfo])
    (by rw [h.config])
  pools := h.assetPools ▸ .save _ _
  totals := h.totals ▸ .save _ _
  terms := .of_eq h.config
  left k hleft := by
    rcases left_save h.lockupInfo hleft with hleft | -
    · exact Or.inl hleft
    · exact Or.inr hlate

/-! ### The auction's steps -/

/-- A new position counts for its user. -/
theorem positions_save_new {key : LockupKey} {info : LockupInfoV2}
    (hnone : s.lockupInfo.mayLoad key = none)
    (h : s'.lockupInfo = s.lockupInfo.save key (.v2 info)) (u : Addr) :
    s'.positions u = s.positions u + if u = key.user then 1 else 0 := by
  unfold Storage.positions
  rw [h, Map.sum_save_new hnone, Nat.add_comm]
  simp only [eq_comm]

/-- A deleted position no longer counts. -/
theorem positions_remove {key : LockupKey} {st : StoredLockup}
    (hst : s.lockupInfo.mayLoad key = some st)
    (h : s'.lockupInfo = s.lockupInfo.remove key) (u : Addr) :
    s'.positions u + (if u = key.user then 1 else 0) = s.positions u := by
  unfold Storage.positions
  rw [h, ← Map.sum_remove hst, Nat.add_comm]
  simp only [eq_comm]

/-- What an increase does to the position. -/
theorem Increased.units {key : LockupKey} {amount : Nat} {lockup : LockupInfoV2}
    {userInfo : UserInfo} (h : Increased s key amount lockup userInfo)
    (hopen : ¬ s.Left key) :
    lockup.core.openUnits = s.unitsOf key + amount ∧ lockup.astroportLpTransferred = none := by
  cases h with
  | grown st _ hst hcore =>
      have hnone : st.core.astroportLpTransferred = none := by
        by_contra hne
        exact hopen ⟨st, hst, hne⟩
      have htransferred : lockup.core.astroportLpTransferred = none :=
        (congrArg LockupCore.astroportLpTransferred hcore).trans hnone
      refine ⟨?_, htransferred⟩
      rw [LockupCore.openUnits_of_open htransferred, unitsOf_of_mayLoad hst,
        LockupCore.openUnits_of_open hnone, hcore]
  | opened _ hnone hcore =>
      have htransferred : lockup.core.astroportLpTransferred = none :=
        congrArg LockupCore.astroportLpTransferred hcore
      refine ⟨?_, htransferred⟩
      rw [LockupCore.openUnits_of_open htransferred, unitsOf_of_none hnone, hcore, Nat.zero_add]

theorem Increases.counts {info : MessageInfo} {key : LockupKey} {amount : Nat}
    {pool : PoolInfo} {weight : Nat} {lockup : LockupInfoV2} {userInfo : UserInfo}
    (h : Increases s s' env info key amount pool weight lockup userInfo) (hs : Counts s) :
    Counts s' := by
  have hposition := h.position
  cases hposition with
  | grown st _ hst =>
      refine hs.of_still (isSome_save hst h.lockupInfo) (fun u => ?_) (by rw [h.config])
      rw [user_save h.userInfo_eq]
      split_ifs with hu
      · rw [hu]
      · rfl
  | opened _ hnone _ _ hroom =>
      have hindex : ∀ u, (s'.user u).lockupPositionsIndex =
          (s.user u).lockupPositionsIndex + if u = key.user then 1 else 0 := by
        intro u
        rw [user_save h.userInfo_eq]
        split_ifs with hu
        · rw [hu]
        · rfl
      constructor
      · intro u
        rw [hindex, positions_save_new hnone h.lockupInfo, hs.positions]
      · intro u
        have hle := hs.room u
        rw [hindex, h.config]
        split_ifs with hu
        · rw [hu] at hle ⊢
          omega
        · exact hle

/-- An increase of a position that has not left. -/
theorem Increases.ledgerStep {info : MessageInfo} {key : LockupKey} {amount : Nat}
    {pool : PoolInfo} {weight : Nat} {lockup : LockupInfoV2} {userInfo : UserInfo}
    (h : Increases s s' env info key amount pool weight lockup userInfo)
    (hopen : ¬ s.Left key) : LedgerStep env s s' where
  tally hs := by
    obtain ⟨hunits, -⟩ := h.position.units hopen
    have hunitsOf := unitsOf_save h.lockupInfo
    have hamountIn := amountIn_save h.assetPools
    obtain ⟨htotal, hothers⟩ := userTotal_save h.totals
    refine hs.of_moves (show Moves grouping s.books s'.books key amount 0 from ?_)
    constructor
    · exact ((hunitsOf key).trans (if_pos rfl)).trans hunits
    · exact fun k hk => (hunitsOf k).trans (if_neg hk)
    · have hpooled := (hamountIn key.poolType).trans (if_pos rfl)
      show s'.amountIn key.poolType + 0 = s.amountIn key.poolType + amount
      rw [hpooled, amountIn_of_mayLoad h.pool_eq, Nat.add_zero]
    · exact fun p hp => (hamountIn p).trans (if_neg hp)
    · exact htotal
    · exact hothers
    · exact Nat.zero_le _
  counts := h.counts
  pools := h.assetPools ▸ .save _ _
  totals := h.totals ▸ .save _ _
  terms := .of_eq h.config
  left k hleft := by
    rcases left_save h.lockupInfo hleft with hleft | ⟨-, hne⟩
    · exact Or.inl hleft
    · exact absurd (h.position.units hopen).2 hne

/-- The positions after what is left of one was stored. -/
theorem Remains.counts {key : LockupKey} {lockup : LockupInfoV2} {st : StoredLockup}
    (h : Remains s key lockup s'.lockupInfo s'.userInfo)
    (hst : s.lockupInfo.mayLoad key = some st)
    (hmax : s'.config.maxPositionsPerUser = s.config.maxPositionsPerUser) (hs : Counts s) :
    Counts s' := by
  generalize hlockups : s'.lockupInfo = lockups at h
  generalize husers : s'.userInfo = users at h
  cases h with
  | deleted hzero hindex =>
      have hindex' : ∀ u, (s'.user u).lockupPositionsIndex +
          (if u = key.user then 1 else 0) = (s.user u).lockupPositionsIndex := by
        intro u
        rw [user_save husers]
        split_ifs with hu
        · rw [hu]
          exact Nat.sub_add_cancel hindex
        · rfl
      constructor
      · intro u
        have hpositions := positions_remove hst hlockups u
        have := hindex' u
        have := hs.positions u
        omega
      · intro u
        rw [hmax]
        have := hindex' u
        have := hs.room u
        omega
  | kept =>
      exact hs.of_still (isSome_save hst hlockups) (fun u => by rw [user_congr husers]) hmax

/-- A withdrawal from a position that has not left. -/
theorem Withdraws.ledgerStep {info : MessageInfo} {key : LockupKey} {amount : Nat}
    {pool : PoolInfo} {weight : Nat} {st : StoredLockup} {lockup : LockupInfoV2}
    (h : Withdraws s s' env info key amount pool weight st lockup) (hopen : ¬ s.Left key) :
    LedgerStep env s s' := by
  have hnone : st.core.astroportLpTransferred = none := by
    by_contra hne
    exact hopen ⟨st, h.lockup_eq, hne⟩
  have hnone' : lockup.core.astroportLpTransferred = none :=
    (congrArg LockupCore.astroportLpTransferred h.remaining).trans hnone
  have hunits : s.unitsOf key = st.core.lpUnitsLocked := by
    rw [unitsOf_of_mayLoad h.lockup_eq, LockupCore.openUnits_of_open hnone]
  have hrest : lockup.lpUnitsLocked = st.core.lpUnitsLocked - amount :=
    congrArg LockupCore.lpUnitsLocked h.remaining
  have hunitsLe := h.units_le
  -- a deleted position and an empty one hold the same units
  have hunits' : ∀ k, s'.unitsOf k =
      if k = key then st.core.lpUnitsLocked - amount else s.unitsOf k := by
    intro k
    have hposition := h.position
    generalize hlockups : s'.lockupInfo = lockups at hposition
    generalize s'.userInfo = users at hposition
    cases hposition with
    | deleted hzero =>
        show (s'.lockupInfo.mayLoad k).elim 0 _ = _
        rw [hlockups, Map.mayLoad_remove_eq]
        split_ifs
        · rw [← hrest, hzero]
          rfl
        · rfl
    | kept =>
        rw [unitsOf_save hlockups, LockupCore.openUnits_of_open hnone', ← hrest]
        rfl
  have hleft : ∀ k, s'.Left k → s.Left k := by
    rintro k ⟨st', hst', hne⟩
    have hposition := h.position
    generalize hlockups : s'.lockupInfo = lockups at hposition
    generalize s'.userInfo = users at hposition
    cases hposition with
    | deleted =>
        rw [hlockups, Map.mayLoad_remove_eq] at hst'
        split_ifs at hst'
        exact ⟨st', hst', hne⟩
    | kept =>
        rcases left_save hlockups ⟨st', hst', hne⟩ with hleft | ⟨-, hne⟩
        · exact hleft
        · exact absurd hnone' hne
  have hamountIn := amountIn_save h.assetPools
  obtain ⟨htotal, hothers⟩ := userTotal_save h.totals
  have hmoves : Moves grouping s.books s'.books key 0 amount := by
    constructor
    · have hkept := (hunits' key).trans (if_pos rfl)
      show s'.unitsOf key + amount = s.unitsOf key + 0
      rw [hkept, hunits]
      exact Nat.sub_add_cancel hunitsLe
    · exact fun k hk => (hunits' k).trans (if_neg hk)
    · have hpooled := (hamountIn key.poolType).trans (if_pos rfl)
      show s'.amountIn key.poolType + amount = s.amountIn key.poolType + 0
      rw [hpooled, amountIn_of_mayLoad h.pool_eq]
      exact Nat.sub_add_cancel h.amount_le
    · exact fun p hp => (hamountIn p).trans (if_neg hp)
    · exact htotal
    · exact hothers
    · exact hunitsLe.trans hunits.ge
  exact
    { tally := fun hs => hs.of_moves hmoves
      counts := h.position.counts h.lockup_eq (by rw [h.config])
      pools := h.assetPools ▸ .save _ _
      totals := h.totals ▸ .save _ _
      terms := .of_eq h.config
      left := fun k hk => Or.inl (hleft k hk) }

end Steps

end NeutronTge.Lockdrop
