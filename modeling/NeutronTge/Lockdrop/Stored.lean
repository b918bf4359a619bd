import NeutronTge.Lockdrop.Types

/-!
# NeutronTge.Lockdrop.Stored

What the two lockdrops store in the same way. The XYK and the PCL lockdrop have their own
configurations, pools and lockups, but the same keys, and they walk over them in the same order
(`storedKeys`). Steps that only store one-time rewards leave everything else of a ledger alone
(`SameLedger`).
-/

namespace NeutronTge.Lockdrop

open CosmWasm

/-! ### The keys -/

/-- The pools that are stored, in ascending order. -/
def storedPools {P : Type} (pools : SnapshotMap PoolType P) : List PoolType :=
  PoolType.all.filter fun p => pools.primary.has p

/-- The durations of a user's lockups of one pool in ascending order. -/
def storedDurations {L : Type} (lockups : Map LockupKey L) (poolType : PoolType) (user : Addr) :
    List Nat :=
  ((lockups.keys.filter fun k => k.poolType = poolType ∧ k.user = user).map
    LockupKey.duration).insertionSort (· ≤ ·)

/-- The keys of all lockups of a user, pool by pool. -/
def storedKeys {P L : Type} (pools : SnapshotMap PoolType P) (lockups : Map LockupKey L)
    (user : Addr) : List LockupKey :=
  (storedPools pools).flatMap fun p => (storedDurations lockups p user).map fun d => ⟨p, user, d⟩

section Stored

variable {P L : Type} {pools : SnapshotMap PoolType P} {lockups : Map LockupKey L}

theorem mem_storedPools {p : PoolType} :
    p ∈ storedPools pools ↔ (pools.mayLoad p).isSome = true := by
  rw [storedPools, List.mem_filter]
  exact and_iff_right (PoolType.mem_all p)

theorem mem_storedDurations {key : LockupKey} :
    key.duration ∈ storedDurations lockups key.poolType key.user ↔
      (lockups.mayLoad key).isSome = true := by
  unfold storedDurations
  rw [List.mem_insertionSort, List.mem_map, Option.isSome_iff_exists, ← Map.mem_keys_iff]
  constructor
  · rintro ⟨k, hk, hduration⟩
    obtain ⟨hstored, hpool, huser⟩ : k ∈ lockups.keys ∧ k.poolType = key.poolType ∧
        k.user = key.user := by simpa using hk
    obtain rfl : k = key := by
      cases k
      cases key
      rw [LockupKey.mk.injEq]
      exact ⟨hpool, huser, hduration⟩
    exact hstored
  · exact fun hstored => ⟨key, by simpa using hstored, rfl⟩

/-- The keys are those of the user's lockups in the pools there are. -/
theorem mem_storedKeys {user : Addr} {key : LockupKey} :
    key ∈ storedKeys pools lockups user ↔ key.user = user ∧
      (pools.mayLoad key.poolType).isSome = true ∧ (lockups.mayLoad key).isSome = true := by
  rw [← mem_storedPools, ← mem_storedDurations, storedKeys, List.mem_flatMap]
  constructor
  · rintro ⟨p, hp, hk⟩
    obtain ⟨d, hd, rfl⟩ := List.mem_map.mp hk
    exact ⟨rfl, hp, hd⟩
  · rintro ⟨rfl, hp, hd⟩
    exact ⟨key.poolType, hp, List.mem_map.mpr ⟨key.duration, hd, rfl⟩⟩

end Stored

/-! ### The ledger -/

/-- Two storages with the same configuration, state, pools and totals, whose lockups are the
same in what `core` says of them. -/
structure SameLedger {C T P L M : Type} (core : L → M) (c c' : C) (t t' : T)
    (pools pools' : SnapshotMap PoolType P) (sums sums' : SnapshotMap (PoolType × Addr) Nat)
    (stored stored' : Map LockupKey L) : Prop where
  config : c' = c
  state : t' = t
  assetPools : pools' = pools
  totals : sums' = sums
  lockups : ∀ k, (stored'.mayLoad k).map core = (stored.mayLoad k).map core

namespace SameLedger

variable {C T P L M : Type} {core : L → M} {c c' c'' : C} {t t' t'' : T}
variable {pools pools' pools'' : SnapshotMap PoolType P}
variable {sums sums' sums'' : SnapshotMap (PoolType × Addr) Nat}
variable {stored stored' stored'' : Map LockupKey L}

theorem refl : SameLedger core c c t t pools pools sums sums stored stored :=
  ⟨rfl, rfl, rfl, rfl, fun _ => rfl⟩

theorem trans (h : SameLedger core c c' t t' pools pools' sums sums' stored stored')
    (h' : SameLedger core c' c'' t' t'' pools' pools'' sums' sums'' stored' stored'') :
    SameLedger core c c'' t t'' pools pools'' sums sums'' stored stored'' where
  config := h'.config.trans h.config
  state := h'.state.trans h.state
  assetPools := h'.assetPools.trans h.assetPools
  totals := h'.totals.trans h.totals
  lockups k := (h'.lockups k).trans (h.lockups k)

/-- Storing a lockup with the same core. -/
theorem saveLockup {key : LockupKey} {old new : L} (hold : stored.mayLoad key = some old)
    (hcore : core new = core old) :
    SameLedger core c c t t pools pools sums sums stored (stored.save key new) where
  config := rfl
  state := rfl
  assetPools := rfl
  totals := rfl
  lockups k := by
    rw [Map.map_mayLoad_save]
    split_ifs with hk
    · rw [hk, hold, hcore, Option.map_some]
    · rfl

end SameLedger

end NeutronTge.Lockdrop
