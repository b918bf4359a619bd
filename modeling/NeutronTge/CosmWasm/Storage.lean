import Mathlib.Data.List.AList
import Mathlib.Data.List.MinMax
import Mathlib.Algebra.BigOperators.Ring.List
import Mathlib.Algebra.BigOperators.Group.Finset.Basic
import Mathlib.Algebra.Order.BigOperators.Group.List
import Mathlib.Algebra.Order.Ring.Nat
import Mathlib.Logic.Relation
import Mathlib.Tactic.Abel
import NeutronTge.CosmWasm.Uint

/-!
# NeutronTge.CosmWasm.Storage

The two kinds of map a contract keeps in its storage.

* `Map` is a finite map. Every ledger invariant is about a *sum over the entries*
  of such a map, so besides `load`, `save` and `remove` the module has `Map.sum`
  and what one write does to it.
* `SnapshotMap` is a `Map` with a changelog: the first write to a key in a block
  records the value the key had before it. `mayLoadAtHeight` reads the value at the
  start of a past block off the changelog.
-/

namespace NeutronTge.CosmWasm

/-- A storage map. -/
abbrev Map (K V : Type) := AList (fun _ : K => V)

namespace Map

variable {K V M : Type}

/-- The sum of `f` over the entries. -/
def sum [AddCommMonoid M] (m : Map K V) (f : K → V → M) : M :=
  (m.entries.map fun e => f e.1 e.2).sum

@[simp] theorem sum_empty [AddCommMonoid M] (f : K → V → M) : (∅ : Map K V).sum f = 0 := rfl

theorem sum_zero [AddCommMonoid M] (m : Map K V) : m.sum (fun _ _ => (0 : M)) = 0 := by
  simp [sum]

theorem sum_add [AddCommMonoid M] (m : Map K V) (f g : K → V → M) :
    m.sum (fun k v => f k v + g k v) = m.sum f + m.sum g :=
  List.sum_map_add

theorem sum_mul_right (m : Map K V) (f : K → V → Nat) (c : Nat) :
    m.sum (fun k v => f k v * c) = m.sum f * c :=
  List.sum_map_mul_right ..

/-- The floors of the summands stay below the floor of the sum. -/
theorem sum_div_le (m : Map K V) (f : K → V → Nat) (d : Nat) :
    m.sum (fun k v => f k v / d) ≤ m.sum f / d := by
  unfold sum
  induction m.entries with
  | nil => simp
  | cons e es ih =>
      rw [List.map_cons, List.map_cons, List.sum_cons, List.sum_cons]
      exact (Nat.add_le_add_left ih _).trans floor_add_floor_le

/-- The sum over the keys that meet a condition. -/
theorem sum_filter_keys [AddCommMonoid M] (m : Map K V) (c : K → Prop) [DecidablePred c]
    (f : K → M) : ((m.keys.filter c).map f).sum = m.sum fun k _ => if c k then f k else 0 := by
  unfold sum AList.keys List.keys
  induction m.entries with
  | nil => rfl
  | cons e es ih =>
      rw [List.map_cons, List.map_cons, List.sum_cons, List.filter_cons]
      by_cases hc : c e.1
      · simp only [hc, decide_true, if_true, List.map_cons, List.sum_cons, ih]
      · simp only [hc, decide_false, if_false, Bool.false_eq_true, ih, zero_add]

variable [DecidableEq K]

/-- `may_load`. -/
def mayLoad (m : Map K V) (k : K) : Option V := m.lookup k

/-- `load`: a missing entry is an error. -/
def load (m : Map K V) (k : K) : Except StdError V := okOr (m.mayLoad k) .notFound

/-- `has`. -/
def has (m : Map K V) (k : K) : Bool := (m.mayLoad k).isSome

/-- `save`. -/
def save (m : Map K V) (k : K) (v : V) : Map K V := m.insert k v

/-- `remove`. -/
def remove (m : Map K V) (k : K) : Map K V := m.erase k

@[simp] theorem load_eq_ok {m : Map K V} {k : K} {v : V} :
    m.load k = .ok v ↔ m.mayLoad k = some v := by
  simp [load]

@[simp] theorem mayLoad_empty (k : K) : (∅ : Map K V).mayLoad k = none :=
  AList.lookup_empty k

@[simp] theorem mayLoad_save (m : Map K V) (k : K) (v : V) :
    (m.save k v).mayLoad k = some v :=
  AList.lookup_insert m

theorem mayLoad_save_ne {k k' : K} (h : k' ≠ k) (m : Map K V) (v : V) :
    (m.save k v).mayLoad k' = m.mayLoad k' :=
  AList.lookup_insert_ne h

theorem mayLoad_save_eq (m : Map K V) (k k' : K) (v : V) :
    (m.save k v).mayLoad k' = if k' = k then some v else m.mayLoad k' := by
  split_ifs with h
  · rw [h, mayLoad_save]
  · exact mayLoad_save_ne h m v

/-- What `f` says of the values, after one of them was written. -/
theorem map_mayLoad_save {W : Type} (m : Map K V) (f : V → W) (k k' : K) (v : V) :
    ((m.save k v).mayLoad k').map f = if k' = k then some (f v) else (m.mayLoad k').map f := by
  rw [mayLoad_save_eq]
  split_ifs <;> rfl

@[simp] theorem mayLoad_remove (m : Map K V) (k : K) : (m.remove k).mayLoad k = none :=
  AList.lookup_erase k m

theorem mayLoad_remove_ne {k k' : K} (h : k' ≠ k) (m : Map K V) :
    (m.remove k).mayLoad k' = m.mayLoad k' :=
  AList.lookup_erase_ne h

theorem mayLoad_remove_eq (m : Map K V) (k k' : K) :
    (m.remove k).mayLoad k' = if k' = k then none else m.mayLoad k' := by
  split_ifs with h
  · rw [h, mayLoad_remove]
  · exact mayLoad_remove_ne h m

theorem mem_entries_iff {m : Map K V} {k : K} {v : V} :
    (⟨k, v⟩ : Sigma fun _ : K => V) ∈ m.entries ↔ m.mayLoad k = some v := by
  unfold mayLoad
  rw [← Option.mem_def]
  exact (List.mem_dlookup_iff m.nodupKeys).symm

theorem mem_keys_iff {m : Map K V} {k : K} : k ∈ m.keys ↔ ∃ v, m.mayLoad k = some v := by
  rw [← AList.mem_keys, ← AList.lookup_isSome, Option.isSome_iff_exists]
  rfl

theorem mayLoad_eq_none {m : Map K V} {k : K} : m.mayLoad k = none ↔ k ∉ m.keys :=
  AList.lookup_eq_none

/-! ### Sums over the entries -/

section Sum

variable [AddCommMonoid M]

/-- Writing an entry replaces whatever was there by the new summand. -/
theorem sum_save (m : Map K V) (k : K) (v : V) (f : K → V → M) :
    (m.save k v).sum f = f k v + (m.remove k).sum f := by
  unfold sum save
  rw [AList.entries_insert, List.map_cons, List.sum_cons]
  rfl

theorem remove_of_not_mem {m : Map K V} {k : K} (h : m.mayLoad k = none) :
    m.remove k = m :=
  AList.ext (List.kerase_of_notMem_keys (mayLoad_eq_none.mp h))

/-- Taking an entry out takes its summand out. -/
theorem sum_remove {m : Map K V} {k : K} {v : V} (h : m.mayLoad k = some v)
    (f : K → V → M) : f k v + (m.remove k).sum f = m.sum f := by
  have hmem : k ∈ m.entries.keys := mem_keys_iff.mpr ⟨v, h⟩
  obtain ⟨v', l₁, l₂, -, hsplit, herase⟩ := List.exists_of_kerase hmem
  have hv : v' = v := by
    have hload : m.mayLoad k = some v' := by
      rw [← mem_entries_iff, hsplit]
      simp
    exact Option.some.inj (hload.symm.trans h)
  subst hv
  have hrem : (m.remove k).entries = l₁ ++ l₂ := herase
  unfold sum
  rw [hrem, hsplit]
  simp only [List.map_append, List.sum_append, List.map_cons, List.sum_cons]
  abel

theorem sum_save_new {m : Map K V} {k : K} (h : m.mayLoad k = none) (v : V)
    (f : K → V → M) : (m.save k v).sum f = f k v + m.sum f := by
  rw [sum_save, remove_of_not_mem h]

/-- Overwriting `old` by `v` moves the sum by the difference, stated without one. -/
theorem sum_save_old {m : Map K V} {k : K} {old : V} (h : m.mayLoad k = some old) (v : V)
    (f : K → V → M) : f k old + (m.save k v).sum f = f k v + m.sum f := by
  rw [sum_save, ← sum_remove h f]
  abel

/-- An overwrite that keeps the summand keeps the sum. -/
theorem sum_save_same {m : Map K V} {k : K} {old v : V} (h : m.mayLoad k = some old)
    {f : K → V → M} (hf : f k v = f k old) : (m.save k v).sum f = m.sum f := by
  rw [sum_save, hf, sum_remove h]

theorem sum_congr {m : Map K V} {f g : K → V → M}
    (h : ∀ k v, m.mayLoad k = some v → f k v = g k v) : m.sum f = m.sum g := by
  unfold sum
  congr 1
  exact List.map_congr_left fun e he => h e.1 e.2 (mem_entries_iff.mp he)

end Sum

/-- The sum over the entries as a sum over a set that contains all keys. -/
theorem sum_eq_finset_sum [AddCommMonoid M] (m : Map K V) (f : K → V → M) {S : Finset K}
    (hS : ∀ k v, m.mayLoad k = some v → k ∈ S) :
    m.sum f = ∑ k ∈ S, (m.mayLoad k).elim 0 (f k) := by
  induction m using AList.insertRec with
  | H0 => simp
  | IH k v m hk ih =>
      have hnone : mayLoad m k = none := mayLoad_eq_none.mpr hk
      have hload : ∀ j, mayLoad (AList.insert k v m) j =
          if j = k then some v else mayLoad m j := fun j => mayLoad_save_eq m k j v
      have hkS : k ∈ S := hS k v (by rw [hload, if_pos rfl])
      have hmS : ∀ j w, mayLoad m j = some w → j ∈ S := by
        intro j w hj
        refine hS j w ?_
        rw [hload, if_neg, hj]
        rintro rfl
        simp [hnone] at hj
      have hsum : sum (AList.insert k v m) f = f k v + sum m f := sum_save_new hnone v f
      rw [hsum, ih hmS, ← Finset.add_sum_erase S _ hkS, ← Finset.add_sum_erase S _ hkS]
      have hrest : ∑ j ∈ S.erase k, (mayLoad (AList.insert k v m) j).elim 0 (f j) =
          ∑ j ∈ S.erase k, (mayLoad m j).elim 0 (f j) :=
        Finset.sum_congr rfl fun j hj => by rw [hload, if_neg (Finset.ne_of_mem_erase hj)]
      rw [hrest, hload, if_pos rfl, hnone, Option.elim_some, Option.elim_none, zero_add]

/-- Two maps whose entries have the same summands, key by key, have the same sum. -/
theorem sum_eq_of_mayLoad [AddCommMonoid M] {V' : Type} {m : Map K V} {m' : Map K V'}
    {f : K → V → M} {g : K → V' → M}
    (h : ∀ k, (m.mayLoad k).elim 0 (f k) = (m'.mayLoad k).elim 0 (g k)) : m.sum f = m'.sum g := by
  classical
  let S : Finset K := m.keys.toFinset ∪ m'.keys.toFinset
  have hS : ∀ k v, m.mayLoad k = some v → k ∈ S := by
    intro k v hk
    simp only [S, Finset.mem_union, List.mem_toFinset]
    exact Or.inl (mem_keys_iff.mpr ⟨v, hk⟩)
  have hS' : ∀ k v, m'.mayLoad k = some v → k ∈ S := by
    intro k v hk
    simp only [S, Finset.mem_union, List.mem_toFinset]
    exact Or.inr (mem_keys_iff.mpr ⟨v, hk⟩)
  rw [sum_eq_finset_sum m f hS, sum_eq_finset_sum m' g hS']
  exact Finset.sum_congr rfl fun k _ => h k

/-- Two maps that differ in the summand of one key only: each sum plus the other's
summand is the same. -/
theorem sum_move [AddCommMonoid M] {m n : Map K V} {f : K → V → M} (key : K)
    (h : ∀ k, k ≠ key → (n.mayLoad k).elim 0 (f k) = (m.mayLoad k).elim 0 (f k)) :
    n.sum f + (m.mayLoad key).elim 0 (f key) = m.sum f + (n.mayLoad key).elim 0 (f key) := by
  classical
  let S : Finset K := insert key (m.keys.toFinset ∪ n.keys.toFinset)
  have hS : ∀ k v, m.mayLoad k = some v → k ∈ S := by
    intro k v hk
    simp only [S, Finset.mem_insert, Finset.mem_union, List.mem_toFinset]
    exact Or.inr (Or.inl (mem_keys_iff.mpr ⟨v, hk⟩))
  have hS' : ∀ k v, n.mayLoad k = some v → k ∈ S := by
    intro k v hk
    simp only [S, Finset.mem_insert, Finset.mem_union, List.mem_toFinset]
    exact Or.inr (Or.inr (mem_keys_iff.mpr ⟨v, hk⟩))
  have hkey : key ∈ S := Finset.mem_insert_self ..
  have hrest : ∑ k ∈ S.erase key, (n.mayLoad k).elim 0 (f k) =
      ∑ k ∈ S.erase key, (m.mayLoad k).elim 0 (f k) :=
    Finset.sum_congr rfl fun k hk => h k (Finset.ne_of_mem_erase hk)
  rw [sum_eq_finset_sum m f hS, sum_eq_finset_sum n f hS', ← Finset.add_sum_erase S _ hkey,
    ← Finset.add_sum_erase S (fun k => (m.mayLoad k).elim 0 (f k)) hkey, hrest]
  abel

theorem sum_le_sum {m : Map K V} {f g : K → V → Nat}
    (h : ∀ k v, m.mayLoad k = some v → f k v ≤ g k v) : m.sum f ≤ m.sum g :=
  List.sum_le_sum fun e he => h e.1 e.2 (mem_entries_iff.mp he)

/-- Each summand of naturals is at most the sum. -/
theorem le_sum {m : Map K V} {k : K} {v : V} (h : m.mayLoad k = some v)
    (f : K → V → Nat) : f k v ≤ m.sum f := by
  rw [← sum_remove h f]
  exact Nat.le_add_right _ _

end Map

/-! ### Snapshots -/

/-- A changelog record: `key` was written for the first time in block `height`, and
had the value `old` before. -/
structure Change (K V : Type) where
  key : K
  height : Nat
  old : Option V
  deriving DecidableEq

/-- A map with a record of its past under the strategy `EveryBlock`. -/
structure SnapshotMap (K V : Type) where
  primary : Map K V
  changelog : List (Change K V)
  deriving DecidableEq

namespace SnapshotMap

variable {K V : Type}

/-- A map without entries and without history. -/
def empty : SnapshotMap K V := ⟨∅, []⟩

/-- No change is recorded for a block later than `height`. -/
def BoundedBy (m : SnapshotMap K V) (height : Nat) : Prop :=
  ∀ c ∈ m.changelog, c.height ≤ height

theorem boundedBy_empty (height : Nat) : (empty : SnapshotMap K V).BoundedBy height := by
  intro c hc
  simp [empty] at hc

theorem BoundedBy.mono {m : SnapshotMap K V} {a b : Nat} (h : m.BoundedBy a) (hab : a ≤ b) :
    m.BoundedBy b :=
  fun c hc => (h c hc).trans hab

variable [DecidableEq K]

/-- The value that is stored now. -/
def mayLoad (m : SnapshotMap K V) (k : K) : Option V := m.primary.mayLoad k

/-- The value that is stored now, which has to be there. -/
def load (m : SnapshotMap K V) (k : K) : Except StdError V := m.primary.load k

/-- `write_change`: remember the value of `k` unless this block already did. -/
def writeChange (m : SnapshotMap K V) (k : K) (height : Nat) : List (Change K V) :=
  if m.changelog.any (fun c => c.key = k ∧ c.height = height) then m.changelog
  else m.changelog ++ [⟨k, height, m.mayLoad k⟩]

/-- `save` in block `height`. -/
def save (m : SnapshotMap K V) (k : K) (v : V) (height : Nat) : SnapshotMap K V :=
  ⟨m.primary.save k v, m.writeChange k height⟩

/-- `remove` in block `height`. -/
def remove (m : SnapshotMap K V) (k : K) (height : Nat) : SnapshotMap K V :=
  ⟨m.primary.remove k, m.writeChange k height⟩

/-- The earliest change of `k` at `height` or later. -/
def firstChange (m : SnapshotMap K V) (k : K) (height : Nat) : Option (Change K V) :=
  (m.changelog.filter fun c => c.key = k ∧ height ≤ c.height).argmin Change.height

/-- `may_load_at_height`: the value before the earliest change from `height` on, and
the present value when there is no such change. -/
def mayLoadAtHeight (m : SnapshotMap K V) (k : K) (height : Nat) : Option V :=
  match m.firstChange k height with
  | some c => c.old
  | none => m.mayLoad k

@[simp] theorem mayLoad_save (m : SnapshotMap K V) (k : K) (v : V) (height : Nat) :
    (m.save k v height).mayLoad k = some v :=
  Map.mayLoad_save m.primary k v

theorem mayLoad_save_ne {k k' : K} (h : k' ≠ k) (m : SnapshotMap K V) (v : V)
    (height : Nat) : (m.save k v height).mayLoad k' = m.mayLoad k' :=
  Map.mayLoad_save_ne h m.primary v

theorem mayLoad_save_eq (m : SnapshotMap K V) (k k' : K) (v : V) (height : Nat) :
    (m.save k v height).mayLoad k' = if k' = k then some v else m.mayLoad k' :=
  Map.mayLoad_save_eq m.primary k k' v

@[simp] theorem primary_save (m : SnapshotMap K V) (k : K) (v : V) (height : Nat) :
    (m.save k v height).primary = m.primary.save k v := rfl

@[simp] theorem primary_remove (m : SnapshotMap K V) (k : K) (height : Nat) :
    (m.remove k height).primary = m.primary.remove k := rfl

theorem boundedBy_writeChange {m : SnapshotMap K V} {height : Nat} (h : m.BoundedBy height)
    (k : K) : ∀ c ∈ m.writeChange k height, c.height ≤ height := by
  intro c hc
  unfold writeChange at hc
  split_ifs at hc
  · exact h c hc
  · rcases List.mem_append.mp hc with hc | hc
    · exact h c hc
    · rw [List.mem_singleton.mp hc]

theorem BoundedBy.save {m : SnapshotMap K V} {height : Nat} (h : m.BoundedBy height) (k : K)
    (v : V) : (m.save k v height).BoundedBy height :=
  boundedBy_writeChange h k

theorem BoundedBy.remove {m : SnapshotMap K V} {height : Nat} (h : m.BoundedBy height)
    (k : K) : (m.remove k height).BoundedBy height :=
  boundedBy_writeChange h k

/-- From the block after the last write on, the answer is the present value. -/
theorem mayLoadAtHeight_of_lt {m : SnapshotMap K V} {last height : Nat}
    (h : m.BoundedBy last) (hlt : last < height) (k : K) :
    m.mayLoadAtHeight k height = m.mayLoad k := by
  have hnone : (m.changelog.filter fun c => c.key = k ∧ height ≤ c.height) = [] := by
    rw [List.filter_eq_nil_iff]
    intro c hc
    have := h c hc
    simp
    omega
  unfold mayLoadAtHeight firstChange
  rw [hnone, List.argmin_nil]

/-- A write in block `now` changes no answer about a block up to `now`. -/
theorem mayLoadAtHeight_write {m m' : SnapshotMap K V} {now height : Nat} {k : K}
    (h : m.BoundedBy now) (hle : height ≤ now) (hlog : m'.changelog = m.writeChange k now)
    (hother : ∀ k', k' ≠ k → m'.mayLoad k' = m.mayLoad k') (k' : K) :
    m'.mayLoadAtHeight k' height = m.mayLoadAtHeight k' height := by
  by_cases hk : k' = k
  · subst hk
    unfold mayLoadAtHeight firstChange
    rw [hlog]
    unfold writeChange
    split_ifs with hany
    · -- the block already has its record, so some change answers the query
      obtain ⟨c, hc, hck⟩ := List.any_eq_true.mp hany
      have hck' : c.key = k' ∧ c.height = now := by simpa using hck
      cases hmin : (m.changelog.filter fun c => c.key = k' ∧ height ≤ c.height).argmin
          Change.height with
      | some d => rfl
      | none =>
          rw [List.argmin_eq_none, List.filter_eq_nil_iff] at hmin
          have hno : c.key = k' → c.height < height := by simpa using hmin c hc
          have := hno hck'.1
          omega
    · rw [List.filter_append]
      have hnew : ([⟨k', now, m.mayLoad k'⟩] : List (Change K V)).filter
          (fun c => c.key = k' ∧ height ≤ c.height) = [⟨k', now, m.mayLoad k'⟩] := by
        simp [hle]
      rw [hnew, List.argmin_concat]
      cases hmin : (m.changelog.filter fun c => c.key = k' ∧ height ≤ c.height).argmin
          Change.height with
      | none => rfl
      | some d =>
          have hd : d.height ≤ now := h d (List.mem_of_mem_filter (List.argmin_mem hmin))
          have hnlt : ¬ now < d.height := by omega
          simp [hnlt]
  · have hsame : m'.changelog.filter (fun c => c.key = k' ∧ height ≤ c.height) =
        m.changelog.filter fun c => c.key = k' ∧ height ≤ c.height := by
      rw [hlog]
      unfold writeChange
      split_ifs
      · rfl
      · simp [List.filter_append, Ne.symm hk]
    unfold mayLoadAtHeight firstChange
    rw [hsame, hother k' hk]

theorem mayLoadAtHeight_save {m : SnapshotMap K V} {now height : Nat} (h : m.BoundedBy now)
    (hle : height ≤ now) (k k' : K) (v : V) :
    (m.save k v now).mayLoadAtHeight k' height = m.mayLoadAtHeight k' height :=
  mayLoadAtHeight_write h hle rfl (fun _ hne => mayLoad_save_ne hne m v now) k'

theorem mayLoadAtHeight_remove {m : SnapshotMap K V} {now height : Nat} (h : m.BoundedBy now)
    (hle : height ≤ now) (k k' : K) :
    (m.remove k now).mayLoadAtHeight k' height = m.mayLoadAtHeight k' height := by
  have hother : ∀ i, i ≠ k → (m.remove k now).mayLoad i = m.mayLoad i :=
    fun i hne => Map.mayLoad_remove_ne hne m.primary
  exact mayLoadAtHeight_write h hle rfl hother k'

/-! ### Writes of one block -/

/-- `m'` is `m` after any number of writes in block `now`. -/
def Written (now : Nat) : SnapshotMap K V → SnapshotMap K V → Prop :=
  Relation.ReflTransGen fun m m' => ∃ k v, m' = m.save k v now

namespace Written

variable {m m' m'' : SnapshotMap K V} {now : Nat}

theorem refl : Written now m m := Relation.ReflTransGen.refl

theorem of_eq (h : m' = m) : Written now m m' := by
  rw [h]
  exact refl

theorem save (k : K) (v : V) : Written now m (m.save k v now) :=
  Relation.ReflTransGen.single ⟨k, v, rfl⟩

theorem trans (h : Written now m m') (h' : Written now m' m'') : Written now m m'' :=
  Relation.ReflTransGen.trans h h'

theorem boundedBy (h : Written now m m') (hm : m.BoundedBy now) : m'.BoundedBy now := by
  induction h with
  | refl => exact hm
  | tail _ hstep ih =>
      obtain ⟨k, v, rfl⟩ := hstep
      exact BoundedBy.save ih k v

/-- A write changes no answer about its own block or an earlier one. -/
theorem mayLoadAtHeight (h : Written now m m') (hm : m.BoundedBy now) {height : Nat}
    (hle : height ≤ now) (k : K) : m'.mayLoadAtHeight k height = m.mayLoadAtHeight k height := by
  induction h with
  | refl => rfl
  | tail hprev hstep ih =>
      obtain ⟨k', v, rfl⟩ := hstep
      rw [mayLoadAtHeight_save (boundedBy hprev hm) hle, ih]

/-- No entry goes away. -/
theorem mayLoad_ne_none (h : Written now m m') {k : K} (hk : m.mayLoad k ≠ none) :
    m'.mayLoad k ≠ none := by
  induction h with
  | refl => exact hk
  | tail _ hstep ih =>
      obtain ⟨k', v, rfl⟩ := hstep
      by_cases heq : k = k'
      · subst heq
        simp
      · rwa [mayLoad_save_ne heq]

end Written

/-- `m'` is `m` after any number of writes and removals in block `now`. -/
def Rewritten (now : Nat) : SnapshotMap K V → SnapshotMap K V → Prop :=
  Relation.ReflTransGen fun m m' =>
    (∃ k v, m' = m.save k v now) ∨ ∃ k, m' = m.remove k now

namespace Rewritten

variable {m m' m'' : SnapshotMap K V} {now : Nat}

theorem refl : Rewritten now m m := Relation.ReflTransGen.refl

theorem save (k : K) (v : V) : Rewritten now m (m.save k v now) :=
  Relation.ReflTransGen.single (Or.inl ⟨k, v, rfl⟩)

theorem remove (k : K) : Rewritten now m (m.remove k now) :=
  Relation.ReflTransGen.single (Or.inr ⟨k, rfl⟩)

theorem trans (h : Rewritten now m m') (h' : Rewritten now m' m'') : Rewritten now m m'' :=
  Relation.ReflTransGen.trans h h'

theorem boundedBy (h : Rewritten now m m') (hm : m.BoundedBy now) : m'.BoundedBy now := by
  induction h with
  | refl => exact hm
  | tail _ hstep ih =>
      rcases hstep with ⟨k, v, rfl⟩ | ⟨k, rfl⟩
      · exact BoundedBy.save ih k v
      · exact BoundedBy.remove ih k

/-- Neither changes an answer about its own block or an earlier one. -/
theorem mayLoadAtHeight (h : Rewritten now m m') (hm : m.BoundedBy now) {height : Nat}
    (hle : height ≤ now) (k : K) : m'.mayLoadAtHeight k height = m.mayLoadAtHeight k height := by
  induction h with
  | refl => rfl
  | tail hprev hstep ih =>
      rcases hstep with ⟨k', v, rfl⟩ | ⟨k', rfl⟩
      · rw [mayLoadAtHeight_save (boundedBy hprev hm) hle, ih]
      · rw [mayLoadAtHeight_remove (boundedBy hprev hm) hle, ih]

end Rewritten

end SnapshotMap

end NeutronTge.CosmWasm
