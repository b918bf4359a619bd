import NeutronTge.CosmWasm.Storage

/-!
# NeutronTge.Shares.Tally

One quantity that a contract keeps three times: in the parts it stores under their keys, in an
amount for every group of parts, and in a total for every owner within a group. `Tally` says
that the three agree. It survives when one part changes and the group and the owner of that
part change by as much (`Tally.of_moves`), and then the answers about the past agree as well
(`Recorded`).
-/

namespace NeutronTge.Shares

open CosmWasm

/-- How the parts are grouped and what counts of them. -/
structure Grouping (K V G U P : Type) where
  group : K → G
  owner : K → U
  /-- What a stored part counts. -/
  units : V → Nat
  /-- What is written down for a group. -/
  amount : P → Nat

/-- The three maps. -/
structure Accounts (K V G U P : Type) [DecidableEq K] [DecidableEq G] [DecidableEq U] where
  parts : Map K V
  groups : SnapshotMap G P
  totals : SnapshotMap (G × U) Nat

variable {K V G U P : Type} [DecidableEq K] [DecidableEq G] [DecidableEq U]

namespace Accounts

variable (g : Grouping K V G U P)

/-- The units stored under a key. -/
def unitsOf (b : Accounts K V G U P) (key : K) : Nat := (b.parts.mayLoad key).elim 0 g.units

/-- The units of the parts that meet a condition. -/
def sumWhere (b : Accounts K V G U P) (c : K → Prop) [DecidablePred c] : Nat :=
  b.parts.sum fun k v => if c k then g.units v else 0

/-- The units of a group. -/
def groupSum (b : Accounts K V G U P) (p : G) : Nat := b.sumWhere g fun k => g.group k = p

/-- The units of an owner in a group. -/
def ownerSum (b : Accounts K V G U P) (p : G) (u : U) : Nat :=
  b.sumWhere g fun k => g.group k = p ∧ g.owner k = u

/-- What is written down for a group. -/
def amountIn (b : Accounts K V G U P) (p : G) : Nat := (b.groups.mayLoad p).elim 0 g.amount

/-- What is written down for an owner. -/
def total (b : Accounts K V G U P) (p : G) (u : U) : Nat := (b.totals.mayLoad (p, u)).getD 0

/-- What is written down for all owners of a group. -/
def totalSum (b : Accounts K V G U P) (p : G) : Nat :=
  b.totals.primary.sum fun k v => if k.1 = p then v else 0

end Accounts

open Accounts

/-- The three maps agree. -/
structure Tally (g : Grouping K V G U P) (b : Accounts K V G U P) : Prop where
  amount : ∀ p, b.amountIn g p = b.groupSum g p
  total : ∀ p, b.totalSum p = b.groupSum g p
  owner : ∀ p u, b.total p u = b.ownerSum g p u

/-! ### How one part moves the sums -/

section Sums

variable {g : Grouping K V G U P} {b b' : Accounts K V G U P}

/-- A summand of `sumWhere`, read off the units of its key. -/
theorem Accounts.elim_ite (b : Accounts K V G U P) (c : K → Prop) [DecidablePred c] (k : K) :
    (b.parts.mayLoad k).elim 0 (fun v => if c k then g.units v else 0) =
      if c k then b.unitsOf g k else 0 := by
  unfold unitsOf
  cases b.parts.mayLoad k <;> simp

theorem sumWhere_move {key : K} (c : K → Prop) [DecidablePred c]
    (h : ∀ k, k ≠ key → b'.unitsOf g k = b.unitsOf g k) :
    b'.sumWhere g c + (if c key then b.unitsOf g key else 0) =
      b.sumWhere g c + (if c key then b'.unitsOf g key else 0) := by
  have hmove := Map.sum_move (m := b.parts) (n := b'.parts)
    (f := fun k v => if c k then g.units v else 0) key
    (fun k hk => by rw [elim_ite, elim_ite, h k hk])
  rwa [elim_ite, elim_ite] at hmove

theorem sumWhere_congr (c : K → Prop) [DecidablePred c]
    (h : ∀ k, c k → b'.unitsOf g k = b.unitsOf g k) : b'.sumWhere g c = b.sumWhere g c := by
  refine Map.sum_eq_of_mayLoad fun k => ?_
  rw [elim_ite, elim_ite]
  split_ifs with hk
  · exact h k hk
  · rfl

/-- The sum over any set that holds every stored key of the group. -/
theorem groupSum_eq {p : G} {S : Finset K}
    (hS : ∀ k, k ∈ S ↔ g.group k = p ∧ (b.parts.mayLoad k).isSome = true) :
    b.groupSum g p = ∑ k ∈ S, b.unitsOf g k := by
  have hstored : ∀ k v, b.parts.mayLoad k = some v → k ∈ b.parts.keys.toFinset := fun k v hk =>
    List.mem_toFinset.mpr (Map.mem_keys_iff.mpr ⟨v, hk⟩)
  have hfilter : S = b.parts.keys.toFinset.filter fun k => g.group k = p := by
    ext k
    rw [hS, Finset.mem_filter, List.mem_toFinset, Map.mem_keys_iff, Option.isSome_iff_exists,
      and_comm]
  unfold groupSum sumWhere
  rw [Map.sum_eq_finset_sum _ _ hstored, hfilter, Finset.sum_filter]
  exact Finset.sum_congr rfl fun k _ => elim_ite b (fun k => g.group k = p) k

/-- The units of a part are in every sum that counts it. -/
theorem unitsOf_le_sumWhere (c : K → Prop) [DecidablePred c] {key : K} (hc : c key) :
    b.unitsOf g key ≤ b.sumWhere g c := by
  cases hv : b.parts.mayLoad key with
  | none =>
      rw [unitsOf, hv]
      exact Nat.zero_le _
  | some v =>
      rw [unitsOf, hv]
      have hle := Map.le_sum hv fun k v => if c k then g.units v else 0
      rwa [if_pos hc] at hle

theorem total_elim (b : Accounts K V G U P) (p : G) (k : G × U) :
    (b.totals.primary.mayLoad k).elim 0 (fun v => if k.1 = p then v else 0) =
      if k.1 = p then b.total k.1 k.2 else 0 := by
  unfold Accounts.total SnapshotMap.mayLoad
  cases b.totals.primary.mayLoad k <;> simp

theorem totalSum_move {p : G} {u : U}
    (h : ∀ p' u', (p', u') ≠ (p, u) → b'.total p' u' = b.total p' u') (p' : G) :
    b'.totalSum p' + (if p = p' then b.total p u else 0) =
      b.totalSum p' + (if p = p' then b'.total p u else 0) := by
  have hmove := Map.sum_move (m := b.totals.primary) (n := b'.totals.primary)
    (f := fun k v => if k.1 = p' then v else 0) (p, u)
    (fun k hk => by rw [total_elim, total_elim, h k.1 k.2 hk])
  rwa [total_elim, total_elim] at hmove

theorem unitsOf_save {key : K} {v : V} (h : b'.parts = b.parts.save key v) (k : K) :
    b'.unitsOf g k = if k = key then g.units v else b.unitsOf g k := by
  unfold unitsOf
  rw [h, Map.mayLoad_save_eq]
  split_ifs <;> rfl

theorem unitsOf_of_mayLoad {key : K} {v : V} (h : b.parts.mayLoad key = some v) :
    b.unitsOf g key = g.units v := by
  rw [unitsOf, h, Option.elim_some]

theorem amountIn_of_mayLoad {p : G} {pool : P} (h : b.groups.mayLoad p = some pool) :
    b.amountIn g p = g.amount pool := by
  rw [amountIn, h, Option.elim_some]

theorem amountIn_of_write {p : G} {pool : P}
    (h : ∀ q, b'.groups.mayLoad q = if q = p then some pool else b.groups.mayLoad q) (q : G) :
    b'.amountIn g q = if q = p then g.amount pool else b.amountIn g q := by
  unfold amountIn
  rw [h]
  split_ifs <;> rfl

theorem total_save {p : G} {u : U} {n height : Nat}
    (h : b'.totals = b.totals.save (p, u) n height) :
    b'.total p u = n ∧ ∀ p' u', (p', u') ≠ (p, u) → b'.total p' u' = b.total p' u' := by
  unfold Accounts.total
  rw [h]
  refine ⟨by rw [SnapshotMap.mayLoad_save, Option.getD_some], fun p' u' hne => ?_⟩
  rw [SnapshotMap.mayLoad_save_ne hne]

end Sums

/-- The part under `key` changes by `plus - minus` units, and so do its group and its owner.
Nothing else moves. -/
structure Moves (g : Grouping K V G U P) (b b' : Accounts K V G U P) (key : K)
    (plus minus : Nat) : Prop where
  units : b'.unitsOf g key + minus = b.unitsOf g key + plus
  others : ∀ k, k ≠ key → b'.unitsOf g k = b.unitsOf g k
  amount : b'.amountIn g (g.group key) + minus = b.amountIn g (g.group key) + plus
  otherGroups : ∀ p, p ≠ g.group key → b'.amountIn g p = b.amountIn g p
  total : b'.total (g.group key) (g.owner key) =
    b.total (g.group key) (g.owner key) + plus - minus
  otherTotals : ∀ p u, (p, u) ≠ (g.group key, g.owner key) → b'.total p u = b.total p u
  minus_le : minus ≤ b.unitsOf g key

namespace Tally

variable {g : Grouping K V G U P} {b b' : Accounts K V G U P}

/-- The amount of a group counts every part of it. -/
theorem unitsOf_le_amount (h : Tally g b) (key : K) :
    b.unitsOf g key ≤ b.amountIn g (g.group key) := by
  rw [h.amount]
  exact unitsOf_le_sumWhere (fun k => g.group k = g.group key) rfl

/-- So does the total of its owner. -/
theorem unitsOf_le_total (h : Tally g b) (key : K) :
    b.unitsOf g key ≤ b.total (g.group key) (g.owner key) := by
  rw [h.owner]
  exact unitsOf_le_sumWhere (fun k => g.group k = g.group key ∧ g.owner k = g.owner key)
    ⟨rfl, rfl⟩

/-- The books still agree after a move. -/
theorem of_moves {key : K} {plus minus : Nat} (h : Tally g b)
    (hmoves : Moves g b b' key plus minus) : Tally g b' := by
  have hunits := hmoves.units
  have hminus := hmoves.minus_le
  have hsum := fun p => sumWhere_move (fun k => g.group k = p) hmoves.others
  have hcovered : minus ≤ b.total (g.group key) (g.owner key) :=
    hminus.trans (h.unitsOf_le_total key)
  have htotal : b'.total (g.group key) (g.owner key) + minus =
      b.total (g.group key) (g.owner key) + plus := by
    rw [hmoves.total]
    omega
  -- in the key's own group the amount moves with the units, elsewhere both stay
  constructor
  · intro p
    have hp : b'.groupSum g p + _ = b.groupSum g p + _ := hsum p
    have hamount := h.amount p
    by_cases hgroup : g.group key = p
    · subst hgroup
      have hmoved := hmoves.amount
      simp only [if_true] at hp
      omega
    · rw [if_neg hgroup, if_neg hgroup] at hp
      rw [hmoves.otherGroups p (Ne.symm hgroup), hamount]
      omega
  · intro p
    have hp : b'.groupSum g p + _ = b.groupSum g p + _ := hsum p
    have hmove := totalSum_move hmoves.otherTotals p
    have hsame := h.total p
    by_cases hgroup : g.group key = p
    · subst hgroup
      simp only [if_true] at hp hmove
      omega
    · rw [if_neg hgroup, if_neg hgroup] at hp hmove
      omega
  · intro p u
    have hp : b'.ownerSum g p u + _ = b.ownerSum g p u + _ :=
      sumWhere_move (fun k => g.group k = p ∧ g.owner k = u) hmoves.others
    have hsame := h.owner p u
    by_cases hkey : g.group key = p ∧ g.owner key = u
    · obtain ⟨rfl, rfl⟩ := hkey
      simp only [and_self, if_true] at hp
      omega
    · rw [if_neg hkey, if_neg hkey] at hp
      have hne : (p, u) ≠ (g.group key, g.owner key) := by
        intro heq
        obtain ⟨rfl, rfl⟩ := Prod.mk.inj heq
        exact hkey ⟨rfl, rfl⟩
      rw [hmoves.otherTotals p u hne]
      omega

/-- The books still agree when nothing they are about changed. -/
theorem of_still (h : Tally g b) (hunits : ∀ k, b'.unitsOf g k = b.unitsOf g k)
    (hamount : ∀ p, b'.amountIn g p = b.amountIn g p) (htotals : b'.totals = b.totals) :
    Tally g b' where
  amount p := by
    rw [hamount, h.amount]
    exact (sumWhere_congr _ fun k _ => hunits k).symm
  total p := by
    rw [totalSum, htotals, ← totalSum, h.total]
    exact (sumWhere_congr _ fun k _ => hunits k).symm
  owner p u := by
    rw [Accounts.total, htotals, ← Accounts.total, h.owner]
    exact (sumWhere_congr _ fun k _ => hunits k).symm

/-- Empty books agree. -/
theorem of_empty (hparts : b.parts = ∅) (htotals : b.totals = SnapshotMap.empty)
    (hamount : ∀ p, b.amountIn g p = 0) : Tally g b := by
  have hsum : ∀ (c : K → Prop) [DecidablePred c], b.sumWhere g c = 0 := by
    intro c _
    rw [sumWhere, hparts, Map.sum_empty]
  refine ⟨fun p => (hamount p).trans (hsum _).symm, fun p => ?_, fun p u => ?_⟩
  · refine Eq.trans ?_ (hsum _).symm
    rw [totalSum, htotals]
    rfl
  · refine Eq.trans ?_ (hsum _).symm
    rw [Accounts.total, htotals]
    rfl

end Tally

/-! ### The answers about the past -/

variable {g : Grouping K V G U P} {b b' : Accounts K V G U P}

/-- The totals of any owners that include everybody with a total. -/
theorem sum_totals {p : G} {S : Finset U} (hS : ∀ u, b.totals.mayLoad (p, u) ≠ none → u ∈ S) :
    ∑ u ∈ S, b.total p u = b.totalSum p := by
  let keys : Finset (G × U) := b.totals.primary.keys.toFinset ∪ S.image fun u => (p, u)
  have hkeys : ∀ k v, b.totals.primary.mayLoad k = some v → k ∈ keys := by
    intro k v hk
    simp only [keys, Finset.mem_union, List.mem_toFinset]
    exact Or.inl (Map.mem_keys_iff.mpr ⟨v, hk⟩)
  have himage : S.image (fun u => (p, u)) ⊆ keys := Finset.subset_union_right
  unfold totalSum
  rw [Map.sum_eq_finset_sum _ _ hkeys]
  simp only [total_elim]
  rw [← Finset.sum_subset himage]
  · rw [Finset.sum_image fun u _ v _ h => (Prod.mk.inj h).2]
    simp
  · -- a key of this group that is not in the image has no total
    rintro ⟨p', u⟩ - hout
    split_ifs with hp
    · obtain rfl := hp
      have hnone : b.totals.mayLoad (p', u) = none := by
        by_contra hne
        exact hout (Finset.mem_image.mpr ⟨u, hS u hne, rfl⟩)
      simp only [Accounts.total, hnone, Option.getD_none]
    · rfl

/-- The books agree now and about every past block: the totals of any owners that include
everybody with a total add up to the amount of the group. -/
structure Recorded (g : Grouping K V G U P) (b : Accounts K V G U P) (now : Nat) : Prop where
  tally : Tally g b
  groups : b.groups.BoundedBy now
  totals : b.totals.BoundedBy now
  history : ∀ (p : G) (height : Nat) (S : Finset U),
    (∀ u, b.totals.mayLoad (p, u) ≠ none → u ∈ S) →
      ∑ u ∈ S, (b.totals.mayLoadAtHeight (p, u) height).getD 0 =
        (b.groups.mayLoadAtHeight p height).elim 0 g.amount

/-- A step of a block: the answers about past blocks stay, and those about later blocks are
the present books. -/
theorem Recorded.step {now : Nat} (h : Recorded g b now) (htally : Tally g b → Tally g b')
    (hgroups : SnapshotMap.Written now b.groups b'.groups)
    (htotals : SnapshotMap.Written now b.totals b'.totals) : Recorded g b' now where
  tally := htally h.tally
  groups := hgroups.boundedBy h.groups
  totals := htotals.boundedBy h.totals
  history p height S hS := by
    rcases Nat.lt_or_ge now height with hlt | hle
    · simp only [SnapshotMap.mayLoadAtHeight_of_lt (htotals.boundedBy h.totals) hlt,
        SnapshotMap.mayLoadAtHeight_of_lt (hgroups.boundedBy h.groups) hlt]
      have hsum : ∑ u ∈ S, b'.total p u = b'.totalSum p := sum_totals hS
      have hnow := htally h.tally
      exact hsum.trans ((hnow.total p).trans (hnow.amount p).symm)
    · simp only [htotals.mayLoadAtHeight h.totals hle, hgroups.mayLoadAtHeight h.groups hle]
      exact h.history p height S fun u hu => hS u (htotals.mayLoad_ne_none hu)

/-- Later the answers are the same. -/
theorem Recorded.later {now now' : Nat} (h : Recorded g b now) (hle : now ≤ now') :
    Recorded g b now' :=
  ⟨h.tally, h.groups.mono hle, h.totals.mono hle, h.history⟩

end NeutronTge.Shares
