import Mathlib.Data.String.Basic
import NeutronTge.CosmWasm.Paging
import NeutronTge.Vesting.Base

/-!
# NeutronTge.Vesting.Queries

The queries of a vesting contract about its accounts. `VestingAccounts` answers page by page,
and its pages are those of `CosmWasm.Paging`: whatever happens to the contract between two
pages, nobody is listed twice, and a reader who got a page that was not full has seen everybody
who was there all along.
-/

namespace NeutronTge.Vesting

open CosmWasm Astroport

/-- The order in which accounts are listed. -/
inductive OrderBy
  | asc
  | desc
  deriving Repr, DecidableEq

/-- The order as one of the store. -/
def OrderBy.toOrder : OrderBy → Order
  | .asc => .ascending
  | .desc => .descending

/-- `MAX_LIMIT`. -/
def maxLimit : Nat := 30

/-- `DEFAULT_LIMIT`. -/
def defaultLimit : Nat := 10

/-- `addr_opt_validate`. -/
def addrOptValidate : Option Addr → Except StdError (Option Addr)
  | some addr => do
      let addr ← addrValidateToLower addr
      .ok (some addr)
  | none => .ok none

section Queries

variable (s : Storage)

/-- `query_vesting_available_amount`. -/
def queryVestingAvailableAmount (env : Env) (address : Addr) : Except StdError Nat := do
  let info ← s.vestingInfo.load address
  computeAvailableAmount env.time info

/-- The `limit` of a page. -/
def pageLimit (limit : Option Nat) : Nat := min (limit.getD defaultLimit) maxLimit

/-- `read_vesting_infos`. -/
def readVestingInfos (startAfter : Option Addr) (limit : Option Nat) (orderBy : Option OrderBy) :
    List (Addr × VestingInfo) :=
  let (start, stop) :=
    match orderBy with
    | some .asc => (startAfter, none)
    | _ => (none, startAfter)
  (s.vestingInfo.primary.range start stop (orderBy.getD .desc).toOrder).take (pageLimit limit)

/-- `query_vesting_accounts`. -/
def queryVestingAccounts (startAfter : Option Addr) (limit : Option Nat)
    (orderBy : Option OrderBy) : Except StdError (List (Addr × VestingInfo)) := do
  let startAfter ← addrOptValidate startAfter
  .ok (readVestingInfos s startAfter limit orderBy)

end Queries

/-! ### Walks over the accounts -/

section Walks

variable (limit : Option Nat) (orderBy : Option OrderBy)

/-- A reader asks for one page after the other, each after the last account of the page before,
while the contract is in one state after the other. -/
def walkAccounts : Option Addr → List Storage → Except StdError (List (List (Addr × VestingInfo)))
  | _, [] => .ok []
  | after, s :: ss => do
      let p ← queryVestingAccounts s after limit orderBy
      let rest ← walkAccounts (pageEnd Prod.fst after p) ss
      .ok (p :: rest)

/-- The order of the pages: the last account first, unless the reader asks for the other one. -/
def pageOrder : Order := (orderBy.getD .desc).toOrder

variable {limit orderBy}

theorem readVestingInfos_eq (s : Storage) (after : Option Addr) :
    readVestingInfos s after limit orderBy =
      page Prod.fst (pageOrder orderBy).Before (pageLimit limit) after
        (s.vestingInfo.primary.inOrder (pageOrder orderBy)) := by
  match orderBy with
  | some .asc => exact Map.range_ascending ..
  | some .desc => exact Map.range_descending ..
  | none => exact Map.range_descending ..

theorem walkAccounts_eq {ss : List Storage} : ∀ {after pages},
    walkAccounts limit orderBy after ss = .ok pages →
      pages = walk Prod.fst (pageOrder orderBy).Before (pageLimit limit) after
        (ss.map fun s => s.vestingInfo.primary.inOrder (pageOrder orderBy)) := by
  induction ss with
  | nil =>
      intro after pages h
      exact (Except.ok.inj h).symm
  | cons s ss ih =>
      intro after pages h
      simp only [walkAccounts, queryVestingAccounts, bind_eq_ok, Except.ok.injEq] at h
      obtain ⟨p, ⟨start, hstart, rfl⟩, rest, hrest, rfl⟩ := h
      have hafter : start = after := by
        cases after with
        | none => exact (Except.ok.inj hstart).symm
        | some a =>
            simp only [addrOptValidate, addrValidateToLower, bind_eq_ok, Except.ok.injEq] at hstart
            obtain ⟨_, ⟨_, -, rfl⟩, rfl⟩ := hstart
            rfl
      rw [hafter] at hrest ⊢
      rw [List.map_cons, walk, ← readVestingInfos_eq, ← ih hrest]

/-- What a reader knows who found the contract in the states `ss`. -/
structure Listed (limit : Option Nat) (orderBy : Option OrderBy) (ss : List Storage)
    (pages : List (List (Addr × VestingInfo))) : Prop where
  /-- The accounts come in order, so nobody comes twice. -/
  ordered : Sorted Prod.fst (pageOrder orderBy).Before pages.flatten
  /-- An account is listed as it was when its page was asked for. -/
  stored : List.Forall₂ (fun s p => ∀ x ∈ p, s.vestingInfo.mayLoad x.1 = some x.2) ss pages
  /-- After a page that was not full everybody is listed who was there all along. -/
  complete : ∀ p, pages.getLast? = some p → p.length < pageLimit limit →
    ∀ addr, (∀ s ∈ ss, (s.vestingInfo.mayLoad addr).isSome = true) →
      addr ∈ pages.flatten.map Prod.fst
  /-- The pages of a contract that nobody used are its accounts in order. -/
  quiet : ∀ s n, ss = List.replicate n s → pages.flatten =
    (s.vestingInfo.primary.inOrder (pageOrder orderBy)).take (n * pageLimit limit)

theorem walkAccounts_stored {ss : List Storage} : ∀ {after pages},
    walkAccounts limit orderBy after ss = .ok pages →
      List.Forall₂ (fun s p => ∀ x ∈ p, s.vestingInfo.mayLoad x.1 = some x.2) ss pages := by
  induction ss with
  | nil =>
      intro after pages h
      obtain rfl := Except.ok.inj h
      exact .nil
  | cons s ss ih =>
      intro after pages h
      simp only [walkAccounts, queryVestingAccounts, bind_eq_ok, Except.ok.injEq] at h
      obtain ⟨p, ⟨start, -, rfl⟩, rest, hrest, rfl⟩ := h
      refine .cons (fun x hx => ?_) (ih hrest)
      rw [readVestingInfos_eq] at hx
      exact Map.mem_inOrder.mp (mem_page hx).1

/-! ### Three accounts, and one more while they are read -/

/-- A contract with these accounts. -/
def sampleAccounts (addrs : List Addr) : Storage where
  config := ⟨"owner", none, "manager", ⟨false, false, false⟩⟩
  ownershipProposal := none
  vestingManagers := ∅
  vestingState := .empty
  vestingInfo := ⟨addrs.foldl (fun m addr => m.save addr ⟨[], 0⟩) ∅, []⟩

/-- Three accounts. -/
def sampleBefore : Storage := sampleAccounts ["alice", "bob", "carol"]

/-- One more account has been registered. -/
def sampleAfter : Storage := sampleAccounts ["alice", "ben", "bob", "carol"]

/-! ### Results -/

/-- The pages of a reader, whatever happens to the contract between them. -/
theorem accounts_listed {ss : List Storage} {pages : List (List (Addr × VestingInfo))}
    (h : walkAccounts limit orderBy none ss = .ok pages) : Listed limit orderBy ss pages := by
  have hwalk := walkAccounts_eq h
  have hsorted : ∀ xs ∈ ss.map fun s => s.vestingInfo.primary.inOrder (pageOrder orderBy),
      Sorted Prod.fst (pageOrder orderBy).Before xs := by
    intro xs hxs
    obtain ⟨s, -, rfl⟩ := List.mem_map.mp hxs
    exact Map.sorted_inOrder _
  constructor
  · rw [hwalk]
    exact (walk_sorted hsorted none).1
  · exact walkAccounts_stored h
  · intro p hlast hshort addr hthere
    rw [hwalk] at hlast ⊢
    have hlisted : ∃ x ∈ (walk Prod.fst (pageOrder orderBy).Before (pageLimit limit) none
        (ss.map fun s => s.vestingInfo.primary.inOrder (pageOrder orderBy))).flatten,
          x.1 = addr := by
      refine mem_walk hsorted (fun _ h => by cases h) (fun xs hxs => ?_) hlast hshort
      obtain ⟨s, hs, rfl⟩ := List.mem_map.mp hxs
      obtain ⟨info, hinfo⟩ := Option.isSome_iff_exists.mp (hthere s hs)
      exact ⟨(addr, info), Map.mem_inOrder.mpr hinfo, rfl⟩
    obtain ⟨x, hx, rfl⟩ := hlisted
    exact List.mem_map_of_mem hx
  · rintro s n rfl
    rw [hwalk, List.map_replicate, walk_replicate (Map.sorted_inOrder _) n none]
    simp only [Option.all_none, List.filter_true]

theorem accounts_listed_sample :
    Listed (some 2) (some .asc) [sampleBefore, sampleAfter]
      [[("alice", ⟨[], 0⟩), ("bob", ⟨[], 0⟩)], [("carol", ⟨[], 0⟩)]] :=
  accounts_listed (by decide +kernel)

end Walks

end NeutronTge.Vesting
