import NeutronTge.Vesting.Accounts

/-!
# NeutronTge.Vesting.History

The historical extension: the unclaimed amount of an account and of all accounts at a past
block, which the governance contracts use as voting power. The two answers come from two
changelogs that are written independently. `Agrees` says that the accounts and the totals
of one moment fit together; when every call leaves them so, the answers about every block
fit together (`History`).
-/

namespace NeutronTge.Vesting

open CosmWasm

/-! ### The queries -/

/-- The queries of the historical extension. -/
inductive QueryMsgHistorical
  | unclaimedAmountAtHeight (address : Addr) (height : Nat)
  | unclaimedTotalAmountAtHeight (height : Nat)
  deriving Repr, DecidableEq

/-- `compute_unclaimed_amount`. -/
def computeUnclaimedAmount (info : VestingInfo) : Except StdError Nat := do
  let availableAmount ← addGranted 0 info.schedules
  Uint.checkedSub availableAmount info.releasedAmount

/-- `query_unclaimed_amount_at_height`. -/
def queryUnclaimedAmountAtHeight (s : Storage) (address : Addr) (height : Nat) :
    Except StdError Nat :=
  match s.vestingInfo.mayLoadAtHeight address height with
  | some info => computeUnclaimedAmount info
  | none => .ok 0

/-- `query_total_unclaimed_amount_at_height`. -/
def queryTotalUnclaimedAmountAtHeight (s : Storage) (height : Nat) : Except StdError Nat :=
  match s.vestingState.mayLoadAtHeight () height with
  | some state => Uint.checkedSub state.totalGranted state.totalReleased
  | none => .ok 0

/-- `handle_query_historical_msg`. -/
def handleQueryHistoricalMsg (s : Storage) (msg : QueryMsgHistorical) : Except StdError Nat := do
  rejectIf (¬ (s.config.extensions.historical = true)) (extUnsupportedErr "historical")
  match msg with
  | .unclaimedAmountAtHeight address height => queryUnclaimedAmountAtHeight s address height
  | .unclaimedTotalAmountAtHeight height => queryTotalUnclaimedAmountAtHeight s height

/-- At every block the unclaimed amounts of the accounts, of any addresses that include all
accounts of that block, add up to the total unclaimed amount. -/
def Storage.HistoryAgrees (s : Storage) : Prop :=
  ∀ (height : Nat) (U : Finset Addr),
    (∀ a, s.vestingInfo.mayLoadAtHeight a height ≠ none → a ∈ U) →
      ∃ (amount : Addr → Nat) (total : Nat),
        (∀ a, handleQueryHistoricalMsg s (.unclaimedAmountAtHeight a height) = .ok (amount a)) ∧
          handleQueryHistoricalMsg s (.unclaimedTotalAmountAtHeight height) = .ok total ∧
            ∑ a ∈ U, amount a = total

/-! ### One moment -/

/-- No more was released than the schedules grant, and what they grant fits in 128 bits. -/
structure VestingInfo.Sound (info : VestingInfo) : Prop where
  released : info.releasedAmount ≤ granted info.schedules
  bounded : granted info.schedules < 2 ^ 128

theorem addGranted_of_lt {schedules : List VestingSchedule} :
    ∀ {acc : Nat}, acc + granted schedules < 2 ^ 128 →
      addGranted acc schedules = .ok (acc + granted schedules) := by
  induction schedules with
  | nil =>
      intro acc _
      rfl
  | cons sch rest ih =>
      intro acc hlt
      rw [granted_cons] at hlt ⊢
      unfold addGranted
      rw [List.foldlM_cons, bind_eq_ok]
      refine ⟨acc + grantedAmount sch, Uint.checkedAdd_eq_ok.mpr ⟨by omega, rfl⟩, ?_⟩
      show addGranted (acc + grantedAmount sch) rest = _
      rw [ih (by omega), Nat.add_assoc]

theorem computeUnclaimedAmount_eq {info : VestingInfo} (h : info.Sound) :
    computeUnclaimedAmount info = .ok (granted info.schedules - info.releasedAmount) := by
  have hlt : 0 + granted info.schedules < 2 ^ 128 := by
    rw [Nat.zero_add]
    exact h.bounded
  unfold computeUnclaimedAmount
  rw [addGranted_of_lt hlt, Nat.zero_add]
  exact Uint.checkedSub_eq_ok.mpr ⟨h.released, rfl⟩

/-- What an account has not claimed yet. -/
def VestingInfo.rest (info : VestingInfo) : Nat := granted info.schedules - info.releasedAmount

/-- What an address has not claimed yet. -/
def unclaimed (account : Option VestingInfo) : Nat :=
  account.elim 0 VestingInfo.rest

/-- What the totals say is not claimed yet. -/
def unclaimedTotal (state : Option VestingState) : Nat :=
  state.elim 0 fun state => state.totalGranted - state.totalReleased

/-- The accounts and the totals of one moment fit together. -/
structure Agrees (account : Addr → Option VestingInfo) (state : Option VestingState) : Prop where
  sound : ∀ a info, account a = some info → info.Sound
  covered : ∀ st, state = some st → st.totalReleased ≤ st.totalGranted
  total : ∀ U : Finset Addr, (∀ a, account a ≠ none → a ∈ U) →
    ∑ a ∈ U, unclaimed (account a) = unclaimedTotal state

theorem Storage.sum_rest {s : Storage}
    (hsound : ∀ a info, s.vestingInfo.mayLoad a = some info → info.Sound) :
    s.vestingInfo.primary.sum (fun _ => VestingInfo.rest) + s.releasedSum = s.grantedSum := by
  unfold Storage.releasedSum Storage.grantedSum
  rw [← Map.sum_add]
  refine Map.sum_congr fun a info hload => ?_
  have hle := (hsound a info hload).released
  show granted info.schedules - info.releasedAmount + info.releasedAmount = _
  omega

/-- The stored accounts and totals fit together when the two totals are ahead of the sums
over the accounts by the same amount. -/
theorem agrees_of_gaps {s : Storage} (hgap : s.grantedGap = s.releasedGap)
    (hsound : ∀ a info, s.vestingInfo.mayLoad a = some info → info.Sound) :
    Agrees s.vestingInfo.mayLoad (s.vestingState.mayLoad ()) := by
  have hsum := Storage.sum_rest hsound
  have htotals : s.totals.totalReleased + s.vestingInfo.primary.sum (fun _ => VestingInfo.rest) =
      s.totals.totalGranted := by
    unfold Storage.grantedGap Storage.releasedGap at hgap
    omega
  refine ⟨hsound, fun st hst => ?_, fun U hU => ?_⟩
  · rw [Storage.totals, hst, Option.getD_some] at htotals
    omega
  · have hfinset : s.vestingInfo.primary.sum (fun _ => VestingInfo.rest) =
        ∑ a ∈ U, unclaimed (s.vestingInfo.mayLoad a) := by
      refine Map.sum_eq_finset_sum _ _ fun a info hload => hU a ?_
      rw [show s.vestingInfo.mayLoad a = some info from hload]
      exact Option.some_ne_none info
    rw [← hfinset]
    unfold Storage.totals at htotals
    cases hst : s.vestingState.mayLoad () with
    | none =>
        rw [hst, Option.getD_none] at htotals
        dsimp only at htotals
        show _ = 0
        omega
    | some st =>
        rw [hst, Option.getD_some] at htotals
        show _ = st.totalGranted - st.totalReleased
        omega

/-! ### All blocks -/

/-- The accounts and the totals fit together at every block; nothing was written after
block `now`. -/
structure History (now : Nat) (s : Storage) : Prop where
  infos : s.vestingInfo.BoundedBy now
  states : s.vestingState.BoundedBy now
  agrees : ∀ height, Agrees (fun a => s.vestingInfo.mayLoadAtHeight a height)
    (s.vestingState.mayLoadAtHeight () height)

theorem History.mono {now later : Nat} {s : Storage} (h : History now s) (hle : now ≤ later) :
    History later s :=
  ⟨h.infos.mono hle, h.states.mono hle, h.agrees⟩

/-- The writes of a block change the answers about later blocks only, and there the answers
are what is stored now. -/
theorem History.step {now : Nat} {s s' : Storage} (h : History now s)
    (hon : s.config.extensions.historical = true) (hwrites : Rewrites now s s')
    (hpresent : Agrees s'.vestingInfo.mayLoad (s'.vestingState.mayLoad ())) :
    History now s' := by
  have hinfos : s'.vestingInfo.BoundedBy now := (hwrites.infos hon).boundedBy h.infos
  have hstates : s'.vestingState.BoundedBy now := (hwrites.states hon).boundedBy h.states
  refine ⟨hinfos, hstates, fun height => ?_⟩
  rcases Nat.lt_or_ge now height with hlt | hle
  · simp only [SnapshotMap.mayLoadAtHeight_of_lt hinfos hlt,
      SnapshotMap.mayLoadAtHeight_of_lt hstates hlt]
    exact hpresent
  · simp only [(hwrites.infos hon).mayLoadAtHeight h.infos hle,
      (hwrites.states hon).mayLoadAtHeight h.states hle]
    exact h.agrees height

/-- Before anything was written there is nothing to claim at any block. -/
theorem History.init {now : Nat} {s : Storage} (hinfo : s.vestingInfo = SnapshotMap.empty)
    (hstate : s.vestingState = SnapshotMap.empty) : History now s := by
  constructor
  · rw [hinfo]
    exact SnapshotMap.boundedBy_empty now
  · rw [hstate]
    exact SnapshotMap.boundedBy_empty now
  · intro height
    rw [hinfo, hstate]
    refine ⟨fun a info h => ?_, fun st h => ?_, fun U _ => ?_⟩
    · cases h
    · cases h
    · exact Finset.sum_eq_zero fun _ _ => rfl

/-- The queries answer what the accounts and the totals of the block amount to. -/
theorem History.historyAgrees {now : Nat} {s : Storage} (h : History now s)
    (hon : s.config.extensions.historical = true) : s.HistoryAgrees := by
  intro height U hU
  have hagrees := h.agrees height
  refine ⟨fun a => unclaimed (s.vestingInfo.mayLoadAtHeight a height),
    unclaimedTotal (s.vestingState.mayLoadAtHeight () height), fun a => ?_, ?_, ?_⟩
  · have hquery : queryUnclaimedAmountAtHeight s a height =
        .ok (unclaimed (s.vestingInfo.mayLoadAtHeight a height)) := by
      unfold queryUnclaimedAmountAtHeight
      cases hload : s.vestingInfo.mayLoadAtHeight a height with
      | none => rfl
      | some info => exact computeUnclaimedAmount_eq (hagrees.sound a info hload)
    simp only [handleQueryHistoricalMsg, bind_eq_ok, exists_const, rejectIf_eq_ok, not_not]
    exact ⟨hon, hquery⟩
  · have hquery : queryTotalUnclaimedAmountAtHeight s height =
        .ok (unclaimedTotal (s.vestingState.mayLoadAtHeight () height)) := by
      unfold queryTotalUnclaimedAmountAtHeight
      cases hload : s.vestingState.mayLoadAtHeight () height with
      | none => rfl
      | some st => exact Uint.checkedSub_eq_ok.mpr ⟨hagrees.covered st hload, rfl⟩
    simp only [handleQueryHistoricalMsg, bind_eq_ok, exists_const, rejectIf_eq_ok, not_not]
    exact ⟨hon, hquery⟩
  · exact hagrees.total U hU

end NeutronTge.Vesting
