import NeutronTge.Astroport.Asset
import NeutronTge.Astroport.RestrictedVector

/-!
# NeutronTge.Astroport.RewardIndex

The index of rewards per LP token. After a claim of rewards both lockdrops look at the balance
of every reward asset again, and what arrived of it is divided among the staked LP tokens and
added to the index. The loop is the same in both; only where the balances come from differs.
-/

namespace NeutronTge.Astroport

open CosmWasm

variable {balanceOf : AssetInfo → Except StdError Nat} {lpBalance : Nat}

/-- Add what arrived of each asset since `prevBalances`, per staked LP token. -/
def bookBalances (balanceOf : AssetInfo → Except StdError Nat) (lpBalance : Nat)
    (perShare : RestrictedVector AssetInfo Decimal) (prevBalances : List Asset) :
    Except StdError (RestrictedVector AssetInfo Decimal) :=
  prevBalances.foldlM (fun perShare prev => do
    let current ← balanceOf prev.info
    let received ← Uint.checkedSub current prev.amount
    let increment ← FixedPoint.fromRatio 128 received lpBalance
    perShare.updateDecimal prev.info increment) perShare

/-- Booking rewards never takes credit away, whatever the balances are. -/
theorem bookBalances_le {prev : List Asset}
    {perShare perShare' : RestrictedVector AssetInfo Decimal}
    (h : bookBalances balanceOf lpBalance perShare prev = .ok perShare') (asset : AssetInfo) :
    perShare.atomicsOf asset ≤ perShare'.atomicsOf asset := by
  refine foldlM_relation (R := fun v v' : RestrictedVector AssetInfo Decimal =>
    v.atomicsOf asset ≤ v'.atomicsOf asset) (fun _ => le_rfl) (fun _ _ _ => le_trans) ?_ h
  intro v v' b _ hstep
  simp only [bind_eq_ok] at hstep
  obtain ⟨_, -, _, -, _, -, hupdate⟩ := hstep
  rw [RestrictedVector.atomicsOf_updateDecimal hupdate]
  exact Nat.le_add_right _ _

/-- For a list that names each asset at most once, what arrived of an asset is divided among the
LP tokens. -/
theorem bookBalances_ok : ∀ {prev : List Asset}
    {perShare perShare' : RestrictedVector AssetInfo Decimal},
    (prev.map Asset.info).Nodup → bookBalances balanceOf lpBalance perShare prev = .ok perShare' →
      (∀ asset, asset ∉ prev.map Asset.info →
        perShare'.atomicsOf asset = perShare.atomicsOf asset) ∧
      ∀ b ∈ prev, ∃ current, balanceOf b.info = .ok current ∧ b.amount ≤ current ∧
        0 < lpBalance ∧ perShare'.atomicsOf b.info = perShare.atomicsOf b.info +
          (current - b.amount) * FixedPoint.fractional / lpBalance := by
  intro prev
  induction prev with
  | nil =>
      intro perShare perShare' _ h
      obtain rfl := Except.ok.inj h
      exact ⟨fun _ _ => rfl, fun b hb => absurd hb List.not_mem_nil⟩
  | cons b prev ih =>
      intro perShare perShare' hnodup h
      rw [List.map_cons, List.nodup_cons] at hnodup
      obtain ⟨hnew, hnodup⟩ := hnodup
      obtain ⟨perShare₁, hfirst, hrest⟩ := foldlM_cons_ok.mp h
      simp only [bind_eq_ok, Uint.checkedSub_eq_ok, FixedPoint.fromRatio_eq_ok] at hfirst
      obtain ⟨current, hcurrent, _, ⟨hle, rfl⟩, increment, ⟨hpos, -, hincrement⟩, hupdate⟩ :=
        hfirst
      have hvalue := RestrictedVector.atomicsOf_updateDecimal hupdate
      obtain ⟨hothers, hbooked⟩ := ih hnodup hrest
      refine ⟨fun asset hasset => ?_, fun b' hb' => ?_⟩
      · rw [List.map_cons, List.mem_cons, not_or] at hasset
        rw [hothers asset hasset.2, hvalue, if_neg hasset.1, Nat.add_zero]
      · rcases List.mem_cons.mp hb' with rfl | hb'
        · refine ⟨current, hcurrent, hle, hpos, ?_⟩
          rw [hothers b'.info hnew, hvalue, if_pos rfl, hincrement]
        · obtain ⟨current', hquery, hle', hpos', hatomics⟩ := hbooked b' hb'
          refine ⟨current', hquery, hle', hpos', ?_⟩
          have hne : b'.info ≠ b.info := fun heq => hnew (heq ▸ List.mem_map_of_mem hb')
          rw [hatomics, hvalue, if_neg hne, Nat.add_zero]

end NeutronTge.Astroport
