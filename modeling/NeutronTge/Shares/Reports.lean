import NeutronTge.CosmWasm.Uint

/-!
# NeutronTge.Shares.Reports

Loops over the positions of an owner. The one computes an amount for each position, which may
be stored, and adds the amounts up (`addAmounts`). The other reports: it looks the report about
each position up and lists it, adds its rewards to a total, and enters what can be claimed for
it into an accumulator (`addReport`). So the list has the reports of all positions in their
order (`Reports`), and the amounts are the sums over it.
-/

namespace NeutronTge.Shares

open CosmWasm

variable {κ ρ γ σ : Type}

/-! ### Amounts -/

/-- Add up what `step` computes for some positions, while it changes the state. -/
def addAmounts (step : σ → κ → Except StdError (Nat × σ)) (s : σ) (keys : List κ) :
    Except StdError (Nat × σ) :=
  keys.foldlM (fun st key => do
    let (amount, s) ← step st.2 key
    let total ← Uint.checkedAdd 128 st.1 amount
    .ok (total, s)) (0, s)

section Amounts

variable {step : σ → κ → Except StdError (Nat × σ)} {s s' : σ} {keys : List κ} {total : Nat}

/-- What every step preserves that starts from it. -/
theorem addAmounts_invariant {P : σ → Prop}
    (hstep : ∀ t key amount t', key ∈ keys → P t → step t key = .ok (amount, t') → P t')
    (hs : P s) (h : addAmounts step s keys = .ok (total, s')) : P s' := by
  have hrun : P (total, s').2 := by
    refine foldlM_invariant (fun st : Nat × σ => P st.2) (by exact hs) ?_ h
    intro st st' key hkey hst hround
    simp only [bind_eq_ok, Except.ok.injEq] at hround
    obtain ⟨⟨amount, t⟩, hamount, _, -, rfl⟩ := hround
    exact hstep st.2 key amount t hkey hst hamount
  exact hrun

/-- A relation that every step establishes, and that composes. -/
theorem addAmounts_relation {R : σ → σ → Prop} (hrefl : ∀ t, R t t)
    (htrans : ∀ t u v, R t u → R u v → R t v)
    (hstep : ∀ t key amount t', key ∈ keys → step t key = .ok (amount, t') → R t t')
    (h : addAmounts step s keys = .ok (total, s')) : R s s' :=
  addAmounts_invariant (P := R s)
    (fun t key amount t' hkey ht ha => htrans s t t' ht (hstep t key amount t' hkey ha))
    (hrefl s) h

/-- The total, when the invariant says what a step computes. -/
theorem addAmounts_total {P : σ → Prop} {value : κ → Nat}
    (hstep : ∀ t key amount t', key ∈ keys → P t → step t key = .ok (amount, t') →
      amount = value key ∧ P t')
    (hs : P s) (h : addAmounts step s keys = .ok (total, s')) :
    total = (keys.map value).sum := by
  -- the loop from any total so far
  suffices hloop : ∀ (ks : List κ) (a b : Nat) (t t' : σ), (∀ key ∈ ks, key ∈ keys) → P t →
      ks.foldlM (fun (st : Nat × σ) key => do
        let (amount, s) ← step st.2 key
        let total ← Uint.checkedAdd 128 st.1 amount
        .ok (total, s)) (a, t) = .ok (b, t') → b = a + (ks.map value).sum from
    (hloop keys 0 total s s' (fun _ => id) hs h).trans (Nat.zero_add _)
  intro ks
  induction ks with
  | nil =>
      intro a b t t' _ _ h
      obtain ⟨rfl, -⟩ := Prod.mk.inj (Except.ok.inj h)
      rfl
  | cons key ks ih =>
      intro a b t t' hks ht h
      obtain ⟨st, hfirst, hrest⟩ := foldlM_cons_ok.mp h
      simp only [bind_eq_ok, Uint.checkedAdd_eq_ok, Except.ok.injEq] at hfirst
      obtain ⟨⟨amount, u⟩, hamount, _, ⟨-, rfl⟩, rfl⟩ := hfirst
      obtain ⟨rfl, hu⟩ := hstep t key amount u (hks key List.mem_cons_self) ht hamount
      rw [ih _ b u t' (fun k hk => hks k (List.mem_cons_of_mem _ hk)) hu hrest, List.map_cons,
        List.sum_cons, Nat.add_assoc]

end Amounts

/-! ### Reports -/

/-- The reports about some positions, in their order. -/
def Reports (report : κ → Except StdError ρ) (keys : List κ) (reports : List ρ) : Prop :=
  List.Forall₂ (fun key r => report key = .ok r) keys reports

/-- One position in the loop: the rewards, the reports and what can be claimed so far. -/
def addReport (report : κ → Except StdError ρ) (rewards : ρ → Nat)
    (enter : γ → ρ → Except StdError γ) (st : Nat × List ρ × γ) (key : κ) :
    Except StdError (Nat × List ρ × γ) := do
  let r ← report key
  let total ← Uint.checkedAdd 128 st.1 (rewards r)
  let claimable ← enter st.2.2 r
  .ok (total, st.2.1 ++ [r], claimable)

variable {report : κ → Except StdError ρ} {rewards : ρ → Nat} {enter : γ → ρ → Except StdError γ}

/-- Every position has its report. -/
theorem Reports.mem {keys : List κ} {reports : List ρ} (h : Reports report keys reports)
    {key : κ} (hkey : key ∈ keys) : ∃ r ∈ reports, report key = .ok r := by
  induction h with
  | nil => cases hkey
  | cons hr _ ih =>
      rcases List.mem_cons.mp hkey with rfl | hkey
      · exact ⟨_, List.mem_cons_self, hr⟩
      · obtain ⟨r, hmem, hr⟩ := ih hkey
        exact ⟨r, List.mem_cons_of_mem _ hmem, hr⟩

/-- What is said of the reports is said of the positions. -/
theorem Reports.sum_eq {keys : List κ} {reports : List ρ} (h : Reports report keys reports)
    {value : κ → Nat} (hvalue : ∀ key r, report key = .ok r → value key = rewards r) :
    (keys.map value).sum = (reports.map rewards).sum := by
  induction h with
  | nil => rfl
  | cons hr _ ih => rw [List.map_cons, List.map_cons, List.sum_cons, List.sum_cons, ih,
      hvalue _ _ hr]

section Loop

variable {ι : Type} {value : γ → ι → Nat} {amount : ρ → ι → Nat}

/-- The loop from any state, where entering a report adds its amounts. -/
theorem addReports_append
    (henter : ∀ key r c c', report key = .ok r → enter c r = .ok c' →
      ∀ i, value c' i = value c i + amount r i) :
    ∀ {keys : List κ} {st st' : Nat × List ρ × γ},
    keys.foldlM (addReport report rewards enter) st = .ok st' →
      ∃ reports, Reports report keys reports ∧ st'.2.1 = st.2.1 ++ reports ∧
        st'.1 = st.1 + (reports.map rewards).sum ∧
        ∀ i, value st'.2.2 i = value st.2.2 i + (reports.map (amount · i)).sum := by
  intro keys
  induction keys with
  | nil =>
      intro st st' h
      obtain rfl := Except.ok.inj h
      exact ⟨[], List.Forall₂.nil, by simp, rfl, fun _ => rfl⟩
  | cons key keys ih =>
      intro st st' h
      obtain ⟨st₁, hfirst, hrest⟩ := foldlM_cons_ok.mp h
      simp only [addReport, bind_eq_ok, Uint.checkedAdd_eq_ok, Except.ok.injEq] at hfirst
      obtain ⟨r, hr, _, ⟨-, rfl⟩, c, hc, rfl⟩ := hfirst
      obtain ⟨reports, hall, hreports, htotal, hvalues⟩ := ih hrest
      refine ⟨r :: reports, List.Forall₂.cons hr hall, ?_, ?_, fun i => ?_⟩
      · rw [hreports, List.append_assoc, List.singleton_append]
      · rw [htotal, List.map_cons, List.sum_cons, Nat.add_assoc]
      · rw [hvalues i, henter key r _ c hr hc, List.map_cons, List.sum_cons, Nat.add_assoc]

variable (value amount) in
/-- The loop from nothing: the reports, and the sums of their rewards and amounts. -/
theorem addReports_ok {keys : List κ} {c₀ : γ} {st : Nat × List ρ × γ}
    (henter : ∀ key r c c', report key = .ok r → enter c r = .ok c' →
      ∀ i, value c' i = value c i + amount r i) (hzero : ∀ i, value c₀ i = 0)
    (h : keys.foldlM (addReport report rewards enter) (0, [], c₀) = .ok st) :
    Reports report keys st.2.1 ∧ st.1 = (st.2.1.map rewards).sum ∧
      ∀ i, value st.2.2 i = (st.2.1.map (amount · i)).sum := by
  obtain ⟨reports, hall, hreports, htotal, hvalues⟩ := addReports_append henter h
  obtain rfl : st.2.1 = reports := hreports
  refine ⟨hall, htotal.trans (Nat.zero_add _), fun i => ?_⟩
  rw [hvalues i, hzero, Nat.zero_add]

end Loop

end NeutronTge.Shares
