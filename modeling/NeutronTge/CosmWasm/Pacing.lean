import Mathlib.Data.List.Pairwise
import Mathlib.Tactic.Ring

/-!
# NeutronTge.CosmWasm.Pacing

Rate limits. Each of a list of times is at least an interval after those before it. Then only
so many of them fall into any one stretch of time (`Spaced.window`).
-/

namespace NeutronTge.CosmWasm

/-- Each time is at least `interval` after those before it. -/
def Spaced (interval : Nat) (times : List Nat) : Prop :=
  times.Pairwise fun t t' => t + interval ≤ t'

namespace Spaced

variable {interval t start d : Nat} {times : List Nat}

theorem nil : Spaced interval [] := List.Pairwise.nil

theorem le_last (h : Spaced interval times) {last : Nat} (hlast : times.getLast? = some last) :
    ∀ t ∈ times, t ≤ last := by
  obtain ⟨front, rfl⟩ := List.getLast?_eq_some_iff.mp hlast
  have hfront := (List.pairwise_append.mp h).2.2
  intro t ht
  rcases List.mem_append.mp ht with ht | ht
  · exact (Nat.le_add_right _ _).trans (hfront t ht last (List.mem_singleton.mpr rfl))
  · exact (List.mem_singleton.mp ht).le

theorem snoc (h : Spaced interval times) (hlast : times.getLast?.getD 0 + interval ≤ t) :
    Spaced interval (times ++ [t]) := by
  refine List.pairwise_append.mpr ⟨h, List.pairwise_singleton _ _, fun t' ht' u hu => ?_⟩
  rw [List.mem_singleton.mp hu]
  cases hl : times.getLast? with
  | none =>
      rw [List.getLast?_eq_none_iff] at hl
      subst hl
      cases ht'
  | some last =>
      have hle := h.le_last hl t' ht'
      rw [hl, Option.getD_some] at hlast
      omega

/-- From the first time to the end of a stretch there is room for the intervals between. -/
theorem length_mul_le (h : Spaced interval (t :: times)) (hlast : ∀ u ∈ t :: times, u ≤ d) :
    t + times.length * interval ≤ d := by
  induction times generalizing t with
  | nil =>
      have hle := hlast t List.mem_cons_self
      simpa using hle
  | cons u times ih =>
      obtain ⟨hfirst, hrest⟩ := List.pairwise_cons.mp h
      have hnext := hfirst u List.mem_cons_self
      have hle := ih hrest fun v hv => hlast v (List.mem_cons_of_mem t hv)
      rw [List.length_cons, Nat.succ_mul]
      omega

/-- Any `d` seconds contain at most `d / interval + 1` of the times. -/
theorem window (h : Spaced interval times) (hpos : 0 < interval) (start d : Nat) :
    (times.filter fun t => start ≤ t ∧ t ≤ start + d).length ≤ d / interval + 1 := by
  have hspaced : Spaced interval (times.filter fun t => start ≤ t ∧ t ≤ start + d) := h.filter _
  have hmem : ∀ t ∈ times.filter fun t => start ≤ t ∧ t ≤ start + d,
      start ≤ t ∧ t ≤ start + d := fun t ht => by
    simpa using (List.mem_filter.mp ht).2
  generalize times.filter _ = within at hspaced hmem ⊢
  cases within with
  | nil => exact Nat.zero_le _
  | cons t rest =>
      have hfirst := (hmem t List.mem_cons_self).1
      have hroom := hspaced.length_mul_le fun u hu => (hmem u hu).2
      have hcount : rest.length ≤ d / interval := by
        rw [Nat.le_div_iff_mul_le hpos]
        omega
      rw [List.length_cons]
      omega

end Spaced

end NeutronTge.CosmWasm
