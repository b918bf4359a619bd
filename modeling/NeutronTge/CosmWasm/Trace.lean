import Mathlib.Data.List.Basic
import Mathlib.Data.List.Induction

/-!
# NeutronTge.CosmWasm.Trace

Traces: what a run did, one event after the other. `Throughout P` says that every event meets
`P` together with the events before it. The last event that tells something of a kind is
`(trace.filterMap f).getLast?`, with `f` for what an event tells.
-/

namespace NeutronTge.CosmWasm

variable {α β : Type}

/-- Every event of a trace meets `P` with those before it. -/
def Throughout (P : List α → α → Prop) (trace : List α) : Prop :=
  ∀ before e after, trace = before ++ e :: after → P before e

namespace Throughout

variable {P Q : List α → α → Prop} {trace : List α} {e : α}

theorem nil : Throughout P [] := fun _ _ _ h => by simp at h

theorem snoc (h : Throughout P trace) (he : P trace e) : Throughout P (trace ++ [e]) := by
  intro before x after hsplit
  rcases List.eq_nil_or_concat after with rfl | ⟨rest, y, rfl⟩
  · obtain ⟨rfl, hx⟩ := List.append_inj' hsplit rfl
    obtain rfl := List.singleton_inj.mp hx
    exact he
  · -- the event is one of the old ones
    rw [List.concat_eq_append, ← List.cons_append, ← List.append_assoc] at hsplit
    obtain ⟨htrace, -⟩ := List.append_inj' hsplit rfl
    exact h before x rest htrace

theorem mem (h : Throughout P trace) (he : e ∈ trace) :
    ∃ before after, trace = before ++ e :: after ∧ P before e := by
  obtain ⟨before, after, hsplit⟩ := List.append_of_mem he
  exact ⟨before, after, hsplit, h before e after hsplit⟩

/-- The events before an event of a trace. -/
theorem before {pre after : List α} (h : Throughout P trace) (hsplit : trace = pre ++ after) :
    Throughout P pre := by
  intro before x rest hpre
  rw [hpre, List.append_assoc, List.cons_append] at hsplit
  exact h before x (rest ++ after) hsplit

end Throughout

variable {f : α → Option β}

/-- The last of what the events tell, when one more comes. -/
theorem getLast?_filterMap_snoc (f : α → Option β) (trace : List α) (e : α) :
    ((trace ++ [e]).filterMap f).getLast? = (f e).or (trace.filterMap f).getLast? := by
  rw [List.filterMap_append]
  cases he : f e <;> simp [he]

/-- The last event that tells something. -/
theorem getLast?_filterMap_eq_some {b : β} : ∀ {trace : List α},
    (trace.filterMap f).getLast? = some b →
      ∃ before e after, trace = before ++ e :: after ∧ f e = some b ∧
        ∀ x ∈ after, f x = none := by
  intro trace
  induction trace using List.reverseRecOn with
  | nil => intro h; cases h
  | append_singleton trace e ih =>
      intro h
      rw [getLast?_filterMap_snoc] at h
      rcases Option.or_eq_some_iff.mp h with he | ⟨hnone, hrest⟩
      · exact ⟨trace, e, [], rfl, he, by simp⟩
      · obtain ⟨before, e', after, rfl, he', hafter⟩ := ih hrest
        refine ⟨before, e', after ++ [e], by simp, he', fun x hx => ?_⟩
        rcases List.mem_append.mp hx with hx | hx
        · exact hafter x hx
        · rw [List.mem_singleton.mp hx]
          exact hnone

end NeutronTge.CosmWasm
