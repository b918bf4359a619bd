import Mathlib.Tactic.SplitIfs

/-!
# NeutronTge.Shares.Departures

Who left, and the messages that were sent for it. A party leaves once, with an amount, and the
messages of its departure have a shape that depends on both. `SentFor` says that some messages
are those of the parties that left and of nobody else, each party once.
-/

namespace NeutronTge.Shares

variable {K M : Type} {shape : K → Nat → List M → Prop}

variable (shape) in
/-- The parties that left, in order, and the messages that were sent for them. -/
inductive Departed : List (K × Nat) → List M → Prop
  | nil : Departed [] []
  | leave {parties : List (K × Nat)} {msgs part : List M} (h : Departed parties msgs) (k : K)
      (amount : Nat) (hnew : ∀ n, (k, n) ∉ parties) (hpart : shape k amount part) :
      Departed (parties ++ [(k, amount)]) (msgs ++ part)

variable (shape) in
/-- The messages are those of the parties that left, each of them once. -/
def SentFor (left : K → Option Nat) (msgs : List M) : Prop :=
  ∃ parties, Departed shape parties msgs ∧
    ∀ k amount, (k, amount) ∈ parties ↔ left k = some amount

namespace SentFor

variable {left left' : K → Option Nat} {msgs part : List M} {k : K} {amount : Nat}

theorem nobody (h : ∀ k, left k = none) : SentFor shape left [] := by
  refine ⟨[], .nil, fun k amount => ?_⟩
  rw [h k]
  exact ⟨fun hmem => absurd hmem List.not_mem_nil, nofun⟩

theorem congr (h : SentFor shape left msgs) (hleft : ∀ k, left' k = left k) :
    SentFor shape left' msgs := by
  obtain rfl : left' = left := funext hleft
  exact h

/-- One more party leaves. -/
theorem leave [DecidableEq K] (h : SentFor shape left msgs) (hk : left k = none)
    (hpart : shape k amount part) (hleft : ∀ j, left' j = if j = k then some amount else left j) :
    SentFor shape left' (msgs ++ part) := by
  obtain ⟨parties, hdeparted, hparties⟩ := h
  have hnew : ∀ n, (k, n) ∉ parties := by
    intro n hmem
    rw [hparties, hk] at hmem
    cases hmem
  refine ⟨_, hdeparted.leave k amount hnew hpart, fun j n => ?_⟩
  rw [List.mem_append, List.mem_singleton, hleft, Prod.mk.injEq, hparties]
  split_ifs with hj
  · rw [hj, hk, Option.some.injEq]
    simp [eq_comm]
  · simp [hj]

end SentFor

end NeutronTge.Shares
