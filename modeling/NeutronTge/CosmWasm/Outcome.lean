import Mathlib.Data.List.Forall2

/-!
# NeutronTge.CosmWasm.Outcome

Fallible computations of a contract. A handler either succeeds or returns an
error, and an error reverts everything the handler wrote, so a handler is a
function into `Except`. This module has the error type shared by the contracts,
the guard `rejectIf` that models `if c { return Err(..) }`, and the inversion
lemmas that take a successful `do` block apart: with them a proof about a
handler never looks at a branch that returned an error.
-/

namespace NeutronTge.CosmWasm

/-- A validated account or contract address. -/
abbrev Addr := String

/-- The operation an arithmetic overflow happened in. -/
inductive OverflowOperation
  | add | sub | mul
  deriving Repr, DecidableEq

/-- The errors a contract call can end with. -/
inductive StdError
  | genericErr (msg : String)
  | notFound
  | overflow (operation : OverflowOperation)
  | divideByZero
  | conversionOverflow
  /-- The call aborts: a panicking operator, `unwrap` or `expect`, or a function
  whose failure the chain answers by aborting the transaction. -/
  | aborted
  deriving Repr, DecidableEq

instance decidableEqExcept {ε α : Type} [DecidableEq ε] [DecidableEq α] :
    DecidableEq (Except ε α)
  | .error e, .error e' => decidable_of_decidable_of_eq (Except.error.injEq e e').symm
  | .error _, .ok _ => isFalse (by simp)
  | .ok _, .error _ => isFalse (by simp)
  | .ok a, .ok a' => decidable_of_decidable_of_eq (Except.ok.injEq a a').symm

/-- `if c { return Err(e) }`. -/
def rejectIf {ε : Type} (c : Prop) [Decidable c] (e : ε) : Except ε Unit :=
  if c then .error e else .ok ()

/-- `x.ok_or(e)?`. -/
def okOr {ε α : Type} (x : Option α) (e : ε) : Except ε α :=
  match x with
  | some a => .ok a
  | none => .error e

section Inversion

variable {ε ε' α β : Type}

/-- A sequenced computation succeeds exactly when both parts do. -/
theorem bind_eq_ok {x : Except ε α} {f : α → Except ε β} {b : β} :
    (x >>= f) = .ok b ↔ ∃ a, x = .ok a ∧ f a = .ok b := by
  cases x <;> simp [bind, Except.bind]

theorem pure_eq_ok {a b : α} : (pure a : Except ε α) = .ok b ↔ a = b := by
  simp [pure, Except.pure]

theorem map_eq_ok {x : Except ε α} {f : α → β} {b : β} :
    (f <$> x) = .ok b ↔ ∃ a, x = .ok a ∧ f a = b := by
  cases x <;> simp [Functor.map, Except.map]

theorem mapError_eq_ok {x : Except ε α} {f : ε → ε'} {a : α} :
    x.mapError f = .ok a ↔ x = .ok a := by
  cases x <;> simp [Except.mapError]

/-- A computation that succeeds has a result. -/
theorem exists_ok_of_isOk {x : Except ε α} (h : x.isOk = true) : ∃ a, x = .ok a := by
  cases x with
  | error e => cases h
  | ok a => exact ⟨a, rfl⟩

@[simp] theorem rejectIf_eq_ok {c : Prop} [Decidable c] {e : ε} {u : Unit} :
    rejectIf c e = .ok u ↔ ¬ c := by
  unfold rejectIf
  split <;> simp_all

@[simp] theorem okOr_eq_ok {x : Option α} {e : ε} {a : α} :
    okOr x e = .ok a ↔ x = some a := by
  cases x <;> simp [okOr]

/-- A guard passes with the only value there is. -/
theorem exists_unit_and {x : Except ε Unit} {p : Unit → Prop} :
    (∃ u, x = .ok u ∧ p u) ↔ x = .ok () ∧ p () :=
  ⟨fun ⟨_, h⟩ => h, fun h => ⟨(), h⟩⟩

end Inversion

/-! ### Loops

A `for` loop over a list with an accumulator is `List.foldlM`. -/

section Loops

variable {ε α β σ : Type}

theorem foldlM_cons_ok {f : σ → α → Except ε σ} {a : α} {xs : List α} {s s' : σ} :
    (a :: xs).foldlM f s = .ok s' ↔ ∃ t, f s a = .ok t ∧ xs.foldlM f t = .ok s' := by
  rw [List.foldlM_cons, bind_eq_ok]

theorem foldlM_append_ok {f : σ → α → Except ε σ} {xs ys : List α} {s s' : σ} :
    (xs ++ ys).foldlM f s = .ok s' ↔
      ∃ t, xs.foldlM f s = .ok t ∧ ys.foldlM f t = .ok s' := by
  rw [List.foldlM_append, bind_eq_ok]

theorem foldlM_singleton_ok {f : σ → α → Except ε σ} {a : α} {s s' : σ} :
    [a].foldlM f s = .ok s' ↔ f s a = .ok s' := by
  rw [foldlM_cons_ok]
  constructor
  · rintro ⟨t, ht, hs⟩
    obtain rfl := Except.ok.inj hs
    exact ht
  · intro h
    exact ⟨s', h, rfl⟩

/-- A loop that only checks succeeds when every check does. -/
theorem forM_ok {f : α → Except ε Unit} {xs : List α} {u : Unit} (h : xs.forM f = .ok u) :
    ∀ a ∈ xs, f a = .ok () := by
  induction xs with
  | nil => exact fun a ha => absurd ha List.not_mem_nil
  | cons b xs ih =>
      change (f b >>= fun _ => xs.forM f) = .ok u at h
      rw [bind_eq_ok] at h
      obtain ⟨_, hb, hrest⟩ := h
      intro a ha
      rcases List.mem_cons.mp ha with rfl | ha
      · exact hb
      · exact ih hrest a ha

/-- A fallible map succeeds when it does so at every element. -/
theorem mapM_eq_ok {β : Type} {f : α → Except ε β} {xs : List α} : ∀ {ys : List β},
    xs.mapM f = .ok ys ↔ List.Forall₂ (fun x y => f x = .ok y) xs ys := by
  induction xs with
  | nil =>
      intro ys
      rw [List.mapM_nil, pure_eq_ok, List.forall₂_nil_left_iff, eq_comm]
  | cons x xs ih =>
      intro ys
      simp only [List.mapM_cons, bind_eq_ok, pure_eq_ok, List.forall₂_cons_left_iff]
      constructor
      · rintro ⟨y, hy, rest, hrest, rfl⟩
        exact ⟨y, rest, hy, ih.mp hrest, rfl⟩
      · rintro ⟨y, rest, hy, hrest, rfl⟩
        exact ⟨y, hy, rest, ih.mpr hrest, rfl⟩

/-- What every successful iteration preserves holds after the whole loop. -/
theorem foldlM_invariant {f : σ → α → Except ε σ} {xs : List α} (Inv : σ → Prop) :
    ∀ {s s' : σ}, Inv s → (∀ s s' x, x ∈ xs → Inv s → f s x = .ok s' → Inv s') →
      xs.foldlM f s = .ok s' → Inv s' := by
  induction xs with
  | nil =>
      intro s s' hs _ h
      rw [List.foldlM_nil, pure_eq_ok] at h
      exact h ▸ hs
  | cons x xs ih =>
      intro s s' hs hstep h
      obtain ⟨s1, hx, hrest⟩ := foldlM_cons_ok.mp h
      have hs1 : Inv s1 := hstep s s1 x List.mem_cons_self hs hx
      exact ih hs1 (fun t t' y hy => hstep t t' y (List.mem_cons_of_mem _ hy)) hrest

/-- What no iteration changes is the same after the whole loop. -/
theorem foldlM_unchanged {f : σ → α → Except ε σ} {xs : List α} {s s' : σ} (g : σ → β)
    (hstep : ∀ t t' x, x ∈ xs → f t x = .ok t' → g t' = g t) (h : xs.foldlM f s = .ok s') :
    g s' = g s :=
  foldlM_invariant (fun t => g t = g s) rfl
    (fun t t' x hx ht hf => (hstep t t' x hx hf).trans ht) h

/-- A relation that every iteration establishes between its two states, and that
composes, holds between the states around the loop. -/
theorem foldlM_relation {f : σ → α → Except ε σ} {R : σ → σ → Prop} {xs : List α}
    {s s' : σ} (hrefl : ∀ t, R t t) (htrans : ∀ t u v, R t u → R u v → R t v)
    (hstep : ∀ t t' x, x ∈ xs → f t x = .ok t' → R t t')
    (h : xs.foldlM f s = .ok s') : R s s' :=
  foldlM_invariant (fun t => R s t) (hrefl s)
    (fun t t' x hx hst hf => htrans s t t' hst (hstep t t' x hx hf)) h

end Loops

end NeutronTge.CosmWasm
