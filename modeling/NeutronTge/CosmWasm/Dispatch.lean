import NeutronTge.CosmWasm.Outcome

/-!
# NeutronTge.CosmWasm.Dispatch

A contract and the messages that its handlers return. A message goes to another contract, or
it is a callback of the contract to itself; then the messages of that handler are executed
before those that follow, depth first. `Calls.dispatch` is this for any contract. What the
handlers of the callbacks and the messages to others preserve, every message preserves with all
that it leads to (`Calls.invariant`).
-/

namespace NeutronTge.CosmWasm

/-- How the messages of a contract are executed. The state `σ` has the contract and what is
around it; `κ` are the callbacks, `ρ` what a handler returns, and `τ` what another contract
makes of a message. -/
structure Calls (σ μ κ ρ τ ε : Type) where
  /-- The callback that a message is, if it is one. -/
  callback : μ → Option κ
  /-- The handler of the callbacks. -/
  handle : σ → κ → Except ε ρ
  /-- The state after a handler returned. -/
  respond : σ → ρ → σ
  /-- The messages that a handler returned. -/
  messages : ρ → List μ
  /-- Another contract executes a message. -/
  exec : σ → μ → Except ε τ
  /-- The state after another contract executed a message. -/
  sent : σ → τ → μ → σ
  /-- What a transaction fails with whose callbacks nest too deep. -/
  tooDeep : ε

namespace Calls

variable {σ μ κ ρ τ ε : Type}

/-- A message to another contract. -/
def send (calls : Calls σ μ κ ρ τ ε) (s : σ) (m : μ) : Except ε σ := do
  let t ← calls.exec s m
  .ok (calls.sent s t m)

/-- Execute one message. `fuel` bounds the nesting of callbacks. -/
def dispatch (calls : Calls σ μ κ ρ τ ε) : Nat → σ → μ → Except ε σ
  | 0, s, m =>
      match calls.callback m with
      | none => calls.send s m
      | some _ => .error calls.tooDeep
  | fuel + 1, s, m =>
      match calls.callback m with
      | none => calls.send s m
      | some c => do
          let r ← calls.handle s c
          (calls.messages r).foldlM (dispatch calls fuel) (calls.respond s r)

variable (calls : Calls σ μ κ ρ τ ε) {n : Nat} {s s' : σ} {m : μ} {msgs : List μ}

/-! ### The two kinds of messages -/

theorem dispatch_of_none (hm : calls.callback m = none) :
    calls.dispatch n s m = calls.send s m := by
  cases n <;> rw [dispatch, hm]

/-- Another contract executes a message that is no callback. -/
theorem dispatch_external (hm : calls.callback m = none) (h : calls.dispatch n s m = .ok s') :
    ∃ t, calls.exec s m = .ok t ∧ s' = calls.sent s t m := by
  rw [calls.dispatch_of_none hm] at h
  obtain ⟨t, ht, hs'⟩ := bind_eq_ok.mp h
  exact ⟨t, ht, (Except.ok.inj hs').symm⟩

/-- A callback whose handler succeeds goes on with its messages. -/
theorem dispatch_of_handle {c : κ} {r : ρ} (hm : calls.callback m = some c)
    (hr : calls.handle s c = .ok r) :
    calls.dispatch (n + 1) s m =
      (calls.messages r).foldlM (calls.dispatch n) (calls.respond s r) := by
  rw [dispatch, hm]
  dsimp only
  rw [hr]
  rfl

/-- A callback is handled, and then its messages are executed. -/
theorem dispatch_callback {c : κ} (hm : calls.callback m = some c)
    (h : calls.dispatch n s m = .ok s') :
    ∃ k r, calls.handle s c = .ok r ∧
      (calls.messages r).foldlM (calls.dispatch k) (calls.respond s r) = .ok s' := by
  cases n with
  | zero =>
      rw [dispatch, hm] at h
      cases h
  | succ k =>
      rw [dispatch, hm] at h
      obtain ⟨r, hr, hrun⟩ := bind_eq_ok.mp h
      exact ⟨k, r, hr, hrun⟩

/-- Messages to other contracts, which only see what is behind `ext`: they execute them one
after the other. -/
theorem foldlM_external {exec : τ → μ → Except ε τ} {ext : σ → τ} (after : σ → τ → List μ → σ)
    (hexec : ∀ s m, calls.exec s m = exec (ext s) m)
    (hsent : ∀ s t m, calls.sent s t m = after s t [m]) (hext : ∀ s t ms, ext (after s t ms) = t)
    (hnil : ∀ s, after s (ext s) [] = s)
    (hcons : ∀ s t t' m ms, after (after s t [m]) t' ms = after s t' (m :: ms))
    (hmsgs : ∀ m ∈ msgs, calls.callback m = none)
    (h : msgs.foldlM (calls.dispatch n) s = .ok s') :
    ∃ t, msgs.foldlM exec (ext s) = .ok t ∧ s' = after s t msgs := by
  induction msgs generalizing s with
  | nil =>
      obtain rfl := Except.ok.inj h
      exact ⟨ext s, rfl, (hnil s).symm⟩
  | cons m msgs ih =>
      obtain ⟨v, hm, hrest⟩ := foldlM_cons_ok.mp h
      obtain ⟨t, ht, rfl⟩ := calls.dispatch_external (hmsgs m List.mem_cons_self) hm
      rw [hexec] at ht
      rw [hsent] at hrest
      obtain ⟨t', hrun, rfl⟩ := ih (fun a ha => hmsgs a (List.mem_cons_of_mem _ ha)) hrest
      rw [hext] at hrun
      exact ⟨t', foldlM_cons_ok.mpr ⟨t, ht, hrun⟩, hcons s t t' m msgs⟩

variable {calls}

/-! ### What a transaction preserves -/

/-- What the messages preserve that satisfy `Q`, when a handler that starts from `P` returns
such messages only. -/
theorem invariant {P : σ → Prop} {Q : μ → Prop}
    (hsend : ∀ s m t, P s → Q m → calls.exec s m = .ok t → P (calls.sent s t m))
    (hhandle : ∀ s c r, P s → calls.handle s c = .ok r →
      P (calls.respond s r) ∧ ∀ m ∈ calls.messages r, Q m)
    (hs : P s) (hm : Q m) (h : calls.dispatch n s m = .ok s') : P s' := by
  induction n generalizing s m s' with
  | zero =>
      cases hcallback : calls.callback m with
      | none =>
          obtain ⟨t, ht, rfl⟩ := calls.dispatch_external hcallback h
          exact hsend s m t hs hm ht
      | some c =>
          rw [dispatch, hcallback] at h
          cases h
  | succ n ih =>
      cases hcallback : calls.callback m with
      | none =>
          obtain ⟨t, ht, rfl⟩ := calls.dispatch_external hcallback h
          exact hsend s m t hs hm ht
      | some c =>
          rw [dispatch, hcallback] at h
          obtain ⟨r, hr, hrun⟩ := bind_eq_ok.mp h
          obtain ⟨hresponse, hmsgs⟩ := hhandle s c r hs hr
          exact foldlM_invariant P hresponse
            (fun _ _ a ha hv hstep => ih hv (hmsgs a ha) hstep) hrun

/-- The messages of a handler, one after the other. -/
theorem invariant_all {P : σ → Prop} {Q : μ → Prop}
    (hsend : ∀ s m t, P s → Q m → calls.exec s m = .ok t → P (calls.sent s t m))
    (hhandle : ∀ s c r, P s → calls.handle s c = .ok r →
      P (calls.respond s r) ∧ ∀ m ∈ calls.messages r, Q m)
    (hs : P s) (hmsgs : ∀ m ∈ msgs, Q m) (h : msgs.foldlM (calls.dispatch n) s = .ok s') :
    P s' :=
  foldlM_invariant P hs (fun _ _ a ha ht hstep => invariant hsend hhandle ht (hmsgs a ha) hstep) h

end Calls

end NeutronTge.CosmWasm
