import NeutronTge.CosmWasm.Run
import NeutronTge.CosmWasm.Storage

/-!
# NeutronTge.CosmWasm.Isolation

Transactions that the others do not notice. Some transactions of a run are `hidden`; the rest
of the run is compared with the same run without them. An `Unwinding` is a relation between
the states of the two runs: a hidden transaction keeps it from one side alone, any other one
has the same outcome in related states. Then the two runs stay related, and no outcome of a
transaction that is not hidden depends on the hidden ones.
-/

namespace NeutronTge.CosmWasm

/-! ### Two runs -/

section Unwinding

variable {S A ε : Type} {exec : S → A → Except ε S} {hidden : A → Prop}
  {allowed : A → Prop} {Sim : S → S → Prop} {s t : S} {as : List A}

variable (exec hidden allowed Sim) in
/-- `Sim` relates the states that look the same without the hidden transactions. -/
structure Unwinding : Prop where
  symm : ∀ s t, Sim s t → Sim t s
  /-- A hidden transaction is not noticed. -/
  hide : ∀ s t a s', Sim s t → allowed a → hidden a → exec s a = .ok s' → Sim s' t
  /-- Any other transaction can do in `t` what it does in `s`. -/
  match_ok : ∀ s t a s', Sim s t → allowed a → ¬ hidden a → exec s a = .ok s' →
    ∃ t', exec t a = .ok t' ∧ Sim s' t'

namespace Unwinding

theorem commit_hidden (h : Unwinding exec hidden allowed Sim) (hsim : Sim s t) {a : A}
    (ha : allowed a) (hhidden : hidden a) : Sim (commit exec s a) t := by
  rcases commit_cases exec s a with hok | hsame
  · exact h.hide s t a _ hsim ha hhidden hok
  · rw [hsame]
    exact hsim

/-- In related states a transaction that is not hidden succeeds in both or in none. -/
theorem isOk_eq (h : Unwinding exec hidden allowed Sim) (hsim : Sim s t) {a : A}
    (ha : allowed a) (hseen : ¬ hidden a) : (exec s a).isOk = (exec t a).isOk := by
  cases hs : exec s a with
  | ok s' =>
      obtain ⟨t', ht, -⟩ := h.match_ok s t a s' hsim ha hseen hs
      rw [ht]
      rfl
  | error e =>
      cases ht : exec t a with
      | error e' => rfl
      | ok t' =>
          obtain ⟨s', hs', -⟩ := h.match_ok t s a t' (h.symm s t hsim) ha hseen ht
          rw [hs] at hs'
          cases hs'

theorem commit_seen (h : Unwinding exec hidden allowed Sim) (hsim : Sim s t) {a : A}
    (ha : allowed a) (hseen : ¬ hidden a) : Sim (commit exec s a) (commit exec t a) := by
  have hiff := h.isOk_eq hsim ha hseen
  unfold commit
  cases hs : exec s a with
  | ok s' =>
      obtain ⟨t', ht, hsim'⟩ := h.match_ok s t a s' hsim ha hseen hs
      rw [ht]
      exact hsim'
  | error e =>
      cases ht : exec t a with
      | error e' => exact hsim
      | ok t' =>
          rw [hs, ht] at hiff
          cases hiff

variable [DecidablePred hidden]

/-- The run looks the same as the run without the hidden transactions. -/
theorem run (h : Unwinding exec hidden allowed Sim) : ∀ {as : List A} {s t : S}, Sim s t →
    (∀ a ∈ as, allowed a) →
      Sim (run exec s as) (CosmWasm.run exec t (as.filter fun a => ¬ hidden a)) := by
  intro as
  induction as with
  | nil => intro s t hsim _; exact hsim
  | cons a as ih =>
      intro s t hsim hall
      have ha := hall a List.mem_cons_self
      have hrest : ∀ b ∈ as, allowed b := fun b hb => hall b (List.mem_cons_of_mem a hb)
      by_cases hhidden : hidden a
      · rw [List.filter_cons_of_neg (by simpa using hhidden), run_cons]
        exact ih (h.commit_hidden hsim ha hhidden) hrest
      · rw [List.filter_cons_of_pos (by simpa using hhidden), run_cons, run_cons]
        exact ih (h.commit_seen hsim ha hhidden) hrest

/-- Whether a transaction succeeds does not depend on the hidden ones before it. -/
theorem outcome (h : Unwinding exec hidden allowed Sim) (hsim : Sim s t)
    (hall : ∀ a ∈ as, allowed a) {before after : List A} {a : A}
    (hsplit : as = before ++ a :: after) (hseen : ¬ hidden a) :
    (exec (CosmWasm.run exec s before) a).isOk =
      (exec (CosmWasm.run exec t (before.filter fun a => ¬ hidden a)) a).isOk := by
  subst hsplit
  have hbefore : ∀ b ∈ before, allowed b := fun b hb =>
    hall b (List.mem_append_left _ hb)
  exact h.isOk_eq (h.run hsim hbefore)
    (hall a (List.mem_append_right _ List.mem_cons_self)) hseen

end Unwinding

/-- Two loops whose rounds keep two accumulators related: the second gets as far as the
first. -/
theorem foldlM_simulation {σ τ α ε : Type} {f : σ → α → Except ε σ} {g : τ → α → Except ε τ}
    {R : σ → τ → Prop} {xs : List α} : ∀ {s s' : σ} {t : τ}, R s t →
      (∀ s s' t x, x ∈ xs → R s t → f s x = .ok s' → ∃ t', g t x = .ok t' ∧ R s' t') →
        xs.foldlM f s = .ok s' → ∃ t', xs.foldlM g t = .ok t' ∧ R s' t' := by
  induction xs with
  | nil =>
      intro s s' t hst _ h
      obtain rfl := Except.ok.inj h
      exact ⟨t, rfl, hst⟩
  | cons x xs ih =>
      intro s s' t hst hround h
      obtain ⟨s₁, hx, hrest⟩ := foldlM_cons_ok.mp h
      obtain ⟨t₁, hx', hst₁⟩ := hround s s₁ t x List.mem_cons_self hst hx
      obtain ⟨t', hrest', hst'⟩ := ih hst₁
        (fun u u' v y hy => hround u u' v y (List.mem_cons_of_mem x hy)) hrest
      exact ⟨t', foldlM_cons_ok.mpr ⟨t₁, hx', hrest'⟩, hst'⟩

end Unwinding

/-! ### Snapshots of some keys -/

namespace SnapshotMap

variable {K V : Type} [DecidableEq K] {P : K → Prop} [DecidablePred P]
  {m m' n n' : SnapshotMap K V}

variable (P) in
/-- Two maps with the same values, present and past, at the keys of `P`. -/
structure AgreeOn (m n : SnapshotMap K V) : Prop where
  mayLoad : ∀ k, P k → n.mayLoad k = m.mayLoad k
  changelog : (n.changelog.filter fun c => P c.key) = m.changelog.filter fun c => P c.key

namespace AgreeOn

theorem refl (m : SnapshotMap K V) : AgreeOn P m m := ⟨fun _ _ => rfl, rfl⟩

theorem symm (h : AgreeOn P m n) : AgreeOn P n m :=
  ⟨fun k hk => (h.mayLoad k hk).symm, h.changelog.symm⟩

theorem trans (h : AgreeOn P m n) (h' : AgreeOn P n n') : AgreeOn P m n' :=
  ⟨fun k hk => (h'.mayLoad k hk).trans (h.mayLoad k hk), h'.changelog.trans h.changelog⟩

/-- A change of a key of `P` is recorded in both logs or in none. -/
theorem any_eq (h : AgreeOn P m n) {k : K} (hk : P k) (height : Nat) :
    n.changelog.any (fun c => c.key = k ∧ c.height = height) =
      m.changelog.any fun c => c.key = k ∧ c.height = height := by
  have hfilter : ∀ log : List (Change K V),
      log.any (fun c => c.key = k ∧ c.height = height) =
        (log.filter fun c => P c.key).any fun c => c.key = k ∧ c.height = height := by
    intro log
    rw [Bool.eq_iff_iff]
    simp only [List.any_eq_true, decide_eq_true_eq, List.mem_filter]
    constructor
    · rintro ⟨c, hc, rfl, hheight⟩
      exact ⟨c, ⟨hc, hk⟩, rfl, hheight⟩
    · rintro ⟨c, ⟨hc, -⟩, hkey⟩
      exact ⟨c, hc, hkey⟩
  rw [hfilter, hfilter m.changelog, h.changelog]

theorem writeChange (h : AgreeOn P m n) (k : K) (height : Nat) :
    ((n.writeChange k height).filter fun c => P c.key) =
      (m.writeChange k height).filter fun c => P c.key := by
  by_cases hk : P k
  · unfold SnapshotMap.writeChange
    rw [h.any_eq hk, h.mayLoad k hk]
    split
    · exact h.changelog
    · rw [List.filter_append, List.filter_append, h.changelog]
  · have hdrop : ∀ l : SnapshotMap K V, ((l.writeChange k height).filter fun c => P c.key) =
        l.changelog.filter fun c => P c.key := by
      intro l
      unfold SnapshotMap.writeChange
      split
      · rfl
      · rw [List.filter_append]
        simp [hk]
    rw [hdrop, hdrop m, h.changelog]

theorem save (h : AgreeOn P m n) (k : K) (v : V) (height : Nat) :
    AgreeOn P (m.save k v height) (n.save k v height) where
  mayLoad j hj := by
    rw [mayLoad_save_eq, mayLoad_save_eq, h.mayLoad j hj]
  changelog := h.writeChange k height

theorem remove (h : AgreeOn P m n) (k : K) (height : Nat) :
    AgreeOn P (m.remove k height) (n.remove k height) where
  mayLoad j hj := by
    have hload := h.mayLoad j hj
    unfold SnapshotMap.mayLoad at hload ⊢
    rw [primary_remove, primary_remove, Map.mayLoad_remove_eq, Map.mayLoad_remove_eq, hload]
  changelog := h.writeChange k height

/-- A write outside of `P` is not noticed. -/
theorem save_outside {k : K} (hk : ¬ P k) (m : SnapshotMap K V) (v : V) (height : Nat) :
    AgreeOn P m (m.save k v height) where
  mayLoad j hj := by
    refine mayLoad_save_ne ?_ m v height
    rintro rfl
    exact hk hj
  changelog := by
    show ((m.writeChange k height).filter fun c => P c.key) = _
    unfold SnapshotMap.writeChange
    split
    · rfl
    · rw [List.filter_append]
      simp [hk]

theorem firstChange (h : AgreeOn P m n) {k : K} (hk : P k) (height : Nat) :
    n.firstChange k height = m.firstChange k height := by
  have hfilter : ∀ log : List (Change K V),
      (log.filter fun c => c.key = k ∧ height ≤ c.height) =
        (log.filter fun c => P c.key).filter fun c => c.key = k ∧ height ≤ c.height := by
    intro log
    rw [List.filter_filter]
    refine List.filter_congr fun c _ => ?_
    by_cases hkey : c.key = k
    · simp [hkey, hk]
    · simp [hkey]
  unfold SnapshotMap.firstChange
  rw [hfilter, hfilter m.changelog, h.changelog]

/-- The past of a key of `P` is the same in both maps. -/
theorem mayLoadAtHeight (h : AgreeOn P m n) {k : K} (hk : P k) (height : Nat) :
    n.mayLoadAtHeight k height = m.mayLoadAtHeight k height := by
  unfold SnapshotMap.mayLoadAtHeight
  rw [h.firstChange hk, h.mayLoad k hk]

end AgreeOn

end SnapshotMap

end NeutronTge.CosmWasm
