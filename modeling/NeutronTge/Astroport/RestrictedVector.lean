import NeutronTge.CosmWasm.Uint

/-!
# NeutronTge.Astroport.RestrictedVector

A list of keys with values that grow: a new key is appended, the value of a key that is
there already is increased.
-/

namespace NeutronTge.Astroport

open CosmWasm

/-- `RestrictedVector<K, V>`. -/
abbrev RestrictedVector (K V : Type) := List (K × V)

namespace RestrictedVector

variable {K V : Type} [DecidableEq K]

/-- `load`: the value of the first entry of `key`. -/
def load (v : RestrictedVector K V) (key : K) : Option V :=
  (v.find? fun e => e.1 = key).map Prod.snd

/-- `update` with the type's own `increase`. -/
def update (increase : V → V → Except StdError V) :
    RestrictedVector K V → K → V → Except StdError (RestrictedVector K V)
  | [], key, value => .ok [(key, value)]
  | (k, old) :: rest, key, value =>
      if k = key then do
        let new ← increase old value
        .ok ((k, new) :: rest)
      else do
        let rest ← update increase rest key value
        .ok ((k, old) :: rest)

/-- `update` of an amount. -/
def updateUint (v : RestrictedVector K Nat) (key : K) (value : Nat) :
    Except StdError (RestrictedVector K Nat) :=
  v.update (Uint.checkedAdd 128) key value

/-- `update` of a decimal. -/
def updateDecimal (v : RestrictedVector K Decimal) (key : K) (value : Decimal) :
    Except StdError (RestrictedVector K Decimal) :=
  v.update FixedPoint.checkedAdd key value

/-- After an update the key has the value it had, increased, or the new one. -/
theorem load_update {increase : V → V → Except StdError V} :
    ∀ {v v' : RestrictedVector K V} {key : K} {value : V},
      v.update increase key value = .ok v' →
        (∀ k, k ≠ key → v'.load k = v.load k) ∧
          match v.load key with
          | some old => ∃ new, increase old value = .ok new ∧ v'.load key = some new
          | none => v'.load key = some value := by
  intro v
  -- induction on the entries; the first one with the key is updated
  induction v with
  | nil =>
      intro v' key value h
      obtain rfl := Except.ok.inj h
      refine ⟨fun k hk => ?_, ?_⟩
      · simp [load, Ne.symm hk]
      · simp [load]
  | cons e rest ih =>
      intro v' key value h
      obtain ⟨k₀, old⟩ := e
      unfold update at h
      split_ifs at h with hkey
      · subst hkey
        simp only [bind_eq_ok, Except.ok.injEq] at h
        obtain ⟨new, hnew, rfl⟩ := h
        refine ⟨fun k hk => ?_, ?_⟩
        · simp [load, Ne.symm hk]
        · simp [load, hnew]
      · simp only [bind_eq_ok, Except.ok.injEq] at h
        obtain ⟨rest', hrest, rfl⟩ := h
        obtain ⟨hothers, hvalue⟩ := ih hrest
        refine ⟨fun k hk => ?_, ?_⟩
        · have hk := hothers k hk
          unfold load at hk ⊢
          rw [List.find?_cons, List.find?_cons]
          split
          · rfl
          · exact hk
        · unfold load at hvalue ⊢
          rw [List.find?_cons_of_neg (by simpa using hkey),
            List.find?_cons_of_neg (by simpa using hkey)]
          exact hvalue

/-- The value of a key, zero when it has none. -/
def valueOf (v : RestrictedVector K Nat) (key : K) : Nat := (v.load key).getD 0

/-- The atomics of the decimal of a key, zero when it has none. -/
def atomicsOf (v : RestrictedVector K Decimal) (key : K) : Nat :=
  ((v.load key).getD FixedPoint.zero).atomics

theorem valueOf_updateUint {v v' : RestrictedVector K Nat} {key : K} {value : Nat}
    (h : v.updateUint key value = .ok v') (k : K) :
    v'.valueOf k = v.valueOf k + if k = key then value else 0 := by
  obtain ⟨hothers, hvalue⟩ := load_update h
  unfold valueOf
  split_ifs with hk
  · subst hk
    cases hload : v.load k with
    | none =>
        rw [hload] at hvalue
        simp only [hvalue, Option.getD_some, Option.getD_none, Nat.zero_add]
    | some old =>
        rw [hload] at hvalue
        obtain ⟨new, hnew, hvalue⟩ := hvalue
        obtain ⟨-, rfl⟩ := Uint.checkedAdd_eq_ok.mp hnew
        simp only [hvalue, Option.getD_some]
  · rw [hothers k hk, Nat.add_zero]

theorem atomicsOf_updateDecimal {v v' : RestrictedVector K Decimal} {key : K} {value : Decimal}
    (h : v.updateDecimal key value = .ok v') (k : K) :
    v'.atomicsOf k = v.atomicsOf k + if k = key then value.atomics else 0 := by
  obtain ⟨hothers, hvalue⟩ := load_update h
  unfold atomicsOf
  split_ifs with hk
  · subst hk
    cases hload : v.load k with
    | none =>
        rw [hload] at hvalue
        simp only [hvalue, Option.getD_some, Option.getD_none, FixedPoint.zero, Nat.zero_add]
    | some old =>
        rw [hload] at hvalue
        obtain ⟨new, hnew, hvalue⟩ := hvalue
        obtain ⟨-, rfl⟩ := FixedPoint.checkedAdd_eq_ok.mp hnew
        simp only [hvalue, Option.getD_some]
  · rw [hothers k hk, Nat.add_zero]

/-! ### Updates that succeed -/

/-- An update fails only where an old value cannot be increased. -/
theorem update_ok {increase : V → V → Except StdError V} {key : K} {value : V} :
    ∀ {v : RestrictedVector K V},
      (∀ old, v.load key = some old → ∃ new, increase old value = .ok new) →
        ∃ v', v.update increase key value = .ok v' := by
  intro v
  induction v with
  | nil => exact fun _ => ⟨_, rfl⟩
  | cons e rest ih =>
      intro h
      obtain ⟨k, old⟩ := e
      unfold update
      split_ifs with hkey
      · obtain ⟨new, hnew⟩ := h old (by simp [load, hkey])
        exact ⟨_, bind_eq_ok.mpr ⟨new, hnew, rfl⟩⟩
      · obtain ⟨rest', hrest⟩ := ih fun old hold => h old (by simpa [load, hkey] using hold)
        exact ⟨_, bind_eq_ok.mpr ⟨rest', hrest, rfl⟩⟩

theorem updateUint_ok {v : RestrictedVector K Nat} {key : K} {value : Nat}
    (h : v.valueOf key + value < 2 ^ 128) : ∃ v', v.updateUint key value = .ok v' := by
  refine update_ok fun old hold => ⟨_, Uint.checkedAdd_eq_ok.mpr ⟨?_, rfl⟩⟩
  rwa [valueOf, hold] at h

theorem updateDecimal_ok {v : RestrictedVector K Decimal} {key : K} {value : Decimal}
    (h : v.atomicsOf key + value.atomics < 2 ^ 128) :
    ∃ v', v.updateDecimal key value = .ok v' := by
  refine update_ok fun old hold => ⟨_, FixedPoint.checkedAdd_eq_ok.mpr ⟨?_, rfl⟩⟩
  rwa [atomicsOf, hold] at h

/-! ### Vectors as sums of their entries -/

/-- All entries of a key together. -/
def totalOf (v : RestrictedVector K Nat) (key : K) : Nat :=
  (v.map fun e => if e.1 = key then e.2 else 0).sum

/-- An update enters a key once. -/
theorem nodup_update {increase : V → V → Except StdError V} {key : K} {value : V} :
    ∀ {v v' : RestrictedVector K V}, (v.map Prod.fst).Nodup →
      v.update increase key value = .ok v' →
        (v'.map Prod.fst).Nodup ∧ ∀ k ∈ v'.map Prod.fst, k = key ∨ k ∈ v.map Prod.fst := by
  intro v
  induction v with
  | nil =>
      intro v' _ h
      obtain rfl := Except.ok.inj h
      simp
  | cons e rest ih =>
      intro v' hnodup h
      obtain ⟨k₀, old⟩ := e
      rw [List.map_cons, List.nodup_cons] at hnodup
      unfold update at h
      split_ifs at h with hkey
      · simp only [bind_eq_ok, Except.ok.injEq] at h
        obtain ⟨new, -, rfl⟩ := h
        exact ⟨List.nodup_cons.mpr hnodup, fun k hk => Or.inr hk⟩
      · simp only [bind_eq_ok, Except.ok.injEq] at h
        obtain ⟨rest', hrest, rfl⟩ := h
        obtain ⟨hnew, hmem⟩ := ih hnodup.2 hrest
        refine ⟨List.nodup_cons.mpr ⟨fun hk₀ => ?_, hnew⟩, fun k hk => ?_⟩
        · rcases hmem k₀ hk₀ with heq | hold
          · exact hkey heq
          · exact hnodup.1 hold
        · rcases List.mem_cons.mp hk with rfl | hk
          · exact Or.inr List.mem_cons_self
          · exact (hmem k hk).imp_right (List.mem_cons_of_mem _)

/-- Where each key has one entry, its value is that entry. -/
theorem totalOf_eq_valueOf {key : K} : ∀ {v : RestrictedVector K Nat},
    (v.map Prod.fst).Nodup → v.totalOf key = v.valueOf key := by
  intro v
  induction v with
  | nil => exact fun _ => rfl
  | cons e rest ih =>
      intro hnodup
      rw [List.map_cons, List.nodup_cons] at hnodup
      have htotal : totalOf (e :: rest) key =
          (if e.1 = key then e.2 else 0) + totalOf rest key := by
        simp [totalOf]
      rw [htotal, ih hnodup.2]
      unfold valueOf load
      by_cases hkey : e.1 = key
      · have habsent : rest.find? (fun e => e.1 = key) = none := by
          refine List.find?_eq_none.mpr fun e' he' => ?_
          simp only [decide_eq_true_eq]
          exact fun heq => hnodup.1 (hkey ▸ heq ▸ List.mem_map_of_mem he')
        simp [hkey, habsent]
      · simp [hkey]

/-- Entering the entries of a vector one after the other adds them up. -/
theorem valueOf_merge {entries : RestrictedVector K Nat} (key : K) :
    ∀ {v v' : RestrictedVector K Nat},
      entries.foldlM (fun v e => v.updateUint e.1 e.2) v = .ok v' →
        v'.valueOf key = v.valueOf key + entries.totalOf key := by
  induction entries with
  | nil =>
      intro v v' h
      obtain rfl := Except.ok.inj h
      rfl
  | cons e entries ih =>
      intro v v' h
      obtain ⟨v₁, hfirst, hrest⟩ := foldlM_cons_ok.mp h
      have hvalue := valueOf_updateUint hfirst key
      have htotal : totalOf (e :: entries) key =
          (if e.1 = key then e.2 else 0) + totalOf entries key := by
        simp [totalOf]
      rw [ih hrest, hvalue, htotal]
      simp only [eq_comm (a := key)]
      omega

end RestrictedVector

end NeutronTge.Astroport
