import Mathlib.Algebra.Order.Floor.Div
import Mathlib.Tactic.Positivity
import Mathlib.Tactic.GCongr
import NeutronTge.CosmWasm.Outcome

/-!
# NeutronTge.CosmWasm.Uint

Fixed-width unsigned integers and decimals. A `uN` value is a `Nat` below
`2 ^ N`; the width is an argument of the operations that can leave the range, so
one definition serves `u32`, `u64`, `Uint128` and `Uint256`. The `checked_*`
operations return an error, the plain operators abort: release builds of the
contracts keep overflow checks on.

A decimal is a whole number of units of `10 ^ -18`, whatever its width. All
operations round down.
-/

namespace NeutronTge.CosmWasm

namespace Uint

/-- `checked_add`. -/
def checkedAdd (width a b : Nat) : Except StdError Nat :=
  if a + b < 2 ^ width then .ok (a + b) else .error (.overflow .add)

/-- `checked_sub`. -/
def checkedSub (a b : Nat) : Except StdError Nat :=
  if b ≤ a then .ok (a - b) else .error (.overflow .sub)

/-- `checked_mul`. -/
def checkedMul (width a b : Nat) : Except StdError Nat :=
  if a * b < 2 ^ width then .ok (a * b) else .error (.overflow .mul)

/-- `checked_div`. -/
def checkedDiv (a b : Nat) : Except StdError Nat :=
  if b = 0 then .error .divideByZero else .ok (a / b)

/-- `try_into` a narrower type. -/
def tryInto (width a : Nat) : Except StdError Nat :=
  if a < 2 ^ width then .ok a else .error .conversionOverflow

/-- The operator `+`. -/
def add (width a b : Nat) : Except StdError Nat :=
  if a + b < 2 ^ width then .ok (a + b) else .error .aborted

/-- The operator `-`. -/
def sub (a b : Nat) : Except StdError Nat :=
  if b ≤ a then .ok (a - b) else .error .aborted

/-- The operator `*`. -/
def mul (width a b : Nat) : Except StdError Nat :=
  if a * b < 2 ^ width then .ok (a * b) else .error .aborted

/-- `multiply_ratio`: `a * num / den` through a product of double width. -/
def multiplyRatio (width a num den : Nat) : Except StdError Nat :=
  if den = 0 ∨ 2 ^ width ≤ a * num / den then .error .aborted else .ok (a * num / den)

section Inversion

variable {width a b c : Nat}

@[simp] theorem checkedAdd_eq_ok :
    checkedAdd width a b = .ok c ↔ a + b < 2 ^ width ∧ c = a + b := by
  unfold checkedAdd
  split <;> simp_all [eq_comm]

@[simp] theorem checkedSub_eq_ok : checkedSub a b = .ok c ↔ b ≤ a ∧ c = a - b := by
  unfold checkedSub
  split <;> simp_all [eq_comm]

@[simp] theorem checkedMul_eq_ok :
    checkedMul width a b = .ok c ↔ a * b < 2 ^ width ∧ c = a * b := by
  unfold checkedMul
  split <;> simp_all [eq_comm]

@[simp] theorem checkedDiv_eq_ok : checkedDiv a b = .ok c ↔ b ≠ 0 ∧ c = a / b := by
  unfold checkedDiv
  split <;> simp_all [eq_comm]

@[simp] theorem tryInto_eq_ok : tryInto width a = .ok c ↔ a < 2 ^ width ∧ c = a := by
  unfold tryInto
  split <;> simp_all [eq_comm]

@[simp] theorem add_eq_ok : add width a b = .ok c ↔ a + b < 2 ^ width ∧ c = a + b := by
  unfold add
  split <;> simp_all [eq_comm]

@[simp] theorem sub_eq_ok : sub a b = .ok c ↔ b ≤ a ∧ c = a - b := by
  unfold sub
  split <;> simp_all [eq_comm]

@[simp] theorem mul_eq_ok : mul width a b = .ok c ↔ a * b < 2 ^ width ∧ c = a * b := by
  unfold mul
  split <;> simp_all [eq_comm]

theorem multiplyRatio_eq_ok {num den : Nat} :
    multiplyRatio width a num den = .ok c ↔
      0 < den ∧ a * num / den < 2 ^ width ∧ c = a * num / den := by
  unfold multiplyRatio
  split <;> rename_i h
  · simp only [reduceCtorEq, false_iff]
    rintro ⟨hden, hlt, -⟩
    rcases h with h | h <;> omega
  · push Not at h
    simp only [Except.ok.injEq]
    exact ⟨fun hc => ⟨Nat.pos_of_ne_zero h.1, h.2, hc.symm⟩, fun hc => hc.2.2.symm⟩

end Inversion

end Uint

/-- A decimal with 18 decimal places stored in `width` bits: `Decimal` is
`FixedPoint 128` and `Decimal256` is `FixedPoint 256`. -/
structure FixedPoint (width : Nat) where
  atomics : Nat
  deriving Repr, DecidableEq

/-- A fraction of 18 decimals in 128 bits. -/
abbrev Decimal := FixedPoint 128
/-- A fraction of 18 decimals in 256 bits. -/
abbrev Decimal256 := FixedPoint 256

namespace FixedPoint

/-- `DECIMAL_FRACTIONAL`: the atomics of the decimal one. -/
def fractional : Nat := 10 ^ 18

theorem fractional_pos : 0 < fractional := by decide

variable {width : Nat}

/-- The number 0. -/
def zero : FixedPoint width := ⟨0⟩

/-- The number 1. -/
def one : FixedPoint width := ⟨fractional⟩

/-- `from_ratio`. -/
def fromRatio (width num den : Nat) : Except StdError (FixedPoint width) := do
  let atomics ← Uint.multiplyRatio width num fractional den
  .ok ⟨atomics⟩

/-- `checked_add`. -/
def checkedAdd (x y : FixedPoint width) : Except StdError (FixedPoint width) := do
  let atomics ← Uint.checkedAdd width x.atomics y.atomics
  .ok ⟨atomics⟩

/-- The operator `+`. -/
def add (x y : FixedPoint width) : Except StdError (FixedPoint width) := do
  let atomics ← Uint.add width x.atomics y.atomics
  .ok ⟨atomics⟩

/-- `checked_mul`. -/
def checkedMul (x y : FixedPoint width) : Except StdError (FixedPoint width) :=
  let product := x.atomics * y.atomics / fractional
  if product < 2 ^ width then .ok ⟨product⟩ else .error (.overflow .mul)

/-- The operator `/`. -/
def div (x y : FixedPoint width) : Except StdError (FixedPoint width) :=
  fromRatio width x.atomics y.atomics

/-- `to_uint_floor`. -/
def toUintFloor (x : FixedPoint width) : Nat := x.atomics / fractional

/-- The operator `*` of a `Uint128` and a decimal. -/
def mulUint (a : Nat) (x : FixedPoint width) : Except StdError Nat :=
  Uint.multiplyRatio 128 a x.atomics fractional

/-- The decimal as it is displayed: without trailing zeros. -/
def display (x : FixedPoint width) : String :=
  let rest := toString (x.atomics % fractional)
  let digits := List.replicate (18 - rest.length) '0' ++ rest.toList
  if x.atomics % fractional = 0 then toString (x.atomics / fractional)
  else toString (x.atomics / fractional) ++ "." ++
    String.ofList (digits.reverse.dropWhile (· = '0')).reverse

/-- `to_decimal`: a whole number as a decimal. -/
def ofUint (a : Nat) : Except StdError Decimal := fromRatio 128 a 1

/-- `Decimal::from_str` on the digits of a whole number. -/
def parseWhole (a : Nat) : Except StdError Decimal :=
  if a * fractional < 2 ^ 128 then .ok ⟨a * fractional⟩
  else .error (.genericErr "Value too big")

/-- `checked_mul_uint128` and `checked_mul_uint256` of the extension traits: the
floor of the product, which has to fit in 128 bits. -/
def checkedMulUint (x : FixedPoint width) (a : Nat) : Except StdError Nat :=
  if x.atomics = 0 ∨ a = 0 then .ok 0
  else if 2 ^ 128 ≤ a * x.atomics / fractional then .error (.overflow .mul)
  else .ok (a * x.atomics / fractional)

section Inversion

variable {x y z : FixedPoint width} {num den a b : Nat}

theorem fromRatio_eq_ok :
    fromRatio width num den = .ok x ↔
      0 < den ∧ num * fractional / den < 2 ^ width ∧
        x.atomics = num * fractional / den := by
  unfold fromRatio
  rw [bind_eq_ok]
  constructor
  · rintro ⟨n, hn, hx⟩
    obtain ⟨hden, hlt, rfl⟩ := Uint.multiplyRatio_eq_ok.mp hn
    obtain rfl := Except.ok.inj hx
    exact ⟨hden, hlt, rfl⟩
  · rintro ⟨hden, hlt, hx⟩
    exact ⟨_, Uint.multiplyRatio_eq_ok.mpr ⟨hden, hlt, rfl⟩, by rw [← hx]⟩

theorem checkedAdd_eq_ok :
    checkedAdd x y = .ok z ↔
      x.atomics + y.atomics < 2 ^ width ∧ z = ⟨x.atomics + y.atomics⟩ := by
  simp [checkedAdd, bind_eq_ok, eq_comm (a := z), and_assoc]

theorem add_eq_ok :
    add x y = .ok z ↔
      x.atomics + y.atomics < 2 ^ width ∧ z = ⟨x.atomics + y.atomics⟩ := by
  simp [add, bind_eq_ok, eq_comm (a := z), and_assoc]

theorem checkedMul_eq_ok :
    checkedMul x y = .ok z ↔
      x.atomics * y.atomics / fractional < 2 ^ width ∧
        z = ⟨x.atomics * y.atomics / fractional⟩ := by
  unfold checkedMul
  dsimp only
  split <;> simp_all [eq_comm]

theorem ofUint_eq_ok {z : Decimal} :
    ofUint a = .ok z ↔ a * fractional < 2 ^ 128 ∧ z = ⟨a * fractional⟩ := by
  unfold ofUint
  rw [fromRatio_eq_ok, Nat.div_one]
  refine ⟨fun ⟨_, hlt, hz⟩ => ⟨hlt, ?_⟩, fun ⟨hlt, hz⟩ => ⟨Nat.one_pos, hlt, by rw [hz]⟩⟩
  cases z
  simpa using hz

theorem mulUint_eq_ok :
    mulUint a x = .ok b ↔
      a * x.atomics / fractional < 2 ^ 128 ∧ b = a * x.atomics / fractional := by
  unfold mulUint
  rw [Uint.multiplyRatio_eq_ok]
  exact ⟨fun h => h.2, fun h => ⟨fractional_pos, h⟩⟩

theorem checkedMulUint_eq_ok :
    checkedMulUint x a = .ok b ↔
      a * x.atomics / fractional < 2 ^ 128 ∧ b = a * x.atomics / fractional := by
  unfold checkedMulUint
  split_ifs with hzero hbig
  · have hprod : a * x.atomics / fractional = 0 := by
      rcases hzero with h | h <;> simp [h]
    simp [hprod, eq_comm]
  · simp only [false_iff]
    omega
  · simp only [Except.ok.injEq, eq_comm (a := b)]
    exact ⟨fun h => ⟨by omega, h⟩, fun h => h.2⟩

/-- A decimal times a whole number, both as decimals: no digit is lost before the
final floor. -/
theorem checkedMul_ofUint_floor {x z q : Decimal} (hq : ofUint a = .ok q)
    (hz : checkedMul x q = .ok z) : z.toUintFloor = x.atomics * a / fractional := by
  obtain ⟨-, rfl⟩ := ofUint_eq_ok.mp hq
  obtain ⟨-, rfl⟩ := checkedMul_eq_ok.mp hz
  unfold toUintFloor
  rw [← Nat.mul_assoc, Nat.mul_div_cancel _ fractional_pos]

end Inversion

end FixedPoint

/-! ### Sums of floors

The contracts round down at every step, so what the proofs need about division
is how floors behave under sums and scaling. -/

section Floor

variable {a b c d : Nat}

/-- Splitting an amount never increases the sum of the floors. -/
theorem floor_add_floor_le : a / d + b / d ≤ (a + b) / d := by
  rcases Nat.eq_zero_or_pos d with rfl | hd
  · simp
  · rw [Nat.le_div_iff_mul_le hd, Nat.add_mul]
    exact Nat.add_le_add (Nat.div_mul_le_self a d) (Nat.div_mul_le_self b d)

/-- Taking a part away lowers the floor by at least the part's own floor. -/
theorem floor_sub_le (h : b ≤ a) : (a - b) / d ≤ a / d - b / d := by
  have hsum : (a - b) / d + b / d ≤ (a - b + b) / d := floor_add_floor_le
  rw [Nat.sub_add_cancel h] at hsum
  omega

end Floor

end NeutronTge.CosmWasm
