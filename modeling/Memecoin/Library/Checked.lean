/-
This file develops the fallible machine arithmetic that on-chain programs are
written in: 64-bit words with checked addition, subtraction and multiplication,
128-bit intermediates, downcasts, and the early-exit sequencing of `Except`.
Every operation comes with the equation that its success is equivalent to, so
that a caller reads an accepted computation as a list of facts about naturals
and never unfolds the operation itself.
-/

import Mathlib.Algebra.Ring.Nat
import Mathlib.Tactic.Common
import Mathlib.Data.Nat.Notation

namespace Checked

/-! ### Early exit -/

section Exit

universe u v

variable {Error Other : Type u} {Value Result : Type v}

/-- Fail with `error` unless the condition holds. -/
def require (condition : Prop) [Decidable condition] (error : Error) : Except Error Unit :=
  if condition then .ok () else .error error

/-- The value of an optional result, or the given error. -/
def okOr (value : Option Value) (error : Error) : Except Error Value :=
  match value with
  | some result => .ok result
  | none => .error error

theorem map_bind {Image : Type v} (first : Except Error Value)
    (rest : Value → Except Error Result) (image : Result → Image) :
    (first >>= rest).map image = first >>= fun value => (rest value).map image := by
  cases first <;> rfl

theorem bind_eq_ok {first : Except Error Value} {rest : Value → Except Error Result}
    {result : Result} :
    (first >>= rest) = .ok result ↔ ∃ value, first = .ok value ∧ rest value = .ok result := by
  cases first with
  | error _ =>
    constructor
    · exact fun equal => nomatch equal
    · exact fun ⟨_, equal, _⟩ => nomatch equal
  | ok value =>
    constructor
    · exact fun equal => ⟨value, rfl, equal⟩
    · rintro ⟨_, equal, accepted⟩
      cases equal
      exact accepted

theorem bind_eq_error {first : Except Error Value} {rest : Value → Except Error Result}
    {error : Error} :
    (first >>= rest) = .error error ↔
      first = .error error ∨ ∃ value, first = .ok value ∧ rest value = .error error := by
  cases first with
  | error _ =>
    constructor
    · exact fun equal => .inl (by cases equal; rfl)
    · rintro (equal | ⟨_, equal, _⟩)
      · cases equal; rfl
      · cases equal
  | ok value =>
    constructor
    · exact fun equal => .inr ⟨value, rfl, equal⟩
    · rintro (equal | ⟨_, equal, failed⟩)
      · cases equal
      · cases equal; exact failed

/-- A computation whose first step succeeds fails in the rest. -/
theorem rest_eq_error {first : Except Error Value} {rest : Value → Except Error Result}
    {error : Error} {value : Value} (rejected : (first >>= rest) = .error error)
    (succeeds : first = .ok value) : rest value = .error error := by
  rw [succeeds] at rejected
  exact rejected

theorem of_bind_eq_error {first : Except Error Value} {rest : Value → Except Error Result}
    {error : Error} (rejected : (first >>= rest) = .error error)
    (succeeds : ∃ value, first = .ok value) :
    ∃ value, first = .ok value ∧ rest value = .error error := by
  obtain ⟨value, succeeds⟩ := succeeds
  exact ⟨value, succeeds, rest_eq_error rejected succeeds⟩

theorem pure_eq_ok {value result : Value} :
    (pure value : Except Error Value) = .ok result ↔ value = result :=
  ⟨fun equal => by cases equal; rfl, fun equal => by cases equal; rfl⟩

@[simp] theorem require_eq_ok {condition : Prop} [Decidable condition] {error : Error}
    {done : Unit} : require condition error = .ok done ↔ condition := by
  unfold require
  split <;> simp_all

@[simp] theorem require_eq_error {condition : Prop} [Decidable condition] {error other : Error} :
    require condition error = .error other ↔ ¬ condition ∧ error = other := by
  unfold require
  split <;> simp_all

@[simp] theorem okOr_eq_ok {value : Option Value} {error : Error} {result : Value} :
    okOr value error = .ok result ↔ value = some result := by
  cases value <;> simp [okOr]

@[simp] theorem okOr_eq_error {value : Option Value} {error other : Error} :
    okOr value error = .error other ↔ value = none ∧ error = other := by
  cases value <;> simp [okOr]

theorem mapError_eq_ok {first : Except Error Value} {wrap : Error → Other} {result : Value} :
    first.mapError wrap = .ok result ↔ first = .ok result := by
  cases first <;> simp [Except.mapError]

theorem mapError_eq_error {first : Except Error Value} {wrap : Error → Other} {other : Other} :
    first.mapError wrap = .error other ↔ ∃ error, first = .error error ∧ wrap error = other := by
  cases first <;> simp [Except.mapError]

/-- A wrapped error is none of the errors that the wrapping misses. -/
theorem mapError_ne {first : Except Error Value} {wrap : Error → Other} {other : Other}
    (missed : ∀ error, wrap error ≠ other) : first.mapError wrap ≠ .error other := by
  intro failed
  obtain ⟨error, _, equal⟩ := mapError_eq_error.mp failed
  exact missed error equal

/-- The error a computation ends in, if it fails. -/
def errorOf : Except Error Value → Option Error
  | .ok _ => none
  | .error error => some error

theorem errorOf_eq_some {first : Except Error Value} {error : Error} :
    errorOf first = some error ↔ first = .error error := by
  cases first <;> simp [errorOf]

/-- Every error the computation can end in is allowed. -/
def FailsOnly (allowed : Error → Prop) (first : Except Error Value) : Prop :=
  ∀ error, first = .error error → allowed error

variable {allowed : Error → Prop}

theorem failsOnly_bind {first : Except Error Value} {rest : Value → Except Error Result}
    (head : FailsOnly allowed first) (tail : ∀ value, FailsOnly allowed (rest value)) :
    FailsOnly allowed (first >>= rest) := by
  intro error rejected
  rcases bind_eq_error.mp rejected with failed | ⟨value, _, later⟩
  · exact head error failed
  · exact tail value error later

theorem failsOnly_pure (value : Value) :
    FailsOnly allowed (pure value : Except Error Value) := by
  intro error rejected
  cases rejected

theorem failsOnly_require {condition : Prop} [Decidable condition] {error : Error}
    (permitted : allowed error) : FailsOnly allowed (require condition error) := by
  intro other rejected
  rw [← (require_eq_error.mp rejected).2]
  exact permitted

theorem failsOnly_okOr {value : Option Value} {error : Error} (permitted : allowed error) :
    FailsOnly allowed (okOr value error) := by
  intro other rejected
  rw [← (okOr_eq_error.mp rejected).2]
  exact permitted

end Exit

/-! ### 64-bit words -/

/-- Downcast to a 64-bit word. -/
def toU64 (value : ℕ) : Option UInt64 :=
  if value < 2 ^ 64 then some (UInt64.ofNat value) else none

/-- The sum, when it is a word. -/
def checkedAdd (first second : UInt64) : Option UInt64 := toU64 (first.toNat + second.toNat)

/-- The product, when it is a word. -/
def checkedMul (first second : UInt64) : Option UInt64 := toU64 (first.toNat * second.toNat)

/-- The difference, when it is not negative. -/
def checkedSub (first second : UInt64) : Option UInt64 :=
  if second ≤ first then some (first - second) else none

/-- Subtraction that stops at zero. -/
def saturatingSub (first second : UInt64) : UInt64 :=
  if second ≤ first then first - second else 0

theorem toU64_eq_some {value : ℕ} {word : UInt64} :
    toU64 value = some word ↔ word.toNat = value := by
  unfold toU64
  split
  · rename_i fits
    rw [Option.some.injEq, ← UInt64.toNat_inj, UInt64.toNat_ofNat', Nat.mod_eq_of_lt fits]
    exact eq_comm
  · rename_i large
    have bound := word.toNat_lt
    constructor
    · exact fun equal => nomatch equal
    · intro equal
      omega

theorem checkedAdd_eq_some {first second sum : UInt64} :
    checkedAdd first second = some sum ↔ sum.toNat = first.toNat + second.toNat :=
  toU64_eq_some

theorem checkedSub_eq_some {first second difference : UInt64} :
    checkedSub first second = some difference ↔
      difference.toNat + second.toNat = first.toNat := by
  unfold checkedSub
  split
  · rename_i small
    have exact := UInt64.toNat_sub_of_le first second small
    have order := UInt64.le_iff_toNat_le.mp small
    rw [Option.some.injEq, ← UInt64.toNat_inj, exact]
    omega
  · rename_i large
    have order := mt UInt64.le_iff_toNat_le.mpr large
    constructor
    · exact fun equal => nomatch equal
    · intro equal
      omega

theorem saturatingSub_toNat (first second : UInt64) :
    (saturatingSub first second).toNat = first.toNat - second.toNat := by
  unfold saturatingSub
  split
  · rename_i small
    exact UInt64.toNat_sub_of_le first second small
  · rename_i large
    have order := mt UInt64.le_iff_toNat_le.mpr large
    rw [UInt64.toNat_zero]
    omega

/-- Every natural below the word size is the value of a word. -/
theorem exists_toNat_eq {value : ℕ} (fits : value < 2 ^ 64) :
    ∃ word : UInt64, word.toNat = value :=
  ⟨UInt64.ofNat value, by rw [UInt64.toNat_ofNat', Nat.mod_eq_of_lt fits]⟩

theorem okOr_checkedAdd_total {Error : Type*} {first second : UInt64}
    (fits : first.toNat + second.toNat < 2 ^ 64) (error : Error) :
    ∃ sum, okOr (checkedAdd first second) error = .ok sum := by
  obtain ⟨sum, value⟩ := exists_toNat_eq fits
  exact ⟨sum, okOr_eq_ok.mpr (checkedAdd_eq_some.mpr value)⟩

theorem okOr_checkedSub_total {Error : Type*} {first second : UInt64}
    (covered : second.toNat ≤ first.toNat) (error : Error) :
    ∃ difference, okOr (checkedSub first second) error = .ok difference :=
  ⟨first - second, okOr_eq_ok.mpr (if_pos (UInt64.le_iff_toNat_le.mpr covered))⟩

/-! ### 128-bit intermediates

An intermediate is a natural below `2 ^ 128`; the operations refuse to leave
that range. -/

/-- The sum, when it fits. -/
def checkedAdd128 (first second : ℕ) : Option ℕ :=
  if first + second < 2 ^ 128 then some (first + second) else none

/-- The product, when it fits. -/
def checkedMul128 (first second : ℕ) : Option ℕ :=
  if first * second < 2 ^ 128 then some (first * second) else none

/-- The difference, when it is not negative. -/
def checkedSub128 (first second : ℕ) : Option ℕ :=
  if second ≤ first then some (first - second) else none

/-- The quotient, unless the divisor is zero. -/
def checkedDiv128 (first second : ℕ) : Option ℕ :=
  if second = 0 then none else some (first / second)

theorem checkedAdd128_eq_some {first second sum : ℕ} :
    checkedAdd128 first second = some sum ↔ first + second < 2 ^ 128 ∧ first + second = sum := by
  simp [checkedAdd128]

theorem checkedMul128_eq_some {first second product : ℕ} :
    checkedMul128 first second = some product ↔
      first * second < 2 ^ 128 ∧ first * second = product := by
  simp [checkedMul128]

theorem checkedSub128_eq_some {first second difference : ℕ} :
    checkedSub128 first second = some difference ↔
      second ≤ first ∧ first - second = difference := by
  simp [checkedSub128]

theorem checkedDiv128_eq_some {first second quotient : ℕ} :
    checkedDiv128 first second = some quotient ↔ second ≠ 0 ∧ first / second = quotient := by
  unfold checkedDiv128
  split <;> simp_all

end Checked
