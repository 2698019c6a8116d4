import Mathlib.Logic.Function.Basic

/-! # Versioned values

A ledger keeps every value a cell has had, under the version at which it was
stored. Writing adds a version and changes no earlier one, so that what was once
read under a version is found under it ever after.
-/

/-- A value with its version and all earlier values. Versions beyond the current one
are not meaningful. -/
structure Ledger (Value : Type*) where
  version : Nat
  valueAt : Nat → Value

namespace Ledger

variable {Value : Type*}

/-- A ledger with one value. -/
def initial (value : Value) : Ledger Value := ⟨0, fun _ => value⟩

def current (ledger : Ledger Value) : Value := ledger.valueAt ledger.version

/-- Store a value under the next version. -/
def write (value : Value) (ledger : Ledger Value) : Ledger Value :=
  ⟨ledger.version + 1, Function.update ledger.valueAt (ledger.version + 1) value⟩

@[simp]
theorem write_current (value : Value) (ledger : Ledger Value) :
    (ledger.write value).current = value := by
  simp [write, current]

/-- One ledger continues another. -/
def Extends (later earlier : Ledger Value) : Prop :=
  earlier.version ≤ later.version ∧
    ∀ version ≤ earlier.version, later.valueAt version = earlier.valueAt version

theorem Extends.refl (ledger : Ledger Value) : ledger.Extends ledger :=
  ⟨Nat.le_refl _, fun _ _ => rfl⟩

theorem extends_write (value : Value) (ledger : Ledger Value) :
    (ledger.write value).Extends ledger := by
  refine ⟨Nat.le_succ _, fun version bound => ?_⟩
  have earlier : version ≠ ledger.version + 1 := by omega
  exact Function.update_of_ne earlier _ _

/-- What was read under a version is still found under it. -/
def Records (ledger : Ledger Value) (version : Nat) (value : Value) : Prop :=
  version ≤ ledger.version ∧ ledger.valueAt version = value

theorem records_current (ledger : Ledger Value) :
    ledger.Records ledger.version ledger.current :=
  ⟨Nat.le_refl _, rfl⟩

theorem Records.extends {later earlier : Ledger Value} {version : Nat} {value : Value}
    (recorded : earlier.Records version value) (longer : later.Extends earlier) :
    later.Records version value :=
  ⟨Nat.le_trans recorded.1 longer.1, (longer.2 version recorded.1).trans recorded.2⟩

end Ledger
