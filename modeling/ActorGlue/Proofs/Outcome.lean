import Mathlib.Tactic.Common

/-!
# Outcomes

A computation that may fail is settled when it is known exactly what it gives and exactly how it
fails.
-/

namespace ActorGlue

variable {ε δ α β : Type}

theorem map_eq_ok {outcome : Except ε α} {f : α → β} {value : β} :
    outcome.map f = .ok value ↔ ∃ found, outcome = .ok found ∧ f found = value := by
  cases outcome with
  | ok found =>
    constructor
    · intro same
      exact ⟨found, rfl, Except.ok.inj same⟩
    · rintro ⟨_, ⟨⟩, rfl⟩
      rfl
  | error fault =>
    constructor
    · intro same
      cases same
    · rintro ⟨_, ⟨⟩, -⟩

theorem mapError_eq_ok {outcome : Except ε α} {f : ε → δ} {value : α} :
    outcome.mapError f = .ok value ↔ outcome = .ok value := by
  cases outcome with
  | ok found => constructor <;> rintro ⟨⟩ <;> rfl
  | error fault => constructor <;> rintro ⟨⟩

theorem exists_of_bind_ok {first : Except ε α} {next : α → Except ε β} {value : β}
    (h : first >>= next = .ok value) : ∃ found, first = .ok found ∧ next found = .ok value := by
  cases first with
  | error fault => cases h
  | ok found => exact ⟨found, rfl, h⟩

/-- What an outcome gives, if it gives something, and how it fails, if it fails. -/
structure Settles (outcome : Except ε α) (gives : α → Prop) (fails : ε → Prop) : Prop where
  ok_iff : ∀ value, outcome = .ok value ↔ gives value
  error_iff : ∀ fault, outcome = .error fault ↔ fails fault

namespace Settles

variable {outcome : Except ε α} {gives other : α → Prop} {fails worse : ε → Prop}

theorem congr (settles : Settles outcome gives fails) (same : ∀ value, gives value ↔ other value)
    (faults : ∀ fault, fails fault ↔ worse fault) : Settles outcome other worse := by
  constructor
  · intro value
    rw [settles.ok_iff, same]
  · intro fault
    rw [settles.error_iff, faults]

theorem ok {value : α} (only : ∀ found, gives found ↔ found = value) (never : ∀ fault, ¬fails fault) :
    Settles (.ok value) gives fails := by
  constructor
  · intro found
    rw [only, Except.ok.injEq, eq_comm]
  · intro fault
    simp [never fault]

theorem error {fault : ε} (never : ∀ value, ¬gives value)
    (only : ∀ found, fails found ↔ found = fault) : Settles (.error fault) gives fails := by
  constructor
  · intro value
    simp [never value]
  · intro found
    rw [only, Except.error.injEq, eq_comm]

theorem fail (α : Type) (fault : ε) :
    Settles (.error fault : Except ε α) (fun _ => False) (· = fault) :=
  error (fun _ => id) fun _ => Iff.rfl

/-- One computation behind another fails where one of them does. -/
theorem bind {next : α → Except ε β} {leads : α → β → Prop} {stops : α → ε → Prop}
    (settles : Settles outcome gives fails)
    (later : ∀ value, gives value → Settles (next value) (leads value) (stops value)) :
    Settles (outcome >>= next) (fun result => ∃ value, gives value ∧ leads value result)
      (fun fault => fails fault ∨ ∃ value, gives value ∧ stops value fault) := by
  cases outcome with
  | ok value =>
    have given : ∀ found, gives found ↔ found = value := by
      intro found
      rw [← settles.ok_iff, Except.ok.injEq, eq_comm]
    have never : ∀ fault, ¬fails fault := by
      intro fault
      simp [← settles.error_iff]
    exact (later value ((given value).mpr rfl)).congr (by simp [given]) (by simp [given, never])
  | error fault =>
    have never : ∀ found, ¬gives found := by
      intro found
      simp [← settles.ok_iff]
    have failed : ∀ found, fails found ↔ found = fault := by
      intro found
      rw [← settles.error_iff, Except.error.injEq, eq_comm]
    exact .error (by simp [never]) (by simp [never, failed])

theorem map {f : α → β} (settles : Settles outcome gives fails) :
    Settles (outcome.map f) (fun result => ∃ value, gives value ∧ result = f value) fails := by
  cases outcome with
  | ok value =>
    apply ok
    · simp [← settles.ok_iff]
    · simp [← settles.error_iff]
  | error fault =>
    apply error
    · simp [← settles.ok_iff]
    · intro found
      rw [← settles.error_iff, Except.error.injEq, eq_comm]

theorem mapError {f : ε → δ} (settles : Settles outcome gives fails) :
    Settles (outcome.mapError f) gives (fun found => ∃ fault, fails fault ∧ found = f fault) := by
  cases outcome with
  | ok value =>
    apply ok
    · intro found
      rw [← settles.ok_iff, Except.ok.injEq, eq_comm]
    · simp [← settles.error_iff]
  | error fault =>
    apply error
    · simp [← settles.ok_iff]
    · simp [← settles.error_iff]

end Settles

end ActorGlue
