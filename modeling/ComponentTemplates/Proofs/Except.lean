/-
Module: ComponentTemplates.Proofs.Except
Purpose: Computations that may fail, taken apart step by step, and computations that end alike.
Main exports: ok_bind, error_bind, bind_eq_ok, bind_congr_of_ok, exists_ok_of_isSome, exists_ok_of_map_toOption,
  Alike, Alike.bind, Alike.map_eq
-/

namespace ComponentTemplates

variable {ε α β : Type}

@[simp] theorem ok_bind (value : α) (next : α → Except ε β) :
    ((Except.ok value : Except ε α) >>= next) = next value := rfl

@[simp] theorem error_bind (error : ε) (next : α → Except ε β) :
    ((Except.error error : Except ε α) >>= next) = .error error := rfl

/-- A computation of two parts succeeds if both parts do. -/
theorem bind_eq_ok {first : Except ε α} {next : α → Except ε β} {result : β} :
    (first >>= next) = .ok result ↔ ∃ value, first = .ok value ∧ next value = .ok result := by
  cases first with
  | error error => simp
  | ok value => simp

/-- Computations that begin alike and go on alike wherever they succeed are the same. -/
theorem bind_congr_of_ok {first : Except ε α} {next next' : α → Except ε β}
    (h : ∀ value, first = .ok value → next value = next' value) :
    (first >>= next) = (first >>= next') := by
  cases first with
  | error error => rfl
  | ok value => exact h value rfl

/-- Whether two steps in a row succeed does not depend on the errors. -/
theorem toOption_bind (first : Except ε α) (next : α → Except ε β) :
    (first >>= next).toOption = first.toOption.bind fun value => (next value).toOption := by
  cases first <;> rfl

/-- A computation with a value succeeds. -/
theorem exists_ok_of_isSome {computation : Except ε α}
    (h : computation.toOption.isSome = true) : ∃ value, computation = .ok value := by
  cases computation with
  | ok value => exact ⟨value, rfl⟩
  | error error => cases h

theorem exists_ok_of_map_toOption {computation : Except ε α} {f : α → β} {result : β}
    (h : computation.toOption.map f = some result) :
    ∃ value, computation = .ok value ∧ f value = result := by
  cases computation with
  | ok value => exact ⟨value, rfl, Option.some.inj h⟩
  | error error => cases h

/-- Both computations succeed, with results that are related, or both fail with the same error. -/
inductive Alike (rel : α → β → Prop) : Except ε α → Except ε β → Prop where
  | ok {left : α} {right : β} (h : rel left right) : Alike rel (.ok left) (.ok right)
  | error (error : ε) : Alike rel (.error error) (.error error)

namespace Alike

variable {rel : α → β → Prop} {left : Except ε α} {right : Except ε β}

/-- Computations that go on alike from related results end alike. -/
theorem bind {γ δ : Type} {last : γ → δ → Prop} {next : α → Except ε γ} {next' : β → Except ε δ}
    (h : Alike rel left right)
    (hnext : ∀ value value', rel value value' → Alike last (next value) (next' value')) :
    Alike last (left >>= next) (right >>= next') := by
  cases h with
  | ok hvalue => exact hnext _ _ hvalue
  | error error => exact .error error

theorem map_eq {γ : Type} (h : Alike rel left right) {f : α → γ} {g : β → γ}
    (hvalue : ∀ value value', rel value value' → f value = g value') :
    left.map f = right.map g := by
  cases h with
  | ok h => exact congrArg Except.ok (hvalue _ _ h)
  | error error => rfl

end Alike

theorem alike_eq_iff {left right : Except ε α} : Alike Eq left right ↔ left = right := by
  constructor
  · intro h
    cases h with
    | ok hvalue => rw [hvalue]
    | error error => rfl
  · intro h
    subst h
    cases left with
    | ok value => exact .ok rfl
    | error error => exact .error error

end ComponentTemplates
