/-! The outcome of work that may fail: when a change of its result succeeds or fails, and with
what. -/

namespace CqlDdl.Outcome

variable {α β ε : Type}

/-- The failure of a computation, if it fails. -/
def failure? : Except ε α → Option ε
  | .ok _ => none
  | .error e => some e

theorem failure?_eq_some_iff {x : Except ε α} {e : ε} : failure? x = some e ↔ x = .error e := by
  cases x <;> simp [failure?]

theorem failure?_eq_none_iff {x : Except ε α} : failure? x = none ↔ ∃ a, x = .ok a := by
  cases x <;> simp [failure?]

theorem failure?_map (f : α → β) (x : Except ε α) : failure? (x.map f) = failure? x := by
  cases x <;> rfl

theorem map_eq_ok_iff {f : α → β} {x : Except ε α} {b : β} :
    x.map f = .ok b ↔ ∃ a, x = .ok a ∧ f a = b := by
  cases x <;> simp [Except.map]

theorem map_eq_error_iff {f : α → β} {x : Except ε α} {e : ε} :
    x.map f = .error e ↔ x = .error e := by
  cases x <;> simp [Except.map]

/-- A change of a result that is known, if there is one. -/
theorem map_eq_ok_iff_of_forall {f : α → β} {x : Except ε α} {a : α} {p : Prop}
    (h : ∀ result, x = .ok result ↔ result = a ∧ p) (b : β) : x.map f = .ok b ↔ b = f a ∧ p := by
  simp only [map_eq_ok_iff, h]
  constructor
  · rintro ⟨_, ⟨rfl, hp⟩, rfl⟩
    exact ⟨rfl, hp⟩
  · rintro ⟨rfl, hp⟩
    exact ⟨a, ⟨rfl, hp⟩, rfl⟩

theorem bind_map {γ : Type} (f : α → β) (g : β → Except ε γ) (x : Except ε α) :
    (x.map f).bind g = x.bind fun a => g (f a) := by
  cases x <;> rfl

end CqlDdl.Outcome
