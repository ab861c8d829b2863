/-!
# `Proofs.Results` — results that may be errors

What is known of a step whose result is known: the steps that it is put together from, and the error under a
constructor.
-/

namespace ResolverWiring

variable {ε ε' α β : Type}

theorem toOption_eq_some {result : Except ε α} {a : α} : result.toOption = some a ↔ result = .ok a := by
  cases result with
  | error e => exact ⟨nofun, nofun⟩
  | ok b => exact ⟨fun h => congrArg _ (Option.some.inj h), fun h => congrArg _ (Except.ok.inj h)⟩

theorem result_bind_eq_ok {x : Except ε α} {f : α → Except ε β} {b : β} (h : (x >>= f) = .ok b) :
    ∃ a, x = .ok a ∧ f a = .ok b := by
  cases x with
  | error e => cases h
  | ok a => exact ⟨a, rfl, h⟩

theorem mapError_eq_ok {wrap : ε' → ε} {result : Except ε' α} {a : α} :
    result.mapError wrap = .ok a ↔ result = .ok a := by
  constructor
  · intro h
    cases result with
    | error e => cases h
    | ok b =>
      cases h
      rfl
  · rintro rfl
    rfl

theorem mapError_eq_error {wrap : ε' → ε} {result : Except ε' α} {e : ε} :
    result.mapError wrap = .error e ↔ ∃ e', result = .error e' ∧ wrap e' = e := by
  constructor
  · intro h
    cases result with
    | error e' =>
      cases h
      exact ⟨e', rfl, rfl⟩
    | ok a => cases h
  · rintro ⟨e', rfl, rfl⟩
    rfl

end ResolverWiring
