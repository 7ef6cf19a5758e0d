/-
Computations that log events and may fail. The first failure ends a computation;
what it has logged until then stays logged.
-/
import Conform.Registry.Event
import Conform.Schema.Error

namespace Conform

/-- The outcome of a computation and the events it has logged, in order. -/
structure Logged (α : Type) where
  events : List Event
  result : Except SchemaError α

namespace Logged

variable {α β : Type}

/-- Does a step, and then another one with its result unless it has failed. -/
def andThen (x : Logged α) (f : α → Logged β) : Logged β :=
  match x.result with
  | .error e => ⟨x.events, .error e⟩
  | .ok a =>
    let y := f a
    ⟨x.events ++ y.events, y.result⟩

instance : Monad Logged where
  pure a := ⟨[], .ok a⟩
  bind := andThen

def log (e : Event) : Logged Unit := ⟨[e], .ok ()⟩

def fail (e : SchemaError) : Logged α := ⟨[], .error e⟩

def ofExcept (r : Except SchemaError α) : Logged α := ⟨[], r⟩

/-- The same computation, failing with another error. -/
def mapError (f : SchemaError → SchemaError) (x : Logged α) : Logged α :=
  { x with result := x.result.mapError f }

theorem ext {x y : Logged α} (he : x.events = y.events) (hr : x.result = y.result) : x = y := by
  cases x; cases y; simp_all

theorem pure_eq (a : α) : (pure a : Logged α) = ⟨[], .ok a⟩ := rfl

theorem bind_eq (x : Logged α) (f : α → Logged β) : x >>= f = x.andThen f := rfl

theorem bind_of_ok {x : Logged α} {a : α} (h : x.result = .ok a) (f : α → Logged β) :
    x >>= f = ⟨x.events ++ (f a).events, (f a).result⟩ := by
  simp only [bind_eq, andThen, h]

theorem bind_of_error {x : Logged α} {e : SchemaError} (h : x.result = .error e)
    (f : α → Logged β) : x >>= f = ⟨x.events, .error e⟩ := by
  simp only [bind_eq, andThen, h]

/-- Of two steps in sequence both have to go well. -/
theorem bind_ok_iff {x : Logged α} {f : α → Logged β} {b : β} :
    (x >>= f).result = .ok b ↔ ∃ a, x.result = .ok a ∧ (f a).result = .ok b := by
  cases hx : x.result with
  | ok a => rw [bind_of_ok hx]; simp
  | error e => rw [bind_of_error hx]; simp

@[simp] theorem pure_result (a : α) : (pure a : Logged α).result = .ok a := rfl

@[simp] theorem fail_result (e : SchemaError) : (fail e : Logged α).result = .error e := rfl

@[simp] theorem log_result (e : Event) : (log e).result = .ok () := rfl

theorem ofExcept_ok (a : α) : ofExcept (.ok a) = pure a := rfl

@[simp] theorem ofExcept_result (r : Except SchemaError α) : (ofExcept r).result = r := rfl

theorem ite_fail_ok_iff {c : Prop} [Decidable c] {e : SchemaError} {x : Logged α} {a : α} :
    (if c then fail e else x).result = .ok a ↔ ¬ c ∧ x.result = .ok a := by
  by_cases h : c
  · simp [h]
  · simp [h]

theorem mapError_ok_iff {g : SchemaError → SchemaError} {x : Logged α} {a : α} :
    (x.mapError g).result = .ok a ↔ x.result = .ok a := by
  unfold mapError
  cases x.result with
  | ok b => exact Iff.rfl
  | error e => exact ⟨fun h => (nomatch h), fun h => (nomatch h)⟩

theorem id_map (x : Logged α) : id <$> x = x := by
  obtain ⟨es, r⟩ := x
  cases r <;> simp [Functor.map, andThen]

theorem pure_bind (a : α) (f : α → Logged β) : pure a >>= f = f a := by
  simp [bind_eq, andThen, pure_eq]

theorem bind_assoc {γ : Type} (x : Logged α) (f : α → Logged β) (g : β → Logged γ) :
    x >>= f >>= g = x >>= fun a => f a >>= g := by
  obtain ⟨es, r⟩ := x
  cases r with
  | error e => rfl
  | ok a =>
    simp only [bind_eq, andThen]
    cases (f a).result <;> simp

instance : LawfulMonad Logged := LawfulMonad.mk' Logged id_map pure_bind bind_assoc

end Logged

end Conform
