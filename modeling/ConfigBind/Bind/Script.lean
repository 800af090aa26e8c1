import ConfigBind.Bind.Request

/-!
# Scripts

What a strategy does is a `Script`: it notes events and asks for parts to be bound, one after the
other, and goes on with their outcomes until it comes to a result.  A script says nothing about how
a part is bound, so whatever holds of all the binds that a script asks for carries over to the
script by going through its steps.

An `Attempt` is a script that may stop with an error.
-/

namespace ConfigBind

/-- A computation that notes events and has parts bound. -/
inductive Script (α : Type)
  | done (a : α)
  | event (e : Event) (next : Script α)
  | call (r : Request) (next : Outcome Value → Script α)

namespace Script

variable {α β γ : Type}

def andThen : Script α → (α → Script β) → Script β
  | done a, f => f a
  | event e next, f => event e (next.andThen f)
  | call r next, f => call r fun outcome => (next outcome).andThen f

instance : Monad Script where
  pure := done
  bind := andThen

@[simp] theorem event_bind (e : Event) (next : Script α) (f : α → Script β) :
    event e next >>= f = event e (next >>= f) := rfl

@[simp] theorem call_bind (r : Request) (next : Outcome Value → Script α) (f : α → Script β) :
    call r next >>= f = call r fun outcome => next outcome >>= f := rfl

theorem bind_done (s : Script α) : s >>= done = s := by
  induction s with
  | done a => rfl
  | event e next ih => rw [event_bind, ih]
  | call r next ih =>
    rw [call_bind]
    congr 1
    funext outcome
    exact ih outcome

theorem bind_assoc (s : Script α) (f : α → Script β) (g : β → Script γ) :
    s >>= f >>= g = s >>= fun a => f a >>= g := by
  induction s with
  | done a => rfl
  | event e next ih => simp only [event_bind, ih]
  | call r next ih => simp only [call_bind, ih]

instance : LawfulMonad Script :=
  LawfulMonad.mk' Script bind_done (fun _ _ => rfl) bind_assoc

def note (e : Event) : Script Unit := event e (done ())

end Script

/-- Scripts that may stop with an error. -/
abbrev Attempt := ExceptT BindError Script

def Attempt.outcome (a : Attempt (Option Value)) : Script (Outcome Value) := do
  return .ofExcept (← a.run)

end ConfigBind
