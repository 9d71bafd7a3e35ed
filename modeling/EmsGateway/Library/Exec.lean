import Mathlib.Tactic.Common

/-!
Statements with exceptions over a mutable state. A statement ends normally or
raises, and what it has done to the state by then stays done, so a handler
starts from the state in which the exception was raised.
-/

namespace EmsGateway.Library

/-- Statements over the state `σ` that may raise an `ε`. -/
abbrev Stmt (σ ε : Type) := ExceptT ε (StateM σ)

namespace Stmt

variable {σ τ ε α β : Type}

/-- Execute a statement from a state. -/
def exec (x : Stmt σ ε α) (s : σ) : Except ε α × σ := Id.run (StateT.run (ExceptT.run x) s)

/-- The state a statement leaves behind, raised or not. -/
def final (x : Stmt σ ε α) (s : σ) : σ := (x.exec s).2

@[simp] theorem exec_pure (a : α) (s : σ) : exec (pure a : Stmt σ ε α) s = (.ok a, s) := rfl

@[simp] theorem exec_throw (e : ε) (s : σ) :
    exec (throw e : Stmt σ ε α) s = (.error e, s) := rfl

@[simp] theorem exec_get (s : σ) : exec (get : Stmt σ ε σ) s = (.ok s, s) := rfl

@[simp] theorem exec_modify (f : σ → σ) (s : σ) :
    exec (modify f : Stmt σ ε PUnit) s = (.ok ⟨⟩, f s) := rfl

theorem exec_bind (x : Stmt σ ε α) (f : α → Stmt σ ε β) (s : σ) :
    exec (x >>= f) s =
      match exec x s with
      | (.ok a, t) => exec (f a) t
      | (.error e, t) => (.error e, t) := by
  simp only [exec, ExceptT.run_bind, StateT.run_bind]
  rcases h : StateT.run (ExceptT.run x) s with ⟨r, t⟩
  cases r <;> rfl

theorem exec_bind_ok {x : Stmt σ ε α} {f : α → Stmt σ ε β} {s t : σ} {a : α}
    (h : exec x s = (.ok a, t)) : exec (x >>= f) s = exec (f a) t := by
  rw [exec_bind, h]

theorem exec_bind_error {x : Stmt σ ε α} {f : α → Stmt σ ε β} {s t : σ} {e : ε}
    (h : exec x s = (.error e, t)) : exec (x >>= f) s = (.error e, t) := by
  rw [exec_bind, h]

theorem exec_tryCatch (x : Stmt σ ε α) (handle : ε → Stmt σ ε α) (s : σ) :
    exec (tryCatch x handle) s =
      match exec x s with
      | (.ok a, t) => (.ok a, t)
      | (.error e, t) => exec (handle e) t := by
  unfold exec ExceptT.run StateT.run Id.run
  simp only [tryCatch, tryCatchThe, MonadExceptOf.tryCatch, ExceptT.tryCatch, ExceptT.mk, bind,
    StateT.bind]
  cases x s with
  | mk r t => cases r <;> rfl

/-- `try: body except E: caught e else: orElse`. An exception that `caught`
does not match, and any exception of `orElse`, is raised on. -/
def tryExceptElse (body : Stmt σ ε α) (caught : ε → Option (Stmt σ ε β))
    (orElse : α → Stmt σ ε β) : Stmt σ ε β := do
  match ← observing body with
  | .ok a => orElse a
  | .error e => (caught e).getD (throw e)

theorem exec_observing (x : Stmt σ ε α) (s : σ) :
    exec (observing x) s = (.ok (exec x s).1, (exec x s).2) := by
  rw [observing, exec_tryCatch, exec_bind]
  rcases exec x s with ⟨r, t⟩
  cases r <;> rfl

theorem exec_tryExceptElse (body : Stmt σ ε α) (caught : ε → Option (Stmt σ ε β))
    (orElse : α → Stmt σ ε β) (s : σ) :
    exec (tryExceptElse body caught orElse) s =
      match exec body s with
      | (.ok a, t) => exec (orElse a) t
      | (.error e, t) => exec ((caught e).getD (throw e)) t := by
  rw [tryExceptElse, exec_bind, exec_observing]
  rcases exec body s with ⟨r, t⟩
  cases r <;> rfl

/-- Run a statement on a part of the state, the rest being out of its reach. -/
def within (part : τ → σ) (put : σ → τ → τ) (x : Stmt σ ε α) : Stmt τ ε α :=
  ExceptT.mk fun t => pure ((exec x (part t)).1, put (exec x (part t)).2 t)

@[simp] theorem exec_within (part : τ → σ) (put : σ → τ → τ) (x : Stmt σ ε α) (t : τ) :
    exec (within part put x) t = ((exec x (part t)).1, put (exec x (part t)).2 t) := rfl

end Stmt

end EmsGateway.Library
