import Mathlib.Data.List.Induction
import Mathlib.Logic.Function.Basic

/-!
Cells that outlive a restart. Values are written to a working copy, a commit saves
the copy, and a restart finds what was saved. When every write is committed at
once, a cell holds the last value put into it, however often it was restarted.
-/

namespace EmsGateway.Library

/-- Reliable cells with addresses `ι` and values `β`: how they are worked on, and
what is read of the copy and was saved at the addresses in range. -/
structure Cells (σ ι β : Type) where
  InRange : ι → Prop
  read : σ → ι → β
  saved : σ → ι → β
  write : ι → β → σ → σ
  commit : σ → σ
  restart : σ → σ
  read_write_self : ∀ a v m, InRange a → read (write a v m) a = v
  read_write_of_ne : ∀ a b v m, InRange b → b ≠ a → read (write a v m) b = read m b
  read_commit : ∀ a m, InRange a → read (commit m) a = read m a
  saved_commit : ∀ a m, InRange a → saved (commit m) a = read m a
  read_restart : ∀ a m, InRange a → read (restart m) a = saved m a
  saved_restart : ∀ a m, InRange a → saved (restart m) a = saved m a

namespace Cells

variable {σ ι β : Type}

/-- A value is written and committed, or the cells are restarted. -/
inductive Op (ι β : Type)
  | put (a : ι) (v : β)
  | restart

variable (c : Cells σ ι β)

def apply (m : σ) : Op ι β → σ
  | .put a v => c.commit (c.write a v m)
  | .restart => c.restart m

def run (m : σ) (ops : List (Op ι β)) : σ := ops.foldl c.apply m

theorem run_concat (m : σ) (ops : List (Op ι β)) (op : Op ι β) :
    c.run m (ops ++ [op]) = c.apply (c.run m ops) op := by
  simp [run]

section Holds

variable {c} {a : ι} {v : β} {m : σ}

/-- What a cell reads as, and what is saved of it. -/
def Holds (c : Cells σ ι β) (m : σ) (a : ι) (v : β) : Prop := c.read m a = v ∧ c.saved m a = v

theorem holds_put (ha : c.InRange a) (m : σ) (v : β) : c.Holds (c.apply m (.put a v)) a v := by
  constructor
  · exact (c.read_commit a _ ha).trans (c.read_write_self a v m ha)
  · exact (c.saved_commit a _ ha).trans (c.read_write_self a v m ha)

theorem Holds.put_of_ne (h : c.Holds m a v) (ha : c.InRange a) {b : ι} (hne : a ≠ b) (w : β) :
    c.Holds (c.apply m (.put b w)) a v := by
  have hread : c.read (c.write b w m) a = v := (c.read_write_of_ne b a w m ha hne).trans h.1
  constructor
  · exact (c.read_commit a _ ha).trans hread
  · exact (c.saved_commit a _ ha).trans hread

theorem Holds.restart (h : c.Holds m a v) (ha : c.InRange a) :
    c.Holds (c.apply m .restart) a v := by
  constructor
  · exact (c.read_restart a m ha).trans h.2
  · exact (c.saved_restart a m ha).trans h.2

end Holds

section LastPut

variable [DecidableEq ι]

/-- The last value put into a cell. -/
def lastPut (a : ι) (ops : List (Op ι β)) : Option β :=
  ops.foldl (fun
    | last, .put b v => if b = a then some v else last
    | last, .restart => last) none

theorem lastPut_concat (a : ι) (ops : List (Op ι β)) (op : Op ι β) :
    lastPut a (ops ++ [op]) =
      match op with
      | .put b v => if b = a then some v else lastPut a ops
      | .restart => lastPut a ops := by
  rw [lastPut, List.foldl_append]
  cases op with
  | put b v => rfl
  | restart => rfl

/-- After every run a cell holds the last value put into it. -/
theorem holds_run {a : ι} {v : β} {ops : List (Op ι β)} (ha : c.InRange a) (m : σ)
    (hlast : lastPut a ops = some v) : c.Holds (c.run m ops) a v := by
  induction ops using List.reverseRecOn with
  | nil => cases hlast
  | append_singleton ops op ih =>
      rw [lastPut_concat] at hlast
      rw [run_concat]
      cases op with
      | put b w =>
          by_cases hb : b = a
          · obtain rfl : w = v := by simpa [hb] using hlast
            rw [hb]
            exact holds_put ha _ _
          · have hbefore : lastPut a ops = some v := by simpa [hb] using hlast
            exact (ih hbefore).put_of_ne ha (Ne.symm hb) w
      | restart => exact (ih hlast).restart ha

end LastPut

/-- Cells of which the first `size` are in range. A write elsewhere is ignored, and
`zero` is read. -/
def buffered (size : ℕ) (zero : β) : Cells ((ℕ → β) × (ℕ → β)) ℕ β where
  InRange a := a < size
  read m a := if a < size then m.1 a else zero
  saved m a := if a < size then m.2 a else zero
  write a v m := if a < size then (Function.update m.1 a v, m.2) else m
  commit m := (m.1, m.1)
  restart m := (m.2, m.2)
  read_write_self a v m ha := by simp [ha]
  read_write_of_ne a b v m hb hne := by
    rw [if_pos hb, if_pos hb]
    split
    · exact Function.update_of_ne hne v m.1
    · rfl
  read_commit _ _ _ := rfl
  saved_commit _ _ _ := rfl
  read_restart _ _ _ := rfl
  saved_restart _ _ _ := rfl

end Cells

end EmsGateway.Library
