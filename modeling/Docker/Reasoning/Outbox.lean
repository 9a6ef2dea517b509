import Mathlib.Data.List.Basic

/-!
# Outbox — output held back until it is released

A producer hands its output to an outbox.  The outbox keeps it (`put`) until it is released to the
sink (`release`); once switched to pass-through it sends new output at once, after whatever it still
held (`pass`).

Whatever the order of the operations, nothing is lost, reordered or sent twice: what was sent
followed by what is held is everything that was handed over (`contents_run`).
-/

namespace Reasoning

variable {α : Type*}

/-- What has gone out to the sink, and what is held back. -/
structure Outbox (α : Type*) where
  sent : List α
  held : List α
  deriving DecidableEq, Repr

inductive Outbox.Op (α : Type*)
  | put (xs : List α)
  | release
  | pass (xs : List α)
  deriving DecidableEq, Repr

namespace Outbox.Op

-- what an operation hands over
def payload : Op α → List α
  | .put xs => xs
  | .release => []
  | .pass xs => xs

end Outbox.Op

namespace Outbox

def step (o : Outbox α) : Op α → Outbox α
  | .put xs => ⟨o.sent, o.held ++ xs⟩
  | .release => ⟨o.sent ++ o.held, []⟩
  | .pass xs => ⟨o.sent ++ o.held ++ xs, []⟩

variable (o : Outbox α)

@[simp] theorem step_put (xs : List α) : o.step (.put xs) = ⟨o.sent, o.held ++ xs⟩ := rfl

@[simp] theorem step_release : o.step .release = ⟨o.sent ++ o.held, []⟩ := rfl

@[simp] theorem step_pass (xs : List α) : o.step (.pass xs) = ⟨o.sent ++ o.held ++ xs, []⟩ :=
  rfl

theorem contents_step (op : Op α) :
    (o.step op).sent ++ (o.step op).held = o.sent ++ o.held ++ op.payload := by
  cases op with
  | put xs => simp [Op.payload]
  | release => simp [Op.payload]
  | pass xs => simp [Op.payload]

theorem contents_run (ops : List (Op α)) :
    (ops.foldl step o).sent ++ (ops.foldl step o).held = o.sent ++ o.held ++ ops.flatMap Op.payload := by
  induction ops generalizing o with
  | nil => simp
  | cons op ops ih =>
    rw [List.foldl_cons, ih, contents_step, List.flatMap_cons, List.append_assoc]

end Outbox

end Reasoning
