import Mathlib.Init

/-!
# Programs over a signature of commands

A service of an application is, seen from outside, a tree of interactions: it
performs a command, receives the reply, and goes on. `Prog S α` is the type of
these trees over a signature `S`, with results in `α`. The control flow between
two commands is ordinary Lean code, so a service written in `do`-notation reads
as its source does, and the same term is given both its interleaved meaning
(`Interleave.Machine.step`) and its meaning when it runs alone
(`Interleave.Machine.solo`).

Nothing here fixes what a command does.
-/

namespace Interleave

/-- A signature: the commands a program may perform, and the type of the reply
to each. -/
structure Sig where
  /-- The commands. -/
  Cmd : Type
  /-- The reply a command receives. -/
  Reply : Cmd → Type

/-- A program over the commands of `S`: either it is over, with a result, or it
performs a command and continues with the reply. -/
inductive Prog (S : Sig) (α : Type) : Type where
  | done (a : α)
  | call (c : S.Cmd) (k : S.Reply c → Prog S α)

namespace Prog

variable {S : Sig} {α β : Type}

/-- Sequencing: graft `f` onto the leaves. -/
def bind : Prog S α → (α → Prog S β) → Prog S β
  | .done a, f => f a
  | .call c k, f => .call c fun r => (k r).bind f

instance : Monad (Prog S) where
  pure := .done
  bind := bind

/-- Perform one command and return its reply. -/
def perform (c : S.Cmd) : Prog S (S.Reply c) := .call c .done

/-- Whatever the replies, the program ends in a value that satisfies `Q`. -/
def Ends (Q : α → Prop) : Prog S α → Prop
  | .done a => Q a
  | .call _ k => ∀ r, (k r).Ends Q

@[simp] theorem pure_eq (a : α) : (pure a : Prog S α) = .done a := rfl

@[simp] theorem done_bind (a : α) (f : α → Prog S β) : (Prog.done a >>= f) = f a := rfl

@[simp] theorem call_bind (c : S.Cmd) (k : S.Reply c → Prog S α) (f : α → Prog S β) :
    (Prog.call c k >>= f) = .call c fun r => k r >>= f := rfl

@[simp] theorem perform_bind (c : S.Cmd) (f : S.Reply c → Prog S β) :
    (perform c >>= f) = .call c f := rfl

instance : LawfulMonad (Prog S) := LawfulMonad.mk' (Prog S)
  (fun p => by
    induction p with
    | done a => rfl
    | call c k ih => exact congrArg (Prog.call c) (funext ih))
  (fun _ _ => rfl)
  (fun p f g => by
    induction p with
    | done a => rfl
    | call c k ih => exact congrArg (Prog.call c) (funext ih))

end Prog

end Interleave
