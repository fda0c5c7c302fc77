import ScriptHost.Arguments

/-!
# Interactions

An evaluation as a tree of what it does to the outside: it logs values, calls functions and goes on
with what they return, and at last ends with a result or a fault.  An engine builds such a tree from
its input alone; what the outside answers is decided by whoever follows it.

* `bind` lets one interaction follow another.
* The three laws of a monad hold as equalities.
-/

namespace ScriptHost

/-- An evaluation that ends with a result of type `α`. -/
inductive Interaction (α : Type) where
  | done (result : α)
  | fail (fault : Fault)
  /-- Hands a value to the log. -/
  | log (value : Value) (next : Interaction α)
  /-- Calls a function under the given name; it goes on without a value if there is no such
  function. -/
  | call (function callName : String) (arguments : Arguments)
      (next : Option Value → Interaction α)

namespace Interaction

variable {α β γ : Type}

/-- Goes on with the result of an interaction. -/
def bind : Interaction α → (α → Interaction β) → Interaction β
  | done result, f => f result
  | fail fault, _ => fail fault
  | log value next, f => log value (bind next f)
  | call function callName arguments next, f =>
      call function callName arguments fun answer => bind (next answer) f

instance : Monad Interaction where
  pure := done
  bind := bind

/-- Logs values one after the other. -/
def logAll : List Value → Interaction Unit
  | [] => done ()
  | value :: rest => log value (logAll rest)

@[simp] theorem pure_eq (result : α) :
    (pure result : Interaction α) = done result := rfl

@[simp] theorem done_bind (result : α) (f : α → Interaction β) :
    (done result >>= f) = f result := rfl

@[simp] theorem fail_bind (fault : Fault) (f : α → Interaction β) :
    ((fail fault : Interaction α) >>= f) = fail fault := rfl

@[simp] theorem log_bind
    (value : Value)
    (next : Interaction α)
    (f : α → Interaction β) :
    (log value next >>= f) = log value (next >>= f) := rfl

@[simp] theorem call_bind
    (function callName : String)
    (arguments : Arguments)
    (next : Option Value → Interaction α)
    (f : α → Interaction β) :
    (call function callName arguments next >>= f) =
      call function callName arguments fun answer => next answer >>= f := rfl

theorem bind_done (x : Interaction α) :
    (x >>= done) = x := by
  induction x with
  | done result => rfl
  | fail fault => rfl
  | log value next ih => simp [ih]
  | call function callName arguments next ih => simp [ih]

theorem bind_assoc
    (x : Interaction α)
    (f : α → Interaction β)
    (g : β → Interaction γ) :
    (x >>= f >>= g) = (x >>= fun a => f a >>= g) := by
  induction x with
  | done result => rfl
  | fail fault => rfl
  | log value next ih => simp [ih]
  | call function callName arguments next ih => simp [ih]

instance : LawfulMonad Interaction :=
  LawfulMonad.mk' Interaction bind_done (fun _ _ => rfl) bind_assoc

end Interaction

end ScriptHost
