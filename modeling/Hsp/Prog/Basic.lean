import Mathlib.Logic.Function.Basic

/-!
# Programs over atomic operations

A server handles a request by a sequence of atomic operations on state it shares with other
requests: it reads and writes entries of a store, looks at the clock, takes a lock for one
update.  `Prog S α` is the syntax of such a request over a signature `S` of operations: a tree
that says which operation comes next and how the program goes on from each possible result.

The same tree has several meanings.  `Prog.run` executes it alone, against an interpretation of
the operations as functions on a state; `Hsp.Prog.Fault` lets an operation fail;
`Hsp.Prog.Pool` interleaves many programs on one state, operation by operation.

## Main definitions

* `Prog S α` : programs, a monad; a fallible program is an `ExceptT ε (Prog S) α`.
* `Prog.run exec p w` : the result and the final state of `p` run alone from `w`; `runE` is the
  same for fallible programs.
-/

namespace Hsp

/-- A signature of atomic operations. -/
structure Sig where
  /-- The operations, with their arguments. -/
  Op : Type
  /-- What an operation returns. -/
  Res : Op → Type

/-- Programs that perform operations of `S` and return an `α`. -/
inductive Prog (S : Sig) (α : Type) where
  /-- The program has returned `a`. -/
  | ret (a : α)
  /-- The program performs `o` and goes on with `k`. -/
  | op (o : S.Op) (k : S.Res o → Prog S α)

namespace Prog

variable {S : Sig} {α β γ ε : Type}

/-- Run `p`, then `f` on its result. -/
def bind : Prog S α → (α → Prog S β) → Prog S β
  | .ret a, f => f a
  | .op o k, f => .op o fun r => (k r).bind f

instance : Monad (Prog S) where
  pure := .ret
  bind := bind

/-- The program that performs one operation. -/
def perform (o : S.Op) : Prog S (S.Res o) := .op o .ret

@[simp] theorem pure_eq (a : α) : (pure a : Prog S α) = .ret a := rfl
@[simp] theorem ret_bind (a : α) (f : α → Prog S β) : (.ret a >>= f : Prog S β) = f a := rfl
@[simp] theorem op_bind (o : S.Op) (k : S.Res o → Prog S α) (f : α → Prog S β) :
    (.op o k >>= f : Prog S β) = .op o fun r => k r >>= f := rfl

theorem bind_ret (p : Prog S α) : p >>= .ret = p := by
  induction p with
  | ret a => rfl
  | op o k ih => simp only [op_bind, ih]

theorem bind_assoc (p : Prog S α) (f : α → Prog S β) (g : β → Prog S γ) :
    p >>= f >>= g = p >>= fun a => f a >>= g := by
  induction p with
  | ret a => rfl
  | op o k ih => simp only [op_bind, ih]

instance : LawfulMonad (Prog S) :=
  LawfulMonad.mk' (Prog S) bind_ret (fun _ _ => rfl) bind_assoc

/-- Run `x` and hand its error, if any, to the caller as a value. -/
def attempt (x : ExceptT ε (Prog S) α) : ExceptT ε (Prog S) (Except ε α) := ExceptT.lift x.run

/-! ### Running a program alone -/

section Run

variable {W : Type} (exec : (o : S.Op) → W → S.Res o × W) {x : ExceptT ε (Prog S) α}
  {f : α → ExceptT ε (Prog S) β} {w w' : W}

/-- The result and the final state of a program that runs alone. -/
def run : Prog S α → W → α × W
  | .ret a, w => (a, w)
  | .op o k, w => (k (exec o w).1).run (exec o w).2

@[simp] theorem run_ret (a : α) (w : W) : (ret a : Prog S α).run exec w = (a, w) := rfl

@[simp] theorem run_op (o : S.Op) (k : S.Res o → Prog S α) (w : W) :
    (op o k).run exec w = (k (exec o w).1).run exec (exec o w).2 := rfl

theorem run_bind (p : Prog S α) (f : α → Prog S β) (w : W) :
    (p >>= f).run exec w = (f (p.run exec w).1).run exec (p.run exec w).2 := by
  induction p generalizing w with
  | ret a => rfl
  | op o k ih => simp only [op_bind, run_op, ih]

/-- The result and the final state of a fallible program that runs alone. -/
def runE (x : ExceptT ε (Prog S) α) (w : W) : Except ε α × W := Prog.run exec x.run w

@[simp] theorem runE_pure (a : α) (w : W) :
    runE exec (pure a : ExceptT ε (Prog S) α) w = (.ok a, w) := rfl

@[simp] theorem runE_throw (e : ε) (w : W) :
    runE exec (throw e : ExceptT ε (Prog S) α) w = (.error e, w) := rfl

theorem runE_bind (x : ExceptT ε (Prog S) α) (f : α → ExceptT ε (Prog S) β) (w : W) :
    runE exec (x >>= f) w = match runE exec x w with
      | (.ok a, w') => runE exec (f a) w'
      | (.error e, w') => (.error e, w') := by
  -- `ExceptT` unfolds to a `Prog` that returns an `Except`, so this is `run_bind` there.
  have h : (x >>= f).run = x.run >>= ExceptT.bindCont f := rfl
  simp only [runE, h, run_bind]
  rcases hx : Prog.run exec x.run w with ⟨_ | _, _⟩ <;> rfl

theorem runE_bind_ok {a : α} (h : runE exec x w = (.ok a, w')) :
    runE exec (x >>= f) w = runE exec (f a) w' := by
  rw [runE_bind, h]

theorem runE_bind_error {e : ε} (h : runE exec x w = (.error e, w')) :
    runE exec (x >>= f) w = (.error e, w') := by
  rw [runE_bind, h]

theorem runE_map (f : α → β) (x : ExceptT ε (Prog S) α) (w : W) :
    runE exec (f <$> x) w = ((runE exec x w).1.map f, (runE exec x w).2) := by
  have h : f <$> x = x >>= fun a => pure (f a) := rfl
  rw [h, runE_bind]
  rcases runE exec x w with ⟨_ | _, _⟩ <;> rfl

@[simp] theorem runE_lift (p : Prog S α) (w : W) :
    runE exec (ExceptT.lift p : ExceptT ε (Prog S) α) w =
      (.ok (p.run exec w).1, (p.run exec w).2) := by
  have h : (ExceptT.lift p : ExceptT ε (Prog S) α).run = p >>= fun a => .ret (.ok a) := rfl
  simp only [runE, h, run_bind, run_ret]

@[simp] theorem runE_attempt (x : ExceptT ε (Prog S) α) (w : W) :
    runE exec (attempt x) w = (.ok (runE exec x w).1, (runE exec x w).2) :=
  runE_lift exec x.run w

/-- What a successful run of `x >>= f` went through. -/
theorem runE_bind_eq_ok {b : β} (h : runE exec (x >>= f) w = (.ok b, w')) :
    ∃ a w₁, runE exec x w = (.ok a, w₁) ∧ runE exec (f a) w₁ = (.ok b, w') := by
  rw [runE_bind] at h
  rcases hx : runE exec x w with ⟨e | a, w₁⟩
  · rw [hx] at h; simp at h
  · rw [hx] at h; exact ⟨a, w₁, rfl, h⟩

theorem runE_map_eq_ok {f : α → β} {b : β} (h : (runE exec (f <$> x) w).1 = .ok b) :
    ∃ a w', runE exec x w = (.ok a, w') := by
  rw [runE_map] at h
  rcases hx : runE exec x w with ⟨e | a, w'⟩
  · rw [hx] at h
    cases h
  · exact ⟨a, w', rfl⟩

end Run

end Prog

export Prog (runE runE_bind_ok runE_bind_error runE_bind_eq_ok runE_map runE_map_eq_ok runE_lift
  runE_attempt)

/-! ### Pure checks -/

section Except

variable {ε α β : Type} {x : Except ε α}

@[simp] theorem except_pure (a : α) : (pure a : Except ε α) = .ok a := rfl
@[simp] theorem except_throw (e : ε) : (throw e : Except ε α) = .error e := rfl
@[simp] theorem except_ok_bind (a : α) (f : α → Except ε β) : (Except.ok a >>= f) = f a := rfl
@[simp] theorem except_error_bind (e : ε) (f : α → Except ε β) :
    (Except.error e >>= f) = .error e := rfl
/-- What a successful sequence of checks went through. -/
theorem except_bind_eq_ok {f : α → Except ε β} {b : β} :
    (x >>= f) = .ok b ↔ ∃ a, x = .ok a ∧ f a = .ok b := by
  cases x <;> simp

theorem except_guard_eq_ok {c : Prop} [Decidable c] {e : ε} {b : α} :
    (if c then .error e else x) = .ok b ↔ ¬ c ∧ x = .ok b := by
  split <;> simp_all

theorem except_ok_of_toOption {a : α} (h : x.toOption = some a) : x = .ok a := by
  cases x with
  | error e => cases h
  | ok b =>
    cases h
    rfl

@[simp] theorem except_map_ok (f : α → β) (a : α) :
    (f <$> (Except.ok a : Except ε α)) = .ok (f a) := rfl
@[simp] theorem except_map_error (f : α → β) (e : ε) :
    (f <$> (Except.error e : Except ε α)) = .error e := rfl

end Except

end Hsp
