import Hsp.Prog.Protocol
import Mathlib.Data.Nat.Notation

/-!
# One operation fails

An interpretation in which one operation of a program fails: it has no effect, and the program sees
an error.  The state carries the fault that is still to come, a number of fallible operations that
go well before the one that fails.  A program that runs with a fault runs alone otherwise, so the
invariant rule `Protocol.FollowsE.run` applies to it.

* `Prog.execFault_cases` : an operation does what it does without faults, or it is the one that
  fails.
-/

namespace Hsp

namespace Prog

variable {S : Sig} {W ε : Type} (exec : (o : S.Op) → W → S.Res o × W)
  (fail : (o : S.Op) → Option (ε → S.Res o))

/-- A fault to come: how many fallible operations go well before it, and its error. -/
abbrev Fault (ε : Type) := Option (ℕ × ε)

/-- The operation fails now. -/
def Struck (o : S.Op) (f : Fault ε) : Prop := ∃ e, f = some (0, e) ∧ (fail o).isSome

instance (o : S.Op) (f : Fault ε) : Decidable (Struck fail o f) :=
  match f with
  | some (0, e) => decidable_of_iff (fail o).isSome (by simp [Struck])
  | some (n + 1, e) => .isFalse (by simp [Struck])
  | none => .isFalse (by simp [Struck])

/-- The operations with a fault to come; `fail o` is what a program sees when `o` fails, if it can
fail. -/
def execFault (o : S.Op) : W × Fault ε → S.Res o × (W × Fault ε)
  | (w, none) => ((exec o w).1, (exec o w).2, none)
  | (w, some (n, e)) =>
    match fail o, n with
    -- Only fallible operations count towards the one that fails.
    | none, n => ((exec o w).1, (exec o w).2, some (n, e))
    | some _, n + 1 => ((exec o w).1, (exec o w).2, some (n, e))
    | some r, 0 => (r e, w, none)

/-- **An operation goes well or fails.** -/
theorem execFault_cases (o : S.Op) (w : W) (f : Fault ε) :
    (¬ Struck fail o f ∧ ∃ f', execFault exec fail o (w, f) = ((exec o w).1, (exec o w).2, f')) ∨
      Struck fail o f ∧ ∃ r e, fail o = some r ∧ execFault exec fail o (w, f) = (r e, w, none) := by
  rcases f with _ | ⟨n, e⟩
  · exact .inl ⟨by simp [Struck], none, rfl⟩
  · cases hf : fail o with
    | none => exact .inl ⟨by simp [Struck, hf], some (n, e), by simp [execFault, hf]⟩
    | some r =>
      cases n with
      | zero => exact .inr ⟨⟨e, rfl, by simp [hf]⟩, r, e, rfl, by simp [execFault, hf]⟩
      | succ n => exact .inl ⟨by simp [Struck], some (n, e), by simp [execFault, hf]⟩

end Prog

end Hsp
