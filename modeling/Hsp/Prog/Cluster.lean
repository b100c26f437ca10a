import Hsp.Prog.Pool

/-!
# Interleavings on several machines

The programs of a pool need not run on one machine.  Each machine interprets the operations in its
own way, for instance because it has memory of its own beside the state it shares with the others,
so the interpretation depends on the program.  Between two turns the state may also be disturbed
from outside: a machine is restarted, or somebody else writes to the shared state.

* `Pool.runWith_invariant` : the invariant rule.  An invariant of all stages and the state is kept
  if every turn keeps it and every disturbance does.
-/

namespace Hsp

variable {S : Sig} {α : Type}

/-- What happens next: a program has its turn, or the state is disturbed. -/
inductive Happening (ι δ : Type) where
  | turn (i : ι)
  | disturbance (d : δ)

namespace Pool

variable {ι δ W : Type} [DecidableEq ι] (exec : ι → (o : S.Op) → W → S.Res o × W)
  (disturb : δ → W → W)

/-- The pool after something has happened. -/
def happen (c : Pool ι S α W) : Happening ι δ → Pool ι S α W
  | .turn i => c.step (exec i) i
  | .disturbance d => { c with state := disturb d c.state }

/-- The pool after a list of happenings. -/
def runWith (c : Pool ι S α W) (hs : List (Happening ι δ)) : Pool ι S α W :=
  hs.foldl (happen exec disturb) c

variable {exec disturb} {P : Protocol S} {Q : ι → α → P.Stage → Prop}

/-- **The invariant rule for interleavings on several machines.** -/
theorem runWith_invariant {I : (ι → P.Stage) → W → Prop}
    (hlegal : ∀ i o w, P.Legal o (exec i o w).1)
    (hstep : ∀ st w i o s', I st w → P.Step (st i) o (exec i o w).1 s' →
      I (Function.update st i s') (exec i o w).2)
    (hdisturb : ∀ st w d, I st w → I st (disturb d w))
    {c : Pool ι S α W} {st : ι → P.Stage} (h : c.Follows P Q st) (hI : I st c.state)
    (hs : List (Happening ι δ)) :
    ∃ st', (c.runWith exec disturb hs).Follows P Q st' ∧
      I st' (c.runWith exec disturb hs).state := by
  induction hs generalizing c st with
  | nil => exact ⟨st, h, hI⟩
  | cons x hs ih =>
    cases x with
    | turn i =>
      cases hi : c.threads i with
      | ret a =>
        have hstay : c.happen exec disturb (.turn i) = c := step_of_ret hi
        rw [runWith, List.foldl_cons, hstay]
        exact ih h hI
      | op o k =>
        obtain ⟨s', hst, h', hstate⟩ := h.step hi (hlegal i o c.state)
        exact ih h' (hstate ▸ hstep st c.state i o s' hI hst)
    | disturbance d => exact ih (c := { c with state := disturb d c.state }) h (hdisturb st _ d hI)

end Pool

end Hsp
