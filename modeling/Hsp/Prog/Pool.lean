import Hsp.Prog.Protocol

/-!
# Interleavings

Many programs run on one state, and a schedule says whose turn it is: the program whose turn it is
performs its next operation.  Every interleaving, operation by operation, is the run of a pool with
some schedule.

* `Pool.run_invariant_turns` : the invariant rule.  Programs that follow a protocol keep an
  invariant of all their stages, the turns taken so far and the state, if every turn that meets the
  guard keeps it.  `Pool.run_invariant_ops` is the rule for invariants that look at the operations,
  and `Pool.run_invariant` the one without a guard.
-/

namespace Hsp

open List

variable {S : Sig} {α : Type} {a : α}

/-- The operation a program performs next. -/
def Prog.next? : Prog S α → Option S.Op
  | .ret _ => none
  | .op o _ => some o

/-- What a program has returned. -/
def Prog.result? : Prog S α → Option α
  | .ret a => some a
  | .op _ _ => none

theorem Prog.result?_eq_some {p : Prog S α} : p.result? = some a ↔ p = .ret a := by
  cases p <;> simp [Prog.result?]

/-- Programs that share a state. -/
structure Pool (ι : Type) (S : Sig) (α W : Type) where
  threads : ι → Prog S α
  state : W

namespace Pool

variable {ι W : Type} [DecidableEq ι] (exec : (o : S.Op) → W → S.Res o × W) {c : Pool ι S α W}
  {i : ι} {schedule : List ι} {G : Pool ι S α W → ι → Prop}

/-- The turn of program `i`. -/
def step (c : Pool ι S α W) (i : ι) : Pool ι S α W :=
  match c.threads i with
  | .ret _ => c
  | .op o k => ⟨Function.update c.threads i (k (exec o c.state).1), (exec o c.state).2⟩

/-- The pool after the turns of a schedule. -/
def run (c : Pool ι S α W) (schedule : List ι) : Pool ι S α W := schedule.foldl (step exec) c

/-- The operations performed in the turns of a schedule. -/
def ops : Pool ι S α W → List ι → List S.Op
  | _, [] => []
  | c, i :: schedule => (c.threads i).next?.toList ++ ops (c.step exec i) schedule

theorem length_ops_le (c : Pool ι S α W) (schedule : List ι) :
    (c.ops exec schedule).length ≤ schedule.length := by
  induction schedule generalizing c with
  | nil => exact Nat.le_refl 0
  | cons i schedule ih =>
    rw [ops, length_append, length_cons, Nat.add_comm]
    exact Nat.add_le_add (ih _) (by cases (c.threads i).next? <;> simp)

/-- The turn of a program: who performs which operation. -/
def turn (c : Pool ι S α W) (i : ι) : List (ι × S.Op) := (c.threads i).next?.toList.map (i, ·)

/-- The turns of a schedule in which an operation is performed. -/
def turns : Pool ι S α W → List ι → List (ι × S.Op)
  | _, [] => []
  | c, i :: schedule => c.turn i ++ turns (c.step exec i) schedule

/-- Every turn of the schedule meets the guard, which looks at the turns before it as well. -/
def AlwaysSince (G : List (ι × S.Op) → Pool ι S α W → ι → Prop) :
    List (ι × S.Op) → Pool ι S α W → List ι → Prop
  | _, _, [] => True
  | ts, c, i :: schedule => G ts c i ∧ AlwaysSince G (ts ++ c.turn i) (c.step exec i) schedule

instance decidableAlwaysSince (G : List (ι × S.Op) → Pool ι S α W → ι → Prop)
    [∀ ts c i, Decidable (G ts c i)] : (ts : List (ι × S.Op)) → (c : Pool ι S α W) →
    (schedule : List ι) → Decidable (AlwaysSince exec G ts c schedule)
  | _, _, [] => .isTrue trivial
  | ts, c, i :: schedule =>
    have := decidableAlwaysSince G (ts ++ c.turn i) (c.step exec i) schedule
    inferInstanceAs (Decidable (G ts c i ∧
      AlwaysSince exec G (ts ++ c.turn i) (c.step exec i) schedule))

/-- Every turn of the schedule meets the guard. -/
def Always (G : Pool ι S α W → ι → Prop) : Pool ι S α W → List ι → Prop
  | _, [] => True
  | c, i :: schedule => G c i ∧ Always G (c.step exec i) schedule

instance decidableAlways (G : Pool ι S α W → ι → Prop) [∀ c i, Decidable (G c i)] :
    (c : Pool ι S α W) → (schedule : List ι) → Decidable (Always exec G c schedule)
  | _, [] => .isTrue trivial
  | c, i :: schedule =>
    have := decidableAlways G (c.step exec i) schedule
    inferInstanceAs (Decidable (G c i ∧ Always exec G (c.step exec i) schedule))

variable {exec} {P : Protocol S} {Q : ι → α → P.Stage → Prop}

/-- Every program follows the protocol from its stage. -/
def Follows (P : Protocol S) (Q : ι → α → P.Stage → Prop) (c : Pool ι S α W)
    (st : ι → P.Stage) : Prop :=
  ∀ i, P.Follows (c.threads i) (st i) (Q i)

/-- A program that has returned lets its turn pass. -/
theorem step_of_ret (h : c.threads i = .ret a) : c.step exec i = c := by
  simp [Pool.step, h]

/-- One turn: the program whose turn it is takes a transition, and the others stay where they
are. -/
theorem Follows.step {st : ι → P.Stage} {o : S.Op} {k : S.Res o → Prog S α} (h : c.Follows P Q st)
    (hi : c.threads i = .op o k) (hlegal : P.Legal o (exec o c.state).1) :
    ∃ s', P.Step (st i) o (exec o c.state).1 s' ∧
      (c.step exec i).Follows P Q (Function.update st i s') ∧
      (c.step exec i).state = (exec o c.state).2 := by
  have hmove : c.step exec i =
      ⟨Function.update c.threads i (k (exec o c.state).1), (exec o c.state).2⟩ := by
    simp [Pool.step, hi]
  have hfi := h i
  rw [hi] at hfi
  obtain ⟨s', hs, hk⟩ := hfi _ hlegal
  rw [hmove]
  refine ⟨s', hs, fun j => ?_, rfl⟩
  by_cases hj : j = i
  · subst hj; simpa using hk
  · simpa [hj] using h j

omit [DecidableEq ι] in
theorem turn_of_ret (h : c.threads i = .ret a) : c.turn i = [] := by
  simp [turn, h, Prog.next?]

omit [DecidableEq ι] in
theorem turn_of_op {o : S.Op} {k : S.Res o → Prog S α} (h : c.threads i = .op o k) :
    c.turn i = [(i, o)] := by
  simp [turn, h, Prog.next?]

/-- **The invariant rule for interleavings and the turns taken in them.** -/
theorem run_invariant_turns {G : List (ι × S.Op) → Pool ι S α W → ι → Prop}
    {I : (ι → P.Stage) → List (ι × S.Op) → W → Prop}
    (hlegal : ∀ ts (c : Pool ι S α W) i o k, c.threads i = .op o k → G ts c i →
      P.Legal o (exec o c.state).1)
    (hstep : ∀ (c : Pool ι S α W) st ts i o k s', c.Follows P Q st → I st ts c.state → G ts c i →
      c.threads i = .op o k → P.Step (st i) o (exec o c.state).1 s' →
      I (Function.update st i s') (ts ++ [(i, o)]) (exec o c.state).2) {st : ι → P.Stage}
    (h : c.Follows P Q st) (ts : List (ι × S.Op)) (hI : I st ts c.state)
    (hG : AlwaysSince exec G ts c schedule) :
    ∃ st', (c.run exec schedule).Follows P Q st' ∧
      I st' (ts ++ c.turns exec schedule) (c.run exec schedule).state := by
  induction schedule generalizing c st ts with
  | nil => exact ⟨st, h, by rwa [turns, append_nil]⟩
  | cons i schedule ih =>
    obtain ⟨hGi, hG⟩ := hG
    rw [turns, ← append_assoc]
    cases hi : c.threads i with
    | ret a =>
      have hstay : c.step exec i = c := step_of_ret hi
      have hrun : c.run exec (i :: schedule) = c.run exec schedule := congrArg (run exec · _) hstay
      rw [turn_of_ret hi, hstay, append_nil] at hG
      rw [turn_of_ret hi, hstay, hrun, append_nil]
      exact ih h ts hI hG
    | op o k =>
      obtain ⟨s', hs, h', hstate⟩ := h.step hi (hlegal ts c i o k hi hGi)
      rw [turn_of_op hi] at hG ⊢
      exact ih h' (ts ++ [(i, o)]) (hstate ▸ hstep c st ts i o k s' h hI hGi hi hs) hG

/-- **The invariant rule for interleavings and the operations they perform.** -/
theorem run_invariant_ops {I : (ι → P.Stage) → List S.Op → W → Prop}
    (hlegal : ∀ (c : Pool ι S α W) st os i o k, I st os c.state → c.threads i = .op o k → G c i →
      P.Legal o (exec o c.state).1)
    (hstep : ∀ (c : Pool ι S α W) st os i o k s', c.Follows P Q st → I st os c.state → G c i →
      c.threads i = .op o k → P.Step (st i) o (exec o c.state).1 s' →
      I (Function.update st i s') (os ++ [o]) (exec o c.state).2) {st : ι → P.Stage}
    (h : c.Follows P Q st) (os : List S.Op) (hI : I st os c.state) (hG : Always exec G c schedule) :
    ∃ st', (c.run exec schedule).Follows P Q st' ∧
      I st' (os ++ c.ops exec schedule) (c.run exec schedule).state := by
  induction schedule generalizing c st os with
  | nil => exact ⟨st, h, by rwa [ops, append_nil]⟩
  | cons i schedule ih =>
    obtain ⟨hGi, hG⟩ := hG
    rw [ops, ← append_assoc]
    show ∃ st', ((c.step exec i).run exec schedule).Follows P Q st' ∧
      I st' _ ((c.step exec i).run exec schedule).state
    cases hi : c.threads i with
    | ret a =>
      rw [step_of_ret hi] at hG ⊢
      rw [Prog.next?, Option.toList_none, append_nil]
      exact ih h os hI hG
    | op o k =>
      obtain ⟨s', hs, h', hstate⟩ := h.step hi (hlegal c st os i o k hI hi hGi)
      exact ih h' (os ++ [o]) (hstate ▸ hstep c st os i o k s' h hI hGi hi hs) hG

/-- **The invariant rule for all interleavings.** -/
theorem run_invariant {I : (ι → P.Stage) → W → Prop}
    (hlegal : ∀ st w o, I st w → P.Legal o (exec o w).1)
    (hstep : ∀ st w i o s' p, I st w → P.Step (st i) o (exec o w).1 s' → P.Follows p s' (Q i) →
      I (Function.update st i s') (exec o w).2) {st : ι → P.Stage}
    (h : c.Follows P Q st) (hI : I st c.state) (schedule : List ι) :
    ∃ st', (c.run exec schedule).Follows P Q st' ∧ I st' (c.run exec schedule).state := by
  induction schedule generalizing c st with
  | nil => exact ⟨st, h, hI⟩
  | cons i schedule ih =>
    show ∃ st', ((c.step exec i).run exec schedule).Follows P Q st' ∧
      I st' ((c.step exec i).run exec schedule).state
    cases hi : c.threads i with
    | ret a =>
      rw [step_of_ret hi]
      exact ih h hI
    | op o k =>
      obtain ⟨s', hs, h', hstate⟩ := h.step hi (hlegal _ _ o hI)
      have hrest := h' i
      rw [Function.update_self] at hrest
      exact ih h' (hstate ▸ hstep _ _ i o s' _ hI hs hrest)

end Pool

end Hsp
