import Hsp.Prog.Pool

/-!
# Pre- and postconditions

`Triple exec R P x Q E` says of a fallible program `x`: started in a state with `P`, it ends in `Q`
if it succeeds and in `E` if it fails, provided that what happens to the state before each of its
operations is allowed by the relation `R`.  With `Alone G` for `R` the program runs alone, and
every operation is assumed to meet the guard `G`.

## Main results

* `Triple.pure`, `Triple.throw`, `Triple.bind`, `Triple.attempt`, `Triple.conseq` : the rules;
* `Prog.Only.keeps` : a program whose operations all keep an invariant keeps it;
* `Triple.run` : what a triple says about a run without interference;
* `Yields` : what a result says, whatever happens in between;
* `Pool.only_run` : what every operation of a pool keeps;
* `Pool.safe_turns` : what a program of a pool guarantees if its own turns meet a guard.
-/

namespace Hsp

namespace Prog

variable {S : Sig} {W α β ε : Type}

/-- Nothing happens between the operations of a program, and its operations meet a guard. -/
def Alone (G : S.Op → W → Prop) : S.Op → W → W → Prop := fun o w w' => w = w' ∧ G o w

section Safe

variable (exec : (o : S.Op) → W → S.Res o × W) (R : S.Op → W → W → Prop) {Q : α → W → Prop}
  {p : Prog S α} {w : W} {G : S.Op → W → Prop} {A : S.Op → Prop}

/-- Whatever `R` allows to happen before each of its operations, the program ends in `Q`. -/
def Safe (Q : α → W → Prop) : Prog S α → W → Prop
  | .ret a, w => Q a w
  | .op o k, w => ∀ w', R o w w' → (k (exec o w').1).Safe Q (exec o w').2

/-- Every operation the program can perform is allowed by `A`, whatever its operations return. -/
def Only (A : S.Op → Prop) : Prog S α → Prop
  | .ret _ => True
  | .op o k => A o ∧ ∀ r, (k r).Only A

variable {exec R}

theorem Safe.mono {Q' : α → W → Prop} (hQ : ∀ a w, Q a w → Q' a w) (h : p.Safe exec R Q w) :
    p.Safe exec R Q' w := by
  induction p generalizing w with
  | ret a => exact hQ a w h
  | op o k ih => exact fun w' hw => ih _ (h w' hw)

theorem Safe.bind {Q : β → W → Prop} {f : α → Prog S β}
    (h : p.Safe exec R (fun a w' => (f a).Safe exec R Q w') w) : (p >>= f).Safe exec R Q w := by
  induction p generalizing w with
  | ret a => exact h
  | op o k ih => exact fun w' hw => ih _ (h w' hw)

theorem Safe.run (h : p.Safe exec (Alone G) Q w) (hG : p.Always exec G w) :
    Q (p.run exec w).1 (p.run exec w).2 := by
  induction p generalizing w with
  | ret a => exact h
  | op o k ih => exact ih _ (h w ⟨rfl, hG.1⟩) hG.2

theorem Safe.of_run (h : Q (p.run exec w).1 (p.run exec w).2) : p.Safe exec (Alone G) Q w := by
  induction p generalizing w with
  | ret a => exact h
  | op o k ih =>
    rintro _ ⟨rfl, -⟩
    exact ih _ h

theorem Only.mono {A' : S.Op → Prop} (hA : ∀ o, A o → A' o) (h : p.Only A) : p.Only A' := by
  induction p with
  | ret a => trivial
  | op o k ih => exact ⟨hA o h.1, fun r => ih r (h.2 r)⟩

theorem Only.bind {f : α → Prog S β} (hp : p.Only A) (hf : ∀ a, (f a).Only A) :
    (p >>= f).Only A := by
  induction p with
  | ret a => exact hf a
  | op o k ih => exact ⟨hp.1, fun r => ih r (hp.2 r)⟩

theorem Only.and {B : S.Op → Prop} (hA : p.Only A) (hB : p.Only B) : p.Only fun o => A o ∧ B o := by
  induction p with
  | ret a => trivial
  | op o k ih => exact ⟨⟨hA.1, hB.1⟩, fun r => ih r (hA.2 r) (hB.2 r)⟩

theorem Only.of_forall (h : ∀ o, A o) (p : Prog S α) : p.Only A := by
  induction p with
  | ret a => trivial
  | op o k ih => exact ⟨h o, ih⟩

/-- A program with restricted operations follows the protocol of these operations. -/
theorem Only.follows (h : p.Only A) :
    (Protocol.mk Unit (fun _ _ => True) fun _ o _ _ => A o).Follows p () fun _ _ => True := by
  induction p with
  | ret a => trivial
  | op o k ih => exact fun r _ => ⟨(), h.1, ih r (h.2 r)⟩

/-- An invariant that interference respects and every allowed operation keeps holds at the end. -/
theorem Only.safe {I : W → Prop} (hR : ∀ o w w', R o w w' → I w → I w')
    (hA : ∀ o w, A o → I w → I (exec o w).2) (h : p.Only A) (hw : I w) :
    p.Safe exec R (fun _ => I) w := by
  induction p generalizing w with
  | ret a => exact hw
  | op o k ih => exact fun w' hww => ih _ (h.2 _) (hA o w' h.1 (hR o w w' hww hw))

end Safe

end Prog

open Prog (Alone)

/-! ### Triples -/

section Triple

variable {S : Sig} {W α β ε : Type} (exec : (o : S.Op) → W → S.Res o × W) (R : S.Op → W → W → Prop)
  {a : α} {f : α → ExceptT ε (Prog S) β} {c : Prop} {w : W} {I : W → Prop}
  {y : ExceptT ε (Prog S) α}

/-- The postcondition of a fallible program, from one for results and one for errors. -/
def postE (Q : α → W → Prop) (E : ε → W → Prop) : Except ε α → W → Prop
  | .ok a, w => Q a w
  | .error e, w => E e w

/-- From a state with `P` the program ends in `Q`, or in `E` if it fails. -/
def Triple (P : W → Prop) (x : ExceptT ε (Prog S) α) (Q : α → W → Prop) (E : ε → W → Prop) :
    Prop :=
  ∀ w, P w → Prog.Safe exec R (postE Q E) x.run w

/-- The program keeps an invariant, whether it succeeds or fails. -/
def Keeps (I : W → Prop) (x : ExceptT ε (Prog S) α) : Prop :=
  Triple exec R I x (fun _ => I) fun _ => I

variable {exec R} {P P' : W → Prop} {Q Q' : α → W → Prop} {E E' : ε → W → Prop}
  {G : S.Op → W → Prop} {x : ExceptT ε (Prog S) α}

namespace Triple

theorem pure (h : ∀ w, P w → Q a w) : Triple exec R P (pure a : ExceptT ε (Prog S) α) Q E := h

theorem throw {e : ε} (h : ∀ w, P w → E e w) :
    Triple exec R P (throw e : ExceptT ε (Prog S) α) Q E := h

theorem bind {T : β → W → Prop} (hx : Triple exec R P x Q E)
    (hf : ∀ a, Triple exec R (Q a) (f a) T E) : Triple exec R P (x >>= f) T E := fun w hw =>
  Prog.Safe.bind ((hx w hw).mono fun r w' hr => by
    cases r with
    | ok a => exact hf a w' hr
    | error e => exact hr)

theorem conseq (h : Triple exec R P x Q E) (hP : ∀ w, P' w → P w) (hQ : ∀ a w, Q a w → Q' a w)
    (hE : ∀ e w, E e w → E' e w) : Triple exec R P' x Q' E' := fun w hw =>
  (h w (hP w hw)).mono fun r w' hr => by
    cases r with
    | ok a => exact hQ a w' hr
    | error e => exact hE e w' hr

theorem map {f : α → β} {T : β → W → Prop} (h : Triple exec R P x (fun a => T (f a)) E) :
    Triple exec R P (f <$> x) T E :=
  bind h fun _ _ hw => hw

/-- An error that is handed to the caller does not end the program. -/
theorem attempt {Q : Except ε α → W → Prop}
    (h : Triple exec R P x (fun a => Q (.ok a)) fun e => Q (.error e)) :
    Triple exec R P (Prog.attempt x) Q E := fun w hw =>
  Prog.Safe.bind ((h w hw).mono fun r w' hr => by
    cases r with
    | ok a => exact hr
    | error e => exact hr)

/-- After what cannot happen, anything may follow. -/
theorem of_false : Triple exec R (fun _ => False) x Q E := fun _ h => h.elim

/-- A fact about the precondition that does not depend on the state. -/
theorem of_fact (h : c → Triple exec R P x Q E) :
    Triple exec R (fun w => c ∧ P w) x Q E := fun w hw => h hw.1 w hw.2

theorem run (h : Triple exec (Alone G) P x Q E) (hw : P w) (hG : Prog.Always exec G x.run w) :
    postE Q E (runE exec x w).1 (runE exec x w).2 :=
  (h w hw).run hG

theorem run_ok (h : Triple exec (Alone fun _ _ => True) P x Q E) {w' : W} (hw : P w)
    (hrun : runE exec x w = (.ok a, w')) : Q a w' := by
  have hpost := h.run hw (always_true _ _ _)
  rwa [hrun] at hpost

theorem of_run (h : ∀ w, P w → postE Q E (runE exec x w).1 (runE exec x w).2) :
    Triple exec (Alone G) P x Q E := fun w hw => Prog.Safe.of_run (h w hw)

/-- A program that keeps an invariant, and what its result says. -/
theorem of_ok {F : α → Prop}
    (hI : Triple exec (Alone fun _ _ => True) I x (fun _ => I) fun _ => I)
    (hF : ∀ w a w', I w → runE exec x w = (.ok a, w') → F a) :
    Triple exec (Alone G) I x (fun a w => F a ∧ I w) fun _ => I := by
  refine of_run fun w hw => ?_
  have hI' := hI.run hw (always_true _ _ _)
  rcases hrun : runE exec x w with ⟨e | a, w'⟩
  · rw [hrun] at hI'
    exact hI'
  · rw [hrun] at hI'
    exact ⟨hF w a w' hw hrun, hI'⟩

/-- What a program does when it succeeds. -/
theorem of_success (h : ∀ w a w', P w → runE exec x w = (.ok a, w') → Q a w') :
    Triple exec (Alone G) P x Q fun _ _ => True := by
  refine of_run fun w hw => ?_
  rcases hrun : runE exec x w with ⟨e | a, w'⟩
  · trivial
  · exact h w a w' hw hrun

end Triple

section Keeps

variable {I : W → Prop}

theorem Keeps.pure (a : α) : Keeps exec R I (pure a : ExceptT ε (Prog S) α) :=
  Triple.pure fun _ h => h

theorem Keeps.bind (hx : Keeps exec R I x) (hf : ∀ a, Keeps exec R I (f a)) :
    Keeps exec R I (x >>= f) := Triple.bind hx hf

theorem Keeps.attempt (hx : Keeps exec R I x) : Keeps exec R I (Prog.attempt x) :=
  Triple.attempt hx

theorem Keeps.ite [Decidable c] (hx : Keeps exec R I x) (hy : Keeps exec R I y) :
    Keeps exec R I (if c then x else y) := by
  split
  · exact hx
  · exact hy

end Keeps

theorem Keeps.run (h : Keeps exec (Alone G) I x) (hw : I w) (hG : Prog.Always exec G x.run w) :
    I (runE exec x w).2 := by
  have hpost := Triple.run h hw hG
  cases hr : (runE exec x w).1 with
  | ok a => rwa [hr] at hpost
  | error e => rwa [hr] at hpost

/-- **A program whose operations all keep an invariant keeps it.** -/
theorem Prog.Only.keeps {A : S.Op → Prop} (hR : ∀ o w w', R o w w' → I w → I w')
    (hA : ∀ o w, A o → I w → I (exec o w).2) (h : Prog.Only A x.run) : Keeps exec R I x :=
  fun _ hw => (h.safe hR hA hw).mono fun r _ hr => by cases r <;> exact hr

/-! ### What a result says -/

variable (exec R) in
/-- Whatever happens in between, a result of the program has a property. -/
def Yields (F : α → Prop) (x : ExceptT ε (Prog S) α) : Prop :=
  Triple exec R (fun _ => True) x (fun a _ => F a) fun _ _ => True

namespace Yields

variable {F F' : α → Prop} {T : β → Prop}

theorem pure (h : F a) : Yields exec R F (pure a : ExceptT ε (Prog S) α) := fun _ _ => h

theorem throw (e : ε) : Yields exec R F (throw e : ExceptT ε (Prog S) α) := fun _ _ => trivial

theorem bind (hx : Yields exec R F x) (hf : ∀ a, F a → Yields exec R T (f a)) :
    Yields exec R T (x >>= f) :=
  Triple.bind hx fun a => fun w ha => hf a ha w trivial

theorem attempt (h : Yields exec R F x) :
    Yields exec R (fun r => ∀ a, r = .ok a → F a) (Prog.attempt x) :=
  Triple.attempt (h.conseq (fun _ hw => hw) (fun _ _ ha _ hb => Except.ok.inj hb ▸ ha)
    fun _ _ _ _ hb => nomatch hb)

/-- Nothing is known about the result of an arbitrary program. -/
theorem any (x : ExceptT ε (Prog S) α) : Yields exec R (fun _ => True) x :=
  Prog.Only.keeps (A := fun _ => True) (I := fun _ => True) (fun _ _ _ _ _ => trivial)
    (fun _ _ _ _ => trivial) (Prog.Only.of_forall (fun _ => trivial) _)

end Yields

/-! ### Fallible programs with restricted operations -/

/-- Every operation the fallible program can perform is allowed. -/
def OnlyE (A : S.Op → Prop) (x : ExceptT ε (Prog S) α) : Prop := Prog.Only A x.run

namespace OnlyE

variable {A A' : S.Op → Prop}

theorem pure (a : α) : OnlyE A (pure a : ExceptT ε (Prog S) α) := trivial

theorem throw (e : ε) : OnlyE A (throw e : ExceptT ε (Prog S) α) := trivial

theorem bind (hx : OnlyE A x) (hf : ∀ a, OnlyE A (f a)) : OnlyE A (x >>= f) :=
  Prog.Only.bind hx fun r => by
    cases r with
    | ok a => exact hf a
    | error e => trivial

theorem attempt (hx : OnlyE A x) : OnlyE A (Prog.attempt x) := Prog.Only.bind hx fun _ => trivial

theorem ite [Decidable c] (hx : OnlyE A x) (hy : OnlyE A y) : OnlyE A (if c then x else y) := by
  split
  · exact hx
  · exact hy

theorem mono (hA : ∀ o, A o → A' o) (hx : OnlyE A x) : OnlyE A' x := Prog.Only.mono hA hx

/-- What a program with restricted operations keeps when it runs alone. -/
theorem keeps (hx : OnlyE A x) (hA : ∀ o w, A o → I w → I (exec o w).2) :
    Keeps exec (Alone G) I x :=
  Prog.Only.keeps (fun _ _ _ h hw => h.1 ▸ hw) hA hx

theorem runE (hx : OnlyE A x) (hA : ∀ o w, A o → I w → I (exec o w).2) (hw : I w) :
    I (Prog.runE exec x w).2 :=
  (hx.keeps (G := fun _ _ => True) hA).run hw (always_true _ _ _)

end OnlyE

/-- An invariant that every operation keeps is kept by every program. -/
theorem runE_invariant (hI : ∀ o w, I w → I (exec o w).2) (x : ExceptT ε (Prog S) α) (hw : I w) :
    I (runE exec x w).2 :=
  OnlyE.runE (A := fun _ => True) (Prog.Only.of_forall (fun _ => trivial) _)
    (fun o w _ => hI o w) hw

end Triple

/-! ### A program in a pool -/

namespace Pool

variable {S : Sig} {ι W α : Type} [DecidableEq ι] {exec : (o : S.Op) → W → S.Res o × W}
  {A : S.Op → Prop} {I : W → Prop} {c : Pool ι S α W}

/-- **What all operations of the programs keep holds in every interleaving.** -/
theorem only_run (hA : ∀ o w, A o → I w → I (exec o w).2) (honly : ∀ j, (c.threads j).Only A)
    (hI : I c.state) (schedule : List ι) : I (c.run exec schedule).state := by
  obtain ⟨-, -, h⟩ := run_invariant (I := fun _ => I) (fun _ _ _ _ => trivial)
    (fun _ w _ o _ _ hI ho _ => hA o w ho hI) (fun j => (honly j).follows) hI schedule
  exact h

/-- **A program in a pool whose own turns meet a guard.**  If all programs keep an invariant, then a
program that is safe as long as the invariant and the guard hold at its own turns, whatever happens
in between, has ended in its postcondition when it has returned. -/
theorem safe_turns {G : S.Op → W → Prop} (hA : ∀ o w, A o → I w → I (exec o w).2)
    {Q : α → W → Prop} {i : ι} {w : W} (honly : ∀ j, (c.threads j).Only A) (hI : I c.state)
    (hsafe : (c.threads i).Safe exec (fun o _ w' => I w' ∧ G o w') Q w) {schedule : List ι}
    (hG : Always exec (fun c j => j = i → ∀ o ∈ (c.threads j).next?, G o c.state) c schedule)
    {a : α} (ha : (c.run exec schedule).threads i = .ret a) : ∃ w', Q a w' := by
  induction schedule generalizing c w with
  | nil =>
    have hret : c.threads i = .ret a := ha
    rw [hret] at hsafe
    exact ⟨w, hsafe⟩
  | cons j schedule ih =>
    obtain ⟨hj, hG⟩ := hG
    have hrun : c.run exec (j :: schedule) = (c.step exec j).run exec schedule := rfl
    rw [hrun] at ha
    cases hthread : c.threads j with
    | ret b =>
      have hstay : c.step exec j = c := step_of_ret hthread
      rw [hstay] at hG ha
      exact ih honly hI hsafe hG ha
    | op o k =>
      have hmove : c.step exec j =
          ⟨Function.update c.threads j (k (exec o c.state).1), (exec o c.state).2⟩ := by
        simp [step, hthread]
      have hallowed := honly j
      rw [hthread] at hallowed
      rw [hmove] at hG ha
      have honly' (j' : ι) :
          (Function.update c.threads j (k (exec o c.state).1) j').Only A := by
        by_cases hj' : j' = j
        · subst hj'
          simpa using hallowed.2 _
        · simpa [hj'] using honly j'
      have hI' : I (exec o c.state).2 := hA o c.state hallowed.1 hI
      by_cases hji : j = i
      · subst hji
        rw [hthread] at hsafe
        have hnext := hsafe c.state ⟨hI, hj rfl o (by simp [hthread, Prog.next?])⟩
        exact ih honly' hI' (by simpa using hnext) hG ha
      · exact ih honly' hI' (by simpa [Ne.symm hji] using hsafe) hG ha

end Pool

end Hsp
