import Hsp.Prog.Triple

/-!
# What the programs of a pool guarantee each other

`Prog.Ensures exec R Γ Q p w` says that before each of its operations, if the state meets `R`, the
program performs one that meets the guarantee `Γ`, and that it ends in `Q`.  If the guarantees keep
an invariant, and each program of a pool ensures its guarantee as long as the invariant and a guard
of its own hold, then the invariant holds in every interleaving that meets the guards.

`Promises` says the same of a fallible program, from every state and about its results.

* `Pool.ensures_run` : the invariant, and what every program still ensures;
* `Pool.ensures_return` : what holds in the state in which a program returns.
-/

namespace Hsp

namespace Prog

variable {S T : Sig} {W V α β ε : Type} {exec : (o : S.Op) → W → S.Res o × W}
  {R Γ : S.Op → W → Prop} {p : Prog S α} {w : W}

/-- A program that runs alone ends in its postcondition, if an invariant of its operations allows
each of them. -/
theorem Safe.alone {R : S.Op → W → W → Prop} {A : S.Op → Prop} {I : W → Prop} {Q : α → W → Prop}
    (hA : ∀ o w, A o → I w → I (exec o w).2) (hR : ∀ o w, I w → R o w w) (honly : p.Only A)
    (hw : I w) (h : p.Safe exec R Q w) : Q (p.run exec w).1 (p.run exec w).2 := by
  induction p generalizing w with
  | ret a => exact h
  | op o k ih => exact ih _ (honly.2 _) (hA o w honly.1 hw) (h w (hR o w hw))

variable (exec R Γ) in
/-- As long as the state meets `R` before its operations, they meet `Γ` and the program ends in
`Q`. -/
def Ensures (Q : α → W → Prop) : Prog S α → W → Prop
  | .ret a, w => Q a w
  | .op o k, _ => ∀ w, R o w → Γ o w ∧ (k (exec o w).1).Ensures Q (exec o w).2

namespace Ensures

theorem mono {Q Q' : α → W → Prop} (hQ : ∀ a w, Q a w → Q' a w) (h : p.Ensures exec R Γ Q w) :
    p.Ensures exec R Γ Q' w := by
  induction p generalizing w with
  | ret a => exact hQ a w h
  | op o k ih => exact fun w' hw => ⟨(h w' hw).1, ih _ (h w' hw).2⟩

theorem bind {Q : β → W → Prop} {f : α → Prog S β}
    (h : p.Ensures exec R Γ (fun a w' => (f a).Ensures exec R Γ Q w') w) :
    (p >>= f).Ensures exec R Γ Q w := by
  induction p generalizing w with
  | ret a => exact h
  | op o k ih => exact fun w' hw => ⟨(h w' hw).1, ih _ (h w' hw).2⟩

end Ensures

end Prog

section Promises

variable {S : Sig} {W α β ε : Type} (exec : (o : S.Op) → W → S.Res o × W) (R Γ : S.Op → W → Prop)

/-- From every state the program ensures its guarantee, and a result has the property `F` in the
state in which it is returned. -/
def Promises (F : α → W → Prop) (x : ExceptT ε (Prog S) α) : Prop :=
  ∀ w, x.run.Ensures exec R Γ (fun r w' => ∀ a, r = .ok a → F a w') w

variable {exec R Γ} {F : α → W → Prop} {T : β → W → Prop} {x : ExceptT ε (Prog S) α}

namespace Promises

theorem pure {a : α} (h : ∀ w, F a w) : Promises exec R Γ F (pure a : ExceptT ε (Prog S) α) :=
  fun w _ ha => Except.ok.inj ha ▸ h w

theorem throw (e : ε) : Promises exec R Γ F (throw e : ExceptT ε (Prog S) α) := fun _ => nofun

/-- What a result says of itself is known to the rest of the program, whatever happens to the
state. -/
theorem bind {F : α → Prop} {f : α → ExceptT ε (Prog S) β}
    (hx : Promises exec R Γ (fun a _ => F a) x) (hf : ∀ a, F a → Promises exec R Γ T (f a)) :
    Promises exec R Γ T (x >>= f) := fun w =>
  Prog.Ensures.bind ((hx w).mono fun r w' hr => by
    cases r with
    | ok a => exact hf a (hr a rfl) w'
    | error e => exact fun _ h => nomatch h)

theorem attempt {F : α → Prop} (hx : Promises exec R Γ (fun a _ => F a) x) :
    Promises exec R Γ (fun r _ => ∀ a, r = .ok a → F a)
      (Prog.attempt x : ExceptT ε (Prog S) (Except ε α)) := fun w =>
  Prog.Ensures.bind ((hx w).mono fun _ _ hr _ hok => Except.ok.inj hok ▸ hr)

theorem ite {c : Prop} [Decidable c] {y : ExceptT ε (Prog S) α} (hx : c → Promises exec R Γ F x)
    (hy : ¬ c → Promises exec R Γ F y) : Promises exec R Γ F (if c then x else y) := by
  split
  · exact hx ‹_›
  · exact hy ‹_›

/-- An operation, and what follows in the state it leads to. -/
theorem perform_bind {o : S.Op} {f : S.Res o → ExceptT ε (Prog S) β}
    (h : ∀ w, R o w → Γ o w ∧ (f (exec o w).1).run.Ensures exec R Γ
      (fun r w' => ∀ a, r = .ok a → T a w') (exec o w).2) :
    Promises exec R Γ T ((ExceptT.lift (Prog.perform o) : ExceptT ε (Prog S) (S.Res o)) >>= f) :=
  fun _ w hw => h w hw

end Promises

end Promises

namespace Pool

variable {S : Sig} {ι W α : Type} [DecidableEq ι] {exec : (o : S.Op) → W → S.Res o × W}
  {I : W → Prop} {Γ : S.Op → W → Prop} {G : ι → S.Op → W → Prop} {Q : ι → α → W → Prop}
  {c : Pool ι S α W} {schedule : List ι}

theorem Always.mono {G G' : Pool ι S α W → ι → Prop} (hG : ∀ c i, G c i → G' c i)
    (h : Always exec G c schedule) : Always exec G' c schedule := by
  induction schedule generalizing c with
  | nil => trivial
  | cons i schedule ih => exact ⟨hG c i h.1, ih h.2⟩

variable (exec I Γ G Q) in
/-- The invariant holds, and every program ensures its guarantee. -/
structure Trusted (c : Pool ι S α W) : Prop where
  invariant : I c.state
  ensures : ∀ j, ∃ w, (c.threads j).Ensures exec (fun o w => I w ∧ G j o w) Γ (Q j) w

variable (hΓ : ∀ o w, I w → Γ o w → I (exec o w).2)

include hΓ

/-- A turn: the program that has it goes on in the state it has reached. -/
theorem Trusted.turn (h : c.Trusted exec I Γ G Q) {i : ι} {o : S.Op} {k : S.Res o → Prog S α}
    (hthread : c.threads i = .op o k) (hguard : G i o c.state) :
    (c.step exec i).Trusted exec I Γ G Q ∧ ((c.step exec i).threads i).Ensures exec
      (fun o w => I w ∧ G i o w) Γ (Q i) (c.step exec i).state := by
  have hmove : c.step exec i =
      ⟨Function.update c.threads i (k (exec o c.state).1), (exec o c.state).2⟩ := by
    simp [step, hthread]
  obtain ⟨_, hensures⟩ := h.ensures i
  rw [hthread] at hensures
  obtain ⟨hΓo, hnext⟩ := hensures c.state ⟨h.invariant, hguard⟩
  rw [hmove]
  refine ⟨⟨hΓ o c.state h.invariant hΓo, fun j => ?_⟩, by simpa using hnext⟩
  by_cases hj : j = i
  · subst hj
    exact ⟨_, by simpa using hnext⟩
  · simpa [hj] using h.ensures j

/-- **The invariant holds in every interleaving that meets the guards.** -/
theorem ensures_run (h : c.Trusted exec I Γ G Q)
    (hG : Always exec (fun c j => ∀ o ∈ (c.threads j).next?, G j o c.state) c schedule) :
    (c.run exec schedule).Trusted exec I Γ G Q := by
  induction schedule generalizing c with
  | nil => exact h
  | cons j schedule ih =>
    obtain ⟨hj, hG⟩ := hG
    refine ih ?_ hG
    cases hthread : c.threads j with
    | ret b => rwa [step_of_ret hthread]
    | op o k => exact (h.turn hΓ hthread (hj o (by simp [hthread, Prog.next?]))).1

/-- **A program returns in a state with its postcondition.** -/
theorem ensures_return (h : c.Trusted exec I Γ G Q) {i : ι}
    (hG : Always exec (fun c j => ∀ o ∈ (c.threads j).next?, G j o c.state) c (schedule ++ [i]))
    (hgoing : (c.run exec schedule).threads i |>.next?.isSome) {a : α}
    (ha : (c.run exec (schedule ++ [i])).threads i = .ret a) :
    Q i a (c.run exec (schedule ++ [i])).state := by
  have hsplit : Always exec (fun c j => ∀ o ∈ (c.threads j).next?, G j o c.state) c schedule ∧
      ∀ o ∈ ((c.run exec schedule).threads i).next?, G i o (c.run exec schedule).state := by
    clear ha hgoing h
    induction schedule generalizing c with
    | nil => exact ⟨trivial, hG.1⟩
    | cons j schedule ih =>
      obtain ⟨h₁, h₂⟩ := ih hG.2
      exact ⟨⟨hG.1, h₁⟩, h₂⟩
  have hrun : c.run exec (schedule ++ [i]) = (c.run exec schedule).step exec i := by
    simp [run, List.foldl_append]
  rw [hrun] at ha ⊢
  cases hthread : (c.run exec schedule).threads i with
  | ret b => simp [hthread, Prog.next?] at hgoing
  | op o k =>
    have hguard := hsplit.2 o (by simp [hthread, Prog.next?])
    have hensures := ((ensures_run hΓ h hsplit.1).turn hΓ hthread hguard).2
    rw [ha] at hensures
    exact hensures

end Pool

end Hsp
