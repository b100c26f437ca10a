import Hsp.Prog.Basic

/-!
# Protocols

A protocol says in which order a program may perform its operations, and what it then knows.  It
is a transition system on *stages*, labelled with an operation and its result.  A program follows
the protocol from a stage when, whatever its operations return, it takes a path of the transition
system.

That a program follows a protocol is a property of its syntax and is proved once, by the rules
below.  Every semantics of programs then gets an invariant rule that only looks at the transitions:
`Follows.run` for programs that run alone (with or without faults, which are a matter of the
interpretation), `Pool.run_invariant_ops` in `Hsp.Prog.Pool` for interleavings.

## Main definitions

* `Protocol S` : a transition system on stages.
* `Protocol.Follows P p s Q` : from stage `s`, the program `p` takes transitions of `P`, and it
  stops with a result and in a stage related by `Q`.
* `Protocol.FollowsE` : the same for fallible programs, with a postcondition for errors.
* `Prog.Always exec G p w` : every operation `p` performs in its run from `w` meets the guard `G`.
-/

namespace Hsp

/-- A transition system on stages, labelled with operations and their results. -/
structure Protocol (S : Sig) where
  Stage : Type
  /-- What an operation may return. -/
  Legal : (o : S.Op) → S.Res o → Prop
  /-- In the first stage the operation may be performed, and its result leads to the second. -/
  Step : Stage → (o : S.Op) → S.Res o → Stage → Prop

namespace Protocol

variable {S : Sig} {α β ε : Type} (P : Protocol S) {p : Prog S α} {x : ExceptT ε (Prog S) α}
  {s : P.Stage} {f : α → ExceptT ε (Prog S) β}
  {Q' : α → P.Stage → Prop} {E : ε → P.Stage → Prop} {Q : α → P.Stage → Prop}

/-- From stage `s` the program takes transitions of the protocol until it stops in `Q`. -/
def Follows : Prog S α → P.Stage → (α → P.Stage → Prop) → Prop
  | .ret a, s, Q => Q a s
  | .op o k, s, Q => ∀ r, P.Legal o r → ∃ s', P.Step s o r s' ∧ Follows (k r) s' Q

/-- The postcondition of a fallible program, from one for results and one for errors. -/
def post (Q : α → P.Stage → Prop) (E : ε → P.Stage → Prop) : Except ε α → P.Stage → Prop
  | .ok a, s => Q a s
  | .error e, s => E e s

/-- `Follows` for fallible programs. -/
def FollowsE (x : ExceptT ε (Prog S) α) (s : P.Stage) (Q : α → P.Stage → Prop)
    (E : ε → P.Stage → Prop) : Prop :=
  P.Follows x.run s (P.post Q E)

variable {P}

theorem Follows.mono {Q Q' : α → P.Stage → Prop} (h : P.Follows p s Q)
    (hQ : ∀ a s', Q a s' → Q' a s') : P.Follows p s Q' := by
  induction p generalizing s with
  | ret a => exact hQ a s h
  | op o k ih =>
    intro r hr
    obtain ⟨s', hs, hk⟩ := h r hr
    exact ⟨s', hs, ih r hk⟩

theorem Follows.bind {f : α → Prog S β} {Q : β → P.Stage → Prop}
    (h : P.Follows p s fun a s' => P.Follows (f a) s' Q) : P.Follows (p >>= f) s Q := by
  induction p generalizing s with
  | ret a => exact h
  | op o k ih =>
    intro r hr
    obtain ⟨s', hs, hk⟩ := h r hr
    exact ⟨s', hs, ih r hk⟩

theorem Follows.perform {o : S.Op} {Q : S.Res o → P.Stage → Prop}
    (h : ∀ r, P.Legal o r → ∃ s', P.Step s o r s' ∧ Q r s') :
    P.Follows (Prog.perform o) s Q := h

section Fallible

variable {s : P.Stage} {Q : α → P.Stage → Prop} {E : ε → P.Stage → Prop}

theorem FollowsE.pure {a : α} (h : Q a s) : P.FollowsE (pure a : ExceptT ε (Prog S) α) s Q E := h

theorem FollowsE.throw {e : ε} (h : E e s) :
    P.FollowsE (throw e : ExceptT ε (Prog S) α) s Q E := h

theorem FollowsE.mono {E' : ε → P.Stage → Prop} (h : P.FollowsE x s Q E)
    (hQ : ∀ a s', Q a s' → Q' a s') (hE : ∀ e s', E e s' → E' e s') : P.FollowsE x s Q' E' :=
  Follows.mono h fun r s' hr => by
    cases r with
    | ok a => exact hQ a s' hr
    | error e => exact hE e s' hr

theorem FollowsE.weaken (h : P.FollowsE x s Q E)
    (hQ : ∀ a s', Q a s' → Q' a s') : P.FollowsE x s Q' E := h.mono hQ fun _ _ h => h

theorem FollowsE.bind {Q : β → P.Stage → Prop}
    (h : P.FollowsE x s (fun a s' => P.FollowsE (f a) s' Q E) E) : P.FollowsE (x >>= f) s Q E :=
  Follows.bind (Follows.mono h fun r s' hr => by
    cases r with
    | ok a => exact hr
    | error e => exact hr)

/-- A part, and what follows from where it may end. -/
theorem FollowsE.andThen {Q' : β → P.Stage → Prop}
    (hx : P.FollowsE x s Q E) (hf : ∀ a s', Q a s' → P.FollowsE (f a) s' Q' E) :
    P.FollowsE (x >>= f) s Q' E := FollowsE.bind (hx.weaken hf)

theorem FollowsE.map {f : α → β} {Q : β → P.Stage → Prop}
    (h : P.FollowsE x s (fun a s' => Q (f a) s') E) : P.FollowsE (f <$> x) s Q E :=
  FollowsE.bind h

theorem FollowsE.lift (h : P.Follows p s Q) :
    P.FollowsE (ExceptT.lift p : ExceptT ε (Prog S) α) s Q E :=
  Follows.bind (Follows.mono h fun _ _ hr => hr)

theorem FollowsE.attempt {Q : Except ε α → P.Stage → Prop}
    (h : P.FollowsE x s (fun a => Q (.ok a)) fun e => Q (.error e)) :
    P.FollowsE (Prog.attempt x) s Q E :=
  FollowsE.lift (Follows.mono h fun r s' hr => by
    cases r with
    | ok a => exact hr
    | error e => exact hr)

end Fallible

/-! ### From one protocol to another -/

section Simulation

variable {Q : α → P.Stage → Prop}

/-- A program that follows a protocol follows every protocol that simulates it. -/
theorem Follows.simulation {T : Protocol S} {R : P.Stage → T.Stage → Prop}
    (hlegal : ∀ o r, T.Legal o r → P.Legal o r)
    (hstep : ∀ s o r s₁ t, R s t → P.Step s o r s₁ → ∃ t₁, T.Step t o r t₁ ∧ R s₁ t₁)
    {t : T.Stage} (h : P.Follows p s Q) (hR : R s t) :
    T.Follows p t fun a t' => ∃ s', Q a s' ∧ R s' t' := by
  induction p generalizing s t with
  | ret a => exact ⟨s, h, hR⟩
  | op o k ih =>
    intro r hr
    obtain ⟨s₁, hs, hk⟩ := h r (hlegal o r hr)
    obtain ⟨t₁, ht, hR₁⟩ := hstep s o r s₁ t hR hs
    exact ⟨t₁, ht, ih r hk hR₁⟩

theorem FollowsE.simulation {T : Protocol S} {R : P.Stage → T.Stage → Prop}
    (hlegal : ∀ o r, T.Legal o r → P.Legal o r)
    (hstep : ∀ s o r s₁ t, R s t → P.Step s o r s₁ → ∃ t₁, T.Step t o r t₁ ∧ R s₁ t₁)
    {t : T.Stage} (h : P.FollowsE x s Q E) (hR : R s t) :
    T.FollowsE x t (fun a t' => ∃ s', Q a s' ∧ R s' t') fun e t' => ∃ s', E e s' ∧ R s' t' :=
  Follows.mono (Follows.simulation hlegal hstep h hR) fun r _ hr => by cases r <;> exact hr

variable (P) in
/-- The protocol when operations return fewer results. -/
@[reducible] def restrict (L : (o : S.Op) → S.Res o → Prop) : Protocol S where
  Stage := P.Stage
  Legal o r := P.Legal o r ∧ L o r
  Step := P.Step

variable {L : (o : S.Op) → S.Res o → Prop} {s : P.Stage} {x : ExceptT ε (Prog S) α}
  {Q : α → P.Stage → Prop} {E : ε → P.Stage → Prop}

theorem FollowsE.restrict (h : P.FollowsE x s Q E) : (P.restrict L).FollowsE x s Q E :=
  (FollowsE.simulation (P := P) (T := P.restrict L) (R := Eq) (fun _ _ hr => hr.1)
    (by rintro s o r s₁ _ rfl hs; exact ⟨s₁, hs, rfl⟩) h rfl).mono
    (by rintro a _ ⟨s', ha, rfl⟩; exact ha) (by rintro e _ ⟨s', he, rfl⟩; exact he)

theorem FollowsE.of_restrict (h : (P.restrict fun _ _ => True).FollowsE x s Q E) :
    P.FollowsE x s Q E :=
  (FollowsE.simulation (P := P.restrict fun _ _ => True) (T := P) (R := Eq)
    (fun _ _ hr => ⟨hr, trivial⟩) (by rintro s o r s₁ _ rfl hs; exact ⟨s₁, hs, rfl⟩) h rfl).mono
    (by rintro a _ ⟨s', ha, rfl⟩; exact ha) (by rintro e _ ⟨s', he, rfl⟩; exact he)

end Simulation

end Protocol

/-! ### Running alone -/

section Run

variable {S : Sig} {α ε W : Type} (exec : (o : S.Op) → W → S.Res o × W) {G G' : S.Op → W → Prop}
  {p : Prog S α} {w : W}

/-- Every operation the program performs in its run meets the guard, in the state it meets. -/
def Prog.Always (G : S.Op → W → Prop) : Prog S α → W → Prop
  | .ret _, _ => True
  | .op o k, w => G o w ∧ (k (exec o w).1).Always G (exec o w).2

theorem Prog.always_true (p : Prog S α) (w : W) : p.Always exec (fun _ _ => True) w := by
  induction p generalizing w with
  | ret a => trivial
  | op o k ih => exact ⟨trivial, ih _ _⟩

export Prog (always_true)

theorem Prog.Always.mono {exec : (o : S.Op) → W → S.Res o × W} (hGG : ∀ o w, G o w → G' o w)
    (h : p.Always exec G w) : p.Always exec G' w := by
  induction p generalizing w with
  | ret a => trivial
  | op o k ih => exact ⟨hGG o w h.1, ih _ h.2⟩

theorem Prog.Always.and {exec : (o : S.Op) → W → S.Res o × W} (h : p.Always exec G w)
    (h' : p.Always exec G' w) : p.Always exec (fun o w => G o w ∧ G' o w) w := by
  induction p generalizing w with
  | ret a => trivial
  | op o k ih => exact ⟨⟨h.1, h'.1⟩, ih _ h.2 h'.2⟩

/-- Whether the operations of a run meet a guard can be computed. -/
instance Prog.decidableAlways (G : S.Op → W → Prop) [∀ o w, Decidable (G o w)] :
    (p : Prog S α) → (w : W) → Decidable (p.Always exec G w)
  | .ret _, _ => .isTrue trivial
  | .op o k, w =>
    have := decidableAlways G (k (exec o w).1) (exec o w).2
    inferInstanceAs (Decidable (G o w ∧ (k (exec o w).1).Always exec G (exec o w).2))

variable {exec} {P : Protocol S}

/-- **The invariant rule for programs that run alone.**  An invariant of stages and states that
every guarded transition keeps holds when the program stops. -/
theorem Protocol.Follows.run (exec : (o : S.Op) → W → S.Res o × W) {I : P.Stage → W → Prop}
    (hlegal : ∀ s o w, I s w → P.Legal o (exec o w).1)
    (hstep : ∀ s o s' w, I s w → G o w → P.Step s o (exec o w).1 s' → I s' (exec o w).2)
    (h : P.Follows p s Q) (hw : I s w)
    (hG : p.Always exec G w) : ∃ s', Q (p.run exec w).1 s' ∧ I s' (p.run exec w).2 := by
  induction p generalizing s w with
  | ret a => exact ⟨s, h, hw⟩
  | op o k ih =>
    -- The program takes a transition for every legal result, so for the one `exec` gives.
    obtain ⟨s', hs, hk⟩ := h _ (hlegal s o w hw)
    exact ih _ hk (hstep s o s' w hw hG.1 hs) hG.2

theorem Protocol.FollowsE.run (exec : (o : S.Op) → W → S.Res o × W) {I : P.Stage → W → Prop}
    (hlegal : ∀ s o w, I s w → P.Legal o (exec o w).1)
    (hstep : ∀ s o s' w, I s w → G o w → P.Step s o (exec o w).1 s' → I s' (exec o w).2)
    {x : ExceptT ε (Prog S) α}
    (h : P.FollowsE x s Q E) (hw : I s w) (hG : Prog.Always exec G x.run w) :
    ∃ s', P.post Q E (runE exec x w).1 s' ∧ I s' (runE exec x w).2 :=
  Protocol.Follows.run exec hlegal hstep h hw hG

end Run

end Hsp
