import Hsp.Prog.Triple

/-!
# Guards that a program upholds

A `Triple` over `Alone G` assumes that the operations of a program meet the guard `G`.
`Upholds exec G I F x` proves it: started in a state with `I`, the fallible program `x` only
performs operations that meet `G`, it ends in a state with `I`, and a result has the property `F`.
-/

namespace Hsp

variable {S : Sig} {W α β ε : Type} {exec : (o : S.Op) → W → S.Res o × W} {G : S.Op → W → Prop}
  {w : W} {f : α → ExceptT ε (Prog S) β}

theorem Prog.Always.bind {p : Prog S α} {f : α → Prog S β} (hp : p.Always exec G w)
    (hf : (f (p.run exec w).1).Always exec G (p.run exec w).2) : (p >>= f).Always exec G w := by
  induction p generalizing w with
  | ret a => exact hf
  | op o k ih => exact ⟨hp.1, ih _ hp.2 hf⟩

theorem Prog.Always.of_bind {p : Prog S α} {f : α → Prog S β} (h : (p >>= f).Always exec G w) :
    (f (p.run exec w).1).Always exec G (p.run exec w).2 := by
  induction p generalizing w with
  | ret a => exact h
  | op o k ih => exact ih _ h.2

theorem Prog.Always.of_bind_ok {x : ExceptT ε (Prog S) α} {w' : W} {a : α}
    (hx : runE exec x w = (.ok a, w')) (h : Prog.Always exec G (x >>= f).run w) :
    Prog.Always exec G (f a).run w' := by
  have hrest := Prog.Always.of_bind (p := x.run) (f := ExceptT.bindCont f) h
  have hrun : x.run.run exec w = (.ok a, w') := hx
  rw [hrun] at hrest
  exact hrest

variable (exec) in
/-- From a state with `I` every operation of the program meets `G`, the program ends in a state
with `I`, and a result has the property `F`. -/
def Upholds (G : S.Op → W → Prop) (I : W → Prop) (F : α → Prop) (x : ExceptT ε (Prog S) α) :
    Prop :=
  ∀ w, I w → Prog.Always exec G x.run w ∧ I (Prog.runE exec x w).2 ∧
    ∀ a, (Prog.runE exec x w).1 = .ok a → F a

namespace Upholds

variable {G : S.Op → W → Prop} {I : W → Prop} {F : α → Prop} {T : β → Prop}
  {x : ExceptT ε (Prog S) α}

theorem pure {a : α} (h : F a) : Upholds exec G I F (pure a : ExceptT ε (Prog S) α) :=
  fun _ hw => ⟨trivial, hw, fun _ ha => Except.ok.inj ha ▸ h⟩

theorem throw (e : ε) : Upholds exec G I F (throw e : ExceptT ε (Prog S) α) :=
  fun _ hw => ⟨trivial, hw, nofun⟩

theorem bind (hx : Upholds exec G I F x) (hf : ∀ a, F a → Upholds exec G I T (f a)) :
    Upholds exec G I T (x >>= f) := by
  intro w hw
  obtain ⟨halways, hkept, hresult⟩ := hx w hw
  rw [Prog.runE_bind]
  rcases hr : runE exec x w with ⟨e | a, w'⟩
  · have hrun : Prog.run exec x w = (.error e, w') := hr
    rw [hr] at hkept
    refine ⟨Prog.Always.bind (f := ExceptT.bindCont f) halways ?_, hkept, nofun⟩
    rw [hrun]
    trivial
  · have hrun : Prog.run exec x w = (.ok a, w') := hr
    rw [hr] at hkept hresult
    obtain ⟨halways', hkept', hresult'⟩ := hf a (hresult a rfl) w' hkept
    refine ⟨Prog.Always.bind (f := ExceptT.bindCont f) halways ?_, hkept', hresult'⟩
    rw [hrun]
    exact halways'

theorem conseq {F' : α → Prop} (h : Upholds exec G I F x) (hF : ∀ a, F a → F' a) :
    Upholds exec G I F' x := fun w hw =>
  ⟨(h w hw).1, (h w hw).2.1, fun a ha => hF a ((h w hw).2.2 a ha)⟩

theorem attempt (h : Upholds exec G I F x) :
    Upholds exec G I (fun r => ∀ a, r = .ok a → F a)
      (Prog.attempt x : ExceptT ε (Prog S) (Except ε α)) := by
  intro w hw
  obtain ⟨halways, hkept, hresult⟩ := h w hw
  rw [runE_attempt]
  refine ⟨Prog.Always.bind halways trivial, hkept, fun r hr => ?_⟩
  obtain rfl := Except.ok.inj hr
  exact hresult

theorem ite {c : Prop} [Decidable c] {y : ExceptT ε (Prog S) α} (hx : Upholds exec G I F x)
    (hy : Upholds exec G I F y) : Upholds exec G I F (if c then x else y) := by
  split
  · exact hx
  · exact hy

end Upholds

end Hsp
