import Hsp.Namespace.Integrity
import Hsp.Namespace.Revisions
import Hsp.Prog.Fault

/-!
# Failing writes

A write to the store fails in the middle of a call: it has no effect, and the call goes on with the
error.  The steps of a mutation are separate writes, so what the call leaves behind depends on the
write that fails.

* `fault_atomicity` : if the write that fails is not the one to a journal, and no rollback deletes a
  manifest that a path is bound to, then the journal and the current state of every namespace agree
  and bound paths have their manifests, in every state of a run with failing writes.
-/

namespace Hsp

open Prog (Fault Struck execFault)

variable {env : Env} {o : Op} {G : Op → World × Fault ApiError → Prop} {w w₀ : World}
  {s s' : Stage env} {x : World × Fault ApiError}

/-- What a call sees when a write fails. -/
def failedWrite : (o : Op) → Option (ApiError → Res o)
  | .write _ _ => some .error
  | .create _ _ => some .error
  | .delete _ => some .error
  | .now | .observe _ _ | .read _ | .exists _ => none

theorem failed_failedWrite {r : ApiError → Res o} (h : failedWrite o = some r) (e : ApiError) :
    o.Failed (r e) := by
  cases o <;> first | cases h; rfl | cases h

/-- The operations on a store with a failing write to come. -/
abbrev execFaulty (env : Env) :
    (o : Op) → World × Fault ApiError → Res o × (World × Fault ApiError) :=
  execFault (S := storeSig) (exec env) failedWrite

/-- The answer to a call and the world after it, if one of its writes may fail. -/
def Call.performFaulty (env : Env) (c : Call) (f : Fault ApiError) (w : World) :
    Except ApiError Reply × World :=
  let (reply, w', _) := Prog.runE (execFaulty env) (c.handle env) (w, f)
  (reply, w')

/-- The world after calls with failing writes. -/
def runFaulty (env : Env) (calls : List (Call × Fault ApiError)) (w : World) : World :=
  calls.foldl (fun w c => (c.1.performFaulty env c.2 w).2) w

/-- The operation writes a journal. -/
def Op.writesJournal : Op → Bool
  | .write (.namespaceJournal _ _) _ => true
  | _ => false

/-- The operation does no lasting harm: if it fails, it is not the write to a journal, and if it
does not, it does not delete a manifest that a path is bound to. -/
def Harmless (o : Op) (s : World × Fault ApiError) : Prop :=
  if Struck (S := storeSig) failedWrite o s.2 then o.writesJournal = false else KeepsTargets o s.1

/-- The operations of a run with failing writes meet a guard. -/
def FaultyAlways (env : Env) (G : Op → World × Fault ApiError → Prop) :
    List (Call × Fault ApiError) → World → Prop
  | [], _ => True
  | (c, f) :: calls, w =>
    Prog.Always (execFaulty env) G (c.handle env).run (w, f) ∧
      FaultyAlways env G calls (c.performFaulty env f w).2

instance (G : Op → World × Fault ApiError → Prop) [∀ o x, Decidable (G o x)] :
    (calls : List (Call × Fault ApiError)) → (w : World) → Decidable (FaultyAlways env G calls w)
  | [], _ => .isTrue trivial
  | (c, f) :: calls, w =>
    have := instDecidableFaultyAlways G calls (c.performFaulty env f w).2
    inferInstanceAs (Decidable (_ ∧ _))

theorem FaultyAlways.mono {G' : Op → World × Fault ApiError → Prop} (hGG : ∀ o x, G o x → G' o x)
    {calls : List (Call × Fault ApiError)} (h : FaultyAlways env G calls w) :
    FaultyAlways env G' calls w := by
  induction calls generalizing w with
  | nil => trivial
  | cons c calls ih => exact ⟨h.1.mono hGG, ih h.2⟩

theorem FaultyAlways.of_append {xs ys : List (Call × Fault ApiError)}
    (h : FaultyAlways env G (xs ++ ys) w) : FaultyAlways env G xs w := by
  induction xs generalizing w with
  | nil => trivial
  | cons c xs ih => exact ⟨h.1, ih h.2⟩

/-! ### A step that fails -/

theorem NamespacesAt.broken_of_rest {ρ : Rest env} (h : NamespacesAt w₀ (.rest ρ) w) :
    NamespacesAt w₀ (.broken : Stage env) w := by
  cases ρ with
  | idle => exact .inl h
  | journaled m r => exact .inr (.inr ⟨m, h.1, h.2.1⟩)
  | done m r => exact .inr (.inr ⟨m, h.1, h.2.1⟩)

/-- A write that fails, unless it is the one to the journal, leaves the namespaces before or after
a mutation, up to a revision that was taken in vain. -/
theorem NamespacesAt.fault {r : Res o} (h : NamespacesAt w₀ s w) (hf : o.Failed r)
    (hw : (failedWrite o).isSome) (hj : o.writesJournal = false) (hs : s.Step o r s') :
    NamespacesAt w₀ s' w := by
  cases hs with
  | next hn =>
    -- Only a step that does not look at the result goes on after a failure.
    cases hn with
    | plain ho => exact h
    | cleanUp ho => exact h
    | _ => first | cases hf | cases hw
  | fail hn _ =>
    cases hn with
    | plain ho => exact h.broken_of_rest
    | claim => exact .inl h.1
    -- The revision is taken but the state is as it was.
    | @apply m c r => exact .inr (.inl ⟨m, h.1⟩)
    | append => cases hj
    | @advance ρ t seq => exact NamespacesAt.broken_of_rest (ρ := ρ) (by cases ρ <;> exact h)
    | @emit ρ t e he => exact NamespacesAt.broken_of_rest (ρ := ρ) (by cases ρ <;> exact h)
    | cleanUp ho => exact h
    | _ => cases hw

/-- A failing write does not make a manifest disappear. -/
theorem Found.fault {r : Res o} (hf : o.Failed r) (hw : (failedWrite o).isSome)
    (hs : s.Step o r s') : Found s' w := by
  cases hs with
  | next hn =>
    cases hn with
    | plain ho => trivial
    | cleanUp ho => trivial
    | _ => first | cases hf | cases hw
  | fail hn _ => trivial

/-! ### Calls and runs -/

/-- A revision that is taken in vain does not belong to the history. -/
theorem Represents.claim {H : Histories env} (h : Represents H w) (m : Mutation env) :
    Represents H (w.claim m) := by
  have hnext : ∀ t n, w.nextRevision t n ≤ (w.claim m).nextRevision t n := by
    intro t n
    by_cases hk : Loc.namespaceRevisions t n = .namespaceRevisions m.record.tenantId m.record.ns
    · obtain ⟨rfl, rfl⟩ := Loc.namespaceRevisions.inj hk
      simp [World.claim, World.nextRevision, World.revisionFor]
    · simp [World.claim, World.nextRevision, hk]
  refine ⟨fun t n => ?_, fun t n => ?_, fun t n e he => ?_, fun t n => ?_, h.valid, h.owned⟩
  · rw [← h.current]; simp [World.claim, World.current]
  · rw [← h.journal]; simp [World.claim, World.journal]
  · exact (h.below t n e he).trans_le (hnext t n)
  · exact (h.pos t n).trans_le (hnext t n)

/-- The journal and the current state agree, and bound paths have their manifests. -/
def Sound (env : Env) (w : World) : Prop := (∃ H : Histories env, Represents H w) ∧ Intact w

/-- **A step of a call with a failing write.** -/
theorem faulty_step (h : NamespacesAt w₀ s x.1 ∧ Intact x.1 ∧ Found s x.1) (hG : Harmless o x)
    (hs : s.Step o (execFaulty env o x).1 s') :
    NamespacesAt w₀ s' (execFaulty env o x).2.1 ∧ Intact (execFaulty env o x).2.1 ∧
      Found s' (execFaulty env o x).2.1 := by
  obtain ⟨w, f⟩ := x
  obtain ⟨hat, hI, hfound⟩ := h
  rcases Prog.execFault_cases (S := storeSig) (exec env) failedWrite o w f with
    ⟨hno, f', hex⟩ | ⟨hstruck, r, e, hr, hex⟩
  · rw [execFaulty, hex] at hs ⊢
    rw [Harmless, if_neg hno] at hG
    rcases hs with hn | ⟨-, hf⟩
    · exact ⟨hat.next hn, hI.next hfound hat hG hn⟩
    · exact absurd hf (not_failed_exec env _ w)
  · rw [execFaulty, hex] at hs ⊢
    rw [Harmless, if_pos hstruck] at hG
    have hf := failed_failedWrite hr e
    have hw : (failedWrite o).isSome := by rw [hr]; rfl
    exact ⟨hat.fault hf hw hG hs, hI, Found.fault hf hw hs⟩

/-- What is left of the namespaces when a call with a failing write has ended represents
histories. -/
theorem Represents.ended {H : Histories env} (h : Represents H w₀)
    (hat : NamespacesAt w₀ (.broken : Stage env) w) : ∃ H' : Histories env, Represents H' w := by
  rcases hat with hs | ⟨m, hs⟩ | ⟨m, hs, hadm⟩
  · exact ⟨H, h.same hs⟩
  · exact ⟨H, (h.claim m).same hs⟩
  · exact ⟨_, (h.mutate hadm).same hs⟩

theorem Sound.performFaulty (h : Sound env w) {c : Call} {f : Fault ApiError}
    (hG : Prog.Always (execFaulty env) Harmless (c.handle env).run (w, f)) :
    Sound env (c.performFaulty env f w).2 := by
  obtain ⟨⟨H, hH⟩, hI⟩ := h
  obtain ⟨s, hpost, hat, hI', -⟩ := (follows_handle env c).run (execFaulty env) (w := (w, f))
    (I := fun (s : Stage env) x => NamespacesAt w s x.1 ∧ Intact x.1 ∧ Found s x.1)
    (fun _ _ _ _ => trivial) (fun _ _ _ _ h hG hs => faulty_step h hG hs)
    ⟨SameNamespaces.refl w, hI, trivial⟩ hG
  have hbroken : NamespacesAt w (.broken : Stage env)
      (runE (execFaulty env) (c.handle env) (w, f)).2.1 := by
    cases hres : (runE (execFaulty env) (c.handle env) (w, f)).1 with
    | ok reply =>
      rw [hres] at hpost
      rcases hpost with rfl | ⟨m, r, rfl, -⟩
      · exact hat.broken_of_rest
      · exact hat.broken_of_rest
    | error e =>
      rw [hres] at hpost
      rcases hpost with rfl | rfl
      · exact hat.broken_of_rest
      · exact hat
  exact ⟨hH.ended hbroken, hI'⟩

theorem Sound.runFaulty {calls : List (Call × Fault ApiError)} {w : World} (h : Sound env w)
    (hG : FaultyAlways env Harmless calls w) : Sound env (runFaulty env calls w) := by
  induction calls generalizing w with
  | nil => exact h
  | cons c calls ih => exact ih (h.performFaulty hG.1) hG.2

/-- **Fault atomicity.**  In a run in which every call may have one write fail, but never the write
to a journal, and in which no rollback deletes a manifest that a path is bound to, the journal view
and the current view of every namespace agree in every state, and bound paths have their
manifests. -/
theorem fault_atomicity {calls : List (Call × Fault ApiError)}
    (hG : FaultyAlways env Harmless calls World.empty) {before : List (Call × Fault ApiError)}
    (hbefore : before <+: calls) :
    let w := runFaulty env before World.empty
    (∀ t n, runE (exec env) (namespaceSnapshotAt t n (some (w.current t n).revision)) w =
      runE (exec env) (namespaceSnapshotAt t n none) w) ∧ Intact w := by
  intro w
  obtain ⟨after, rfl⟩ := hbefore
  have h : Sound env w :=
    Sound.runFaulty ⟨⟨_, Represents.empty⟩, intact_empty⟩ hG.of_append
  obtain ⟨⟨H, hH⟩, hI⟩ := h
  exact ⟨hH.snapshot_current, hI⟩

namespace Sample

/-- The error of a failing write. -/
def writeFailed : ApiError := ⟨.storage, "store_write_failed", ""⟩

/-- Calls of which no write fails. -/
def healthy (calls : List Call) : List (Call × Fault ApiError) := calls.map (·, none)

/-- The platform of the runs below. -/
abbrev faultyEnv : Env := Sample.env [bindRecord]

/-- A call whose write after `n` others fails, after calls that go well. -/
def failing (calls : List Call) (c : Call) (n : ℕ) : Except ApiError Reply × World :=
  c.performFaulty faultyEnv (some (n, writeFailed))
    (runFaulty faultyEnv (healthy calls) World.empty)

/-- The bind of an uploaded object, whose write to the journal fails.  Before it come the replay
record, the revision counter and the current state. -/
def bindHalfDone : Except ApiError Reply × World := failing upload (bind "4" 0) 3

/-- A commit whose bind fails at the event, when the binding is already there. -/
def commitHalfDone : Except ApiError Reply × World :=
  failing [putInit "1" manifest (some (atomicBind 0)), putChunk "2" manifest]
    (putCommit "3" manifest) 6

/-- The bind answers with an error and leaves a binding that the journal view does not have; the
commit answers with an error and leaves a path bound to a manifest that is gone. -/
theorem half_done :
    (bindHalfDone.1 = .error writeFailed ∧ (bindHalfDone.2.binding tenant "n" "p").isSome ∧
      (Prog.runE (exec faultyEnv) (namespaceSnapshotAt tenant "n"
        (some (bindHalfDone.2.current tenant "n").revision)) bindHalfDone.2).1 =
          .ok ⟨"n", 1, ∅⟩) ∧
    (commitHalfDone.1 = .error writeFailed ∧
      (commitHalfDone.2.binding tenant "n" "p").map (fun b => (b.tombstone, b.targetCid)) =
        some (false, some manifestCid) ∧
      commitHalfDone.2.store (.manifests tenant manifestCid) = none) := by
  decide +kernel

/-- The bind of an uploaded object, whose write to the current state fails. -/
def bindUndone : List (Call × Fault ApiError) :=
  healthy upload ++ [(bind "4" 0, some (2, writeFailed))]

/-- An operation that is harmless because it deletes nothing, or fails and is not the write to a
journal. -/
def HarmlessWrite (o : Op) (x : World × Fault ApiError) : Prop :=
  if Struck (S := storeSig) failedWrite o x.2 then o.writesJournal = false else deletes o = false

instance (o : Op) (x : World × Fault ApiError) : Decidable (HarmlessWrite o x) :=
  inferInstanceAs (Decidable (ite _ _ _))

theorem HarmlessWrite.harmless (h : HarmlessWrite o x) : Harmless o x := by
  unfold HarmlessWrite at h
  unfold Harmless
  split
  · rwa [if_pos ‹_›] at h
  · rw [if_neg ‹_›] at h
    exact keepsTargets_of_not_deletes o x.1 h

theorem bindUndone_intact :
    FaultyAlways faultyEnv Harmless bindUndone World.empty ∧
      Intact (runFaulty faultyEnv bindUndone World.empty) := by
  have hG : FaultyAlways faultyEnv Harmless bindUndone World.empty :=
    FaultyAlways.mono (fun _ _ => HarmlessWrite.harmless) (by decide +kernel)
  exact ⟨hG, (fault_atomicity hG (List.prefix_refl _)).2⟩

end Sample

end Hsp
