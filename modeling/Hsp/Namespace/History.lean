import Hsp.Log.Basic
import Hsp.Service.Namespace

/-!
# Histories of a namespace

What a namespace is for: a map from paths to bindings that signed records change one after
another, each change being given a revision.  A `Mutation` is a record that verified against the
issuer registry.  A history is the list of mutations a namespace went through, with their
revisions, and it is a revisioned log in the sense of `Hsp.Log`.

The service keeps two renderings of a history, and both are functions of it:

* `stateOf` is the current state, every mutation having been applied in place;
* `journalOf` is the journal, and `replayJournal_journalOf` shows that replaying it up to a
  revision gives the state of the part of the history up to that revision.
-/

namespace Hsp

variable {env : Env}

/-- A change of a path, signed by an issuer the registry knows. -/
@[ext] structure Mutation (env : Env) where
  record : NamespaceMutationRecord
  verified : ∃ token registry, env.issuerRegistry = some registry ∧
    verifySignedNamespaceRecord env token registry = .ok record

/-- A binding that is not a tombstone. -/
def isLive : Option NamespaceBindingState → Prop
  | some b => b.tombstone = false
  | none => False

/-- The revision of what a path holds. -/
def revisionOf (existing : Option NamespaceBindingState) : ℕ :=
  (existing.map (·.revision)).getD 0

namespace Mutation

variable (m : Mutation env) (r : ℕ)

/-- What the path holds after the mutation was given revision `r`. -/
def effect : Option NamespaceBindingState :=
  match m.record.kind with
  | .bind => some {
      path := m.record.path
      targetCid := m.record.targetCid
      manifestCid := m.record.targetCid
      revision := r
      recordCid := m.record.recordCid env
      metadata := m.record.metadata
      tombstone := false }
  | .unbind => some {
      path := m.record.path
      targetCid := none
      manifestCid := none
      revision := r
      recordCid := m.record.recordCid env
      metadata := ∅
      tombstone := true }
  | .hardDelete => none

/-- How the journal notes the mutation. -/
def entry : NamespaceJournalEntry where
  revision := r
  record := m.record
  recordCid := m.record.recordCid env
  targetCid := if m.record.kind = .bind then m.record.targetCid else none
  manifestCid := if m.record.kind = .bind then m.record.targetCid else none
  metadata := if m.record.kind = .bind then m.record.metadata else ∅
  tombstone := m.record.kind = .unbind

/-- How the event log notes the mutation. -/
def event (seq atMs : ℕ) : EventRecord where
  version := 1
  seq := seq
  atMs := atMs
  eventType := match m.record.kind with
    | .bind => .namespaceBound
    | .unbind => .namespaceTombstoned
    | .hardDelete => .namespaceUnbound
  subjectKind := "namespace"
  ns := some m.record.ns
  path := some m.record.path
  cid := if m.record.kind = .bind then m.record.targetCid else none
  revision := some r
  traceId := none
  payload := if m.record.kind = .bind then m.record.metadata else ∅

/-- The preconditions of a mutation on what its path holds: the revision it names, if it names
one; that the path is not bound, if it names none; and for a removal, that there is something to
remove. -/
def Admits (existing : Option NamespaceBindingState) : Prop :=
  (∀ v, m.record.ifRevision = some v → revisionOf existing = v.toNat) ∧
  (m.record.ifRevision = none → ¬ isLive existing) ∧
  (m.record.kind ≠ .bind → existing ≠ none ∧ m.record.ifRevision ≠ none)

/-- The mutation is applied to the current state. -/
def applyTo (c : NamespaceCurrentState) : NamespaceCurrentState :=
  { c with
    revision := r
    bindings := match m.effect r with
      | some b => c.bindings.insert m.record.path b
      | none => c.bindings.erase m.record.path }

theorem applyTo_bindings_getElem? (c : NamespaceCurrentState) (p : String) :
    (m.applyTo r c).bindings[p]? =
      Function.update (fun q => c.bindings[q]?) m.record.path (m.effect r) p := by
  by_cases h : p = m.record.path
  · subst h
    cases he : m.effect r <;> simp [applyTo, he]
  · have h' : ¬ m.record.path = p := fun h' => h h'.symm
    cases he : m.effect r <;>
      simp [applyTo, he, h, h', Std.ExtTreeMap.getElem?_insert, Std.ExtTreeMap.getElem?_erase]

theorem effect_eq_some {b : NamespaceBindingState} (h : m.effect r = some b) :
    b.path = m.record.path ∧ b.revision = r ∧ b.recordCid = m.record.recordCid env := by
  cases hk : m.record.kind with
  | bind =>
    simp only [effect, hk, Option.some.injEq] at h
    exact h ▸ ⟨rfl, rfl, rfl⟩
  | unbind =>
    simp only [effect, hk, Option.some.injEq] at h
    exact h ▸ ⟨rfl, rfl, rfl⟩
  | hardDelete => simp [effect, hk] at h

theorem isLive_effect : isLive (m.effect r) ↔ m.record.kind = .bind := by
  unfold effect
  split <;> simp_all [isLive]

theorem entry_replay (c : NamespaceCurrentState) :
    (m.entry r).replay c.bindings = (m.applyTo r c).bindings := by
  cases hk : m.record.kind <;>
    simp [entry, applyTo, effect, NamespaceJournalEntry.replay, hk]

end Mutation

/-- The mutations of a namespace, oldest first, with their revisions. -/
abbrev History (env : Env) := List (ℕ × Mutation env)

/-- A history as a revisioned log of writes to paths. -/
def historySpec (env : Env) : Log.Spec (ℕ × Mutation env) String NamespaceBindingState where
  rev e := e.1
  key e := e.2.record.path
  val e := e.2.effect e.1
  valRev b := b.revision
  Admits e existing := e.2.Admits existing

theorem historySpec_revOf (existing : Option NamespaceBindingState) :
    (historySpec env).revOf existing = revisionOf existing := by
  cases existing <;> rfl

/-- The current state of a namespace with a history. -/
def stateOf (ns : String) (H : History env) : NamespaceCurrentState :=
  H.foldl (fun c e => e.2.applyTo e.1 c) (.initial ns)

/-- The journal of a namespace with a history. -/
def journalOf (H : History env) : List NamespaceJournalEntry := H.map fun e => e.2.entry e.1

@[simp] theorem stateOf_nil (ns : String) : stateOf ns ([] : History env) = .initial ns := rfl

@[simp] theorem stateOf_snoc (ns : String) (H : History env) (e : ℕ × Mutation env) :
    stateOf ns (H ++ [e]) = e.2.applyTo e.1 (stateOf ns H) := by
  simp [stateOf]

@[simp] theorem journalOf_snoc (H : History env) (e : ℕ × Mutation env) :
    journalOf (H ++ [e]) = journalOf H ++ [e.2.entry e.1] := by
  simp [journalOf]

/-- **The current state holds what the log of mutations says.** -/
theorem stateOf_bindings (ns : String) (H : History env) (p : String) :
    (stateOf ns H).bindings[p]? = (historySpec env).replay H p := by
  induction H using List.reverseRecOn generalizing p with
  | nil => simp [NamespaceCurrentState.initial]
  | append_singleton H e ih =>
    rw [stateOf_snoc, Log.Spec.replay_snoc, Mutation.applyTo_bindings_getElem?, Log.Spec.write]
    congr 1
    funext q
    exact ih q

theorem foldl_replay_journalOf (H : History env) (c : NamespaceCurrentState) :
    (journalOf H).foldl NamespaceJournalEntry.replay c.bindings =
      (H.foldl (fun c e => e.2.applyTo e.1 c) c).bindings := by
  induction H generalizing c with
  | nil => rfl
  | cons e H ih =>
    have h := ih (e.2.applyTo e.1 c)
    simp only [journalOf, List.map_cons, List.foldl_cons, Mutation.entry_replay] at h ⊢
    exact h

/-- The loop that replays a journal stops at the first entry beyond the limit. -/
theorem replayJournal_eq_foldl (limit : ℕ) (journal : List NamespaceJournalEntry)
    (bindings : BTreeMap String NamespaceBindingState) :
    replayJournal limit journal bindings =
      (journal.takeWhile fun entry => entry.revision ≤ limit).foldl NamespaceJournalEntry.replay
        bindings := by
  induction journal generalizing bindings with
  | nil => rfl
  | cons entry rest ih =>
    rw [replayJournal, List.takeWhile_cons]
    by_cases h : entry.revision ≤ limit
    · simp [h, ih]
    · simp [h]

/-- **A snapshot is the state of the part of the history up to its revision.** -/
theorem replayJournal_journalOf (ns : String) (limit : ℕ) (H : History env) :
    replayJournal limit (journalOf H) ∅ =
      (stateOf ns ((historySpec env).upTo limit H)).bindings := by
  have htake : (journalOf H).takeWhile (fun entry => decide (entry.revision ≤ limit)) =
      journalOf ((historySpec env).upTo limit H) := by
    simp only [journalOf, Log.Spec.upTo, List.takeWhile_map]
    rfl
  rw [replayJournal_eq_foldl, htake]
  exact foldl_replay_journalOf _ (.initial ns)

end Hsp
