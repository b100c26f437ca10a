import Hsp.Service.Store
import Mathlib.Data.Nat.Digits.Defs

/-!
# Names in the backing store

The name the service gives an entry in the backing store: the store kind, a directory for the
tenant and a file named after a digest of the key.

* `storeKey_injective` : distinct entries have distinct names.
-/

namespace Hsp

open List

variable (env : Env)

def tenantStoreDir (tenantId : TenantId) : String := Base64.encode (utf8 tenantId.val)

def storeFileName (key : String) : String := cidFromBytes env (utf8 key) ++ ".json.enc"

/-- A number in decimal, filled up with zeros to a width. -/
def padZeros (width n : ℕ) : String :=
  String.ofList (((Nat.digits 10 n).reverse.map Nat.digitChar).leftpad width '0')

def idempotencyKey (tenantId : TenantId) (op : IdempotentOp) (value : String) : String :=
  op.asStr ++ "-" ++ cidFromBytes env (utf8 tenantId.val) ++ "-" ++ cidFromBytes env (utf8 value)

namespace Loc

def storeKind : Loc → String
  | .sessions _ _ => "sessions"
  | .chunks _ _ => "chunks"
  | .manifests _ _ => "manifests"
  | .namespaceCurrent _ _ => "namespace-current"
  | .namespaceJournal _ _ => "namespace-journal"
  | .namespaceRevisions _ _ => "namespace-revisions"
  | .audit _ _ => "audit"
  | .idempotency _ _ _ => "idempotency"
  | .replay _ _ => "replay"
  | .eventSequence _ | .event _ _ => "events"

def tenantId : Loc → TenantId
  | .sessions t _ | .chunks t _ | .manifests t _ | .namespaceCurrent t _ | .namespaceJournal t _
  | .namespaceRevisions t _ | .audit t _ | .idempotency t _ _ | .replay t _ | .eventSequence t
  | .event t _ => t

def key : Loc → String
  | .sessions _ k | .chunks _ k | .manifests _ k | .namespaceCurrent _ k | .namespaceJournal _ k
  | .namespaceRevisions _ k | .audit _ k | .replay _ k => k
  | .idempotency t op value => idempotencyKey env t op value
  | .eventSequence _ => "sequence"
  | .event _ seq => "event-" ++ padZeros 20 seq

def storeKey (l : Loc) : String :=
  l.storeKind ++ "/" ++ tenantStoreDir l.tenantId ++ "/" ++ storeFileName env (l.key env)

end Loc

variable {env}

/-! ### The parts of a name determine it -/

theorem append_cons_eq_iff {c : Char} {xs xs' ys ys' : List Char} :
    xs ++ c :: ys = xs' ++ c :: ys' ↔ (xs = xs' ∧ ys = ys') ∨
      (∃ r, xs' = xs ++ c :: r ∧ ys = r ++ c :: ys') ∨
        ∃ r, xs = xs' ++ c :: r ∧ ys' = r ++ c :: ys := by
  constructor
  · intro h
    rcases append_eq_append_iff.1 h with ⟨_ | ⟨d, r⟩, hxs, hys⟩ | ⟨_ | ⟨d, r⟩, hxs, hys⟩ <;>
      simp_all
  · rintro (⟨rfl, rfl⟩ | ⟨r, rfl, rfl⟩ | ⟨r, rfl, rfl⟩) <;> simp

/-- Two texts that are equal up to the first occurrence of a character and after it. -/
theorem append_cons_inj_of_not_mem {c : Char} {xs xs' ys ys' : List Char} (h : c ∉ xs)
    (h' : c ∉ xs') (he : xs ++ c :: ys = xs' ++ c :: ys') : xs = xs' ∧ ys = ys' := by
  rcases append_cons_eq_iff.1 he with hsame | ⟨r, rfl, -⟩ | ⟨r, rfl, -⟩
  · exact hsame
  · simp at h'
  · simp at h

/-- Two pairs of texts that make one text when a separator is put between their parts: the pairs are
the same, or the separator occurs in a part of each. -/
def SameJoin (sep a b a' b' : String) : Prop :=
  (a = a' ∧ b = b') ∨ (∃ r, a' = a ++ sep ++ r ∧ b = r ++ sep ++ b') ∨
    ∃ r, a = a' ++ sep ++ r ∧ b' = r ++ sep ++ b

theorem sameJoin_iff {sep a b a' b' : String} {c : Char} (h : sep.toList = [c]) :
    a ++ sep ++ b = a' ++ sep ++ b' ↔ SameJoin sep a b a' b' := by
  have hexists (p : String → Prop) : (∃ r, p r) ↔ ∃ xs, p (.ofList xs) :=
    ⟨fun ⟨r, hr⟩ => ⟨r.toList, by simpa using hr⟩, fun ⟨xs, hxs⟩ => ⟨_, hxs⟩⟩
  simp only [SameJoin, hexists, ← String.toList_inj, String.toList_append, String.toList_ofList, h,
    append_assoc, singleton_append, append_cons_eq_iff]

/-- The digits of a number can be read back, the zeros in front as zeros. -/
theorem digits_padZeros (width n : ℕ) :
    (padZeros width n).toList.reverse.map (fun c => c.toNat - 48) =
      Nat.digits 10 n ++ List.replicate (width - (Nat.digits 10 n).length) 0 := by
  have hdigits : (Nat.digits 10 n).map ((fun c : Char => c.toNat - 48) ∘ Nat.digitChar) =
      Nat.digits 10 n := by
    refine (map_congr_left fun d hd => ?_).trans (map_id _)
    simp [Nat.toNat_digitChar_of_lt_ten (Nat.digits_lt_base (by decide) hd)]
  simp [padZeros, List.leftpad, hdigits]

theorem padZeros_inj {width a b : ℕ} (h : padZeros width a = padZeros width b) : a = b := by
  have hdigits := congrArg (fun s : String => s.toList.reverse.map fun c => c.toNat - 48) h
  simp only [digits_padZeros] at hdigits
  have hval := congrArg (Nat.ofDigits 10) hdigits
  simpa [Nat.ofDigits_append_replicate_zero, Nat.ofDigits_digits] using hval

theorem tenantStoreDir_inj {t t' : TenantId} (h : tenantStoreDir t = tenantStoreDir t') :
    t = t' := by
  obtain ⟨t⟩ := t
  obtain ⟨t'⟩ := t'
  exact congrArg TenantId.mk (utf8_inj (Base64.encode_inj h))

theorem storeFileName_inj {k k' : String} (h : storeFileName env k = storeFileName env k') :
    k = k' := by
  have hcid : (cidFromBytes env (utf8 k)).toList = (cidFromBytes env (utf8 k')).toList := by
    simpa [storeFileName, String.toList_append] using congrArg String.toList h
  exact utf8_inj (cidFromBytes_inj (String.toList_inj.1 hcid))

theorem IdempotentOp.asStr_injective : Function.Injective IdempotentOp.asStr := by
  intro a b h
  cases a <;> cases b <;> first | rfl | (revert h; decide)

theorem idempotencyKey_inj {t : TenantId} {op op' : IdempotentOp} {v v' : String}
    (h : idempotencyKey env t op v = idempotencyKey env t op' v') : op = op' ∧ v = v' := by
  have hdash : ∀ op : IdempotentOp, '-' ∉ op.asStr.toList := by
    intro op; cases op <;> decide
  have hlist := congrArg String.toList h
  simp only [idempotencyKey, String.toList_append, append_assoc] at hlist
  obtain ⟨hop, hrest⟩ := append_cons_inj_of_not_mem (hdash op) (hdash op') hlist
  refine ⟨IdempotentOp.asStr_injective (String.toList_inj.1 hop), ?_⟩
  have hv := append_cancel_left (append_cancel_left (append_cancel_left hrest))
  exact utf8_inj (cidFromBytes_inj (String.toList_inj.1 hv))

theorem slash_not_mem_tenantStoreDir (t : TenantId) : '/' ∉ (tenantStoreDir t).toList := by
  rw [tenantStoreDir, Base64.encode, String.toList_ofList]
  exact Base64.slash_not_mem_encodeBytes _

theorem slash_not_mem_storeKind (l : Loc) : '/' ∉ l.storeKind.toList := by
  cases l <;> simp [Loc.storeKind]

/-- An entry is determined by its kind, its tenant and its key. -/
theorem eq_of_storeKind_tenantId_key {l l' : Loc} (hkind : l.storeKind = l'.storeKind)
    (ht : l.tenantId = l'.tenantId) (hkey : l.key env = l'.key env) : l = l' := by
  have hevent (seq : ℕ) : "sequence" ≠ "event-" ++ padZeros 20 seq := fun h => by
    simpa using congrArg (·.toList.head?) h
  cases l <;> cases l' <;>
    simp_all [Loc.storeKind, Loc.tenantId, Loc.key, fun seq => (hevent seq).symm]
  · exact idempotencyKey_inj hkey
  · exact padZeros_inj hkey

/-- **Distinct entries have distinct names in the backing store.** -/
theorem storeKey_injective : Function.Injective (Loc.storeKey env) := by
  intro l l' h
  have hlist := congrArg String.toList h
  simp only [Loc.storeKey, String.toList_append, append_assoc] at hlist
  obtain ⟨hkind, hrest⟩ := append_cons_inj_of_not_mem (slash_not_mem_storeKind l)
    (slash_not_mem_storeKind l') hlist
  obtain ⟨hdir, hfile⟩ := append_cons_inj_of_not_mem (slash_not_mem_tenantStoreDir _)
    (slash_not_mem_tenantStoreDir _) hrest
  exact eq_of_storeKind_tenantId_key (String.toList_inj.1 hkind)
    (tenantStoreDir_inj (String.toList_inj.1 hdir)) (storeFileName_inj (String.toList_inj.1 hfile))

end Hsp
