import Hsp.Replay.Effects

/-!
# Whose response a retry gets

A response is stored under the tenant, the operation and the idempotency key of the request, but the
use of the token that makes a request a retry is another one for every path, session and manifest.
Requests with the same key for different paths overwrite each other's responses.

* `stored_response` : every stored response is the answer to an earlier request that was carried
  out under the same key;
* `answered_with_own_response` : a retry gets its own answer if the requests carried out under its
  key were made with the same use of the token.
-/

namespace Hsp

variable {env : Env}

/-- The call was the given request, which was carried out and succeeded. -/
def Exchange.Completes (env : Env) (y : Exchange) (k : Keyed) : Prop :=
  y.call.keyed env y.before = some k ∧ ¬ k.Answered env y.before ∧ y.reply.isOk

instance Keyed.decidableAnswered (env : Env) (k : Keyed) (w : World) :
    Decidable (k.Answered env w) :=
  inferInstanceAs (Decidable (_ ∧ _))

/-- Every stored response is the answer to a request that was carried out under its key. -/
def FromEarlier (env : Env) (ys : List Exchange) (w : World) : Prop :=
  ∀ t op key (record : IdempotencyRecord op.Response),
    w.store (.idempotency t op key) = some record →
    ∃ y ∈ ys, ∃ k, y.Completes env k ∧ k.slot = .idempotency t op key ∧
      y.reply = .ok (op.reply record.response)

namespace FromEarlier

variable {ys zs : List Exchange} {w w' : World}

theorem mono (h : FromEarlier env ys w) (hsub : ys ⊆ zs) (hw : SameOn Loc.isResponse w w') :
    FromEarlier env zs w' := by
  intro t op key record hrecord
  rw [hw _ rfl] at hrecord
  obtain ⟨y, hy, hcompletes⟩ := h t op key record hrecord
  exact ⟨y, hsub hy, hcompletes⟩

/-- The response of a request that is carried out is added. -/
theorem add (h : FromEarlier env ys w) {y : Exchange} {k : Keyed} {response : k.op.Response}
    (hy : y.Completes env k) (hreply : y.reply = .ok (k.op.reply response))
    (hw : SameOn Loc.isResponse (w.set k.slot (some ⟨response⟩)) w') :
    FromEarlier env (ys ++ [y]) w' := by
  intro t op key record hrecord
  rw [hw _ rfl] at hrecord
  by_cases hslot : k.slot = .idempotency t op key
  · injection hslot with ht hop hkey
    subst ht hop hkey
    rw [World.set_store_self] at hrecord
    cases hrecord
    exact ⟨y, by simp, k, hy, rfl, hreply⟩
  · rw [World.set_store_of_ne _ (Ne.symm hslot)] at hrecord
    obtain ⟨y', hy', hcompletes⟩ := h t op key record hrecord
    exact ⟨y', List.mem_append_left _ hy', hcompletes⟩

end FromEarlier

theorem Call.sameResponses {c : Call} (h : ¬ c.IsKeyed) (w : World) :
    SameOn Loc.isResponse w (c.perform env w).2 := by
  refine c.sameOn env (fun l hl => ?_) (fun l hl => ?_) w
  · cases l <;> first | rfl | cases hl
  · cases c <;> cases l <;> first | rfl | exact absurd trivial h | cases hl

theorem sameResponses_of_authorize {auth : AuthContext} {req : AuthRequestMeta} {w w' : World}
    {result : Except ApiError AuthorizationDecision}
    (h : runE (exec env) (authorize env auth req) w = (result, w')) :
    SameOn Loc.isResponse w w' := by
  intro l hl
  have hdata : l.isData := by
    cases l <;> first | rfl | cases hl
  exact sameOn_of_authorize h l hdata

theorem FromEarlier.step {ys : List Exchange} {w : World} (h : FromEarlier env ys w) (c : Call) :
    FromEarlier env (ys ++ [c.exchange env w]) (c.perform env w).2 := by
  have hsub : ys ⊆ ys ++ [c.exchange env w] := List.subset_append_left _ _
  by_cases hkeyed : c.IsKeyed
  swap
  · exact h.mono hsub (Call.sameResponses hkeyed w)
  rcases Call.perform_eq env hkeyed w with ⟨-, e, hrun⟩ | ⟨k, hk, hrun⟩
  · refine h.mono hsub ?_
    rw [hrun]
    exact fun _ _ => rfl
  rw [runE_map] at hrun
  rcases k.handle_cases env w with ⟨e, w₁, hauth, hhandle⟩ | ⟨_, w₁, hauth, -, hhandle⟩ |
    ⟨_, w₁, hauth, hcarried, hhandle⟩
  · refine h.mono hsub ?_
    rw [hrun, hhandle]
    exact sameResponses_of_authorize hauth
  · refine h.mono hsub ?_
    rw [hrun, hhandle]
    exact sameResponses_of_authorize hauth
  · have h₁ : FromEarlier env ys w₁ :=
      h.mono (List.Subset.refl _) (sameResponses_of_authorize hauth)
    rcases happly : runE (exec env) k.apply w₁ with ⟨e | response, w'⟩
    · refine h₁.mono hsub ?_
      rw [hrun, hhandle, happly]
      exact ((Call.lawful hk).stores w₁).2 e w' happly
    · have hreply : (c.perform env w).1 = .ok (k.op.reply response) := by
        rw [hrun, hhandle, happly]
        rfl
      have hcompletes : (c.exchange env w).Completes env k := by
        refine ⟨hk, hcarried, ?_⟩
        rw [Call.exchange, hreply]
        rfl
      refine h₁.add hcompletes hreply ?_
      rw [hrun, hhandle, happly]
      exact ((Call.lawful hk).stores w₁).1 response w' happly

/-- **Every stored response is the answer to an earlier request** that was carried out under its
key. -/
theorem stored_response (env : Env) (calls : List Call) :
    FromEarlier env (exchanges env calls World.empty) (runCalls env calls World.empty) := by
  induction calls using List.reverseRecOn with
  | nil =>
    intro t op key record hrecord
    cases hrecord
  | append_singleton calls c ih =>
    rw [exchanges_append, runCalls_append]
    exact ih.step c

/-- **A retry gets its own answer** if the requests that were carried out under its operation and
idempotency key were made with the same use of the token. -/
theorem answered_with_own_response (env : Env) (calls : List Call) {c : Call} {k : Keyed}
    {w : World} (hw : w = runCalls env calls World.empty) (hk : c.keyed env w = some k)
    (hanswered : k.Answered env w)
    (hkeys : ∀ y ∈ exchanges env calls World.empty, ∀ k', y.Completes env k' →
      k'.slot = k.slot → k'.use = k.use) :
    ∃ y ∈ exchanges env calls World.empty, ∃ k' u, y.Completes env k' ∧ k'.use = some u ∧
      k.use = some u ∧ k'.key = k.key ∧ (c.perform env w).1 = y.reply := by
  obtain ⟨hretry, hstored⟩ := hanswered
  obtain ⟨record, hrecord⟩ := Option.isSome_iff_exists.1 hstored
  obtain ⟨y, hy, k', hcompletes, hslot, hreply⟩ :=
    stored_response env calls _ _ _ record (hw ▸ hrecord)
  rcases hauth : runE (exec env) (authorize env k.auth k.req) w with ⟨e | decision, w₁⟩
  · rw [hauth] at hretry
    cases hretry
  rw [hauth, Except.ok.injEq] at hretry
  subst hretry
  have hhandle := Keyed.runE_handle_stored hauth hrecord
  obtain ⟨u, hu⟩ := Keyed.use_of_ok hhandle
  have hkey : k'.key = k.key := by
    injection hslot
  refine ⟨y, hy, k', u, hcompletes, (hkeys y hy k' hcompletes hslot).trans hu, hu, hkey, ?_⟩
  have hkeyed : c.IsKeyed := by
    cases c <;> trivial
  rcases Call.perform_eq env hkeyed w with ⟨hnone, -⟩ | ⟨k₁, hk₁, hrun⟩
  · rw [hk] at hnone
    cases hnone
  · obtain rfl := Option.some.inj (hk.symm.trans hk₁)
    rw [hrun, runE_map, hhandle, hreply]
    rfl

namespace Sample

/-- The object is bound to a path under the idempotency key `key`, by the record a token stands
for. -/
def bindAt (jti path : String) (record : UInt8) : Call :=
  .bind (auth jti) ⟨tenant, "n", path, manifestCid, none, true, ∅, none, "key", token record⟩

/-- The same key is used for two paths, and the first bind is repeated. -/
def sharedKey : List Call := upload ++ [bindAt "4" "p" 0, bindAt "5" "q" 1, bindAt "4" "p" 0]

/-- The retry of the first bind gets the response to the second. -/
theorem retry_gets_other_response :
    let replies := (exchanges (Sample.env [bindRecord, otherRecord]) sharedKey World.empty).map
      (·.reply)
    replies.all (·.isOk) ∧ replies[5]? = replies[4]? ∧ replies[5]? ≠ replies[3]? := by
  decide +kernel

/-- The path is bound. -/
def boundOnce : List Call := upload ++ [bindAt "4" "p" 0]

/-- The bind is repeated. -/
def boundAgain : Keyed :=
  ((bindAt "4" "p" 0).keyed (Sample.env [bindRecord])
    (runCalls (Sample.env [bindRecord]) boundOnce World.empty)).get (by decide +kernel)

/-- The retry gets the response to the bind. -/
theorem retry_gets_own_response :
    ∃ y ∈ exchanges (Sample.env [bindRecord]) boundOnce World.empty, ∃ k u,
      y.Completes (Sample.env [bindRecord]) k ∧ k.use = some u ∧ boundAgain.use = some u ∧
        k.key = boundAgain.key ∧ ((bindAt "4" "p" 0).perform (Sample.env [bindRecord])
          (runCalls (Sample.env [bindRecord]) boundOnce World.empty)).1 = y.reply := by
  have ⟨hkeys, hanswered⟩ : (∀ y ∈ exchanges (Sample.env [bindRecord]) boundOnce World.empty,
      ∀ k ∈ y.call.keyed (Sample.env [bindRecord]) y.before,
        k.slot = boundAgain.slot → k.use = boundAgain.use) ∧
      boundAgain.Answered (Sample.env [bindRecord])
        (runCalls (Sample.env [bindRecord]) boundOnce World.empty) := by
    decide +kernel
  exact answered_with_own_response (Sample.env [bindRecord]) boundOnce rfl
    (Option.some_get _).symm hanswered fun y hy k hk => hkeys y hy k hk.1

end Sample

end Hsp
