import Hsp.Service.Read

/-!
# Calls of a service

A `Call` is one request to the service with the caller's authorization.  Executed one after
another from the empty world, calls make up a run; the states a run goes through are what the
results of this development speak about.
-/

namespace Hsp

/-- A request to the service. -/
inductive Call where
  | putInit (auth : AuthContext) (request : PutInitRequest)
  | putChunk (auth : AuthContext) (request : PutChunkRequest) (ciphertextChunk : List UInt8)
  | putCommit (auth : AuthContext) (request : PutCommitRequest)
  | head (auth : AuthContext) (request : HeadRequest)
  | get (auth : AuthContext) (request : GetRequest)
  | resolve (auth : AuthContext) (request : ResolveRequest)
  | bind (auth : AuthContext) (request : BindRequest)
  | unbind (auth : AuthContext) (request : UnbindRequest)
  | list (auth : AuthContext) (request : ListRequest)
  | subscribeStart (auth : AuthContext) (request : SubscribeRequest)
  | subscribePoll (auth : AuthContext) (request : SubscribeRequest) (cursor : EventCursor)

/-- A successful answer. -/
inductive Reply where
  | putInit (r : PutInitResponse)
  | putChunk (r : PutChunkResponse)
  | putCommit (r : PutCommitResponse)
  | head (r : HeadResponse)
  | get (r : GetResponse)
  | resolve (r : ResolveResponse)
  | bind (r : BindResponse)
  | unbind (r : UnbindResponse)
  | list (r : ListResponse)
  | subscribeStart (r : EventCursor)
  | subscribePoll (r : List SubscribeEnvelope × EventCursor)
  deriving DecidableEq

/-- The revision an answer tells the client. -/
def Reply.revision? : Reply → Option ℕ
  | .bind r => some r.revision
  | .unbind r => some r.revision
  | _ => none

variable (env : Env)

/-- How the service handles a call. -/
def Call.handle : Call → Svc Reply
  | .putInit auth request => .putInit <$> Hsp.putInit env auth request
  | .putChunk auth request chunk => .putChunk <$> Hsp.putChunk env auth request chunk
  | .putCommit auth request => .putCommit <$> Hsp.putCommit env auth request
  | .head auth request => .head <$> Hsp.head env auth request
  | .get auth request => .get <$> Hsp.get env auth request
  | .resolve auth request => .resolve <$> Hsp.resolve env auth request
  | .bind auth request => .bind <$> Hsp.bind env auth request
  | .unbind auth request => .unbind <$> Hsp.unbind env auth request
  | .list auth request => .list <$> Hsp.list env auth request
  | .subscribeStart auth request => .subscribeStart <$> Hsp.subscribeStart env auth request
  | .subscribePoll auth request cursor =>
    .subscribePoll <$> Hsp.subscribePoll env auth request cursor

/-- What a call is answered with. -/
@[reducible] def Call.Response : Call → Type
  | .putInit _ _ => PutInitResponse
  | .putChunk _ _ _ => PutChunkResponse
  | .putCommit _ _ => PutCommitResponse
  | .head _ _ => HeadResponse
  | .get _ _ => GetResponse
  | .resolve _ _ => ResolveResponse
  | .bind _ _ => BindResponse
  | .unbind _ _ => UnbindResponse
  | .list _ _ => ListResponse
  | .subscribeStart _ _ => EventCursor
  | .subscribePoll _ _ _ => List SubscribeEnvelope × EventCursor

/-- The handling of a call, with the answer at its own type. -/
def Call.answer : (c : Call) → Svc c.Response
  | .putInit auth request => Hsp.putInit env auth request
  | .putChunk auth request chunk => Hsp.putChunk env auth request chunk
  | .putCommit auth request => Hsp.putCommit env auth request
  | .head auth request => Hsp.head env auth request
  | .get auth request => Hsp.get env auth request
  | .resolve auth request => Hsp.resolve env auth request
  | .bind auth request => Hsp.bind env auth request
  | .unbind auth request => Hsp.unbind env auth request
  | .list auth request => Hsp.list env auth request
  | .subscribeStart auth request => Hsp.subscribeStart env auth request
  | .subscribePoll auth request cursor => Hsp.subscribePoll env auth request cursor

/-- The reply an answer is sent as. -/
def Call.reply : (c : Call) → c.Response → Reply
  | .putInit _ _ => .putInit
  | .putChunk _ _ _ => .putChunk
  | .putCommit _ _ => .putCommit
  | .head _ _ => .head
  | .get _ _ => .get
  | .resolve _ _ => .resolve
  | .bind _ _ => .bind
  | .unbind _ _ => .unbind
  | .list _ _ => .list
  | .subscribeStart _ _ => .subscribeStart
  | .subscribePoll _ _ _ => .subscribePoll

theorem Call.handle_eq (c : Call) : c.handle env = c.reply <$> c.answer env := by
  cases c <;> rfl

/-- The answer to a call and the world after it, the call being executed alone. -/
def Call.perform (c : Call) (w : World) : Except ApiError Reply × World :=
  Prog.runE (exec env) (c.handle env) w

theorem Call.perform_eq_answer (c : Call) (w : World) :
    c.perform env w = ((runE (exec env) (c.answer env) w).1.map c.reply,
      (runE (exec env) (c.answer env) w).2) := by
  rw [Call.perform, Call.handle_eq, runE_map]

/-- The world after a sequence of calls. -/
def runCalls (calls : List Call) (w : World) : World :=
  calls.foldl (fun w c => (c.perform env w).2) w

@[simp] theorem runCalls_nil (w : World) : runCalls env [] w = w := rfl

@[simp] theorem runCalls_cons (c : Call) (calls : List Call) (w : World) :
    runCalls env (c :: calls) w = runCalls env calls (c.perform env w).2 := rfl

theorem runCalls_append (xs ys : List Call) (w : World) :
    runCalls env (xs ++ ys) w = runCalls env ys (runCalls env xs w) := by
  simp [runCalls]

end Hsp
