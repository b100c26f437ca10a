import Hsp.Distribution.Deletes
import Hsp.Distribution.Locks
import Hsp.S3.Binding

/-!
# Deleting several objects

A `DeleteObjects` request lists keys, and the server deletes one after the other.  It does not look
at what becomes of the deletions, and answers with the keys of the request.

* `bulk_delete_iff` : exactly when a key that is reported as deleted is not live;
* `Sample.held_reported` : a key under legal hold is reported as deleted, and is live.
-/

namespace Hsp

open Hsp.Distribution

namespace S3

variable (d : S3Deployment)

/-- The route of a `DeleteObjects` request: the objects the answer reports as deleted, and the
server after it. -/
def deleteObjects (auth : AuthContext) (bucket : String) (body : List UInt8) (s : Server) :
    Except ApiError (List String) × Server :=
  match d.xml.delete body with
  | .error e => (.error e, s)
  | .ok deleted =>
    (.ok deleted,
      runRequests d.toDeployment (deletes auth (deleted.map (deleteRequest d auth bucket))) s)

variable {d}

/-- **What a `DeleteObjects` request reports.**  In any state: a key that is reported as deleted is
not live after the request exactly if it was not live before it, or one of the deletions of the
request can delete what is bound at the place of the key before it, when its turn has come. -/
theorem bulk_delete_iff {auth : AuthContext} {bucket : String} {body : List UInt8} {s s' : Server}
    {deleted : List String} (h : deleteObjects d auth bucket body s = (.ok deleted, s')) :
    ∀ key ∈ deleted, ¬ s'.Live auth.claims.tenantId bucket key ↔
      ¬ s.Live auth.claims.tenantId bucket key ∨
        ∃ ns path, s.place auth.claims.tenantId bucket key = some (ns, path) ∧
          Deleted d.toDeployment s auth (deleted.map (deleteRequest d auth bucket)) ns path := by
  intro key hkey
  rw [deleteObjects] at h
  cases hdeleted : d.xml.delete body with
  | error e =>
    rw [hdeleted] at h
    cases h
  | ok keys =>
    rw [hdeleted] at h
    obtain ⟨hkeys, rfl⟩ := Prod.ext_iff.1 h
    obtain rfl := Except.ok.inj hkeys
    have ht : ∀ request ∈ keys.map (deleteRequest d auth bucket),
        request.tenantId = auth.claims.tenantId := by
      rw [List.forall_mem_map]
      exact fun _ _ => rfl
    cases hplace : s.place auth.claims.tenantId bucket key with
    | none => simp [Server.Live, place_deletes, hplace]
    | some place =>
      obtain ⟨ns, path⟩ := place
      rw [live_iff hplace, live_iff ((place_deletes _ _ _ _).trans hplace), live_deletes ht,
        not_and_or, not_not]
      simp

end S3

namespace Sample

open S3

/-- A server that reads one key to be deleted. -/
def bulkDeployment : S3Deployment :=
  { S3.Sample.s3Deployment with
    toDeployment := deployment heldRecords [] 0
    xml := { S3.Sample.s3Deployment.xml with delete := fun _ => .ok ["k"] } }

/-- The object is put, and is not placed under legal hold. -/
def unheldServer : Server := runRequests (deployment heldRecords [] 0) (held.take 2) .empty

theorem bulk_evaluated :
    let run := deleteObjects bulkDeployment (writer "3") "b" []
    (run unheldServer).1 = .ok ["k"] ∧
      unheldServer.place (writer "3").claims.tenantId "b" "k" = some ("b", "k") ∧
      (unheldServer.alpha.binding (writer "3").claims.tenantId "b" "k").map (·.tombstone) =
        some false ∧
      (run unheldServer).2.place (writer "3").claims.tenantId "b" "k" = some ("b", "k") ∧
      ((run unheldServer).2.alpha.binding (writer "3").claims.tenantId "b" "k").map
        (·.tombstone) = some true ∧
      (run heldServer).1 = .ok ["k"] ∧
      (run heldServer).2.place tenant "b" "k" = some ("b", "k") ∧
      ((run heldServer).2.alpha.binding tenant "b" "k").map (·.tombstone) = some false := by
  decide +kernel

/-- The key is reported as deleted, is not live any more, and could be deleted. -/
theorem unheld_reported :
    ∃ s', deleteObjects bulkDeployment (writer "3") "b" [] unheldServer = (.ok ["k"], s') ∧
      ¬ s'.Live (writer "3").claims.tenantId "b" "k" ∧
      ∃ ns path, unheldServer.place (writer "3").claims.tenantId "b" "k" = some (ns, path) ∧
        Deleted bulkDeployment.toDeployment unheldServer (writer "3")
          [deleteRequest bulkDeployment (writer "3") "b" "k"] ns path := by
  obtain ⟨hreported, hplace, hlive, hplace', hdeleted, -⟩ := bulk_evaluated
  rcases hrun : deleteObjects bulkDeployment (writer "3") "b" [] unheldServer with ⟨result, s'⟩
  rw [hrun] at hreported hplace' hdeleted
  obtain rfl : result = .ok ["k"] := hreported
  have hbefore : unheldServer.Live (writer "3").claims.tenantId "b" "k" := by
    obtain ⟨b, hb, htombstone⟩ := exists_live hlive
    rw [live_iff hplace, hb]
    exact htombstone
  have hafter : ¬ s'.Live (writer "3").claims.tenantId "b" "k" := by
    obtain ⟨b, hb, htombstone⟩ := Option.map_eq_some_iff.1 hdeleted
    rw [live_iff hplace', hb, isLive, htombstone]
    exact Bool.noConfusion
  exact ⟨s', rfl, hafter, ((bulk_delete_iff hrun "k" (List.mem_singleton_self _)).1
    hafter).resolve_left (not_not.2 hbefore)⟩

/-- **A key under legal hold is reported as deleted, and is still bound.** -/
theorem held_reported :
    (deleteObjects bulkDeployment (writer "3") "b" [] heldServer).1 = .ok ["k"] ∧
      (deleteObjects bulkDeployment (writer "3") "b" [] heldServer).2.Live tenant "b" "k" := by
  obtain ⟨-, -, -, -, -, hreported, hplace, hlive⟩ := bulk_evaluated
  obtain ⟨b, hb, htombstone⟩ := exists_live hlive
  refine ⟨hreported, "b", "k", hplace, ?_⟩
  rw [hb]
  exact htombstone

end Sample

end Hsp
