import Hsp.Distribution.Multipart

/-!
# Requests to a distribution server

A `Request` is one operation of the `DistributionService` with the caller's authorization.
Executed one after another from the empty server, requests make up a run.  The `AlphaService` of a
distribution server is handed out for subscriptions only, which are requests here as well.
-/

namespace Hsp.Distribution

/-- A request to the distribution service. -/
inductive Request where
  | createBucket (auth : AuthContext) (tenantId : TenantId) (bucket : String)
  | listBuckets (auth : AuthContext) (tenantId : TenantId)
  | headBucket (auth : AuthContext) (tenantId : TenantId) (bucket : String)
  | deleteBucket (auth : AuthContext) (tenantId : TenantId) (bucket : String)
  | putBucketAcl (auth : AuthContext) (tenantId : TenantId) (bucket : String) (acl : CannedAcl)
  | getBucketAcl (auth : AuthContext) (tenantId : TenantId) (bucket : String)
  | putObjectAcl (auth : AuthContext) (tenantId : TenantId) (bucket key : String)
      (acl : CannedAcl)
  | getObjectAcl (auth : AuthContext) (tenantId : TenantId) (bucket key : String)
  | putLifecycleConfig (auth : AuthContext) (config : LifecycleConfig)
  | getLifecycleConfig (auth : AuthContext) (tenantId : TenantId) (bucket : String)
  | deleteLifecycleConfig (auth : AuthContext) (tenantId : TenantId) (bucket : String)
  | putObjectRetention (auth : AuthContext) (tenantId : TenantId) (bucket key : String)
      (immutableUntilMs : Option UInt64) (mode : Option String)
  | putObjectLegalHold (auth : AuthContext) (tenantId : TenantId) (bucket key : String)
      (legalHold : Bool)
  | getObjectLock (auth : AuthContext) (tenantId : TenantId) (bucket key : String)
  | putWebsiteConfig (auth : AuthContext) (config : WebsiteConfig)
  | getWebsiteConfig (auth : AuthContext) (tenantId : TenantId) (bucket : String)
  | deleteWebsiteConfig (auth : AuthContext) (tenantId : TenantId) (bucket : String)
  | putReplicationConfig (auth : AuthContext) (config : ReplicationConfig)
  | getReplicationConfig (auth : AuthContext) (tenantId : TenantId) (sourceBucket : String)
  | getReplicationStatus (auth : AuthContext) (tenantId : TenantId) (sourceBucket : String)
  | deleteReplicationConfig (auth : AuthContext) (tenantId : TenantId) (sourceBucket : String)
  | runReplicationOnce (auth : AuthContext) (tenantId : TenantId) (sourceBucket : String)
  | putObject (auth : AuthContext) (request : PutObjectRequest) (payload : List UInt8)
  | headObject (auth : AuthContext) (request : HeadObjectRequest)
  | getObject (auth : AuthContext) (request : GetObjectRequest)
  | deleteObject (auth : AuthContext) (request : DeleteObjectRequest)
  | listObjects (auth : AuthContext) (request : ListObjectsRequest)
  | copyObject (auth : AuthContext) (request : CopyObjectRequest)
  | createMultipartUpload (auth : AuthContext) (request : CreateMultipartUploadRequest)
  | uploadPart (auth : AuthContext) (request : UploadPartRequest) (ciphertextPart : List UInt8)
  | completeMultipartUpload (auth : AuthContext) (request : CompleteMultipartUploadRequest)
  | abortMultipartUpload (auth : AuthContext) (request : AbortMultipartUploadRequest)
  | subscribeStart (auth : AuthContext) (request : SubscribeRequest)
  | subscribePoll (auth : AuthContext) (request : SubscribeRequest) (cursor : EventCursor)

namespace Request

/-- What a request is answered with. -/
@[reducible] def Response : Request → Type
  | .createBucket .. | .headBucket .. => BucketRecord
  | .listBuckets .. => List BucketSummary
  | .putBucketAcl .. | .getBucketAcl .. => BucketAclRecord
  | .putObjectAcl .. | .getObjectAcl .. => ObjectAclRecord
  | .putLifecycleConfig .. | .getLifecycleConfig .. => LifecycleConfig
  | .putObjectRetention .. | .putObjectLegalHold .. | .getObjectLock .. => ObjectLockRecord
  | .putWebsiteConfig .. | .getWebsiteConfig .. => WebsiteConfig
  | .putReplicationConfig .. | .getReplicationConfig .. => ReplicationConfig
  | .getReplicationStatus .. | .runReplicationOnce .. => ReplicationStatus
  | .putObject .. | .completeMultipartUpload .. => PutObjectResponse
  | .headObject .. => HeadObjectResponse
  | .getObject .. => GetObjectResponse
  | .deleteObject .. => DeleteObjectResponse
  | .listObjects .. => ListObjectsResponse
  | .copyObject .. => CopyObjectResponse
  | .createMultipartUpload .. => CreateMultipartUploadResponse
  | .uploadPart .. => UploadPartResponse
  | .deleteBucket .. | .deleteLifecycleConfig .. | .deleteWebsiteConfig ..
  | .deleteReplicationConfig .. | .abortMultipartUpload .. => Unit
  | .subscribeStart .. => EventCursor
  | .subscribePoll .. => List SubscribeEnvelope × EventCursor

/-- Who makes the request. -/
def auth : Request → AuthContext
  | .createBucket auth .. | .listBuckets auth .. | .headBucket auth .. | .deleteBucket auth ..
  | .putBucketAcl auth .. | .getBucketAcl auth .. | .putObjectAcl auth .. | .getObjectAcl auth ..
  | .putLifecycleConfig auth .. | .getLifecycleConfig auth .. | .deleteLifecycleConfig auth ..
  | .putObjectRetention auth .. | .putObjectLegalHold auth .. | .getObjectLock auth ..
  | .putWebsiteConfig auth .. | .getWebsiteConfig auth .. | .deleteWebsiteConfig auth ..
  | .putReplicationConfig auth .. | .getReplicationConfig auth .. | .getReplicationStatus auth ..
  | .deleteReplicationConfig auth .. | .runReplicationOnce auth .. | .putObject auth ..
  | .headObject auth .. | .getObject auth .. | .deleteObject auth .. | .listObjects auth ..
  | .copyObject auth .. | .createMultipartUpload auth .. | .uploadPart auth ..
  | .completeMultipartUpload auth .. | .abortMultipartUpload auth .. | .subscribeStart auth ..
  | .subscribePoll auth .. => auth

variable (d : Deployment)

/-- How the service handles a request. -/
def handle : (r : Request) → Dist r.Response
  | .createBucket auth t bucket => Distribution.createBucket d auth t bucket
  | .listBuckets auth t => Distribution.listBuckets auth t
  | .headBucket auth t bucket => Distribution.headBucket auth t bucket
  | .deleteBucket auth t bucket => Distribution.deleteBucket auth t bucket
  | .putBucketAcl auth t bucket acl => Distribution.putBucketAcl auth t bucket acl
  | .getBucketAcl auth t bucket => Distribution.getBucketAcl auth t bucket
  | .putObjectAcl auth t bucket key acl => Distribution.putObjectAcl auth t bucket key acl
  | .getObjectAcl auth t bucket key => Distribution.getObjectAcl auth t bucket key
  | .putLifecycleConfig auth config => Distribution.putLifecycleConfig auth config
  | .getLifecycleConfig auth t bucket => Distribution.getLifecycleConfig auth t bucket
  | .deleteLifecycleConfig auth t bucket => Distribution.deleteLifecycleConfig auth t bucket
  | .putObjectRetention auth t bucket key immutableUntilMs mode =>
    Distribution.putObjectRetention auth t bucket key immutableUntilMs mode
  | .putObjectLegalHold auth t bucket key legalHold =>
    Distribution.putObjectLegalHold auth t bucket key legalHold
  | .getObjectLock auth t bucket key => Distribution.getObjectLock auth t bucket key
  | .putWebsiteConfig auth config => Distribution.putWebsiteConfig d auth config
  | .getWebsiteConfig auth t bucket => Distribution.getWebsiteConfig auth t bucket
  | .deleteWebsiteConfig auth t bucket => Distribution.deleteWebsiteConfig auth t bucket
  | .putReplicationConfig auth config => Distribution.putReplicationConfig auth config
  | .getReplicationConfig auth t bucket => Distribution.getReplicationConfig auth t bucket
  | .getReplicationStatus auth t bucket => Distribution.getReplicationStatus auth t bucket
  | .deleteReplicationConfig auth t bucket => Distribution.deleteReplicationConfig auth t bucket
  | .runReplicationOnce auth t bucket => Distribution.runReplicationOnce d auth t bucket
  | .putObject auth request payload => Distribution.putObject d auth request payload
  | .headObject auth request => Distribution.headObject auth request
  | .getObject auth request => Distribution.getObject d auth request
  | .deleteObject auth request => Distribution.deleteObject d auth request
  | .listObjects auth request => Distribution.listObjects auth request
  | .copyObject auth request => Distribution.copyObject d auth request
  | .createMultipartUpload auth request => Distribution.createMultipartUpload d auth request
  | .uploadPart auth request part => Distribution.uploadPart d auth request part
  | .completeMultipartUpload auth request => Distribution.completeMultipartUpload d auth request
  | .abortMultipartUpload auth request => Distribution.abortMultipartUpload auth request
  | .subscribeStart auth request => callAlpha (.subscribeStart auth request)
  | .subscribePoll auth request cursor => callAlpha (.subscribePoll auth request cursor)

/-- The answer to a request and the server after it, the request being executed alone. -/
def perform (r : Request) (s : Server) : Except ApiError r.Response × Server :=
  Prog.runE (act d) (r.handle d) s

end Request

variable (d : Deployment)

/-- The server after a sequence of requests. -/
def runRequests (requests : List Request) (s : Server) : Server :=
  requests.foldl (fun s r => (r.perform d s).2) s

@[simp] theorem runRequests_nil (s : Server) : runRequests d [] s = s := rfl

@[simp] theorem runRequests_cons (r : Request) (requests : List Request) (s : Server) :
    runRequests d (r :: requests) s = runRequests d requests (r.perform d s).2 := rfl

end Hsp.Distribution
