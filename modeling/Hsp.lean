import Hsp.Access.Tenants
import Hsp.Access.Uploads
import Hsp.Backend.Interchange
import Hsp.Cdn.Cache
import Hsp.Core.Deterministic
import Hsp.Core.Identity
import Hsp.Crypto.Envelope
import Hsp.Distribution.Chunking
import Hsp.Distribution.Compliance
import Hsp.Distribution.Expiry
import Hsp.Distribution.ListObjects
import Hsp.Distribution.LockRaces
import Hsp.Distribution.Uploads
import Hsp.Events.CommitEvents
import Hsp.Gateway.Routes
import Hsp.Namespace.Cursors
import Hsp.Namespace.Faults
import Hsp.Namespace.Provenance
import Hsp.Replay.Cluster
import Hsp.Replay.Identities
import Hsp.Replay.Responses
import Hsp.S3.AccessKeys
import Hsp.S3.BulkDelete
import Hsp.S3.Presigned
import Hsp.Sdk.Native
import Hsp.Sdk.Policy
import Hsp.Sdk.Responses
import Hsp.Service.Interleavings
import Hsp.Wire.Responses
import Hsp.Distribution.DeleteCopy
