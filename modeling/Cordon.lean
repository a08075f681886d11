import Cordon.Lib.Bytes
import Cordon.Lib.Utf8
import Cordon.Lib.Utf8Strict
import Cordon.Lib.Utf8Stream
import Cordon.Lib.Framing
import Cordon.Lib.Text
import Cordon.Lib.Utf8Cut
import Cordon.Lib.Sha256
import Cordon.Lib.Rfc3339
import Cordon.Lib.HashChain
import Cordon.Lib.Result
import Cordon.Lib.Transition
import Cordon.Lib.Occurrence
import Cordon.Lib.Provenance
import Cordon.Lib.Holdback
import Cordon.Lib.Association
import Cordon.Lib.Base64
import Cordon.Lib.RingLog
import Cordon.Lib.IndexMap
import Cordon.Lib.Table
import Cordon.Lib.UnixPath
import Cordon.Lib.PathLocation
import Cordon.Lib.Chunks
import Cordon.Lib.SelfDelimiting
import Cordon.Lib.BufferedWriter
import Cordon.Lib.HexNumber
import Cordon.Lib.Loop
import Cordon.Crypto.Signing
import Cordon.Crypto.Kdf
import Cordon.Crypto.KeyHierarchy
import Cordon.Crypto.Canonical
import Cordon.Crypto.X509Chain
import Cordon.Crypto.Cbor
import Cordon.Crypto.CborGrammar
import Cordon.Crypto.SigStructure
import Cordon.Crypto.Tpm2
import Cordon.Crypto.QuoteLayout
import Cordon.Crypto.SevSnp
import Cordon.Crypto.ChainWalks
import Cordon.Crypto.Nitro
import Cordon.Crypto.NitroSoundness
import Cordon.Crypto.NitroKeys
import Cordon.Crypto.Attestation
import Cordon.Crypto.HardwareRoot
import Cordon.Crypto.CanonicalReports
import Cordon.Audit.Events
import Cordon.Audit.Entry
import Cordon.Audit.Directory
import Cordon.Audit.Verify
import Cordon.Audit.TamperEvidence
import Cordon.Audit.Log
import Cordon.Audit.Segments
import Cordon.Audit.Contents
import Cordon.Audit.Append
import Cordon.Audit.Runs
import Cordon.Audit.LifecycleJson
import Cordon.Audit.Agreement
import Cordon.Audit.VerifyCommand
import Cordon.Audit.Writers
import Cordon.Audit.LastEntry
import Cordon.Audit.SegmentOrder
import Cordon.Audit.Tail
import Cordon.Core.Error
import Cordon.Core.OutputFilter
import Cordon.Core.PolicyRules
import Cordon.Core.StreamingFilter
import Cordon.Core.StreamingContract
import Cordon.Core.Blocklists
import Cordon.Core.Identity
import Cordon.Core.ModelStore
import Cordon.Core.RateLimiter
import Cordon.Core.RateBounds
import Cordon.Core.Admission
import Cordon.Core.AttestationService
import Cordon.Core.Sessions
import Cordon.Core.Bundles
import Cordon.Core.Verdicts
import Cordon.Core.VerdictRaces
import Cordon.Core.Admin
import Cordon.Core.Lifecycle
import Cordon.Core.Freshness
import Cordon.Core.Supervision
import Cordon.Core.RecoveryRaces
import Cordon.Core.Requests
import Cordon.Core.AttackDetector
import Cordon.Core.SseReader
import Cordon.Core.Reassembly
import Cordon.Core.SseRecords
import Cordon.Core.SseChunking
import Cordon.Core.RequestAccounts
import Cordon.Core.ResponseTiming
import Cordon.Core.StreamingRecords
import Cordon.Core.Violations
import Cordon.Core.SigningPayloads
import Cordon.Core.Anchors
import Cordon.Core.KeyContexts
import Cordon.Core.BundleVerify
import Cordon.Core.StagingFiles
import Cordon.Core.BundleSeal
import Cordon.Core.SealedBundles
import Cordon.Core.SealedReaders
import Cordon.Core.IntegrityVerdict
import Cordon.Core.ProvisionPaths
import Cordon.Core.Suspensions
import Cordon.Core.RefusedChecks
import Cordon.Core.WindowCounts
import Cordon.Core.SharedCounters
import Cordon.Core.InputHash
import Cordon.Core.CertificateTable
import Cordon.Core.HubDownload
import Cordon.Core.ModelRef
import Cordon.Core.TpmTools
import Cordon.Core.GenerateAttestation
import Cordon.Core.RequestIdentity
import Cordon.Core.RemoteClients
import Cordon.Core.LogBuffer
import Cordon.Lib.IpText
import Cordon.Core.Config
import Cordon.Core.LocalSeed
import Cordon.Core.NodeKeys
import Cordon.Core.Deployment
import Cordon.Core.BundleCopies
