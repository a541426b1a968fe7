import Gyza.Lib.Hex
import Gyza.Lib.Base64
import Gyza.Lib.Lines
import Gyza.Lib.CanonJson
import Gyza.Lib.PyNumber
import Gyza.Lib.Decimal
import Gyza.Lib.PyValue
import Gyza.Lib.KeyOrder
import Gyza.Lib.PyObject
import Gyza.Lib.Table
import Gyza.Lib.Run
import Gyza.Lib.ReadModifyWrite
import Gyza.Lib.Checks
import Gyza.Lib.Delimited
import Gyza.Lib.LexicalPath
import Gyza.Lib.Uvarint
import Gyza.Lib.HashChain
import Gyza.Lib.SlidingWindow
import Gyza.Lib.Forest
import Gyza.Lib.Kahn
import Gyza.Lib.Dict
import Gyza.Lib.FileTree
import Gyza.Lib.Dedup
import Gyza.Lib.Paging
import Gyza.Lib.Quorum
import Gyza.Lib.Vouching
import Gyza.Lib.Keyed
import Gyza.Lib.Buckets
import Gyza.Lib.Register
import Gyza.Lib.Causality
import Gyza.Lib.Replication
import Gyza.Lib.LatestWins
import Gyza.Lib.Segments
import Gyza.Lib.Combinations
import Gyza.Lib.PrefixCode
import Gyza.Lib.KeyedSort
import Gyza.Lib.StreamScan
import Gyza.Crypto
import Gyza.ArtifactStore
import Gyza.ArtifactRuns
import Gyza.Ledger
import Gyza.LedgerStore
import Gyza.Wallet
import Gyza.WalletFold
import Gyza.WalletStatements
import Gyza.Subcontract
import Gyza.BudgetTree
import Gyza.Delegation
import Gyza.SandboxGate
import Gyza.Irreversibility
import Gyza.SignedBytes
import Gyza.BalanceCache
import Gyza.SandboxLaunch
import Gyza.SandboxReply
import Gyza.BuildAttestation
import Gyza.Envelope
import Gyza.RustCanonJson
import Gyza.StringEscapes
import Gyza.CanonicalForm
import Gyza.RustChain
import Gyza.Dag
import Gyza.DagOrder
import Gyza.TopoOrder
import Gyza.DagChain
import Gyza.ChainHead
import Gyza.EnvelopeLog
import Gyza.Settlement
import Gyza.SettlementRuns
import Gyza.Reputation
import Gyza.RateBudget
import Gyza.Reconcile
import Gyza.ReconcileInbox
import Gyza.ReconcileBuckets
import Gyza.Board
import Gyza.BoardRuns
import Gyza.BoundedFetch
import Gyza.Gossip
import Gyza.HlcCausality
import Gyza.DeltaSequence
import Gyza.GossipDelivery
import Gyza.ClaimMerge
import Gyza.ClaimStamps
import Gyza.ClaimLease
import Gyza.ReleasedClaim
import Gyza.ReclaimRace
import Gyza.ClockRange
import Gyza.Replicas
import Gyza.ReplicaOrder
import Gyza.Network
import Gyza.IntentCreator
import Gyza.Raft
import Gyza.RaftRuns
import Gyza.Attestation
import Gyza.RecursiveAttestation
import Gyza.RecursiveRuns
import Gyza.CosignatureOrder
import Gyza.DhtRecords
import Gyza.Discovery
import Gyza.AgentBuckets
import Gyza.HammingNeighbors
import Gyza.AttestationVerifier
import Gyza.ExpirySlack
import Gyza.Tier3Request
import Gyza.PeerAddresses
import Gyza.Challenge
import Gyza.PlausibleBody
import Gyza.AttestationFreshness
import Gyza.CapabilityEval
import Gyza.StaleResponse
import Gyza.AttestationQuorum
import Gyza.Audit
import Gyza.AuditVerdict
import Gyza.TrustRegistry
import Gyza.RevokedKeys
import Gyza.RawDag
import Gyza.RawAudit
import Gyza.Evidence
import Gyza.CorpusDigest
import Gyza.EpisodicMemory
import Gyza.Retrieval
import Gyza.TypedAudit
import Gyza.ManifestOrder
import Gyza.Closure
import Gyza.PortableAudit
import Gyza.HostileGraph
import Gyza.HostileBundle
import Gyza.MultiCompositor
import Gyza.Resilience
import Gyza.Identity
import Gyza.Spawn
import Gyza.SpawnRuns
import Gyza.CrashLoop
import Gyza.Decomposition
import Gyza.Lineage
import Gyza.LineageRuns
import Gyza.EvalBinding
import Gyza.RunnerSignatures
import Gyza.RateCap
import Gyza.GuardConfig
import Gyza.GuardRuns
import Gyza.GuardLoosening
import Gyza.GuardHistory
import Gyza.Staging
import Gyza.HarmRegistry
import Gyza.ContainmentClaim
import Gyza.SpecAuthority
import Gyza.TierAlgebra
import Gyza.ClaimLedger
import Gyza.Promotion
import Gyza.WindowOrigin
import Gyza.KeySuccession
import Gyza.Review
import Gyza.ReviewRuns
import Gyza.ReviewHead
import Gyza.ReviewCadence
import Gyza.Transport
import Gyza.MessageFrame
import Gyza.FrameDelivery
import Gyza.CapabilityStream
import Gyza.CapabilitySession
import Gyza.SigningOracle
import Gyza.PeerTable
import Gyza.Sessions
import Gyza.SessionRuns
import Gyza.Cluster
import Gyza.ClusterTrust
import Gyza.ClusterFormation
import Gyza.Coordinator
import Gyza.PaidReservation
import Gyza.Market
import Gyza.MarketRuns
import Gyza.Resolution
import Gyza.MarketReplay
