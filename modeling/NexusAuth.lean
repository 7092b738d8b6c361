import NexusAuth.Lib.Runs
import NexusAuth.Lib.Lww
import NexusAuth.Lib.OrderedMap
import NexusAuth.Lib.Words
import NexusAuth.Lib.Interaction
import NexusAuth.Lib.Network
import NexusAuth.Lib.Results
import NexusAuth.Authority
import NexusAuth.Crypto
import NexusAuth.Protocol
import NexusAuth.Store.Model
import NexusAuth.Store.Proofs.Registers
import NexusAuth.Store.Proofs.Replication
import NexusAuth.Store.Proofs.Changes
import NexusAuth.Store.Proofs.AntiEntropy
import NexusAuth.Raft.Types
import NexusAuth.Raft.StateMachine
import NexusAuth.Raft.Proofs.Effects
import NexusAuth.Raft.Proofs.Versions
import NexusAuth.Raft.Proofs.Epoch
import NexusAuth.Raft.Proofs.Dedup
import NexusAuth.Raft.Proofs.Tokens
import NexusAuth.Raft.Storage
import NexusAuth.Raft.Cluster
import NexusAuth.Raft.Transport
import NexusAuth.Raft.Rpc
import NexusAuth.Raft.Proofs.Replies
import NexusAuth.Raft.Seed
import NexusAuth.Raft.Proofs.Seeds
import NexusAuth.Raft.SeedChannel
import NexusAuth.Raft.Proofs.SeedAgreement
import NexusAuth.Raft.Proofs.Storage
import NexusAuth.Raft.Proofs.Replica
import NexusAuth.Raft.Proofs.Snapshots
import NexusAuth.Raft.Proofs.Readers
import NexusAuth.Raft.Proofs.Builders
import NexusAuth.Records
import NexusAuth.Node
import NexusAuth.Publisher.Model
import NexusAuth.Publisher.Proofs.Rounds
import NexusAuth.Publisher.Proofs.Fencing
import NexusAuth.Publisher.Proofs.Reports
import NexusAuth.Publisher.Proofs.Overtaking
import NexusAuth.Raft.Runtime
import NexusAuth.Raft.Membership
import NexusAuth.Raft.Proofs.Operations
import NexusAuth.Raft.Proofs.Interleaving
import NexusAuth.Admin
import NexusAuth.Raft.Token
import NexusAuth.Legacy
import NexusAuth.Service.Calls
import NexusAuth.Service.Dispatch
import NexusAuth.Service.Proofs.Questions
import NexusAuth.Service.Proofs.Authorization
import NexusAuth.Service.Proofs.Reachability
import NexusAuth.Service.Proofs.SeedCustody
import NexusAuth.Service.Proofs.ControlPlanes
import NexusAuth.Store.Proofs.Durability
import NexusAuth.Store.Proofs.IndexVersion
import NexusAuth.Service.Proofs.Joining
import NexusAuth.Raft.Startup
import NexusAuth.Service.Proofs.Trust
import NexusAuth.Replay.Model
import NexusAuth.Replay.Proofs.Nonces
import NexusAuth.Service.Proofs.SignedEffect
import NexusAuth.Lib.Rows
import NexusAuth.Raft.Log
import NexusAuth.Raft.Proofs.LogStore
import NexusAuth.Joining.Model
import NexusAuth.Joining.Proofs.Disk
import NexusAuth.Store.Proofs.Merging
import NexusAuth.Raft.Proofs.Commands
import NexusAuth.Publisher.Proofs.Publishable
import NexusAuth.Raft.Proofs.Positions
import NexusAuth.Raft.Proofs.Handover
import NexusAuth.Service.Proofs.Demotion
import NexusAuth.Raft.Proofs.Inputs
import NexusAuth.Replay.Proofs.Inputs
import NexusAuth.Connection.Model
import NexusAuth.Connection.Proofs.Pending
import NexusAuth.Connection.Frames
import NexusAuth.Connection.Proofs.Frames
import NexusAuth.Joining.Proofs.Handshake
import NexusAuth.Backup.Model
import NexusAuth.Backup.Proofs.Copy
import NexusAuth.Raft.Proofs.SeedBinding
import NexusAuth.Store.Proofs.Counters
import NexusAuth.Service.Audit
import NexusAuth.Service.Proofs.AuditText
import NexusAuth.Publisher.Proofs.Limits
import NexusAuth.Lib.Tasks
import NexusAuth.Lib.Gossip
import NexusAuth.Store.Proofs.Holdings
import NexusAuth.Replicate.Model
import NexusAuth.Replicate.Cluster
import NexusAuth.Replicate.Proofs.Programs
import NexusAuth.Replicate.Proofs.Flow
import NexusAuth.Replicate.Proofs.Provenance
import NexusAuth.Replicate.Proofs.Convergence
import NexusAuth.Lib.Rely
import NexusAuth.Lib.Once
import NexusAuth.Runtime.Model
import NexusAuth.Runtime.Proofs.Programs
import NexusAuth.Runtime.Proofs.Once
import NexusAuth.Runtime.Proofs.Connections
import NexusAuth.Runtime.Proofs.Locks
import NexusAuth.Runtime.Proofs.Rest
import NexusAuth.Runtime.Proofs.Requests
import NexusAuth.Publisher.Loop
import NexusAuth.Publisher.Proofs.Wakeups
import NexusAuth.Ctl.Args
import NexusAuth.Ctl.Proofs.Args
