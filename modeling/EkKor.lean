import EkKor.Lib.Runs
import EkKor.Lib.Quorum
import EkKor.Lib.Positions
import EkKor.Raft.Minority
import EkKor.Raft.Crash
import EkKor.Raft.Election
import EkKor.Consensus.Tally
import EkKor.Consensus.Approval
import EkKor.Consensus.EarlyDecision
import EkKor.Consensus.Inhibition
import EkKor.Consensus.Quarantine
import EkKor.Consensus.Results
import EkKor.Consensus.Identity
import EkKor.Gossip.Order
import EkKor.Gossip.Hops
import EkKor.Gossip.Requests
import EkKor.Gossip.AnyOrder
import EkKor.Gossip.Network
import EkKor.Partition.Invariants
import EkKor.Partition.Cluster
import EkKor.Partition.Ramp
import EkKor.Agreement.Engines
import EkKor.Agreement.Gossip
import EkKor.Agreement.Detectors
import EkKor.Agreement.Topologies
import EkKor.Auth.Chaskey
import EkKor.Auth.Permutation
import EkKor.Auth.Reference
import EkKor.Auth.Keyring
import EkKor.Hal.Framing
import EkKor.Hal.Fragments
import EkKor.Fs.Inodes
import EkKor.Fs.Contents
import EkKor.Fs.Transparency
import EkKor.Fs.Mksd
import EkKor.Fs.Handles
import EkKor.Fs.Steps
import EkKor.Fs.Faults
import EkKor.Fs.Recovery
import EkKor.Fs.Names
import EkKor.Fs.Bytewise
import EkKor.Fs.Rpc
import EkKor.Gateway.Flash
import EkKor.Gateway.Readback
import EkKor.Gateway.Model
import EkKor.Gateway.Reboot
import EkKor.Gateway.Replay
import EkKor.Gateway.Ranges
import EkKor.Gateway.Streams
import EkKor.Gateway.Reports
import EkKor.Spsc.Overlap
import EkKor.Jezgro.Isolation
import EkKor.Jezgro.Lengths
import EkKor.Jezgro.Counters
import EkKor.Jezgro.Policy
import EkKor.Jezgro.Recovery
import EkKor.Db.Queries
import EkKor.Db.KeyCount
import EkKor.Module.Detector
import EkKor.Module.Election
import EkKor.Module.Burial
import EkKor.Module.Health
import EkKor.Module.Process
import EkKor.Module.Untorn
import EkKor.Hal.MultiProducer
import EkKor.Hal.Waiting
import EkKor.Ekkl.Panics
import EkKor.Ekkl.FrontEnd
import EkKor.Ekkl.Blocks
import EkKor.Ekkl.Comparisons
import EkKor.Ekkl.HashOrder
import EkKor.Ekkl.ItemOrder
import EkKor.Ekkl.Lens
import EkKor.Ekkl.Frames
import EkKor.Raft.Terms
import EkKor.Lib.Probing
import EkKor.Db.KvFaults
import EkKor.Lib.Extremes
import EkKor.Db.Headers
import EkKor.Fs.Numerals
import EkKor.Fs.Config
import EkKor.Fs.Syslog
import EkKor.Lib.Newton
import EkKor.Module.Selection
import EkKor.Module.Distance
import EkKor.Module.Slots
import EkKor.Jezgro.Broadcast
import EkKor.Jezgro.Timeouts
import EkKor.Gateway.Bookkeeping
import EkKor.Lib.Signed
import EkKor.Module.Field
import EkKor.Stigmergy.Decay
import EkKor.Stigmergy.Balance
import EkKor.Lib.Truncation
import EkKor.Module.Mean
import EkKor.Module.Positions
import EkKor.Module.Frames
import EkKor.Module.Leftovers
