import HPActor.RunnerExclusion
import HPActor.ReadyHasWork
import HPActor.WakeupCoverage
import HPActor.ClusterFailure
import HPActor.RemoteIngress
import HPActor.ProbeFlight
import HPActor.TimerEquivalence
import HPActor.MajorityElection
import HPActor.RecoveryCompleteness
import HPActor.FileStateStore
import HPActor.RegistrarTracking
import HPActor.StreamFlow
import HPActor.StreamClose
import HPActor.CarveDisjoint
import HPActor.TopologyRoundTrip
import HPActor.SlabAccounting
import HPActor.DeliveryStore
import HPActor.SingletonFencing
import HPActor.NameOwnership
import HPActor.NameQueries
import HPActor.PoolDelivery
import HPActor.PoolProbes
import HPActor.GossipTimeouts
import HPActor.GossipRoundTrip
import HPActor.RingRuns
import HPActor.DisruptorAccounting
import HPActor.NameRoundTrip
import HPActor.HashRing
import HPActor.ShardPlacement
import HPActor.ShardEpochs
import HPActor.ReceptionistListing
import HPActor.PubSubListing
import HPActor.AskSettlement
import HPActor.RpcChannel
import HPActor.RestartBudget
import HPActor.BufferRefinement
import HPActor.FrameDecoding
import HPActor.RuntimeUnwinding
import HPActor.ShutdownPhases
import HPActor.NameAnnouncements
import HPActor.BootstrapAtomicity
import HPActor.SystemLane
import HPActor.MailboxBatch
import HPActor.AddressCodec
import HPActor.RetryTiming
import HPActor.BatchRouting
