import UsdConnect.Proofs.ProducerDelivery
import UsdConnect.Proofs.GraphRevisions
import UsdConnect.Proofs.GraphClosure
import UsdConnect.Proofs.ManagedAtomicity
import UsdConnect.Proofs.CompactionRace
import UsdConnect.Proofs.Broadcast
import UsdConnect.Proofs.Reception
import UsdConnect.Proofs.Resumption
import UsdConnect.Proofs.SharedStageOrder
import UsdConnect.Proofs.DelegateTracker
import UsdConnect.Proofs.Transactions
import UsdConnect.Proofs.LayerStackSync
import UsdConnect.Proofs.Snapshots
import UsdConnect.Proofs.SharedAtomicity
import UsdConnect.Proofs.ProducerCalls
import UsdConnect.Proofs.LayerTracker
import UsdConnect.Proofs.ListedWrites
import UsdConnect.Proofs.ConnectableInputs
import UsdConnect.Proofs.TransformPaths
import UsdConnect.Proofs.ArcSkip
import UsdConnect.Proofs.Framing
import UsdConnect.Proofs.StageSession
import UsdConnect.Proofs.ResultDelivery
import UsdConnect.Proofs.LayerMerge
import UsdConnect.Proofs.Collaboration
import UsdConnect.Proofs.ArcStates
import UsdConnect.Proofs.StateApplication
import UsdConnect.Proofs.SpecMerge
import UsdConnect.Proofs.RateLimit
import UsdConnect.Proofs.Playback
import UsdConnect.Proofs.Authentication
import UsdConnect.Proofs.PrimTracking
import UsdConnect.Proofs.TransformCoalescing
import UsdConnect.Proofs.BacklogHold
import UsdConnect.Proofs.XformSamples
import UsdConnect.Proofs.SpecTransport
import UsdConnect.Proofs.EventQueries
import UsdConnect.Proofs.ValueHash
import UsdConnect.Proofs.EmitterCaches
import UsdConnect.Proofs.GroupRefinement
import UsdConnect.Proofs.BatchCuts
import UsdConnect.Proofs.Compaction
