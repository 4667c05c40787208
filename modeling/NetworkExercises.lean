import NetworkExercises.SmokeTest.Proofs.Echoes
import NetworkExercises.SmokeTest.Proofs.TwoServers
import NetworkExercises.BudgetChat.Proofs.Finding
import NetworkExercises.BudgetChat.Proofs.RoomRuns
import NetworkExercises.SpeedDaemon.Proofs.DispatcherDecode
import NetworkExercises.SpeedDaemon.Proofs.Tickets
import NetworkExercises.SpeedDaemon.Proofs.Delivery
import NetworkExercises.SpeedDaemon.Proofs.Dispatching
import NetworkExercises.SpeedDaemon.Proofs.Justified
import NetworkExercises.SpeedDaemon.Proofs.Speeding
import NetworkExercises.SpeedDaemon.Proofs.Observations
import NetworkExercises.SpeedDaemon.Proofs.Automaton
import NetworkExercises.SpeedDaemon.Proofs.Stream
import NetworkExercises.SpeedDaemon.Proofs.Output
import NetworkExercises.SpeedDaemon.Proofs.Outgoing
import NetworkExercises.SpeedDaemon.Proofs.Isolation
import NetworkExercises.SpeedDaemon.Proofs.Armed
import NetworkExercises.SpeedDaemon.Proofs.Failures
import NetworkExercises.SpeedDaemon.Proofs.Removal
import NetworkExercises.SpeedDaemon.Proofs.TimerRace
import NetworkExercises.SpeedDaemon.Proofs.DispatchRace
import NetworkExercises.SpeedDaemon.Proofs.Closing
import NetworkExercises.SpeedDaemon.Proofs.Batches
import NetworkExercises.SpeedDaemon.Proofs.UnixTime
import NetworkExercises.SpeedDaemon.Proofs.ServerTickets
import NetworkExercises.SpeedDaemon.Proofs.ServerDelivery
import NetworkExercises.SpeedDaemon.Proofs.EndToEnd
import NetworkExercises.SpeedDaemon.Proofs.PoolRuns
import NetworkExercises.MobInTheMiddle.Proofs.Relaying
import NetworkExercises.MobInTheMiddle.Proofs.Pairing
import NetworkExercises.MobInTheMiddle.Proofs.Splitting
import NetworkExercises.MobInTheMiddle.Proofs.SetupRace
import NetworkExercises.MobInTheMiddle.Proofs.ProxyRuns
import NetworkExercises.UnusualDatabase.Proofs.LastInsert
import NetworkExercises.UnusualDatabase.Proofs.StandIns
import NetworkExercises.PrimeTime.Proofs.Responses
import NetworkExercises.PrimeTime.Proofs.OwnStreams
import NetworkExercises.PrimeTime.Proofs.Validation
import NetworkExercises.PrimeTime.Proofs.Primes
import NetworkExercises.MeansToAnEnd.Proofs.Table
import NetworkExercises.MeansToAnEnd.Proofs.Timing
import NetworkExercises.MeansToAnEnd.Proofs.Streams
import NetworkExercises.MeansToAnEnd.Proofs.SessionRuns
import NetworkExercises.MeansToAnEnd.Proofs.TwoServers
import NetworkExercises.CUtils.Proofs.QueueRuns
import NetworkExercises.CUtils.Proofs.Sockets
import NetworkExercises.PrimeTime.Proofs.SendRoom
import NetworkExercises.PrimeTime.Proofs.TwoServers
import NetworkExercises.BudgetChat.Proofs.JoinRace
import NetworkExercises.BudgetChat.Proofs.Broadcast
import NetworkExercises.BudgetChat.Proofs.Listing
import NetworkExercises.BudgetChat.Proofs.Composed
import NetworkExercises.ZigUtils.Proofs.QueueFailures
