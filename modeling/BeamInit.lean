import BeamInit.Api
import BeamInit.Os
import BeamInit.Logs
import BeamInit.StatusPublisher
import BeamInit.Service
import BeamInit.SpawnArgs
import BeamInit.ServiceManager
import BeamInit.Commands
import BeamInit.Runs
import BeamInit.MainLoop
import BeamInit.Lifecycle
import BeamInit.Operations
import BeamInit.Refinement
import BeamInit.Ledger
import BeamInit.Consistency
import BeamInit.MainPids
import BeamInit.Shutdown
import BeamInit.Termination
import BeamInit.Signals
import BeamInit.NoPanic
import BeamInit.Routes
import BeamInit.Ownership
import BeamInit.NonInterference
import BeamInit.Fence
import BeamInit.Channel
import BeamInit.Tickets
import BeamInit.Network
import BeamInit.ForceKill
import BeamInit.StaleProbes
import BeamInit.StaleRuns
import BeamInit.Escalation
import BeamInit.ProbeTasks
import BeamInit.Refusals
import BeamInit.LogReaders
import BeamInit.Broadcast
import BeamInit.Subscriptions
import BeamInit.ProcessEnd
import BeamInit.Bootstrap
import BeamInit.ProcessTable
import BeamInit.MonitorLoop
import BeamInit.MonitorProtocol
import BeamInit.Supervision
import BeamInit.MonitorExits
import BeamInit.FrozenGroups
import BeamInit.UrlPath
import BeamInit.ClientUrls
import BeamInit.FairMutex
import BeamInit.LogStreams
import BeamInit.SpawnModel
import BeamInit.SpawnSteps
import BeamInit.SpawnPipes
import BeamInit.LastWins
import BeamInit.LexOrder
import BeamInit.Text
import BeamInit.Beamctl
import BeamInit.EnvFiles
import BeamInit.Environment
import BeamInit.ProcessGroups
import BeamInit.Terminal
import BeamInit.TerminalStreams
import BeamInit.TerminalSignals
import BeamInit.LogWakeups
import BeamInit.Segments
import BeamInit.LogWriters
import BeamInit.Streaks
import BeamInit.LivenessProbe
import BeamInit.Sanitize
import BeamInit.Labels
import BeamInit.Fairness
import BeamInit.Completion
import BeamInit.SpawnContext
import BeamInit.SpawnBarrier
import BeamInit.PtyStore
import BeamInit.RestartCounts
import BeamInit.TerminalSettings
import BeamInit.SignalStream
import BeamInit.ClientCalls
import BeamInit.Selection
