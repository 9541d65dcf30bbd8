import AgentSwarm.Session.EventLog
import AgentSwarm.Session.MergeOrder
import AgentSwarm.Session.WorkDirs
import AgentSwarm.Session.Continuity
import AgentSwarm.TaskManager.Restart
import AgentSwarm.TaskManager.WriteThrough
import AgentSwarm.Dispatcher.FaultContainment
import AgentSwarm.Dispatcher.DirectChat
import AgentSwarm.Dispatcher.CacheOwners
import AgentSwarm.Dispatcher.CacheLaw
import AgentSwarm.Dispatcher.Failover
import AgentSwarm.Dispatcher.Backpressure
import AgentSwarm.Dispatcher.Streaming
import AgentSwarm.Dispatcher.Handover
import AgentSwarm.Dispatcher.Outage
import AgentSwarm.Dispatcher.Answers
import AgentSwarm.Dispatcher.Provenance
import AgentSwarm.Gateway.Invocable
import AgentSwarm.Gateway.FailedRegistration
import AgentSwarm.ContainerPool.Conservation
import AgentSwarm.ContainerPool.Exclusive
import AgentSwarm.ContainerPool.Recycle
import AgentSwarm.Common.PollLaw
import AgentSwarm.Registry.Endpoint
import AgentSwarm.Registry.SkillIndex
import AgentSwarm.Registry.Serial
import AgentSwarm.Registry.Permanent
import AgentSwarm.Registry.Sweep
import AgentSwarm.Worker.Tasks
import AgentSwarm.Worker.Wire
import AgentSwarm.Worker.Settings
import AgentSwarm.Api.TerminalStatus
import AgentSwarm.Api.NoTaskLeft
import AgentSwarm.Api.Cancel
import AgentSwarm.Api.Idempotency
import AgentSwarm.Api.Tenants
import AgentSwarm.Api.TenantCap
import AgentSwarm.Api.WorkFolders
import AgentSwarm.Api.Websocket
import AgentSwarm.Orchestrator.ExternalExecute
import AgentSwarm.Orchestrator.UserWords
import AgentSwarm.Orchestrator.Resume
import AgentSwarm.Orchestrator.ToolHistory
import AgentSwarm.Orchestrator.Isolation
import AgentSwarm.Orchestrator.ParallelDispatch
import AgentSwarm.Orchestrator.ReadArtifacts
import AgentSwarm.Orchestrator.Turns
import AgentSwarm.Orchestrator.FinalizeGate
import AgentSwarm.Worker.LoopLaw
import AgentSwarm.Worker.BadCalls
import AgentSwarm.Worker.WritePaths
import AgentSwarm.Worker.FileRoundTrip
import AgentSwarm.ContainerPool.Checkout
import AgentSwarm.Worker.Delivery
import AgentSwarm.Session.Linearizable
import AgentSwarm.Registry.Liveness
import AgentSwarm.SwarmSdk.Client
import AgentSwarm.Main.Startup
import AgentSwarm.Orchestrator.PlanContext
import AgentSwarm.Api.TaskStream
import AgentSwarm.Orchestrator.EventStream
import AgentSwarm.TaskManager.Listing
