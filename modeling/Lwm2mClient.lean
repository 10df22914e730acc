import Lwm2mClient.Main
import Lwm2mClient.Proofs.Durations
import Lwm2mClient.Proofs.Engine.Blindness
import Lwm2mClient.Proofs.Engine.Management
import Lwm2mClient.Proofs.Engine.Parts
import Lwm2mClient.Proofs.Engine.Reads
import Lwm2mClient.Proofs.Engine.Sendings
import Lwm2mClient.Proofs.Engine.Upkeep
import Lwm2mClient.Proofs.Engine.Views
import Lwm2mClient.Proofs.Inspector.Predictions
import Lwm2mClient.Proofs.Inspector.Provisioning
import Lwm2mClient.Proofs.Inspector.Verdicts
import Lwm2mClient.Proofs.Monitors
import Lwm2mClient.Proofs.Programs
import Lwm2mClient.Proofs.Scenario.Errands
import Lwm2mClient.Proofs.Scenario.Firsts
import Lwm2mClient.Proofs.Scenario.Following
import Lwm2mClient.Proofs.Scenario.Happenings
import Lwm2mClient.Proofs.Scenario.Looks
import Lwm2mClient.Proofs.Scenario.Mirrors
import Lwm2mClient.Proofs.Scenario.Openings
import Lwm2mClient.Proofs.Scenario.Remainders
import Lwm2mClient.Proofs.Scenario.Requests
import Lwm2mClient.Proofs.Scenario.Seated
import Lwm2mClient.Proofs.Scenario.Secrecy
import Lwm2mClient.Proofs.Scenario.Served
import Lwm2mClient.Proofs.Scenario.Services
import Lwm2mClient.Proofs.Scenario.Silence
import Lwm2mClient.Proofs.Scenario.Starts
import Lwm2mClient.Proofs.Scenario.Strays
import Lwm2mClient.Proofs.Scenario.Tellings
import Lwm2mClient.Proofs.Scenario.VeiledThreads
import Lwm2mClient.Proofs.Scenario.Veils
import Lwm2mClient.Proofs.Scenario.Views
import Lwm2mClient.Proofs.Servers.Grammar
import Lwm2mClient.Proofs.Servers.Joins
import Lwm2mClient.Proofs.Servers.PreSharedKeys
import Lwm2mClient.Proofs.Servers.Printing
import Lwm2mClient.Proofs.Service.Aftermath
import Lwm2mClient.Proofs.Service.Asking
import Lwm2mClient.Proofs.Service.Basic
import Lwm2mClient.Proofs.Service.Bearings
import Lwm2mClient.Proofs.Service.Bodies
import Lwm2mClient.Proofs.Service.Coherence
import Lwm2mClient.Proofs.Service.Conduct
import Lwm2mClient.Proofs.Service.Courses
import Lwm2mClient.Proofs.Service.Cycles
import Lwm2mClient.Proofs.Service.Deregistration
import Lwm2mClient.Proofs.Service.Drift
import Lwm2mClient.Proofs.Service.Endings
import Lwm2mClient.Proofs.Service.Ensures
import Lwm2mClient.Proofs.Service.Escalation
import Lwm2mClient.Proofs.Service.Executions
import Lwm2mClient.Proofs.Service.Invariant
import Lwm2mClient.Proofs.Service.Jobs
import Lwm2mClient.Proofs.Service.Ledger
import Lwm2mClient.Proofs.Service.Live
import Lwm2mClient.Proofs.Service.Loads
import Lwm2mClient.Proofs.Service.Monitored
import Lwm2mClient.Proofs.Service.Moves
import Lwm2mClient.Proofs.Service.Operations
import Lwm2mClient.Proofs.Service.Outcomes
import Lwm2mClient.Proofs.Service.Pace
import Lwm2mClient.Proofs.Service.Phases
import Lwm2mClient.Proofs.Service.Positions
import Lwm2mClient.Proofs.Service.Provenance
import Lwm2mClient.Proofs.Service.Quiet
import Lwm2mClient.Proofs.Service.Renewal
import Lwm2mClient.Proofs.Service.RenewalTime
import Lwm2mClient.Proofs.Service.Rest
import Lwm2mClient.Proofs.Service.Runs
import Lwm2mClient.Proofs.Service.Seats
import Lwm2mClient.Proofs.Service.Sendings
import Lwm2mClient.Proofs.Service.Steps
import Lwm2mClient.Proofs.Service.Supersession
import Lwm2mClient.Proofs.Service.Surroundings
import Lwm2mClient.Proofs.Service.Tracks
import Lwm2mClient.Proofs.Service.Turns
import Lwm2mClient.Proofs.Service.Undertakings
import Lwm2mClient.Proofs.Service.Updating
import Lwm2mClient.Proofs.Service.Watch
import Lwm2mClient.Proofs.Sessions.Attempts
import Lwm2mClient.Proofs.Sessions.Exhaustion
import Lwm2mClient.Proofs.Sessions.Freshness
import Lwm2mClient.Proofs.Sessions.Gate
import Lwm2mClient.Proofs.Sessions.Heralds
import Lwm2mClient.Proofs.Sessions.Leftover
import Lwm2mClient.Proofs.Sessions.Messages
import Lwm2mClient.Proofs.Sessions.Monitoring
import Lwm2mClient.Proofs.Sessions.Purges
import Lwm2mClient.Proofs.Sessions.Reception
import Lwm2mClient.Proofs.Sessions.Recovery
import Lwm2mClient.Proofs.Sessions.Shutdown
import Lwm2mClient.Proofs.Sessions.Visits
import Lwm2mClient.Proofs.Sessions.Window
import Lwm2mClient.Proofs.Store.Descriptions
import Lwm2mClient.Proofs.Store.Exchanges
import Lwm2mClient.Proofs.Store.Likeness
import Lwm2mClient.Proofs.Store.Maps
import Lwm2mClient.Proofs.Store.Purging
import Lwm2mClient.Proofs.Store.Veils
import Lwm2mClient.Proofs.Text.Numerals
import Lwm2mClient.Proofs.Timeline.Agreement
import Lwm2mClient.Proofs.Timeline.Backlog
import Lwm2mClient.Proofs.Timeline.Calls
import Lwm2mClient.Proofs.Timeline.Draining
import Lwm2mClient.Proofs.Timeline.Driven
import Lwm2mClient.Proofs.Timeline.Fates
import Lwm2mClient.Proofs.Timeline.Growth
import Lwm2mClient.Proofs.Timeline.Indifference
import Lwm2mClient.Proofs.Timeline.Matching
import Lwm2mClient.Proofs.Timeline.Numbering
import Lwm2mClient.Proofs.Timeline.Ordering
import Lwm2mClient.Proofs.Timeline.Plays
import Lwm2mClient.Proofs.Timeline.Punctuality
import Lwm2mClient.Proofs.Timeline.Records
import Lwm2mClient.Proofs.Timeline.Scripts
import Lwm2mClient.Proofs.Timeline.Serving
import Lwm2mClient.Proofs.Timeline.Splitting
import Lwm2mClient.Proofs.Timeline.Waiting
import Lwm2mClient.Scenario.Run
import Lwm2mClient.Timeline.WorkerScript
