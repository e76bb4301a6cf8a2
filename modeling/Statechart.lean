import Statechart.Codec
import Statechart.Scenario.Basic
import Statechart.Proofs.Schedule
import Statechart.Proofs.Beats
import Statechart.Proofs.Hosting
import Statechart.Proofs.RunBeats
import Statechart.Proofs.MoveBeats
import Statechart.Proofs.Records
import Statechart.Proofs.Callbacks
import Statechart.Proofs.Awake
import Statechart.Proofs.Race
import Statechart.Proofs.SlotRelease
import Statechart.Proofs.CleanupOnce
import Statechart.Proofs.Course
import Statechart.Proofs.Crew
import Statechart.Proofs.Loyalty
import Statechart.Proofs.Machines
import Statechart.Proofs.Ways
import Statechart.Proofs.Chart
import Statechart.Proofs.Moments
import Statechart.Proofs.Stays
import Statechart.Proofs.GraphErrors
import Statechart.Proofs.Observers
import Statechart.Proofs.News
import Statechart.Proofs.Stops
import Statechart.Proofs.Teardown
import Statechart.Proofs.Tenure
import Statechart.Proofs.Walk
import Statechart.Proofs.Histories
import Statechart.Proofs.LateRaises
import Statechart.Proofs.Scopes
import Statechart.Proofs.RunMirrors
import Statechart.Proofs.ScriptMirrors
import Statechart.Proofs.MoveMirrors
import Statechart.Proofs.StepMirrors
import Statechart.Proofs.Closed
import Statechart.Proofs.Abreast
import Statechart.Proofs.Afresh
import Statechart.Proofs.Timestamps
import Statechart.Proofs.JsonForms
import Statechart.Proofs.Deeds
import Statechart.Proofs.Staffing
import Statechart.Proofs.Spares
import Statechart.Proofs.Sequels
import Statechart.Proofs.Routing
import Statechart.Proofs.Polls
import Statechart.Proofs.Settlement
import Statechart.Proofs.Panics
import Statechart.Proofs.Configuration
import Statechart.Proofs.Validity
import Statechart.Proofs.Unattended
import Statechart.Proofs.Strokes
import Statechart.Proofs.Turns
import Statechart.Proofs.Successions
import Statechart.Proofs.Transients
import Statechart.Proofs.Bystanders
import Statechart.Proofs.Receptive
import Statechart.Proofs.Hires
import Statechart.Proofs.Departures
import Statechart.Proofs.Timers
import Statechart.Proofs.TimerRaces
import Statechart.Proofs.Queueing
import Statechart.Proofs.Windows
import Statechart.Proofs.Flags
import Statechart.Proofs.Nesting
import Statechart.Proofs.Manners
