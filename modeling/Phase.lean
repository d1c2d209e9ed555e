import Phase.Codec.Connection
import Phase.Codec.Maps
import Phase.Combat.Legality
import Phase.Combat.LifelinkOnce
import Phase.Contest.Outage
import Phase.Contest.TickExact
import Phase.Directory.Host
import Phase.Draft.Atomic
import Phase.Draft.BoosterDraws
import Phase.Draft.FifoPrompts
import Phase.Draft.Privacy
import Phase.Draft.SharedStackRun
import Phase.Draft.SwissPairing
import Phase.Draft.UpgradedRun
import Phase.Lobby.Registrations
import Phase.LoopCheck.Extrapolated
import Phase.Mana.Announce
import Phase.Mana.Commit
import Phase.Mana.Dominance
import Phase.Mana.PromptSound
import Phase.Mana.Selection
import Phase.Mana.StepEndRun
import Phase.Mana.StepEndUnits
import Phase.Mulligan.Unstuck
import Phase.Payment.Atomic
import Phase.Phasing.UntapStep
import Phase.Priority.Apnap
import Phase.Priority.Rounds
import Phase.Replay.Player
import Phase.Retarget.Completion
import Phase.Seat.Delta
import Phase.Seat.Reservation
import Phase.Sideboarding.Registered
import Phase.Takeback.Vote
import Phase.Tournament.Progress
import Phase.Tournament.Rotation
import Phase.Tournament.ShortPods
import Phase.Turn.Departures
import Phase.Turn.OrderRun
import Phase.Turn.SkippedPhase
import Phase.Vote.Once
import Phase.Vote.TopVotes
