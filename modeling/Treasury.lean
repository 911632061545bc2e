import Treasury.Main
import Treasury.Proofs.Play
import Treasury.Proofs.Activation.Direct
import Treasury.Proofs.Activation.Quiet
import Treasury.Proofs.Activation.Simulation
import Treasury.Proofs.Numeric.Range
import Treasury.Proofs.Activation.Failure
import Treasury.Proofs.Activation.History
import Treasury.Proofs.Activation.Logging
import Treasury.Proofs.Activation.Reentry
import Treasury.Proofs.Activation.Evidence
import Treasury.Proofs.Activation.Rest
import Treasury.Proofs.Game.Evolution
import Treasury.Proofs.Random.Shuffle
import Treasury.Proofs.Execution.Evolution
import Treasury.Proofs.Activation.Invariant
import Treasury.Proofs.Session.Deeds
import Treasury.Proofs.Session.Identity
import Treasury.Proofs.Execution.Frame
import Treasury.Proofs.Activation.Selection
import Treasury.Proofs.Activation.Overtaking
import Treasury.Proofs.Execution.Headcount
import Treasury.Proofs.Activation.Ledger
import Treasury.Proofs.Activation.Account
import Treasury.Proofs.Activation.Precedence
import Treasury.Proofs.Activation.Dialogue
import Treasury.Proofs.Execution.Selecting
import Treasury.Proofs.Activation.AutoSelection
import Treasury.Proofs.Activation.Prompting
import Treasury.Proofs.Activation.Synchrony
import Treasury.Proofs.Activation.Protection
import Treasury.Proofs.Session.Ending
import Treasury.Proofs.Execution.Failing
import Treasury.Proofs.Execution.Permanence
import Treasury.Proofs.Activation.Definedness
import Treasury.Proofs.Activation.Taking
import Treasury.Proofs.Definitions.Soundness
import Treasury.Proofs.Definitions.Predictions
import Treasury.Proofs.Execution.Household
import Treasury.Proofs.Game.Lodging
import Treasury.Proofs.Session.Housing
import Treasury.Proofs.Execution.Ownership
import Treasury.Proofs.Activation.Chronicle
import Treasury.Proofs.Session.References
import Treasury.Proofs.Session.Agreement
import Treasury.Proofs.Session.Spending
import Treasury.Proofs.Activation.Lawfulness
import Treasury.Proofs.Execution.Drawing
import Treasury.Proofs.Execution.Settling
import Treasury.Proofs.Definitions.Loading
import Treasury.Proofs.Execution.Guards
import Treasury.Proofs.Execution.Gains
import Treasury.Proofs.Activation.Acceptance
import Treasury.Proofs.Activation.Cancelling
import Treasury.Proofs.Execution.Pricing
import Treasury.Proofs.Execution.Confinement
import Treasury.Proofs.Session.Availability
import Treasury.Proofs.Execution.Scheduling
import Treasury.Proofs.Journey
import Treasury.Proofs.Activation.Schedule
import Treasury.Proofs.Execution.Removal
import Treasury.Proofs.Definitions.Reports
import Treasury.Proofs.Execution.Forfeits
import Treasury.Proofs.Session.Fitness
import Treasury.Proofs.Card.Naming
import Treasury.Proofs.Session.Storing
import Treasury.Proofs.Session.Ladder
