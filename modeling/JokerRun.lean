import JokerRun.CommandLine.Program
import JokerRun.Stored.Ability
import JokerRun.Stored.Run
import JokerRun.Main
import JokerRun.Proofs.Amount
import JokerRun.Proofs.Area
import JokerRun.Proofs.DrawPile
import JokerRun.Proofs.Shop
import JokerRun.Proofs.Binary64.Rounding
import JokerRun.Proofs.Hand.Reference
import JokerRun.Proofs.Scoring.ClosedForm
import JokerRun.Proofs.Scoring.Monotone
import JokerRun.Proofs.Run.Step
import JokerRun.Proofs.Run.Selection
import JokerRun.Proofs.Run.Refusal
import JokerRun.Proofs.Run.Replay
import JokerRun.Proofs.Run.Conservation
import JokerRun.Proofs.Run.Limits
import JokerRun.Proofs.Run.Opening
import JokerRun.Proofs.Run.Pending
import JokerRun.Proofs.Run.Phases
import JokerRun.Proofs.Run.Fairness
import JokerRun.Proofs.Run.Supply
import JokerRun.Proofs.Run.Worth
import JokerRun.Proofs.Scoring.Order
import JokerRun.Proofs.Area.BoundedList
import JokerRun.Proofs.Catalog
import JokerRun.Proofs.HeldCards
import JokerRun.Proofs.Run.Ledger
import JokerRun.Proofs.CommandLine.Commands
import JokerRun.Proofs.Content.Assets
import JokerRun.Proofs.Run.Replacement
import JokerRun.Proofs.Json.Numbers
import JokerRun.Proofs.Json.RoundTrip
import JokerRun.Proofs.Stored.Form
import JokerRun.Proofs.Stored.Records
import JokerRun.Proofs.Stored.RoundTrip
import JokerRun.Proofs.Shop.Transfers
import JokerRun.Proofs.Hand.Scoring
import JokerRun.Proofs.Hand.Symmetry
import JokerRun.Proofs.Hand.Growth
import JokerRun.Proofs.Scoring.Rebates
import JokerRun.Proofs.Scoring.IdleJokers
import JokerRun.Proofs.Run.Toggling
import JokerRun.Proofs.CommandLine.ListedCards
import JokerRun.Proofs.Dictionary
import JokerRun.Proofs.Text.ByteOrder
import JokerRun.Proofs.Json.MemberOrder
import JokerRun.Proofs.Json.Range
import JokerRun.Proofs.Binary64.Whole
import JokerRun.Proofs.Binary64.Written
import JokerRun.Proofs.Content.JokerTable
import JokerRun.Proofs.Content.Ranks
import JokerRun.Proofs.Content.Params
import JokerRun.Proofs.Content.Effects
import JokerRun.Proofs.Content.IntegerParams
import JokerRun.Proofs.Content.OverriddenKeys
import JokerRun.Proofs.Text.Pieces
import JokerRun.Proofs.CommandLine.CardNotation
import JokerRun.Proofs.Text.Numeral
import JokerRun.Proofs.CommandLine.Options
import JokerRun.Proofs.Stored.Members
import JokerRun.Proofs.Content.PartialRules
import JokerRun.Proofs.DrawPile.Operations
import JokerRun.Proofs.Shop.Restock
import JokerRun.Proofs.Text.Key
import JokerRun.Proofs.Card.Keys
import JokerRun.Proofs.Text.Stretches
import JokerRun.Proofs.CommandLine.IndexLists
