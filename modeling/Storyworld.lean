import Storyworld.Belongings
import Storyworld.Bus
import Storyworld.Clock
import Storyworld.Clock.Hour
import Storyworld.Content
import Storyworld.Content.Memory
import Storyworld.Decimal
import Storyworld.Decimal.Layout
import Storyworld.Decimal.Numeral
import Storyworld.Decimal.Scaled
import Storyworld.Effect
import Storyworld.Effect.Interpreter
import Storyworld.Event
import Storyworld.EventLog
import Storyworld.Expr
import Storyworld.Fault
import Storyworld.Files
import Storyworld.Files.Pool
import Storyworld.Game
import Storyworld.Inventory
import Storyworld.Json.Reader
import Storyworld.Json.Writer
import Storyworld.Ledger
import Storyworld.Main
import Storyworld.Menu
import Storyworld.Navigation
import Storyworld.Number
import Storyworld.Playthrough
import Storyworld.Proofs.Act
import Storyworld.Proofs.Exact
import Storyworld.Proofs.Hour
import Storyworld.Recipe
import Storyworld.Registry
import Storyworld.Report
import Storyworld.Requirement
import Storyworld.Requirement.Scope
import Storyworld.Save
import Storyworld.Save.Address
import Storyworld.Save.Database
import Storyworld.Save.File
import Storyworld.Save.Resource
import Storyworld.Save.Slots
import Storyworld.Scalar
import Storyworld.Scalar.Double
import Storyworld.Scalar.Exact
import Storyworld.Scenario
import Storyworld.Scenario.Arguments
import Storyworld.Scenario.Catalogue
import Storyworld.Scenario.Validation
import Storyworld.Scene
import Storyworld.Session
import Storyworld.Settings
import Storyworld.Snapshot
import Storyworld.Table
import Storyworld.Terminal
import Storyworld.Terminal.Drawing
import Storyworld.Text.Blank
import Storyworld.Text.Bytes
import Storyworld.Text.Code
import Storyworld.Text.Digit
import Storyworld.Text.Half
import Storyworld.Text.Percent
import Storyworld.Text.Printable
import Storyworld.Text.Quoted
import Storyworld.Text.Token
import Storyworld.Trait
import Storyworld.Turn
import Storyworld.Value
import Storyworld.Value.Mapping
import Storyworld.Value.Order
import Storyworld.Value.Reading
import Storyworld.Value.Text
import Storyworld.View
import Storyworld.View.Script
import Storyworld.Proofs.Clock
import Storyworld.Proofs.Navigation
import Storyworld.Proofs.Pointer
import Storyworld.Proofs.Session
import Storyworld.Proofs.Travel
import Storyworld.Proofs.Payload
import Storyworld.Proofs.Inventory
import Storyworld.Proofs.Trait
import Storyworld.Proofs.Ledger
import Storyworld.Proofs.Belongings
import Storyworld.Proofs.EventLog
import Storyworld.Proofs.Gate
import Storyworld.Proofs.Reached
import Storyworld.Proofs.Restore
import Storyworld.Proofs.History
import Storyworld.Proofs.Resumption
import Storyworld.Proofs.Stock
import Storyworld.Proofs.Accounts
import Storyworld.Proofs.Plain
import Storyworld.Proofs.Playable
import Storyworld.Proofs.Rounds
import Storyworld.Proofs.Arrival
import Storyworld.Proofs.Unfailing
import Storyworld.Proofs.Frame
import Storyworld.Proofs.Catalogue
import Storyworld.Proofs.Reader
import Storyworld.Proofs.Loading
import Storyworld.Proofs.Recovery
import Storyworld.Proofs.Dispatch
import Storyworld.Proofs.Decision
import Storyworld.Proofs.Picks
import Storyworld.Proofs.Offer
import Storyworld.Proofs.Jump
import Storyworld.Proofs.Mirror
import Storyworld.Proofs.Playthrough
import Storyworld.Proofs.Validation
import Storyworld.Proofs.Filed
import Storyworld.Proofs.Accepted
import Storyworld.Proofs.Territory
import Storyworld.Proofs.Course
import Storyworld.Proofs.Fired
import Storyworld.Proofs.Route
import Storyworld.Proofs.Nightfall
import Storyworld.Proofs.Tale
import Storyworld.Proofs.Repeat
import Storyworld.Proofs.Landing
import Storyworld.Proofs.Transfer
import Storyworld.Proofs.Journey
import Storyworld.Proofs.Evaluation
import Storyworld.Proofs.Requirement
import Storyworld.Proofs.Search
import Storyworld.Proofs.Unknown
import Storyworld.Proofs.Composition
import Storyworld.Proofs.Event
import Storyworld.Proofs.Failures
import Storyworld.Proofs.Seeding
import Storyworld.Proofs.Elements
import Storyworld.Proofs.Speed
import Storyworld.Proofs.Pace
import Storyworld.Proofs.Window
import Storyworld.Proofs.Tidy
import Storyworld.Proofs.Notices
import Storyworld.Proofs.Files
import Storyworld.Proofs.Written
import Storyworld.Proofs.Saving
import Storyworld.Proofs.Confined
import Storyworld.Proofs.Listing
import Storyworld.Proofs.Night
import Storyworld.Proofs.Prompt
