import SellRules.Action
import SellRules.CommandLine.Flag
import SellRules.CommandLine.Request
import SellRules.CommandLine.Run
import SellRules.Entry.Basic
import SellRules.Entry.Marker
import SellRules.Entry.Record
import SellRules.Event.Command
import SellRules.Event.Interpreter
import SellRules.Event.Session
import SellRules.Failure
import SellRules.File
import SellRules.Item.Database
import SellRules.Item.File
import SellRules.Json.Fault
import SellRules.Json.Reader
import SellRules.Json.Writer
import SellRules.Kind
import SellRules.Log
import SellRules.Main
import SellRules.Number.Binary64
import SellRules.Number.Numeral
import SellRules.Number.Shortest
import SellRules.OrderedList
import SellRules.Party.Inventory
import SellRules.Proofs.CommandLine.Arguments
import SellRules.Proofs.CommandLine.Listing
import SellRules.Proofs.CommandLine.Printing
import SellRules.Proofs.CommandLine.Reporting
import SellRules.Proofs.Entry.Marker
import SellRules.Proofs.Entry.Note
import SellRules.Proofs.Entry.Occurrence
import SellRules.Proofs.Entry.OwnRules
import SellRules.Proofs.Entry.Record
import SellRules.Proofs.Entry.Schema
import SellRules.Proofs.Entry.TagDecision
import SellRules.Proofs.Event.Blocks
import SellRules.Proofs.Event.Categories
import SellRules.Proofs.Event.Declaration
import SellRules.Proofs.Event.Effect
import SellRules.Proofs.Event.FailedRun
import SellRules.Proofs.Event.GoodsTypes
import SellRules.Proofs.Event.Growth
import SellRules.Proofs.Event.HandOver
import SellRules.Proofs.Event.Isolation
import SellRules.Proofs.Event.Ledger
import SellRules.Proofs.Event.Lifetime
import SellRules.Proofs.Event.Opening
import SellRules.Proofs.Event.Reach
import SellRules.Proofs.Event.Registry
import SellRules.Proofs.Event.Run
import SellRules.Proofs.Event.Sales
import SellRules.Proofs.Item.Acceptance
import SellRules.Proofs.Item.Index
import SellRules.Proofs.Item.Loading
import SellRules.Proofs.Item.Rearrangement
import SellRules.Proofs.Item.Refusal
import SellRules.Proofs.Json.Float
import SellRules.Proofs.Json.Limit
import SellRules.Proofs.Json.Number
import SellRules.Proofs.Json.RoundTrip
import SellRules.Proofs.Json.Text
import SellRules.Proofs.Number.Numeral
import SellRules.Proofs.Number.Rounding
import SellRules.Proofs.Number.Shortest
import SellRules.Proofs.OrderedList
import SellRules.Proofs.Outcome
import SellRules.Proofs.Party.Account
import SellRules.Proofs.Party.History
import SellRules.Proofs.Party.Holdings
import SellRules.Proofs.Party.Inventory
import SellRules.Proofs.Restriction.Canonical
import SellRules.Proofs.Restriction.Encoding
import SellRules.Proofs.Restriction.Equality
import SellRules.Proofs.Restriction.Faults
import SellRules.Proofs.Restriction.Grammar
import SellRules.Proofs.Restriction.Lookup
import SellRules.Proofs.Restriction.MarkerTags
import SellRules.Proofs.Restriction.Readback
import SellRules.Proofs.Restriction.Structured
import SellRules.Proofs.Restriction.Token
import SellRules.Proofs.Restriction.TokenGrammar
import SellRules.Proofs.Restriction.Typed
import SellRules.Proofs.Restriction.Union
import SellRules.Proofs.Restriction.ZeroTypes
import SellRules.Proofs.Settings.Loading
import SellRules.Proofs.Settings.Unknown
import SellRules.Proofs.Shop.Sale
import SellRules.Proofs.Shop.Selectable
import SellRules.Proofs.Shop.Stack
import SellRules.Proofs.Shop.Stage
import SellRules.Proofs.Shop.Stock
import SellRules.Proofs.Text.Blank
import SellRules.Proofs.Value.Fields
import SellRules.Proofs.Value.Levels
import SellRules.Proofs.Yaml.Flat
import SellRules.Restriction.Allow
import SellRules.Restriction.Basic
import SellRules.Restriction.Structured
import SellRules.Restriction.Token
import SellRules.Scalar
import SellRules.Settings.Basic
import SellRules.Settings.Document
import SellRules.Shop.Good
import SellRules.Shop.SellList
import SellRules.Shop.Stage
import SellRules.Text.Blank
import SellRules.Text.Digit
import SellRules.Text.LetterCase
import SellRules.Text.Printable
import SellRules.Text.Search
import SellRules.Value.Amount
import SellRules.Value.Basic
import SellRules.Value.Equal
import SellRules.Value.Quoted
import SellRules.Value.Whole
import SellRules.Yaml.Cursor
import SellRules.Yaml.Data
import SellRules.Yaml.Meaning
import SellRules.Yaml.Node
import SellRules.Yaml.Plain
import SellRules.Yaml.Quoted
import SellRules.Yaml.Token
