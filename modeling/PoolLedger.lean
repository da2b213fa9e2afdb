import PoolLedger.Address.Basic
import PoolLedger.Address.Host
import PoolLedger.Address.Letters
import PoolLedger.Address.Percent
import PoolLedger.Address.Punycode
import PoolLedger.Amount
import PoolLedger.Asset
import PoolLedger.Binary64
import PoolLedger.Decimal
import PoolLedger.Error
import PoolLedger.Event.Arrange
import PoolLedger.Event.Basic
import PoolLedger.Event.Fields
import PoolLedger.Event.Rule
import PoolLedger.Event.Scan
import PoolLedger.Extraction
import PoolLedger.Json.Basic
import PoolLedger.Json.Reader
import PoolLedger.Json.Writer
import PoolLedger.Layout
import PoolLedger.Node.Answer
import PoolLedger.Node.Basic
import PoolLedger.Node.Client
import PoolLedger.Node.Script
import PoolLedger.Node.Transaction
import PoolLedger.Numeral
import PoolLedger.Numeral.Text
import PoolLedger.Pair
import PoolLedger.Profile
import PoolLedger.Proofs.Acceptance
import PoolLedger.Proofs.Announcements
import PoolLedger.Proofs.Arrange
import PoolLedger.Proofs.AssetOrder
import PoolLedger.Proofs.Attempts
import PoolLedger.Proofs.AttributeOrder
import PoolLedger.Proofs.Block
import PoolLedger.Proofs.Chunks
import PoolLedger.Proofs.CoinLists
import PoolLedger.Proofs.Coins
import PoolLedger.Proofs.Decimal
import PoolLedger.Proofs.Displaced
import PoolLedger.Proofs.Distinct
import PoolLedger.Proofs.Duplicates
import PoolLedger.Proofs.Failures
import PoolLedger.Proofs.Flags
import PoolLedger.Proofs.Flattening
import PoolLedger.Proofs.Flow
import PoolLedger.Proofs.ForeignTokens
import PoolLedger.Proofs.HeightRanges
import PoolLedger.Proofs.Interleaving
import PoolLedger.Proofs.Isolation
import PoolLedger.Proofs.JsonText
import PoolLedger.Proofs.Lengths
import PoolLedger.Proofs.Mints
import PoolLedger.Proofs.Numeral
import PoolLedger.Proofs.Origin
import PoolLedger.Proofs.Outcome
import PoolLedger.Proofs.Placement
import PoolLedger.Proofs.Provision.Events
import PoolLedger.Proofs.Provision.Net
import PoolLedger.Proofs.Readable
import PoolLedger.Proofs.Reading
import PoolLedger.Proofs.Registry
import PoolLedger.Proofs.Scan
import PoolLedger.Proofs.Segments
import PoolLedger.Proofs.Sessions
import PoolLedger.Proofs.Shape
import PoolLedger.Proofs.Signs
import PoolLedger.Proofs.Spans
import PoolLedger.Proofs.Store
import PoolLedger.Proofs.StoredRecords
import PoolLedger.Proofs.SubEvents
import PoolLedger.Proofs.Swaps
import PoolLedger.Proofs.Sync.Comparison
import PoolLedger.Proofs.Sync.ExactlyOnce
import PoolLedger.Proofs.Sync.FailedBlock
import PoolLedger.Proofs.Sync.History
import PoolLedger.Proofs.Sync.Journal
import PoolLedger.Proofs.Sync.PoolSets
import PoolLedger.Proofs.Sync.Quiet
import PoolLedger.Proofs.Sync.Readable
import PoolLedger.Proofs.Sync.Restart
import PoolLedger.Proofs.Sync.Stages
import PoolLedger.Proofs.Sync.Stall
import PoolLedger.Proofs.Sync.Step
import PoolLedger.Proofs.Sync.Tables
import PoolLedger.Proofs.Sync.Validated
import PoolLedger.Proofs.Sync.Verdict
import PoolLedger.Proofs.Sync.Walk
import PoolLedger.Proofs.Totals
import PoolLedger.Proofs.Touched
import PoolLedger.Proofs.Transfer
import PoolLedger.Proofs.Unrelated
import PoolLedger.Proofs.Withdrawals
import PoolLedger.Reading.Creation
import PoolLedger.Reading.PairAction
import PoolLedger.Reading.Shape
import PoolLedger.Reading.Strategy
import PoolLedger.Reading.Transfer
import PoolLedger.Record
import PoolLedger.Schema
import PoolLedger.Settings
import PoolLedger.Settings.Value
import PoolLedger.Sorting
import PoolLedger.Source.Basic
import PoolLedger.Source.Node
import PoolLedger.Source.Script
import PoolLedger.Store.Basic
import PoolLedger.Store.Flow
import PoolLedger.Store.Row
import PoolLedger.Store.Session
import PoolLedger.Sync.Basic
import PoolLedger.Sync.Run
import PoolLedger.Sync.Validation
import PoolLedger.Text.Basic
import PoolLedger.Text.Blank
import PoolLedger.Text.Digit
import PoolLedger.Text.Encoding
import PoolLedger.Text.Printable
import PoolLedger.Text.Quoted
import PoolLedger.Timestamp
