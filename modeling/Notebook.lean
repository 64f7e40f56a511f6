import Notebook.Analysis.Attachment
import Notebook.Analysis.Cleanup
import Notebook.Analysis.Confidence
import Notebook.Analysis.Entities
import Notebook.Analysis.KeySentences
import Notebook.Analysis.Pipeline
import Notebook.Analysis.Statistics
import Notebook.Calendar
import Notebook.CommandLine.Arguments
import Notebook.CommandLine.Run
import Notebook.Decimal.Binary
import Notebook.Decimal.Numeral
import Notebook.Decimal.Shortest
import Notebook.Disk
import Notebook.Embedding.Engine
import Notebook.Embedding.Similarity
import Notebook.Embedding.WordTable
import Notebook.Fields.Checked
import Notebook.Fields.Read
import Notebook.Json.Basic
import Notebook.Json.Reader
import Notebook.Json.Writer
import Notebook.Keyed
import Notebook.Main
import Notebook.Moment
import Notebook.Note.Basic
import Notebook.Note.Record
import Notebook.Proofs.Keyed
import Notebook.Query.Descriptor
import Notebook.Query.Matching
import Notebook.Query.Parse
import Notebook.Query.Token
import Notebook.Search.Cache
import Notebook.Search.Searcher
import Notebook.Session
import Notebook.Settings
import Notebook.Store.Action
import Notebook.Store.Basic
import Notebook.Store.Channel
import Notebook.Store.Load
import Notebook.Store.Memory
import Notebook.Text.Blank
import Notebook.Text.CaseTable
import Notebook.Text.Lowercase
import Notebook.Text.Quoted
import Notebook.Text.Letter
import Notebook.Text.Utf8
import Notebook.Text.WordChar
import Notebook.Vector.Grid
import Notebook.Proofs.Store.Filed
import Notebook.Proofs.Analysis.Face
import Notebook.Proofs.Search.Lexical
import Notebook.Proofs.Session.Caching
import Notebook.Proofs.Search.Hidden
import Notebook.Proofs.Decimal.Bits
import Notebook.Proofs.Decimal.Nearest
import Notebook.Proofs.Decimal.Shortest
import Notebook.Proofs.Decimal.Text
import Notebook.Proofs.Decimal.Single
import Notebook.Proofs.Disk
import Notebook.Proofs.Fields.Read
import Notebook.Proofs.Json.Number
import Notebook.Proofs.Json.RoundTrip
import Notebook.Proofs.Note.Record
import Notebook.Proofs.Store.Reload
import Notebook.Proofs.Store.Sound
import Notebook.Proofs.Store.Sync
import Notebook.Proofs.Text.Lowercase
import Notebook.Proofs.Query.Grammar
import Notebook.Proofs.Search.Handed
import Notebook.Proofs.Store.Traffic
import Notebook.Proofs.Store.Linear
import Notebook.Proofs.Store.Renamed
import Notebook.Proofs.Query.Asked
import Notebook.Proofs.Query.Juxtaposed
import Notebook.Proofs.Search.Reordered
import Notebook.Proofs.Decimal.Typed
import Notebook.Proofs.Query.PlainCase
import Notebook.Proofs.Search.PlainCase
import Notebook.Proofs.Store.Outage
import Notebook.Proofs.Channel.Lane
import Notebook.Proofs.Channel.Orderly
import Notebook.Proofs.Channel.Steering
import Notebook.Proofs.Channel.Serial
import Notebook.Proofs.Channel.Alone
import Notebook.Proofs.Channel.Served
import Notebook.Proofs.Channel.InOrder
import Notebook.Proofs.Channel.Turns
import Notebook.Proofs.Store.Closed
import Notebook.Proofs.Analysis.Finding
import Notebook.Proofs.Analysis.WriteBack
import Notebook.Proofs.Analysis.Commute
import Notebook.Proofs.Analysis.Candidates
import Notebook.Proofs.Analysis.Queued
import Notebook.Proofs.Analysis.Aligned
import Notebook.Proofs.Analysis.Stale
import Notebook.Proofs.Decimal.Order
import Notebook.Proofs.Ranking
import Notebook.Proofs.Embedding.Scores
import Notebook.Proofs.Search.Veiled
import Notebook.Proofs.Store.Loaded
import Notebook.Proofs.CommandLine.Filter
import Notebook.Proofs.Cache.Lookup
import Notebook.Proofs.Cache.Uses
import Notebook.Proofs.Cache.History
import Notebook.Proofs.Cache.Copies
import Notebook.Proofs.Search.Meaning
import Notebook.Proofs.Embedding.Table
import Notebook.Proofs.Analysis.Saved
import Notebook.Proofs.CommandLine.Reanalysis
import Notebook.Proofs.Embedding.Ranked
import Notebook.Proofs.Search.Similar
import Notebook.Proofs.Text.Parts
import Notebook.Proofs.Query.Terms
import Notebook.Proofs.Text.Sigma
import Notebook.Proofs.Query.Written
import Notebook.Proofs.Decimal.Undefined
import Notebook.Proofs.Embedding.Undefined
import Notebook.Proofs.Query.Operator
import Notebook.Proofs.Note.Progress
import Notebook.Proofs.Calendar
import Notebook.Proofs.Text.Digit
import Notebook.Proofs.Query.Due
import Notebook.Proofs.Query.SameLetters
import Notebook.Proofs.Embedding.Rows
import Notebook.Proofs.Embedding.Reworded
import Notebook.Proofs.Embedding.Loading
import Notebook.Proofs.Analysis.Titled
import Notebook.Proofs.Analysis.Carried
import Notebook.Proofs.Analysis.Joined
import Notebook.Proofs.Analysis.Canonical
import Notebook.Proofs.Text.Trim
import Notebook.Proofs.Analysis.Recleaned
import Notebook.Proofs.Analysis.Apart
import Notebook.Proofs.Analysis.Counted
import Notebook.Proofs.Analysis.Sentences
import Notebook.Proofs.Analysis.Chosen
import Notebook.Proofs.Analysis.Unmarked
