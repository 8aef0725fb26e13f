import DefectGraphs.Balance.Oversample
import DefectGraphs.Balance.Stratum
import DefectGraphs.Batch
import DefectGraphs.Channel.Layout
import DefectGraphs.Channel.Relation
import DefectGraphs.Command.Arguments
import DefectGraphs.Command.Batches
import DefectGraphs.Command.Embed
import DefectGraphs.Command.Flag
import DefectGraphs.Command.Inspect
import DefectGraphs.Command.Invocation
import DefectGraphs.Command.Report
import DefectGraphs.Command.Run
import DefectGraphs.Command.Split
import DefectGraphs.Dataset
import DefectGraphs.Failure
import DefectGraphs.Files.Bytes
import DefectGraphs.Files.Change
import DefectGraphs.Files.Fault
import DefectGraphs.Files.Path
import DefectGraphs.Files.Tree
import DefectGraphs.Graph.Export
import DefectGraphs.Graph.Listing
import DefectGraphs.Graph.Loading
import DefectGraphs.Graph.Record
import DefectGraphs.Grouping
import DefectGraphs.Json.Fields
import DefectGraphs.Json.Pretty
import DefectGraphs.Json.Token
import DefectGraphs.Json.Tree
import DefectGraphs.Label.Category
import DefectGraphs.Label.Language
import DefectGraphs.Label.Target
import DefectGraphs.Main
import DefectGraphs.Notice
import DefectGraphs.Random.Draw
import DefectGraphs.Random.Shuffle
import DefectGraphs.Random.Stream
import DefectGraphs.Settings.Basic
import DefectGraphs.Settings.File
import DefectGraphs.Settings.Override
import DefectGraphs.Split.Fold
import DefectGraphs.Split.Manifest
import DefectGraphs.Split.Store
import DefectGraphs.Split.Stratified
import DefectGraphs.Text.Blank
import DefectGraphs.Text.Digest
import DefectGraphs.Text.Fixed
import DefectGraphs.Text.Hidden
import DefectGraphs.Text.Numeral
import DefectGraphs.Text.Quoted
import DefectGraphs.Text.Terminal
import DefectGraphs.Token.Backend
import DefectGraphs.Token.Cache
import DefectGraphs.Token.Codec
import DefectGraphs.Token.Descriptor
import DefectGraphs.Token.Embedding
import DefectGraphs.Token.Grams
import DefectGraphs.Token.Model
import DefectGraphs.Token.SkipGram
import DefectGraphs.Token.Store
import DefectGraphs.Token.Vocabulary
import DefectGraphs.Toml.Basic
import DefectGraphs.Toml.Document
import DefectGraphs.Toml.Number
import DefectGraphs.Toml.Text
import DefectGraphs.Workspace
import DefectGraphs.Proofs.Balance.Apart
import DefectGraphs.Proofs.Balance.Oversample
import DefectGraphs.Proofs.Balance.Settled
import DefectGraphs.Proofs.Balance.Strata
import DefectGraphs.Proofs.Batch.Cut
import DefectGraphs.Proofs.Batch.Fewest
import DefectGraphs.Proofs.Batch.Greedy
import DefectGraphs.Proofs.Batch.Shape
import DefectGraphs.Proofs.Batch.Totals
import DefectGraphs.Proofs.Batch.Union
import DefectGraphs.Proofs.Channel.Layout
import DefectGraphs.Proofs.Channel.OneLayout
import DefectGraphs.Proofs.Command.Batches
import DefectGraphs.Proofs.Command.Job
import DefectGraphs.Proofs.Command.Lookup
import DefectGraphs.Proofs.Dataset.Calls
import DefectGraphs.Proofs.Dataset.Canonical
import DefectGraphs.Proofs.Dataset.Folds
import DefectGraphs.Proofs.Dataset.Load
import DefectGraphs.Proofs.Dataset.Reached
import DefectGraphs.Proofs.Dataset.Shape
import DefectGraphs.Proofs.Files.Bytes
import DefectGraphs.Proofs.Files.Items
import DefectGraphs.Proofs.Files.Join
import DefectGraphs.Proofs.Files.Node
import DefectGraphs.Proofs.Files.Tree
import DefectGraphs.Proofs.Graph.Edges
import DefectGraphs.Proofs.Graph.Loading
import DefectGraphs.Proofs.Graph.Parsing
import DefectGraphs.Proofs.Graph.Readers
import DefectGraphs.Proofs.Graph.Schedule
import DefectGraphs.Proofs.Graph.Schema
import DefectGraphs.Proofs.Graph.Uncached
import DefectGraphs.Proofs.Grouping
import DefectGraphs.Proofs.Json.Schema
import DefectGraphs.Proofs.Label.Target
import DefectGraphs.Proofs.Outcome
import DefectGraphs.Proofs.Random.Shuffle
import DefectGraphs.Proofs.Settings.Held
import DefectGraphs.Proofs.Settings.Override
import DefectGraphs.Proofs.Split.Count
import DefectGraphs.Proofs.Split.Deal
import DefectGraphs.Proofs.Split.Filled
import DefectGraphs.Proofs.Split.Grammar
import DefectGraphs.Proofs.Split.Made
import DefectGraphs.Proofs.Split.Partition
import DefectGraphs.Proofs.Split.ReadBack
import DefectGraphs.Proofs.Split.Renaming
import DefectGraphs.Proofs.Split.RoundTrip
import DefectGraphs.Proofs.Split.Shares
import DefectGraphs.Proofs.Split.Store
import DefectGraphs.Proofs.StratumText
import DefectGraphs.Proofs.Text.Numeral
import DefectGraphs.Proofs.Text.Reading
import DefectGraphs.Proofs.Text.Words
import DefectGraphs.Proofs.Token.Cache
import DefectGraphs.Proofs.Token.Codec
import DefectGraphs.Proofs.Token.Descriptor
import DefectGraphs.Proofs.Token.Grams
import DefectGraphs.Proofs.Token.Guarded
import DefectGraphs.Proofs.Token.InBounds
import DefectGraphs.Proofs.Token.Memory
import DefectGraphs.Proofs.Token.ModelPath
import DefectGraphs.Proofs.Token.Persistence
import DefectGraphs.Proofs.Token.Ranking
import DefectGraphs.Proofs.Token.Rare
import DefectGraphs.Proofs.Token.Shape
import DefectGraphs.Proofs.Token.Sharing
import DefectGraphs.Proofs.Token.Store
import DefectGraphs.Proofs.Token.TrainedRows
import DefectGraphs.Proofs.Token.Unmoved
import DefectGraphs.Proofs.Token.Vocabulary
import DefectGraphs.Proofs.Workspace
