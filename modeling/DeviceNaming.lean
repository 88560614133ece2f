import DeviceNaming.Area.Hierarchy
import DeviceNaming.Area.Registry
import DeviceNaming.Area.Resolution
import DeviceNaming.Cache.Bounded
import DeviceNaming.Cache.Embeddings
import DeviceNaming.Cache.Indexes
import DeviceNaming.Cache.Queries
import DeviceNaming.Embedding.Embedder
import DeviceNaming.Embedding.Provider
import DeviceNaming.Embedding.Scripted
import DeviceNaming.Embedding.Similarity
import DeviceNaming.Entity.Entry
import DeviceNaming.Entity.Index
import DeviceNaming.Entity.Search
import DeviceNaming.Household.Basic
import DeviceNaming.Household.Resolver
import DeviceNaming.Household.Sample
import DeviceNaming.Json.Decoder
import DeviceNaming.Json.Draft
import DeviceNaming.Json.Fields
import DeviceNaming.Json.Mismatch
import DeviceNaming.Json.Numeral
import DeviceNaming.Json.Source
import DeviceNaming.Json.Token
import DeviceNaming.Json.Writer
import DeviceNaming.Number.Binary32
import DeviceNaming.Number.DecimalText
import DeviceNaming.Number.Magnitude
import DeviceNaming.Number.Reading
import DeviceNaming.Number.Shortest
import DeviceNaming.Number.Width
import DeviceNaming.Order.Roster
import DeviceNaming.Order.StableSort
import DeviceNaming.Record.Area
import DeviceNaming.Record.Entity
import DeviceNaming.Record.VariantTag
import DeviceNaming.Settings.Basic
import DeviceNaming.Settings.Conversion
import DeviceNaming.Settings.Document
import DeviceNaming.Settings.Environment
import DeviceNaming.Settings.Loading
import DeviceNaming.Settings.Path
import DeviceNaming.Settings.Tree
import DeviceNaming.Text.Blank
import DeviceNaming.Text.CaseTable
import DeviceNaming.Text.CodeRange
import DeviceNaming.Text.HiddenTable
import DeviceNaming.Text.Lowercase
import DeviceNaming.Text.Normal
import DeviceNaming.Text.Quotation
import DeviceNaming.Text.Search
import DeviceNaming.Toml.DateTime
import DeviceNaming.Toml.Document
import DeviceNaming.Toml.Table
import DeviceNaming.Toml.Text
import DeviceNaming.Toml.Value
import DeviceNaming.Proofs.Cache.Bounded
import DeviceNaming.Proofs.Embedding.Lookups
import DeviceNaming.Proofs.Embedding.Steady
import DeviceNaming.Proofs.Entity.Mirror
import DeviceNaming.Proofs.Entity.Ranking
import DeviceNaming.Proofs.Entity.Update
import DeviceNaming.Proofs.Entity.QueryCache
import DeviceNaming.Proofs.Area.Hierarchy
import DeviceNaming.Proofs.Cache.Indexes
import DeviceNaming.Proofs.Household.Contents
import DeviceNaming.Proofs.Household.Published
import DeviceNaming.Proofs.Household.Run
import DeviceNaming.Proofs.Household.Isolation
import DeviceNaming.Proofs.Household.Rebuilding
import DeviceNaming.Proofs.Entity.Narrowing
import DeviceNaming.Proofs.Household.Narrowing
import DeviceNaming.Proofs.Order.Postings
import DeviceNaming.Proofs.Entity.InStep
import DeviceNaming.Proofs.Household.Dimension
import DeviceNaming.Proofs.Household.Actions
import DeviceNaming.Proofs.Area.Names
import DeviceNaming.Proofs.Household.AreaLogs
import DeviceNaming.Proofs.Area.Mentions
import DeviceNaming.Proofs.Household.Mentions
import DeviceNaming.Proofs.Area.InStep
import DeviceNaming.Proofs.Cache.Conservation
import DeviceNaming.Proofs.Cache.Recency
import DeviceNaming.Proofs.Cache.Inclusion
import DeviceNaming.Proofs.Cache.History
import DeviceNaming.Proofs.Embedding.Unseen
import DeviceNaming.Proofs.Cache.IndexHistory
import DeviceNaming.Proofs.Entity.RankingLaws
import DeviceNaming.Proofs.Json.Source
import DeviceNaming.Proofs.Json.Tokens
import DeviceNaming.Proofs.Json.Drafts
import DeviceNaming.Proofs.Json.Records
import DeviceNaming.Proofs.Record.RoundTrip
import DeviceNaming.Proofs.Area.Preorder
import DeviceNaming.Proofs.Household.Updates
import DeviceNaming.Proofs.Number.Order
import DeviceNaming.Proofs.Area.Similarity
import DeviceNaming.Proofs.Number.Quotient
import DeviceNaming.Proofs.Entity.Scan
import DeviceNaming.Proofs.Embedding.Accounting
import DeviceNaming.Proofs.Embedding.Cosine
import DeviceNaming.Proofs.Settings.Layers
import DeviceNaming.Proofs.Settings.Decoding
import DeviceNaming.Proofs.Text.Keys
import DeviceNaming.Proofs.Json.Grammar
import DeviceNaming.Proofs.Json.Rearrangement
import DeviceNaming.Proofs.Record.Rearrangement
