import SignatureSearch.Catalog
import SignatureSearch.Collation
import SignatureSearch.CommandLine.Arguments
import SignatureSearch.CommandLine.Measured
import SignatureSearch.CommandLine.Run
import SignatureSearch.Failure
import SignatureSearch.Indexing
import SignatureSearch.Json.Basic
import SignatureSearch.Json.Printer
import SignatureSearch.Json.Reader
import SignatureSearch.Json.Record
import SignatureSearch.Lexeme
import SignatureSearch.Main
import SignatureSearch.Number.Binary64
import SignatureSearch.Number.Count
import SignatureSearch.Number.Decimal
import SignatureSearch.Plan
import SignatureSearch.Query
import SignatureSearch.Query.Parser
import SignatureSearch.Render
import SignatureSearch.Response
import SignatureSearch.Row
import SignatureSearch.Scan
import SignatureSearch.Search
import SignatureSearch.Settings
import SignatureSearch.Store.CatalogFiles
import SignatureSearch.Store.Database
import SignatureSearch.Store.DatabaseText
import SignatureSearch.Store.Disk
import SignatureSearch.Store.IndexStore
import SignatureSearch.Store.Path
import SignatureSearch.Store.Session
import SignatureSearch.Store.Writer
import SignatureSearch.Text.Quoted
import SignatureSearch.Text.Unprintable
import SignatureSearch.Toml.Document
import SignatureSearch.Toml.Reader
import SignatureSearch.TypeNode
import SignatureSearch.Proofs.CollationOrder
import SignatureSearch.Proofs.Rendering
import SignatureSearch.Proofs.SignatureRoundTrip
import SignatureSearch.Proofs.Batches
import SignatureSearch.Proofs.MemoryScan
import SignatureSearch.Proofs.KeyRanges
import SignatureSearch.Proofs.ParsedNodes
import SignatureSearch.Proofs.SignatureRows
import SignatureSearch.Proofs.WildcardSearch
import SignatureSearch.Proofs.DisplayedSignature
import SignatureSearch.Proofs.NameRanges
import SignatureSearch.Proofs.NameSearch
import SignatureSearch.Proofs.LastTypeSearch
import SignatureSearch.Proofs.ReaderMoves
import SignatureSearch.Proofs.SignatureGrammar
import SignatureSearch.Proofs.AcceptedSignatures
import SignatureSearch.Proofs.ReaderRuns
import SignatureSearch.Proofs.OpenGroups
import SignatureSearch.Proofs.FirstError
import SignatureSearch.Proofs.UnclosedGroups
import SignatureSearch.Proofs.Fragments
import SignatureSearch.Proofs.QueryParts
import SignatureSearch.Proofs.NearestBinary64
import SignatureSearch.Proofs.ShortestDecimal
import SignatureSearch.Proofs.DecimalTexts
import SignatureSearch.Proofs.JsonRoundTrip
import SignatureSearch.Proofs.JsonReading
import SignatureSearch.Proofs.JsonProgress
import SignatureSearch.Proofs.DatabaseScan
import SignatureSearch.Proofs.StoreInPlace
import SignatureSearch.Proofs.SessionHistory
import SignatureSearch.Proofs.BackendScan
import SignatureSearch.Proofs.StoreCreation
import SignatureSearch.Proofs.ViewConsistency
import SignatureSearch.Proofs.DatabaseAnswers
import SignatureSearch.Proofs.Lookups
import SignatureSearch.Proofs.BatchOrder
import SignatureSearch.Proofs.CreatedStore
import SignatureSearch.Proofs.CatalogKept
import SignatureSearch.Proofs.CatalogFailures
import SignatureSearch.Proofs.Rebuilding
import SignatureSearch.Proofs.CatalogSplit
import SignatureSearch.Proofs.CatalogDocuments
import SignatureSearch.Proofs.FormNesting
import SignatureSearch.Proofs.CommittedReads
import SignatureSearch.Proofs.AcceptedCatalogs
import SignatureSearch.Proofs.TwoSpellings
import SignatureSearch.Proofs.WireForm
import SignatureSearch.Proofs.ReducedSignatures
import SignatureSearch.Proofs.CatalogShapes
import SignatureSearch.Proofs.CatalogRereading
import SignatureSearch.Proofs.SpacedLexemes
import SignatureSearch.Proofs.TypeHeights
import SignatureSearch.Proofs.ColouredText
import SignatureSearch.Proofs.JoinedTexts
import SignatureSearch.Proofs.NamesKept
import SignatureSearch.Proofs.SearchOnDisk
