import ExchangeCatalog.Main
import ExchangeCatalog.Proofs.Entity.Body
import ExchangeCatalog.Proofs.Entity.Fields
import ExchangeCatalog.Proofs.Entity.Keys
import ExchangeCatalog.Proofs.Entity.Patch
import ExchangeCatalog.Proofs.Entity.PutBack
import ExchangeCatalog.Proofs.Entity.Shape
import ExchangeCatalog.Proofs.Entity.Values
import ExchangeCatalog.Proofs.Filter.Comparison
import ExchangeCatalog.Proofs.Filter.Conjunction
import ExchangeCatalog.Proofs.Filter.FirstOccurrence
import ExchangeCatalog.Proofs.Filter.Predicate
import ExchangeCatalog.Proofs.Filter.Refusal
import ExchangeCatalog.Proofs.Filter.Registry
import ExchangeCatalog.Proofs.Filter.Shown
import ExchangeCatalog.Proofs.Http.Credentials
import ExchangeCatalog.Proofs.Http.CrossOrigin
import ExchangeCatalog.Proofs.Http.ErrorTexts
import ExchangeCatalog.Proofs.Http.Exchange
import ExchangeCatalog.Proofs.Http.IgnoredKeys
import ExchangeCatalog.Proofs.Http.Integers
import ExchangeCatalog.Proofs.Http.Isolation
import ExchangeCatalog.Proofs.Http.PutBack
import ExchangeCatalog.Proofs.Http.Slashes
import ExchangeCatalog.Proofs.Http.StatusContract
import ExchangeCatalog.Proofs.Http.Stores
import ExchangeCatalog.Proofs.Http.Target
import ExchangeCatalog.Proofs.Interleaving
import ExchangeCatalog.Proofs.Json.Members
import ExchangeCatalog.Proofs.Json.Numbers
import ExchangeCatalog.Proofs.Json.Outline
import ExchangeCatalog.Proofs.Json.Record
import ExchangeCatalog.Proofs.Json.Strings
import ExchangeCatalog.Proofs.Lists
import ExchangeCatalog.Proofs.Page.Address
import ExchangeCatalog.Proofs.Page.Facts
import ExchangeCatalog.Proofs.Page.Links
import ExchangeCatalog.Proofs.Page.Neighbours
import ExchangeCatalog.Proofs.Page.Partition
import ExchangeCatalog.Proofs.Page.Query
import ExchangeCatalog.Proofs.Page.Request
import ExchangeCatalog.Proofs.Page.Window
import ExchangeCatalog.Proofs.Repository.Identifiers
import ExchangeCatalog.Proofs.Repository.Memory
import ExchangeCatalog.Proofs.Repository.Steps
import ExchangeCatalog.Proofs.Repository.Table
import ExchangeCatalog.Proofs.Sequence
import ExchangeCatalog.Proofs.Service.Concurrency
import ExchangeCatalog.Proofs.Service.Ledger
import ExchangeCatalog.Proofs.Service.Merge
import ExchangeCatalog.Proofs.Service.Operation
import ExchangeCatalog.Proofs.Service.Patches
import ExchangeCatalog.Proofs.Service.Refinement
import ExchangeCatalog.Proofs.Service.Session
import ExchangeCatalog.Proofs.Settings.Decode
import ExchangeCatalog.Proofs.Settings.Key
import ExchangeCatalog.Proofs.Settings.Layers
import ExchangeCatalog.Proofs.Settings.Overlay
import ExchangeCatalog.Proofs.Settings.Put
import ExchangeCatalog.Proofs.Settings.Sources
import ExchangeCatalog.Proofs.Settings.Texts
import ExchangeCatalog.Proofs.Sql.Address
import ExchangeCatalog.Proofs.Sql.Agreement
import ExchangeCatalog.Proofs.Sql.Content
import ExchangeCatalog.Proofs.Sql.Conversation
import ExchangeCatalog.Proofs.Sql.Database
import ExchangeCatalog.Proofs.Sql.ErrorTexts
import ExchangeCatalog.Proofs.Sql.Layout
import ExchangeCatalog.Proofs.Sql.LeapSecond
import ExchangeCatalog.Proofs.Sql.Pieces
import ExchangeCatalog.Proofs.Sql.Query
import ExchangeCatalog.Proofs.Sql.Row
import ExchangeCatalog.Proofs.Sql.Text
import ExchangeCatalog.Proofs.Sql.Token
import ExchangeCatalog.Proofs.Sql.Writes
import ExchangeCatalog.Proofs.Text.Blank
import ExchangeCatalog.Proofs.Text.Decimal
import ExchangeCatalog.Proofs.Text.Numeral
import ExchangeCatalog.Proofs.Text.Percent
import ExchangeCatalog.Proofs.Text.Split
import ExchangeCatalog.Proofs.Text.Utf8
import ExchangeCatalog.Proofs.Time.Calendar
import ExchangeCatalog.Proofs.Time.Lenient
import ExchangeCatalog.Proofs.Time.Micros
import ExchangeCatalog.Proofs.Time.Rendering
import ExchangeCatalog.Proofs.Time.Succession
import ExchangeCatalog.Proofs.Time.Text
import ExchangeCatalog.Proofs.Toml.Strings
import ExchangeCatalog.Proofs.Toml.Tables
import ExchangeCatalog.Sql.Address
