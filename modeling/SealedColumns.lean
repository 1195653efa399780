import SealedColumns.ActiveColumns
import SealedColumns.Cipher.Aead
import SealedColumns.Cipher.ChaCha20
import SealedColumns.Cipher.Poly1305
import SealedColumns.Column
import SealedColumns.CommandLine
import SealedColumns.Config
import SealedColumns.Config.File
import SealedColumns.Digest.Hmac
import SealedColumns.Digest.Sha256
import SealedColumns.Digest.Word
import SealedColumns.Distinct
import SealedColumns.Double
import SealedColumns.Entropy
import SealedColumns.Error
import SealedColumns.Event
import SealedColumns.Handler
import SealedColumns.Identifier
import SealedColumns.Interceptor
import SealedColumns.Invocation
import SealedColumns.Json.Number
import SealedColumns.Json.Reader
import SealedColumns.Json.Record
import SealedColumns.Json.Value
import SealedColumns.Json.Writer
import SealedColumns.Keys.Derive
import SealedColumns.Keys.Directory
import SealedColumns.Keys.Provider
import SealedColumns.Keys.Static
import SealedColumns.Main
import SealedColumns.Parameters
import SealedColumns.Property
import SealedColumns.Registry
import SealedColumns.Rows
import SealedColumns.Seal.Draft
import SealedColumns.Seal.Filter
import SealedColumns.Seal.Operand
import SealedColumns.Seal.Read
import SealedColumns.Seal.Statement
import SealedColumns.Seal.Write
import SealedColumns.Sql.Dialect
import SealedColumns.Sql.Lexer
import SealedColumns.Sql.Parse
import SealedColumns.Sql.Parse.Call
import SealedColumns.Sql.Parse.Expr
import SealedColumns.Sql.Parse.Operator
import SealedColumns.Sql.Parse.Query
import SealedColumns.Sql.Parse.Source
import SealedColumns.Sql.Parse.Statement
import SealedColumns.Sql.Parse.Type
import SealedColumns.Sql.Printer
import SealedColumns.Sql.Syntax
import SealedColumns.Sql.Text
import SealedColumns.Sql.Token
import SealedColumns.Sql.Walk
import SealedColumns.Statement
import SealedColumns.Supply
import SealedColumns.Text.Ascii
import SealedColumns.Text.Base64
import SealedColumns.Text.Blank
import SealedColumns.Text.Decimal
import SealedColumns.Text.Hex
import SealedColumns.Text.Letter
import SealedColumns.Text.Utf8
import SealedColumns.Toml.Reader
import SealedColumns.Toml.Scalar
import SealedColumns.Toml.Table
import SealedColumns.Vault
import SealedColumns.Volume
import SealedColumns.Proofs.Numbering
import SealedColumns.Proofs.Act
import SealedColumns.Proofs.Plan
import SealedColumns.Proofs.Compare
import SealedColumns.Proofs.Write
import SealedColumns.Proofs.Whole
import SealedColumns.Proofs.Alignment
import SealedColumns.Proofs.Ledger
import SealedColumns.Proofs.Expansion
import SealedColumns.Proofs.Outcome
import SealedColumns.Proofs.Store.Binding
import SealedColumns.Proofs.Store.Table
import SealedColumns.Proofs.Store.Layout
import SealedColumns.Proofs.Store.Mirror
import SealedColumns.Proofs.Store.Reveal
import SealedColumns.Proofs.Reliable
import SealedColumns.Proofs.Store.Values
import SealedColumns.Proofs.Store.Insertion
import SealedColumns.Proofs.Store.Selection
import SealedColumns.Proofs.Store.Call
import SealedColumns.Proofs.Store.History
import SealedColumns.Proofs.Predicate
import SealedColumns.Proofs.References
import SealedColumns.Proofs.Entries
import SealedColumns.Proofs.Splice
import SealedColumns.Proofs.Selects
import SealedColumns.Proofs.Emission
import SealedColumns.Proofs.Target
import SealedColumns.Proofs.Scope
import SealedColumns.Proofs.Comparison
import SealedColumns.Proofs.Plaintext
import SealedColumns.Proofs.Vault.Coding
import SealedColumns.Proofs.Vault.Sealing
import SealedColumns.Proofs.Vault.Files
import SealedColumns.Proofs.Vault.Names
import SealedColumns.Proofs.Vault.Folder
import SealedColumns.Proofs.Vault.Session
import SealedColumns.Proofs.Rewalk
import SealedColumns.Proofs.Outline
import SealedColumns.Proofs.Settled
import SealedColumns.Proofs.Idempotence
import SealedColumns.Proofs.Recording
import SealedColumns.Proofs.Lineage
import SealedColumns.Proofs.Handover
import SealedColumns.Proofs.Disclosure
import SealedColumns.Proofs.Printing
import SealedColumns.Proofs.Parsing
import SealedColumns.Proofs.OneSource
import SealedColumns.Proofs.Marks
import SealedColumns.Proofs.Places
import SealedColumns.Proofs.Vault.Canonical
import SealedColumns.Proofs.Vault.Opening
import SealedColumns.Proofs.Edits
import SealedColumns.Proofs.Positions
import SealedColumns.Proofs.Quoting
import SealedColumns.Proofs.Lexemes
import SealedColumns.Proofs.Reparse
import SealedColumns.Proofs.Operands
import SealedColumns.Proofs.Operators
import SealedColumns.Proofs.Parsed
import SealedColumns.Proofs.Bodies
import SealedColumns.Proofs.Legible
import SealedColumns.Proofs.Commands
import SealedColumns.Proofs.Denotation
import SealedColumns.Proofs.Tandem
import SealedColumns.Proofs.InsertForms
import SealedColumns.Proofs.Paths
import SealedColumns.Proofs.Indexing
import SealedColumns.Proofs.IndexedOnce
import SealedColumns.Proofs.Reached
import SealedColumns.Proofs.Redirection
import SealedColumns.Proofs.Failing
import SealedColumns.Proofs.Requests
import SealedColumns.Proofs.Asking
import SealedColumns.Proofs.Failure
import SealedColumns.Proofs.Catalog
import SealedColumns.Proofs.Cells
import SealedColumns.Proofs.Turns
import SealedColumns.Proofs.Decryption
import SealedColumns.Proofs.Opened
import SealedColumns.Proofs.RowKeys
import SealedColumns.Proofs.ReadBack
import SealedColumns.Proofs.Resolution
import SealedColumns.Proofs.Naming
import SealedColumns.Proofs.Accepted
import SealedColumns.Proofs.Listed
import SealedColumns.Proofs.Collisions
import SealedColumns.Proofs.Scoping
import SealedColumns.Proofs.Determined
import SealedColumns.Proofs.Faults
import SealedColumns.Proofs.Shares
import SealedColumns.Proofs.Independence
import SealedColumns.Proofs.Lens
import SealedColumns.Proofs.Vault.Changes
import SealedColumns.Proofs.Vault.Founding
import SealedColumns.Proofs.Vault.Rotation
import SealedColumns.Proofs.Vault.Retired
import SealedColumns.Proofs.Expressions
import SealedColumns.Proofs.Ordinals
import SealedColumns.Proofs.Roots
import SealedColumns.Proofs.NormalForms
