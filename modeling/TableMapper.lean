import TableMapper.BigEndian
import TableMapper.Bindings
import TableMapper.Catalog.Basic
import TableMapper.Driver.Basic
import TableMapper.Driver.Recorder
import TableMapper.Driver.Server
import TableMapper.Entity
import TableMapper.Error
import TableMapper.Filter.Basic
import TableMapper.Hex
import TableMapper.Placeholder
import TableMapper.Proofs.Catalog.Content
import TableMapper.Proofs.Catalog.Declared
import TableMapper.Proofs.Catalog.Depth
import TableMapper.Proofs.Catalog.Growth
import TableMapper.Proofs.Catalog.History
import TableMapper.Proofs.Catalog.Pending
import TableMapper.Proofs.Catalog.Preorder
import TableMapper.Proofs.Catalog.Reachable
import TableMapper.Proofs.Catalog.Resolve
import TableMapper.Proofs.Catalog.Rollback
import TableMapper.Proofs.Catalog.Run
import TableMapper.Proofs.Catalog.Search
import TableMapper.Proofs.Catalog.Stable
import TableMapper.Proofs.Driver.Recording
import TableMapper.Proofs.Driver.Result
import TableMapper.Proofs.Driver.Sends
import TableMapper.Proofs.Filter.Clause
import TableMapper.Proofs.Filter.Everything
import TableMapper.Proofs.Filter.Meaning
import TableMapper.Proofs.Filter.Numbered
import TableMapper.Proofs.Filter.Render
import TableMapper.Proofs.Filter.Unambiguous
import TableMapper.Proofs.Placeholder.Bytes
import TableMapper.Proofs.Placeholder.Number
import TableMapper.Proofs.Placeholder.Part
import TableMapper.Proofs.Placeholder.Renumber
import TableMapper.Proofs.Placeholder.Split
import TableMapper.Proofs.Repository.Create
import TableMapper.Proofs.Repository.Exchange
import TableMapper.Proofs.Repository.Read
import TableMapper.Proofs.Repository.RoundTrip
import TableMapper.Proofs.Repository.Values
import TableMapper.Proofs.Repository.Where
import TableMapper.Proofs.Row.Columns
import TableMapper.Proofs.Row.Get
import TableMapper.Proofs.Sequence
import TableMapper.Proofs.Table.Compile
import TableMapper.Proofs.Table.Draft
import TableMapper.Proofs.Table.Faults
import TableMapper.Proofs.Table.Statement
import TableMapper.Proofs.Template.Expand
import TableMapper.Proofs.Template.Reading
import TableMapper.Proofs.Template.Refusal
import TableMapper.Proofs.Template.Rows
import TableMapper.Proofs.Value.Moment
import TableMapper.Proofs.Wire.Coercion
import TableMapper.Proofs.Wire.Integer
import TableMapper.Proofs.Wire.RoundTrip
import TableMapper.Proofs.Wire.Width
import TableMapper.Repository
import TableMapper.Row
import TableMapper.Statement
import TableMapper.Table.Basic
import TableMapper.Table.Statement
import TableMapper.Template
import TableMapper.Value.Basic
import TableMapper.Value.Binary
import TableMapper.Value.Moment
import TableMapper.Value.Type
import TableMapper.Value.Uuid
import TableMapper.Wire.ColumnType
import TableMapper.Wire.Decode
import TableMapper.Wire.Encode
