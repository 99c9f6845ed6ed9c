import OffsetAtlas.Attempt
import OffsetAtlas.Bytes.LittleEndian
import OffsetAtlas.Bytes.Reader
import OffsetAtlas.CommandLine.Arguments
import OffsetAtlas.CommandLine.Number
import OffsetAtlas.CommandLine.Parse
import OffsetAtlas.CommandLine.Reach
import OffsetAtlas.CommandLine.Run
import OffsetAtlas.CommandLine.Settings
import OffsetAtlas.CommandLine.Source
import OffsetAtlas.Config
import OffsetAtlas.Csv.Parse
import OffsetAtlas.Csv.Row
import OffsetAtlas.Database.Basic
import OffsetAtlas.Database.Load
import OffsetAtlas.Database.Open
import OffsetAtlas.Delta.Field
import OffsetAtlas.Delta.Header
import OffsetAtlas.Delta.Record
import OffsetAtlas.Dense
import OffsetAtlas.Denylist
import OffsetAtlas.Digest.Sha512
import OffsetAtlas.Discovery
import OffsetAtlas.Disk.Basic
import OffsetAtlas.Disk.Change
import OffsetAtlas.Disk.Walk
import OffsetAtlas.Entry
import OffsetAtlas.Failure
import OffsetAtlas.Format
import OffsetAtlas.Host
import OffsetAtlas.Identifier
import OffsetAtlas.Loader
import OffsetAtlas.Notice
import OffsetAtlas.Packed
import OffsetAtlas.Packing
import OffsetAtlas.Path
import OffsetAtlas.Region
import OffsetAtlas.Session
import OffsetAtlas.Table.Basic
import OffsetAtlas.Table.Bisection
import OffsetAtlas.Table.Reverse
import OffsetAtlas.Table.Span
import OffsetAtlas.Text.Json
import OffsetAtlas.Text.Numeral
import OffsetAtlas.Text.Printable
import OffsetAtlas.Text.Quoted
import OffsetAtlas.Text.Utf8
import OffsetAtlas.Text.WhiteSpace
import OffsetAtlas.Version
import OffsetAtlas.Main
import OffsetAtlas.Proofs.Bytes.Reading
import OffsetAtlas.Proofs.Delta.RoundTrip
import OffsetAtlas.Proofs.Disk.Nodes
import OffsetAtlas.Proofs.Disk.Directory
import OffsetAtlas.Proofs.Disk.Operations
import OffsetAtlas.Proofs.Region.Names
import OffsetAtlas.Proofs.Region.Sharing
import OffsetAtlas.Proofs.Database.Encoding
import OffsetAtlas.Proofs.Database.Sharing
import OffsetAtlas.Proofs.Database.Opening
import OffsetAtlas.Proofs.Session.Sharing
import OffsetAtlas.Proofs.Table.Ordered
import OffsetAtlas.Proofs.Database.Attaching
import OffsetAtlas.Proofs.Database.Leftover
import OffsetAtlas.Proofs.Attempt.Quiet
import OffsetAtlas.Proofs.Region.Tending
import OffsetAtlas.Proofs.Region.Accounting
import OffsetAtlas.Proofs.Region.Lifetime
import OffsetAtlas.Proofs.Database.Settling
import OffsetAtlas.Proofs.Session.Failing
import OffsetAtlas.Proofs.Text.Utf8
import OffsetAtlas.Proofs.Delta.Header
import OffsetAtlas.Proofs.Dense.RoundTrip
import OffsetAtlas.Proofs.Dense.Image
import OffsetAtlas.Proofs.Packing.Slots
import OffsetAtlas.Proofs.Packing.RoundTrip
import OffsetAtlas.Proofs.Disk.Writing
import OffsetAtlas.Proofs.Csv.Rows
import OffsetAtlas.Proofs.Packing.Conversion
import OffsetAtlas.Proofs.Database.LastRecord
import OffsetAtlas.Proofs.Database.Decoding
import OffsetAtlas.Proofs.Database.Gate
import OffsetAtlas.Proofs.Text.Case
import OffsetAtlas.Proofs.Database.Verdict
import OffsetAtlas.Proofs.Database.Seated
import OffsetAtlas.Proofs.Session.Installed
import OffsetAtlas.Proofs.Table.Accepted
import OffsetAtlas.Proofs.Table.Dense
import OffsetAtlas.Proofs.Table.Last
import OffsetAtlas.Proofs.Table.Sorting
import OffsetAtlas.Proofs.Database.Listing
import OffsetAtlas.Proofs.Table.Reverse
import OffsetAtlas.Proofs.Table.Checked
import OffsetAtlas.Proofs.Bytes.Cursor
import OffsetAtlas.Proofs.Database.Bounds
import OffsetAtlas.Proofs.Text.Numeral
import OffsetAtlas.Proofs.Text.WhiteSpace
import OffsetAtlas.Proofs.Csv.Grammar
import OffsetAtlas.Proofs.Csv.Messages
import OffsetAtlas.Proofs.Csv.Verdicts
import OffsetAtlas.Proofs.Delta.Records
import OffsetAtlas.Proofs.Bytes.Delimited
import OffsetAtlas.Proofs.Delta.Delimited
import OffsetAtlas.Proofs.Delta.Shortest
import OffsetAtlas.Proofs.Identifier.Fallback
import OffsetAtlas.Proofs.Discovery.Distinct
import OffsetAtlas.Proofs.Packing.Checked
import OffsetAtlas.Proofs.Csv.Warnings
import OffsetAtlas.Proofs.Attempt.Each
import OffsetAtlas.Proofs.CommandLine.Numbers
import OffsetAtlas.Proofs.Version.Spelling
import OffsetAtlas.Proofs.Bytes.Sequence
