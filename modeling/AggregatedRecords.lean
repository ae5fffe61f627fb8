import AggregatedRecords.Aggregator
import AggregatedRecords.Base64
import AggregatedRecords.Bytes
import AggregatedRecords.CommandLine.LogFilter
import AggregatedRecords.CommandLine.LogLine
import AggregatedRecords.CommandLine.Options
import AggregatedRecords.CommandLine.Run
import AggregatedRecords.Consumer
import AggregatedRecords.Deaggregation
import AggregatedRecords.Decimal.Number
import AggregatedRecords.Decimal.Shortest
import AggregatedRecords.Decimal.Word
import AggregatedRecords.Digest
import AggregatedRecords.Frame
import AggregatedRecords.Hex
import AggregatedRecords.Json.Decoder
import AggregatedRecords.Json.Error
import AggregatedRecords.Json.Numeral
import AggregatedRecords.Json.Token
import AggregatedRecords.Json.Value
import AggregatedRecords.KeyTable
import AggregatedRecords.Main
import AggregatedRecords.Md5
import AggregatedRecords.Pattern.Basic
import AggregatedRecords.Pattern.Bracket
import AggregatedRecords.Pattern.Item
import AggregatedRecords.Record.Basic
import AggregatedRecords.Record.Json
import AggregatedRecords.Record.Wire
import AggregatedRecords.Rendering.Json
import AggregatedRecords.Rendering.Text
import AggregatedRecords.Rendering.Validated
import AggregatedRecords.Settings.Basic
import AggregatedRecords.Settings.Json
import AggregatedRecords.Statistics.Counts
import AggregatedRecords.Statistics.Duration
import AggregatedRecords.Statistics.Snapshot
import AggregatedRecords.Text.Alphanumeric
import AggregatedRecords.Text.Blank
import AggregatedRecords.Text.Escaped
import AggregatedRecords.Text.Lowered
import AggregatedRecords.Text.Quoted
import AggregatedRecords.Text.Ranges
import AggregatedRecords.Text.Unprintable
import AggregatedRecords.Validation.Attempt
import AggregatedRecords.Validation.Error
import AggregatedRecords.Validation.Validator
import AggregatedRecords.Wire.Failure
import AggregatedRecords.Wire.Field
import AggregatedRecords.Wire.Message
import AggregatedRecords.Wire.Reader
import AggregatedRecords.Wire.Varint
import AggregatedRecords.Proofs.Record.Length
import AggregatedRecords.Proofs.Record.RoundTrip
import AggregatedRecords.Proofs.Aggregator.History
import AggregatedRecords.Proofs.Aggregator.Contents
import AggregatedRecords.Proofs.Aggregator.Length
import AggregatedRecords.Proofs.Deaggregation
import AggregatedRecords.Proofs.Aggregator.RoundTrip
import AggregatedRecords.Proofs.Base64.Groups
import AggregatedRecords.Proofs.Text.Blank
import AggregatedRecords.Proofs.Base64.RoundTrip
import AggregatedRecords.Proofs.Validation.Acceptance
import AggregatedRecords.Proofs.Validation.Accounting
import AggregatedRecords.Proofs.Validation.RoundTrip
import AggregatedRecords.Proofs.Statistics.Counts
import AggregatedRecords.Proofs.Validation.History
import AggregatedRecords.Proofs.Validation.Workers
import AggregatedRecords.Proofs.Aggregator.Greedy
import AggregatedRecords.Proofs.Record.Reencoding
import AggregatedRecords.Proofs.Rendering.Text
import AggregatedRecords.Proofs.CommandLine.LineByLine
import AggregatedRecords.Proofs.Frame.Damage
import AggregatedRecords.Proofs.Aggregator.Admission
import AggregatedRecords.Proofs.Wire.Local
import AggregatedRecords.Proofs.Wire.Fields
import AggregatedRecords.Proofs.Record.Schema
import AggregatedRecords.Proofs.Validation.Completeness
import AggregatedRecords.Proofs.Validation.EntryPoints
import AggregatedRecords.Proofs.Validation.Conditions
import AggregatedRecords.Proofs.Validation.FailFast
import AggregatedRecords.Proofs.Validation.OtherSettings
import AggregatedRecords.Proofs.Json.Document
import AggregatedRecords.Proofs.Json.Tokens
import AggregatedRecords.Proofs.Rendering.Json
import AggregatedRecords.Proofs.Base64.Standard
import AggregatedRecords.Proofs.Hex
import AggregatedRecords.Proofs.Rendering.Listing
import AggregatedRecords.Proofs.Record.Concatenation
import AggregatedRecords.Proofs.Frame.EntryPoints
import AggregatedRecords.Proofs.Statistics.Duration
import AggregatedRecords.Proofs.Statistics.StageTimes
import AggregatedRecords.Proofs.Base64.Bits
import AggregatedRecords.Proofs.Md5.Sines
import AggregatedRecords.Proofs.Md5.State
import AggregatedRecords.Proofs.Md5.Standard
import AggregatedRecords.Proofs.Json.Decoder
import AggregatedRecords.Proofs.Json.Values
import AggregatedRecords.Proofs.Settings.Json
import AggregatedRecords.Proofs.Json.Arrays
import AggregatedRecords.Proofs.KeyTable.History
import AggregatedRecords.Proofs.Text.Places
import AggregatedRecords.Proofs.Record.Json
import AggregatedRecords.Proofs.CommandLine.Overriding
