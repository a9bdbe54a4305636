import CredentialRelay.Attempt
import CredentialRelay.CommandLine.Arguments
import CredentialRelay.CommandLine.Help
import CredentialRelay.CommandLine.Program
import CredentialRelay.Config
import CredentialRelay.Credential.Decode
import CredentialRelay.Credential.Kind
import CredentialRelay.Credential.Record
import CredentialRelay.Cron.Field
import CredentialRelay.Cron.Grammar
import CredentialRelay.Cron.Occurrence
import CredentialRelay.Cron.Weekday
import CredentialRelay.Cycle.Basic
import CredentialRelay.Cycle.Entry
import CredentialRelay.Cycle.Memory
import CredentialRelay.Cycle.Remote
import CredentialRelay.Cycle.Services
import CredentialRelay.Dictionary
import CredentialRelay.Failure
import CredentialRelay.Http.Exchange
import CredentialRelay.Http.Message
import CredentialRelay.Http.Status
import CredentialRelay.Json.Bytes
import CredentialRelay.Json.Decoder
import CredentialRelay.Json.Escape
import CredentialRelay.Json.Fault
import CredentialRelay.Json.Lexeme
import CredentialRelay.Json.Skip
import CredentialRelay.Kubernetes.Store
import CredentialRelay.Log
import CredentialRelay.Log.Filter
import CredentialRelay.Log.Line
import CredentialRelay.Main
import CredentialRelay.Metrics.Basic
import CredentialRelay.Metrics.Exposition
import CredentialRelay.Number.Binary64
import CredentialRelay.Number.Shortest
import CredentialRelay.Number.Word
import CredentialRelay.Probe
import CredentialRelay.Proofs.Attempt
import CredentialRelay.Proofs.Config.BlankVariables
import CredentialRelay.Proofs.Credential.Fields
import CredentialRelay.Proofs.Credential.Filled
import CredentialRelay.Proofs.Credential.Path
import CredentialRelay.Proofs.Credential.Redaction
import CredentialRelay.Proofs.Credential.Wire
import CredentialRelay.Proofs.Cron.Adjacent
import CredentialRelay.Proofs.Cron.Expression
import CredentialRelay.Proofs.Cron.Numbering
import CredentialRelay.Proofs.Cron.Occurrence
import CredentialRelay.Proofs.Cron.Search
import CredentialRelay.Proofs.Cron.Spelling
import CredentialRelay.Proofs.Cron.StandardWeek
import CredentialRelay.Proofs.Cycle.Accounting
import CredentialRelay.Proofs.Cycle.Attempts
import CredentialRelay.Proofs.Cycle.Calls
import CredentialRelay.Proofs.Cycle.ChangeDetection
import CredentialRelay.Proofs.Cycle.Fates
import CredentialRelay.Proofs.Cycle.History
import CredentialRelay.Proofs.Cycle.Isolation
import CredentialRelay.Proofs.Cycle.Memory
import CredentialRelay.Proofs.Cycle.NothingLost
import CredentialRelay.Proofs.Cycle.Overwriting
import CredentialRelay.Proofs.Cycle.Refusals
import CredentialRelay.Proofs.Cycle.Requirements
import CredentialRelay.Proofs.Cycle.Secrecy
import CredentialRelay.Proofs.Cycle.Sessions
import CredentialRelay.Proofs.Cycle.Telling
import CredentialRelay.Proofs.Cycle.Undecodable
import CredentialRelay.Proofs.Cycle.Writes
import CredentialRelay.Proofs.Dictionary
import CredentialRelay.Proofs.Http.Chain
import CredentialRelay.Proofs.Http.Mask
import CredentialRelay.Proofs.Http.Trail
import CredentialRelay.Proofs.Json.Elements
import CredentialRelay.Proofs.Json.Exposure
import CredentialRelay.Proofs.Json.Grammar
import CredentialRelay.Proofs.Json.Naturals
import CredentialRelay.Proofs.Json.Passing
import CredentialRelay.Proofs.Json.Positions
import CredentialRelay.Proofs.Json.Records
import CredentialRelay.Proofs.Json.Scalars
import CredentialRelay.Proofs.Json.Soundness
import CredentialRelay.Proofs.Json.Values
import CredentialRelay.Proofs.Json.Veil
import CredentialRelay.Proofs.Json.Yields
import CredentialRelay.Proofs.Kubernetes.Fetch
import CredentialRelay.Proofs.Metrics.Counting
import CredentialRelay.Proofs.Schedule.Intervals
import CredentialRelay.Proofs.Schedule.SecondZero
import CredentialRelay.Proofs.Schedule.Upcoming
import CredentialRelay.Proofs.Schedule.Weekdays
import CredentialRelay.Proofs.Secret.LastUpdate
import CredentialRelay.Proofs.Secret.Readings
import CredentialRelay.Proofs.Text.ByteOrder
import CredentialRelay.Proofs.Text.Fields
import CredentialRelay.Proofs.Text.Letters
import CredentialRelay.Proofs.Text.Lowercase
import CredentialRelay.Proofs.Text.Split
import CredentialRelay.Proofs.Text.Trimming
import CredentialRelay.Proofs.Text.Utf8
import CredentialRelay.Proofs.Time.Calendar
import CredentialRelay.Proofs.Time.Rfc3339
import CredentialRelay.Proofs.Timeline
import CredentialRelay.Proofs.Url.Address
import CredentialRelay.Proofs.Url.Behind
import CredentialRelay.Proofs.Url.Host
import CredentialRelay.Proofs.Url.Legible
import CredentialRelay.Proofs.Url.Origin
import CredentialRelay.Proofs.Url.Percent
import CredentialRelay.Proofs.Url.Segments
import CredentialRelay.Proofs.Url.Siblings
import CredentialRelay.Proofs.Url.Walk
import CredentialRelay.Proofs.Vault.Acknowledgement
import CredentialRelay.Proofs.Vault.Collisions
import CredentialRelay.Proofs.Vault.Discretion
import CredentialRelay.Proofs.Vault.Granting
import CredentialRelay.Proofs.Vault.Mount
import CredentialRelay.Proofs.Vault.Opening
import CredentialRelay.Proofs.Vault.Padding
import CredentialRelay.Proofs.Vault.Refusal
import CredentialRelay.Proofs.Vault.Sendable
import CredentialRelay.Proofs.Vault.Session
import CredentialRelay.Proofs.Vault.Token
import CredentialRelay.Schedule.Descriptor
import CredentialRelay.Schedule.Interval
import CredentialRelay.Secret.Basic
import CredentialRelay.Secret.Decode
import CredentialRelay.Secret.Reading
import CredentialRelay.Text.Base64
import CredentialRelay.Text.Blank
import CredentialRelay.Text.CaseTables
import CredentialRelay.Text.DecimalDigit
import CredentialRelay.Text.Lowercase
import CredentialRelay.Text.Natural
import CredentialRelay.Text.Quoted
import CredentialRelay.Text.Ranges
import CredentialRelay.Text.Split
import CredentialRelay.Text.Unprintable
import CredentialRelay.Text.Utf8
import CredentialRelay.Time.Calendar
import CredentialRelay.Time.Instant
import CredentialRelay.Time.Rfc3339
import CredentialRelay.Timeline
import CredentialRelay.Url.Basic
import CredentialRelay.Url.Host
import CredentialRelay.Url.Parse
import CredentialRelay.Url.Percent
import CredentialRelay.Url.Punycode
import CredentialRelay.Vault.Session
