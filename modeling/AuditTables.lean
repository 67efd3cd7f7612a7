import AuditTables.Main
import AuditTables.Proofs.CommandLine.Streaming
import AuditTables.Source.Script
import AuditTables.Proofs.Table.Eviction
import AuditTables.Proofs.Table.RowShape
import AuditTables.Proofs.Xml.Rendering
import AuditTables.Proofs.Xml.Token
import AuditTables.Proofs.Xml.Piece
import AuditTables.Proofs.Xml.RoundTrip
import AuditTables.Proofs.Table.Routing
import AuditTables.Proofs.Source.Subscription
import AuditTables.Proofs.Pipeline
import AuditTables.Proofs.Event.Integer
import AuditTables.Proofs.Event.RecordRoundTrip
import AuditTables.Proofs.Table.Independence
import AuditTables.Proofs.Table.Export
import AuditTables.Proofs.Table.Batching
import AuditTables.Proofs.Table.Connection
import AuditTables.Proofs.Xml.Building
import AuditTables.Proofs.Event.Framing
import AuditTables.Proofs.Xml.Inside
import AuditTables.Proofs.Source.Throttling
import AuditTables.Proofs.Table.KeysRead
import AuditTables.Proofs.Xml.Truncation
import AuditTables.Proofs.Xml.Excerpt
import AuditTables.Proofs.Xml.Comment
