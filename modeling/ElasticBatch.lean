import ElasticBatch.Category.Form
import ElasticBatch.Config.Document
import ElasticBatch.Config.Parameters
import ElasticBatch.Config.Wire
import ElasticBatch.Request.Wire
import ElasticBatch.Scenario
import ElasticBatch.Proofs.Batch.Manifest
import ElasticBatch.Proofs.Batch.Refinement
import ElasticBatch.Proofs.Batch.References
import ElasticBatch.Proofs.Batch.Flush
import ElasticBatch.Proofs.Batch.Erasure
import ElasticBatch.Proofs.Batch.Failure
import ElasticBatch.Pool.Run
import ElasticBatch.Proofs.Pool.Ledger
import ElasticBatch.Proofs.Pool.Accounting
import ElasticBatch.Proofs.Wire.Reading
import ElasticBatch.Proofs.Wire.Varint
import ElasticBatch.Proofs.Request.Grammar
import ElasticBatch.Proofs.Request.RoundTrip
import ElasticBatch.Proofs.Hub.Holding
import ElasticBatch.Proofs.Hub.Calls
import ElasticBatch.Proofs.Hub.Origin
import ElasticBatch.Proofs.Hub.Alone
import ElasticBatch.Proofs.Hub.Budget
import ElasticBatch.Proofs.Hub.Loop
import ElasticBatch.Proofs.Request.Framing
import ElasticBatch.Proofs.Hub.Sendable
import ElasticBatch.Proofs.Wire.Refusal
import ElasticBatch.Proofs.Wire.Shortest
import ElasticBatch.Proofs.Request.Truncation
import ElasticBatch.Proofs.Request.Normal
import ElasticBatch.Proofs.Batch.History
import ElasticBatch.Proofs.Batch.Counters
import ElasticBatch.Proofs.Batch.Accounts
import ElasticBatch.Proofs.Batch.Loop
import ElasticBatch.Proofs.Hub.Pressure
import ElasticBatch.Proofs.Hub.Finality
import ElasticBatch.Proofs.Request.Size
import ElasticBatch.Proofs.Pool.Sweep
import ElasticBatch.Proofs.Pool.Recovery
import ElasticBatch.Proofs.Pool.Notices
import ElasticBatch.Proofs.Hub.Notices
import ElasticBatch.Proofs.Batch.Signal
import ElasticBatch.Proofs.Wire.Traversal
import ElasticBatch.Proofs.Wire.Delimited
import ElasticBatch.Proofs.Wire.Schema
import ElasticBatch.Proofs.Config.Numeral
import ElasticBatch.Proofs.Config.Acceptance
import ElasticBatch.Proofs.Config.Refusal
import ElasticBatch.Proofs.Config.Forms
