import VectorTable.Environment
import VectorTable.ConfigFile
import VectorTable.Main
import VectorTable.Proofs.Codec
import VectorTable.Proofs.Item
import VectorTable.Proofs.Wire
import VectorTable.Proofs.Shape
import VectorTable.Proofs.Stream
import VectorTable.Proofs.Parameter
import VectorTable.Proofs.Delimited
import VectorTable.Proofs.Layout
import VectorTable.Proofs.Grammar
import VectorTable.Proofs.ItemBytes
import VectorTable.Proofs.Index
import VectorTable.Proofs.Numbering
import VectorTable.Proofs.Insertion
import VectorTable.Proofs.Assignment
import VectorTable.Proofs.ItemMaps
import VectorTable.Proofs.Header
import VectorTable.Proofs.Persisted
import VectorTable.Proofs.Decoding
import VectorTable.Proofs.Limits
import VectorTable.Proofs.Migration
import VectorTable.Proofs.Gather
import VectorTable.Proofs.Payload
import VectorTable.Proofs.Table.Coherence
import VectorTable.Proofs.Table.Pretrained
import VectorTable.Proofs.Table.RoundTrip
import VectorTable.Proofs.Table.Interruption
import VectorTable.Proofs.Table.Canonical
import VectorTable.Proofs.Table.Codes
import VectorTable.Proofs.Table.History
import VectorTable.Proofs.Table.Batch
import VectorTable.Proofs.Table.Answers
import VectorTable.Proofs.Table.Lookup
import VectorTable.Proofs.Table.Width
import VectorTable.Proofs.Table.LiveItems
import VectorTable.Proofs.Table.Hostile
import VectorTable.Proofs.Filling
import VectorTable.Proofs.Table.Fresh
import VectorTable.Proofs.Files
import VectorTable.Proofs.ConfigFile
import VectorTable.Proofs.Command.Migration
import VectorTable.Proofs.Command.Inspection
import VectorTable.Proofs.ItemBytes
