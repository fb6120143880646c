import RowStore.Main
import RowStore.Proofs.Catalog.Declaration
import RowStore.Proofs.CommandLine.Conversion
import RowStore.Proofs.Engine.Alike
import RowStore.Proofs.Engine.Notes
import RowStore.Proofs.Lock.Verdict
import RowStore.Proofs.Lock.WakeUps
import RowStore.Proofs.Page.Format
import RowStore.Proofs.Scan.Alias
import RowStore.Proofs.Scan.Iteration
import RowStore.Proofs.Storage.PageArray
import RowStore.Proofs.Traffic.Capacity
import RowStore.Proofs.Traffic.Columns
import RowStore.Proofs.Traffic.Completion
import RowStore.Proofs.Traffic.Failures
import RowStore.Proofs.Traffic.Growth
import RowStore.Proofs.Traffic.Held
import RowStore.Proofs.Traffic.History
import RowStore.Proofs.Traffic.Isolation
import RowStore.Proofs.Traffic.Placement
import RowStore.Proofs.Traffic.Residence
import RowStore.Proofs.Traffic.Threshold
import RowStore.Proofs.Traffic.Unnoted
import RowStore.Session.Rows
import RowStore.Session.Tables
import RowStore.Session.Transactions
import RowStore.Proofs.Scan.Interrupted
import RowStore.Proofs.Database.Spelling
import RowStore.Proofs.Traffic.Gains
import RowStore.Proofs.Database.Unblocked
import RowStore.Proofs.Catalog.Refusal
import RowStore.Proofs.Record.Validity
import RowStore.Proofs.Value.TypeName
