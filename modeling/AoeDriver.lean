import AoeDriver.Library.Machine
import AoeDriver.Library.Tables
import AoeDriver.Library.Slots
import AoeDriver.Library.Indexed
import AoeDriver.Library.Timer
import AoeDriver.Library.Blocks
import AoeDriver.Model.System
import AoeDriver.Model.Devlist
import AoeDriver.Model.Table
import AoeDriver.Model.Ktio
import AoeDriver.Model.Kthread
import AoeDriver.Model.Teardown
import AoeDriver.Model.Timers
import AoeDriver.Ledger.State
import AoeDriver.Ledger.Balance
import AoeDriver.Frames.View
import AoeDriver.Frames.Issue
import AoeDriver.Frames.Resend
import AoeDriver.Frames.Timer
import AoeDriver.Block.Books
import AoeDriver.Block.Posting
import AoeDriver.Run.Section
import AoeDriver.Run.Work
import AoeDriver.Run.Complete
import AoeDriver.Run.Threads
import AoeDriver.Run.Discovery
import AoeDriver.Run.Events
import AoeDriver.Run.Reach
import AoeDriver.Rota.Issue
import AoeDriver.Rota.Events
import AoeDriver.Traffic.State
import AoeDriver.Traffic.Issue
import AoeDriver.Traffic.Resend
import AoeDriver.Traffic.Timer
import AoeDriver.Traffic.Events
import AoeDriver.Traffic.Rules
import AoeDriver.Traffic.Wiring
import AoeDriver.Property.Frames
import AoeDriver.Property.Requests
import AoeDriver.Property.Failure
import AoeDriver.Property.Device
import AoeDriver.Property.Devlist
import AoeDriver.Property.Flush
import AoeDriver.Property.Removal
import AoeDriver.Property.Tally
import AoeDriver.Property.Success
import AoeDriver.Property.Cursor
import AoeDriver.Property.Matching
import AoeDriver.Data.Segments
import AoeDriver.Data.Bytes
import AoeDriver.Property.Data
import AoeDriver.Property.Placement
import AoeDriver.Property.Estimator
import AoeDriver.Property.Ktio
import AoeDriver.Property.Chr
import AoeDriver.Property.Main
import AoeDriver.Property.Control
import AoeDriver.Property.Revalidate
import AoeDriver.Property.Net
import AoeDriver.Property.Tools
import AoeDriver.Property.Sancheck
import AoeDriver.Property.Userland
import AoeDriver.Property.Wakeup
import AoeDriver.Property.Kthread
import AoeDriver.Property.Window
import AoeDriver.Property.Interfaces
import AoeDriver.Property.Paths
import AoeDriver.Property.Probes
import AoeDriver.Property.Expiry
import AoeDriver.Property.Deadline
import AoeDriver.Property.Selection
import AoeDriver.Property.Packets
import AoeDriver.Property.Teardown
import AoeDriver.Property.Timers
import AoeDriver.Property.Flushers
import AoeDriver.Property.Order
import AoeDriver.Property.Stores
import AoeDriver.Property.Commands
import AoeDriver.Property.Table
