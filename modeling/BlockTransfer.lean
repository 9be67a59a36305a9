import BlockTransfer.Device.Posix.Traffic
import BlockTransfer.Device.Posix.Shutdown
import BlockTransfer.Device.Fleet
import BlockTransfer.Dispatcher.Switching
import BlockTransfer.LockedPool.Books
import BlockTransfer.Main
import BlockTransfer.Proofs.Copying
import BlockTransfer.Proofs.Tiling
import BlockTransfer.Proofs.Operation.Several
import BlockTransfer.Proofs.Traffic.Moves
import BlockTransfer.Proofs.Traffic.Deeds
import BlockTransfer.Proofs.Traffic.Ledger
import BlockTransfer.Proofs.Traffic.Progress
import BlockTransfer.Proofs.Traffic.ExactlyOnce
import BlockTransfer.Proofs.Traffic.Shutdown
import BlockTransfer.Proofs.Traffic.Tracking
import BlockTransfer.Proofs.Traffic.Outlook
import BlockTransfer.Proofs.Traffic.Calling
import BlockTransfer.Proofs.Traffic.Alone
import BlockTransfer.Proofs.Traffic.Settling
import BlockTransfer.Proofs.Traffic.Results
import BlockTransfer.Proofs.Device.Asynchronous
import BlockTransfer.Proofs.Engine.Flights
import BlockTransfer.Proofs.Traffic.Reach
import BlockTransfer.Proofs.Traffic.Slow
import BlockTransfer.Proofs.Traffic.Lingering
import BlockTransfer.Proofs.Traffic.Overtaking
import BlockTransfer.Proofs.Traffic.Overrun
import BlockTransfer.Proofs.Device.Serial
import BlockTransfer.Proofs.FileSystem.Naming
import BlockTransfer.Proofs.Device.ByteStore
import BlockTransfer.Proofs.Dispatcher.Standing
import BlockTransfer.Proofs.Dispatcher.Sources
import BlockTransfer.Proofs.Dispatcher.Refusal
import BlockTransfer.Proofs.Switching.Orderly
import BlockTransfer.Proofs.LockedPool.Uninterrupted
import BlockTransfer.Proofs.Text.ByteOrder
import BlockTransfer.Proofs.Loader.Listing
import BlockTransfer.Proofs.Config.Precedence
import BlockTransfer.Proofs.Config.Freezing
import BlockTransfer.Proofs.Transfer.Effect
import BlockTransfer.Proofs.Traffic.Crowding
import BlockTransfer.Proofs.Cli.Transfers
import BlockTransfer.Proofs.Sharing
import BlockTransfer.Proofs.Completion.Taking
import BlockTransfer.Proofs.Comparing
import BlockTransfer.Proofs.Config.Rereading
import BlockTransfer.Proofs.Config.Variables
import BlockTransfer.Proofs.Fleet.Releasing
import BlockTransfer.Proofs.Sizes
import BlockTransfer.Proofs.ShortReads
import BlockTransfer.Proofs.Buffer.Shape
