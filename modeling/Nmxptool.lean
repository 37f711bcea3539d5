import Nmxptool.RawStream.Reorder
import Nmxptool.Wire.RoundTrip
import Nmxptool.Wire.Terminate
import Nmxptool.Chan.UsableList
import Nmxptool.Params.Check
import Nmxptool.Pds.Requests
import Nmxptool.Pds.Batches
import Nmxptool.Pds.Charge
import Nmxptool.Pds.Crc32
import Nmxptool.Dap.Windows
import Nmxptool.Dap.Schedule
import Nmxptool.Seed.Archive
import Nmxptool.Seed.Files
import Nmxptool.Seed.Pack
import Nmxptool.Data.Date
import Nmxptool.Listen.Failure
import Nmxptool.Wire.Ready
import Nmxptool.Data.Hidden
import Nmxptool.Chan.StateFile
import Nmxptool.Chan.MetaList
import Nmxptool.Listen.Tracking
import Nmxptool.Params.ReadTime
import Nmxptool.RawStream.Origin
import Nmxptool.RawStream.Earthworm
import Nmxptool.Pds.BatchLog
import Nmxptool.Lib.Refine
import Nmxptool.Pds.Session
import Nmxptool.Pds.Stream
import Nmxptool.Pds.Login
import Nmxptool.Wire.UntilReady
import Nmxptool.Dap.Answers
import Nmxptool.Dap.Session
import Nmxptool.Chan.MetaMessages
import Nmxptool.Chan.MetaSession
import Nmxptool.Main.Flows
import Nmxptool.Main.Lasting
import Nmxptool.Seedlink.Plugin
import Nmxptool.Lib.Codec
import Nmxptool.Seedlink.Feed
import Nmxptool.Seedlink.Relay
import Nmxptool.Data.Directories
import Nmxptool.Listen.Session
