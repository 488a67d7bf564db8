import PelionBorderRouter.Lib.Run
import PelionBorderRouter.Lib.CString
import PelionBorderRouter.Lib.Rtos
import PelionBorderRouter.Lib.Scan
import PelionBorderRouter.Lib.Refine
import PelionBorderRouter.Lib.Account
import PelionBorderRouter.Lib.Restart
import PelionBorderRouter.Lib.Checklist
import PelionBorderRouter.Config
import PelionBorderRouter.ControlValue
import PelionBorderRouter.ControlValue.Buffer
import PelionBorderRouter.ControlValue.Persist
import PelionBorderRouter.Dns.Address
import PelionBorderRouter.Dns
import PelionBorderRouter.Dns.Names
import PelionBorderRouter.Dns.Answers
import PelionBorderRouter.App
import PelionBorderRouter.App.Gate
import PelionBorderRouter.App.Published
import PelionBorderRouter.App.Queue
import PelionBorderRouter.App.Parts
import PelionBorderRouter.Dns.Host
import PelionBorderRouter.App.Resolver
import PelionBorderRouter.App.Block
import PelionBorderRouter.App.Start
import PelionBorderRouter.Tracker
import PelionBorderRouter.Tracker.Latch
import PelionBorderRouter.Tracker.Mirror
import PelionBorderRouter.Tracker.Init
import PelionBorderRouter.Tracker.Table
import PelionBorderRouter.Backhaul
import PelionBorderRouter.Pdmc
import PelionBorderRouter.Tracker.Report
import PelionBorderRouter.Tracker.Timer
import PelionBorderRouter.Dns.Storage
import PelionBorderRouter.Resources
import PelionBorderRouter.Startup
import PelionBorderRouter.Device
import PelionBorderRouter.Device.Life
import PelionBorderRouter.App.Address
import PelionBorderRouter.App.State
import PelionBorderRouter.App.Answers
import PelionBorderRouter.Tracker.Growth
import PelionBorderRouter.Tracker.Hash
import PelionBorderRouter.Tracker.Heap
import PelionBorderRouter.Backhaul.Waits
import PelionBorderRouter.App.Hosts
import PelionBorderRouter.Device.Recover
import PelionBorderRouter.Pdmc.Builds
import PelionBorderRouter.App.Refresh
import PelionBorderRouter.App.Timeout
