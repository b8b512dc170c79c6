import BambuFarm.ClientUpload
import BambuFarm.Connection
import BambuFarm.ConnectionLoss
import BambuFarm.ConnectionWorker
import BambuFarm.Frames
import BambuFarm.Json
import BambuFarm.JsonEdit
import BambuFarm.JsonGrowth
import BambuFarm.JsonSearch
import BambuFarm.JsonText
import BambuFarm.LocalPrintContext
import BambuFarm.Locks
import BambuFarm.PrintJob
import BambuFarm.Printers
import BambuFarm.Proto
import BambuFarm.Runs
import BambuFarm.Search
import BambuFarm.SessionState
import BambuFarm.Sessions
import BambuFarm.StatusMessages
import BambuFarm.Text
import BambuFarm.TunnelProtocol
import BambuFarm.Uploads
import BambuFarm.SessionDiscipline
import BambuFarm.Autoconnect
import BambuFarm.PrinterList
import BambuFarm.Channels
import BambuFarm.CameraStream
import BambuFarm.TunnelBridge
import BambuFarm.TunnelReplies
import BambuFarm.Leases
import BambuFarm.TunnelStreams
import BambuFarm.ConnectionCalls
import BambuFarm.ConnectionSenders
import BambuFarm.ConnectionRaces
import BambuFarm.Pipeline
import BambuFarm.ConnectionOwner
import BambuFarm.PrinterMerge
import BambuFarm.RemoteNames
import BambuFarm.Tables
import BambuFarm.LocalState
import BambuFarm.ContextStore
import BambuFarm.PrinterMetadata
import BambuFarm.CallbackRegistry
import BambuFarm.JsonRead
import BambuFarm.PrintCommand
import BambuFarm.PrintFlow
import BambuFarm.UnstartedPrints
import BambuFarm.TunnelRequests
import BambuFarm.ReceiveLimits
import BambuFarm.FailureBudget
import BambuFarm.Netmasks
import BambuFarm.DiscoveryCandidates
import BambuFarm.BrowseBack
import BambuFarm.DownloadIdentity
import BambuFarm.PrinterAnnouncements
import BambuFarm.StatusRewrites
import BambuFarm.JsonKeys
import BambuFarm.NameOverrides
import BambuFarm.Reports
import BambuFarm.Triples
import BambuFarm.PrinterFiles
import BambuFarm.PrintedFiles
import BambuFarm.CameraWorkers
import BambuFarm.Discovery
import BambuFarm.PrinterService
import BambuFarm.TunnelFiles
import BambuFarm.UploadedFiles
import BambuFarm.PrinterNames
import BambuFarm.CurrentNames
import BambuFarm.SubtaskInfo
import BambuFarm.SourceModule
import BambuFarm.SelectedDevice
import BambuFarm.ConnectedCallbacks
import BambuFarm.ListedPrinters
import BambuFarm.Thumbnails
