import DevBrowse.Identity.ProcessHost
import DevBrowse.Identity.RegistrySessions
import DevBrowse.Identity.SpawnProtocol
import DevBrowse.Identity.WarningTally
import DevBrowse.Gpu.Accounting
import DevBrowse.Gpu.Isolation
import DevBrowse.Gpu.QueueTokens
import DevBrowse.Gpu.Recovery
import DevBrowse.Blocklist.Reference
import DevBrowse.Blocklist.Scheduler
import DevBrowse.Blocklist.Stop
import DevBrowse.Network.CacheLifetime
import DevBrowse.Network.FailedRoute
import DevBrowse.Network.IceFilter
import DevBrowse.Network.OneManifest
import DevBrowse.Network.PartitionRecency
import DevBrowse.Network.Provenance
import DevBrowse.Network.Scrub
import DevBrowse.Network.UrlHost
import DevBrowse.Network.UrlStripSpec
import DevBrowse.Dns.CacheRefresh
import DevBrowse.Dns.DohClient
import DevBrowse.Dns.SharedAnswers
import DevBrowse.Dns.Whitelist
import DevBrowse.Dns.WireAccepted
import DevBrowse.Dns.WireQuery
import DevBrowse.Extensions.Gates
import DevBrowse.Extensions.HashText
import DevBrowse.Extensions.InstallHistory
import DevBrowse.Extensions.KeyText
import DevBrowse.Extensions.VersionText
import DevBrowse.Extensions.Warnings
import DevBrowse.Storage.StoreMaps
import DevBrowse.Storage.WipeTransaction
import DevBrowse.Fingerprint.Offsets
import DevBrowse.Fingerprint.Preimages
import DevBrowse.Fingerprint.Timers
import DevBrowse.Ipc.Progress
import DevBrowse.Config.SyncEndpoint
import DevBrowse.Ui.BlockedCounter
import DevBrowse.Ui.CardFocus
import DevBrowse.Ui.ChipDismissals
import DevBrowse.Ui.ChromeMode
import DevBrowse.Ui.CommittedUrl
import DevBrowse.Ui.Conversion
import DevBrowse.Ui.HistoryGroups
import DevBrowse.Ui.StaleTimers
import DevBrowse.Ui.Suggestions
import DevBrowse.Ui.TabList
import DevBrowse.Ui.UnsavedInput
import DevBrowse.Ui.Window
import DevBrowse.Testkit.Ja3Text
import DevBrowse.Testkit.Redaction
