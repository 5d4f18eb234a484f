import Locality.Connector.HydrationRuns
import Locality.Core.DiffUnedited
import Locality.Core.PushDurable
import Locality.Core.Segmentation
import Locality.Daemon.ArchiveAgreement
import Locality.Daemon.FreshnessKept
import Locality.Daemon.HydrationCrash
import Locality.Daemon.HydrationMerge
import Locality.Daemon.LandingPath
import Locality.Daemon.ProjectionTargets
import Locality.Daemon.ReaderGuard
import Locality.Daemon.RecordedVersion
import Locality.Delivery.EntryStops
import Locality.Delivery.RemoteHead
import Locality.Discovery.TransactionStores
import Locality.Engine.ScopeProvenance
import Locality.Engine.SyncPagination
import Locality.Notion.ApplyRefinement
import Locality.Notion.TableRoundTrip
import Locality.Notion.TextChunks
import Locality.Notion.UndoOrder
import Locality.Workspace.MigrationPlan
import Locality.Daemon.QueueDrain
