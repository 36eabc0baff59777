import Flowfile.Acyclicity
import Flowfile.ApiParameters
import Flowfile.ArtifactRaces
import Flowfile.ArtifactReplay
import Flowfile.AutoRename
import Flowfile.BrowserOrder
import Flowfile.CatalogNames
import Flowfile.ConnectionDeletes
import Flowfile.CronSlots
import Flowfile.CrossJoinSchema
import Flowfile.DanglingReferences
import Flowfile.DiffAtomicity
import Flowfile.DisjointUnions
import Flowfile.DynamicRename
import Flowfile.FilterAgreement
import Flowfile.FlowTabs
import Flowfile.FusionSoundness
import Flowfile.GeneratedInputs
import Flowfile.GeneratedJoin
import Flowfile.GroupAggregation
import Flowfile.GroupFrame
import Flowfile.GroupRuns
import Flowfile.ImportCaps
import Flowfile.KafkaConsumer
import Flowfile.KernelExclusivity
import Flowfile.KernelInputs
import Flowfile.KernelReports
import Flowfile.Layout
import Flowfile.NamespaceVisibility
import Flowfile.ParameterResolver
import Flowfile.ProjectedFolders
import Flowfile.RandomSplit
import Flowfile.RateLimiter
import Flowfile.ReplayBuffer
import Flowfile.RestApi
import Flowfile.ReuseSoundness
import Flowfile.RowTransforms
import Flowfile.RunGraph
import Flowfile.SchedulerLock
import Flowfile.SchemaCallback
import Flowfile.SecretRedaction
import Flowfile.SelectedColumns
import Flowfile.SqlUri
import Flowfile.StageOrder
import Flowfile.StagedResume
import Flowfile.TaskStreaming
import Flowfile.TenantIsolation
import Flowfile.UndoRedo
import Flowfile.UploadSafety
import Flowfile.VizSessions
import Flowfile.WindowTiles
import Flowfile.WithColumns
