import WindSight.Backend.HorizonSelection
import WindSight.Library.OrderStatistics
import WindSight.Backend.Reliability
import WindSight.Backend.Routers
import WindSight.Backend.ErrorJoin
import WindSight.Backend.HorizonOrder
import WindSight.Backend.TimeZone
import WindSight.Backend.CacheKey
import WindSight.Backend.CacheTransparency
import WindSight.Backend.CacheRecency
import WindSight.Backend.CacheFreshness
import WindSight.Library.DataFrame
import WindSight.Pipeline.Ingest
import WindSight.Pipeline.IngestLog
import WindSight.Pipeline.Coverage
import WindSight.Pipeline.Redundancy
import WindSight.Pipeline.Completeness
import WindSight.Pipeline.IncrementalLoad
import WindSight.Pipeline.Convergence
import WindSight.Analysis.ComputeErrors
import WindSight.Frontend.Dashboard
import WindSight.Frontend.StaleResponses
import WindSight.Frontend.InFlight
import WindSight.Frontend.PartialFailure
import WindSight.Frontend.StatusIndicators
import WindSight.Backend.ErrorMetrics
import WindSight.Backend.ReportedHorizon
import WindSight.Pipeline.Records
import WindSight.Pipeline.RecordLoad
import WindSight.Pipeline.RecordRefinement
import WindSight.Backend.SampleQuantiles
import WindSight.Backend.HourlyErrors
import WindSight.Backend.ReliabilityOrder
import WindSight.Analysis.NotebookMetrics
import WindSight.Backend.CachePrefixes
import WindSight.Backend.HandlerOutcomes
import WindSight.Library.JsonReader
import WindSight.Library.TextLines
import WindSight.Pipeline.Fetch
import WindSight.Pipeline.FetchRetry
import WindSight.Pipeline.ResponseBody
import WindSight.Library.Tiling
import WindSight.Pipeline.BatchPartition
import WindSight.Pipeline.DateText
import WindSight.Pipeline.IngestCounts
import WindSight.Backend.Lifespan
import WindSight.Backend.Monitoring
import WindSight.EndToEnd.RequestText
import WindSight.EndToEnd.Screen
import WindSight.Library.Interruption
import WindSight.Pipeline.Command
import WindSight.Pipeline.CrashSafety
import WindSight.Pipeline.DryRun
import WindSight.EndToEnd.Provenance
import WindSight.EndToEnd.Canvas
import WindSight.Pipeline.HttpRun
import WindSight.Analysis.NotebookTables
import WindSight.EndToEnd.Browser
import WindSight.Backend.WindowParts
