import AdsTxtAnalyzer.Models
import AdsTxtAnalyzer.CountMap
import AdsTxtAnalyzer.ListSet
import AdsTxtAnalyzer.Analysis.Sort
import AdsTxtAnalyzer.Analysis.BuildAnalysis
import AdsTxtAnalyzer.Cache.Memory
import AdsTxtAnalyzer.Analysis.AnalyzeDomain
import AdsTxtAnalyzer.Analysis.Aggregate
import AdsTxtAnalyzer.Batch.System
import AdsTxtAnalyzer.Batch.Invariant
import AdsTxtAnalyzer.Batch.Response
import AdsTxtAnalyzer.Batch.Progress
import AdsTxtAnalyzer.Batch.Cache
import AdsTxtAnalyzer.Batch.Sequential
import AdsTxtAnalyzer.RateLimit.TokenBucket
import AdsTxtAnalyzer.RateLimit.TwoTier
import AdsTxtAnalyzer.RateLimit.System
import AdsTxtAnalyzer.RateLimit.Window
import AdsTxtAnalyzer.RateLimit.Bounds
import AdsTxtAnalyzer.RateLimit.Pace
import AdsTxtAnalyzer.Strconv
import AdsTxtAnalyzer.Config
import AdsTxtAnalyzer.GoStrings
import AdsTxtAnalyzer.Regex
import AdsTxtAnalyzer.Parser.Domain
import AdsTxtAnalyzer.Parser.AdsTxt
import AdsTxtAnalyzer.Parser.Record
import AdsTxtAnalyzer.Fetch.Url
import AdsTxtAnalyzer.Fetch.HTTPFetcher
import AdsTxtAnalyzer.Analysis.CacheKey
import AdsTxtAnalyzer.Http.Handler
import AdsTxtAnalyzer.Http.Net
import AdsTxtAnalyzer.Http.CleanPath
import AdsTxtAnalyzer.Http.Middleware
import AdsTxtAnalyzer.Http.Service
import AdsTxtAnalyzer.Http.Server
import AdsTxtAnalyzer.Http.Pipeline
import AdsTxtAnalyzer.Http.Run
import AdsTxtAnalyzer.Http.Main
