import CommunitySearch.Foundation.Machine
import CommunitySearch.Foundation.Program
import CommunitySearch.Foundation.Sql
import CommunitySearch.Foundation.Table
import CommunitySearch.Foundation.TermStore
import CommunitySearch.Foundation.Worklist
import CommunitySearch.Foundation.FormUrlencoded
import CommunitySearch.Crawler.UrlClass
import CommunitySearch.Crawler.UrlCanonical
import CommunitySearch.Crawler.PrefixLaw
import CommunitySearch.Crawler.WwwTwins
import CommunitySearch.Crawler.LoopTermination
import CommunitySearch.Crawler.AbortCriterion
import CommunitySearch.Crawler.CrawlDelay
import CommunitySearch.Crawler.Parser
import CommunitySearch.Db.Schema
import CommunitySearch.Db.Collections
import CommunitySearch.Db.CrawlTargets
import CommunitySearch.Db.CrawledPages
import CommunitySearch.Db.OutlinkHosts
import CommunitySearch.Index.Writer
import CommunitySearch.Engine
import CommunitySearch.Index.Indexer
import CommunitySearch.Crawler.Effects
import CommunitySearch.Crawler.Robots
import CommunitySearch.Crawler.Fetcher
import CommunitySearch.Crawler.Sitemap
import CommunitySearch.Crawler.SitemapXml
import CommunitySearch.Crawler.SitemapDiscovery
import CommunitySearch.Crawler.Page
import CommunitySearch.Crawler.Driver
import CommunitySearch.Api.ExportImport
import CommunitySearch.Api.ImportEffect
import CommunitySearch.Api.ImportContract
import CommunitySearch.Api.ImportRetry
import CommunitySearch.Api.ImportRankings
import CommunitySearch.Api.FreshRanking
import CommunitySearch.Api.Admin
import CommunitySearch.Crawler.PageSpec
import CommunitySearch.Crawler.PrefixContainment
import CommunitySearch.Crawler.RecrawlCoverage
import CommunitySearch.Crawler.RobotsObedience
import CommunitySearch.System
import CommunitySearch.System.JournalSoundness
import CommunitySearch.System.CrashRecovery
import CommunitySearch.System.Isolation
import CommunitySearch.System.Lasting
import CommunitySearch.System.Removal
import CommunitySearch.System.CollectionNames
import CommunitySearch.Crawler.Site
import CommunitySearch.Foundation.Keyed
import CommunitySearch.Foundation.Spreading
import CommunitySearch.Foundation.SlidingWindow
import CommunitySearch.Federation.Discovered
import CommunitySearch.Federation.Protocol
import CommunitySearch.Federation.Gossip
import CommunitySearch.Federation.Storage
import CommunitySearch.Api.AuthAttempts
import CommunitySearch.Api.Auth
import CommunitySearch.Api.RateLimit
import CommunitySearch.Api.RateLimitSpec
import CommunitySearch.Api.Gate
import CommunitySearch.Api.ClientIsolation
import CommunitySearch.Api.LimitEvasion
import CommunitySearch.Api.CooloffLadder
import CommunitySearch.Api.LimiterArithmetic
import CommunitySearch.Api.Lockout
import CommunitySearch.System.JobConservation
import CommunitySearch.Search.Result
import CommunitySearch.Federation.Fanout
import CommunitySearch.Api.Search
import CommunitySearch.Federation.FanoutDepth
import CommunitySearch.Api.Sse
import CommunitySearch.Api.SearchStream
import CommunitySearch.Api.StreamGrammar
import CommunitySearch.Foundation.Json
import CommunitySearch.Federation.PeerClient
import CommunitySearch.Federation.StreamDecoding
import CommunitySearch.Api.Gossip
import CommunitySearch.Federation.Convergence
import CommunitySearch.Federation.GossipNode
import CommunitySearch.Federation.GossipRaces
import CommunitySearch.Federation.SelfEntry
import CommunitySearch.Db.RankingConfig
import CommunitySearch.Index.Reader
import CommunitySearch.Search.Ranking
import CommunitySearch.Search.Service
import CommunitySearch.Api.CollectSearch
import CommunitySearch.Api.EntryPoints
import CommunitySearch.Api.SnippetSafety
import CommunitySearch.Api.Ranking
import CommunitySearch.System.JournalFailures
import CommunitySearch.Crawler.RecordSpec
import CommunitySearch.System.Pausing
import CommunitySearch.System.Quiescence
import CommunitySearch.Api.ImportedPeers
import CommunitySearch.Federation.Health
import CommunitySearch.Federation.PeerNode
import CommunitySearch.Federation.PeerHealth
import CommunitySearch.Federation.OutcomeAttribution
import CommunitySearch.Federation.ManualDisable
import CommunitySearch.Crawler.RobotsRaces
import CommunitySearch.System.SingleFlight
import CommunitySearch.Api.RuntimeConfig
import CommunitySearch.Crawler.SearchExactness
import CommunitySearch.Api.PeerScores
import CommunitySearch.Crawler.Pacing
import CommunitySearch.System.Politeness
import CommunitySearch.System.RecrawlStability
import CommunitySearch.Federation.MergeLaws
import CommunitySearch.Federation.OutboundGossip
import CommunitySearch.Federation.AdvertisedUrls
import CommunitySearch.Index.WriterRefinement
import CommunitySearch.System.RateLimitedFlag
import CommunitySearch.Crawler.Canonical
import CommunitySearch.Api.Outlinks
import CommunitySearch.System.Targets
import CommunitySearch.System.DuplicateTargets
import CommunitySearch.System.IntervalColumns
import CommunitySearch.Api.SequentialLockout
import CommunitySearch.Federation.AutoDisable
import CommunitySearch.Api.OutlinkQueue
import CommunitySearch.Api.Promotion
import CommunitySearch.Index.SiteFilter
import CommunitySearch.Search.HostAgreement
import CommunitySearch.Crawler.WwwStripping
import CommunitySearch.Api.AdminToken
import CommunitySearch.Foundation.ByteOffsets
import CommunitySearch.Search.Highlight
import CommunitySearch.Search.Fallback
import CommunitySearch.Foundation.Renaming
import CommunitySearch.Bin.RecanonicalizeTargets
import CommunitySearch.System.PagePlacement
import CommunitySearch.Foundation.OrderBy
import CommunitySearch.Api.Export
import CommunitySearch.Api.Restored
import CommunitySearch.Api.ImportSuccess
import CommunitySearch.Api.RoundTrip
import CommunitySearch.Api.ImportRows
import CommunitySearch.Crawler.RecordedHits
import CommunitySearch.System.Tasks
import CommunitySearch.System.SuggestionSources
import CommunitySearch.System.CollectionFrame
import CommunitySearch.Federation.FederatedSearch
import CommunitySearch.System.CrawlTimes
import CommunitySearch.System.RecrawlSchedule
import CommunitySearch.System.Instance
import CommunitySearch.System.Archives
