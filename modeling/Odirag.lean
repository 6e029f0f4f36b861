import Odirag.Foundations.Run
import Odirag.Foundations.Parties
import Odirag.Foundations.Orm
import Odirag.Foundations.Text
import Odirag.Foundations.Distinct
import Odirag.Foundations.Regex
import Odirag.Foundations.Binary64
import Odirag.Foundations.Date
import Odirag.Documents.Status
import Odirag.Crawl.Task
import Odirag.Crawl.Batch
import Odirag.Crawl.Session
import Odirag.Crawl.Saving
import Odirag.Crawl.FailedUrl
import Odirag.Crawl.Worker
import Odirag.Crawl.Operations
import Odirag.Crawl.StatusSafety
import Odirag.Crawl.SaveSection
import Odirag.Crawl.Cancellation
import Odirag.Crawl.Attempts
import Odirag.Crawl.PartialFailure
import Odirag.Crawl.FailureQueue
import Odirag.Crawl.Completion
import Odirag.Crawl.FailureCount
import Odirag.Documents.Document
import Odirag.Documents.Versioning
import Odirag.Documents.Review
import Odirag.Documents.Approval
import Odirag.Documents.ManualDecision
import Odirag.Documents.History
import Odirag.Documents.Unchanged
import Odirag.Review.Reconcile
import Odirag.Review.Concurrent
import Odirag.Indexing.Chunks
import Odirag.Indexing.Call
import Odirag.Foundations.Journal
import Odirag.Indexing.Crash
import Odirag.Indexing.Finished
import Odirag.Indexing.Concurrent
import Odirag.Indexing.Lineage
import Odirag.Retrieval.Eligibility
import Odirag.Retrieval.Rebuild
import Odirag.Retrieval.Filters
import Odirag.Retrieval.Hit
import Odirag.Rag.Patterns
import Odirag.Rag.Terms
import Odirag.Rag.Relations
import Odirag.Rag.Scope
import Odirag.Rag.Evidence
import Odirag.Rag.Verdict
import Odirag.Rag.FailClosed
import Odirag.Rag.Monotone
import Odirag.Rag.Order
import Odirag.Rag.AnswerValidation
import Odirag.Rag.ValueForms
import Odirag.Rag.ValueCuts
import Odirag.Rag.ExactValues
import Odirag.Rag.Grounding
import Odirag.Rag.Sufficiency
import Odirag.Chat.Service
import Odirag.Chat.Citations
import Odirag.Chat.Extractive
import Odirag.Chat.Urls
import Odirag.Auth.Tokens
import Odirag.Auth.Client
import Odirag.Foundations.Script
import Odirag.Release.Host
import Odirag.Release.Common
import Odirag.Release.Deploy
import Odirag.Release.Stages
import Odirag.Release.Keeps
import Odirag.Release.Recovery
import Odirag.Release.Transaction
import Odirag.Foundations.Url
import Odirag.Foundations.FixedWindow
import Odirag.RateLimit.Limiters
import Odirag.Crawler.Urls
import Odirag.Crawler.Fetcher
import Odirag.Attachments.Detection
import Odirag.Attachments.Download
import Odirag.Foundations.Json
import Odirag.Foundations.Confusion
import Odirag.Evaluation.Metrics
import Odirag.Evaluation.Runner
import Odirag.Evaluation.FailureAnalysis
import Odirag.Evaluation.Ranking
import Odirag.Discovery.Candidate
import Odirag.Discovery.Service
import Odirag.Discovery.Steps
import Odirag.Discovery.Claim
import Odirag.Discovery.Approval
import Odirag.Discovery.History
import Odirag.Discovery.Waiting
import Odirag.Discovery.Counters
import Odirag.Foundations.Except
import Odirag.Foundations.Netloc
import Odirag.Foundations.Outline
import Odirag.Foundations.Query
import Odirag.Crawler.Rules
import Odirag.Crawler.Page
import Odirag.Crawler.Feed
import Odirag.Crawler.Generic
import Odirag.Crawler.Exits
import Odirag.Crawler.Hosts
import Odirag.Crawler.SameSite
import Odirag.Crawler.NormalForm
import Odirag.Crawler.Once
import Odirag.Foundations.Positional
import Odirag.Retrieval.Fusion
import Odirag.Retrieval.Engine
import Odirag.Retrieval.FinalCut
import Odirag.Foundations.Collapse
import Odirag.Foundations.FallibleSort
import Odirag.Foundations.Effect
import Odirag.Foundations.Files
import Odirag.Foundations.Gain
import Odirag.Foundations.KeyFile
import Odirag.Foundations.Shape
import Odirag.Foundations.Ink
import Odirag.Chunking.Heading
import Odirag.Chunking.Lossless
import Odirag.Chunking.Bound
import Odirag.Chunking.Paths
import Odirag.Attachments.Extraction
import Odirag.Attachments.History
import Odirag.Attachments.Cleaning
import Odirag.Attachments.Idempotent
import Odirag.Attachments.Parsing
import Odirag.Attachments.ParsedText
import Odirag.Attachments.OcrCache
import Odirag.Attachments.Pages
import Odirag.Attachments.Storage
import Odirag.Attachments.ParseCache
import Odirag.Embedding.Providers
import Odirag.Embedding.Batcher
import Odirag.Embedding.Cached
import Odirag.Foundations.Margins
import Odirag.Crawl.BatchUrls
import Odirag.Monitoring.Alerts
import Odirag.Foundations.Groups
import Odirag.Foundations.Preferred
import Odirag.Crawl.BatchResponse
import Odirag.Release.JournalText
import Odirag.Release.ReadBack
import Odirag.Crawl.BatchFields
import Odirag.Crawl.LocalProvider
import Odirag.Crawl.LocalCrawl
import Odirag.RateLimit.Middleware
import Odirag.Monitoring.HttpMetrics
import Odirag.Evaluation.Questions
import Odirag.Evaluation.HumanReview
import Odirag.Evaluation.Feedback
import Odirag.Evaluation.Experiments
import Odirag.Retrieval.VectorStore
import Odirag.Retrieval.Bm25
import Odirag.Backup.WalArchive
import Odirag.Backup.Manifest
import Odirag.Crawler.Dns
import Odirag.Chat.Adapters
import Odirag.Crawl.CozeProvider
import Odirag.Discovery.GapScan
import Odirag.Evaluation.Adapter
import Odirag.Evaluation.Draft
