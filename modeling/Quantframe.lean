import Quantframe.Lib.Machine
import Quantframe.Lib.Prog
import Quantframe.Lib.Calls
import Quantframe.Market.Limiter
import Quantframe.Market.Cache
import Quantframe.Market.Callers
import Quantframe.Market.Breaker
import Quantframe.Market.Ladder
import Quantframe.Market.Priority
import Quantframe.Market.Wakeups
import Quantframe.Market.Orders
import Quantframe.Handlers.Records
import Quantframe.Handlers.Statements
import Quantframe.Handlers.Mutations
import Quantframe.Handlers.Items
import Quantframe.Handlers.Plans
import Quantframe.Handlers.Settlements
import Quantframe.Handlers.Profit
import Quantframe.Handlers.Untouched
import Quantframe.Handlers.Purchases
import Quantframe.Handlers.Closing
import Quantframe.Handlers.CostBasis
import Quantframe.Trades.Types
import Quantframe.Trades.Split
import Quantframe.Trades.Sets
import Quantframe.Trades.Resolve
import Quantframe.Trades.Ranks
import Quantframe.Trades.Events
import Quantframe.Trades.Pipeline
import Quantframe.Trades.Phases
import Quantframe.Trades.Book
import Quantframe.Trades.AtMostOnce
import Quantframe.Trades.Reapply
import Quantframe.Trades.Alerts
import Quantframe.Helper.Request
import Quantframe.Helper.Delivery
import Quantframe.Lib.Table
import Quantframe.Lib.Turns
import Quantframe.Lib.Memo
import Quantframe.Lib.Search
import Quantframe.Lib.Words
import Quantframe.Lib.Lines
import Quantframe.Lib.Plan
import Quantframe.Lib.Sorting
import Quantframe.Collector.Diff
import Quantframe.Collector.Store
import Quantframe.Collector.Mirror
import Quantframe.Collector.Runner
import Quantframe.Collector.Gaps
import Quantframe.Collector.TrueBook
import Quantframe.Collector.Ordering
import Quantframe.Collector.Resolve
import Quantframe.Collector.History
import Quantframe.Collector.Relists
import Quantframe.Collector.Confluence
import Quantframe.Collector.Stats
import Quantframe.Collector.Recompute
import Quantframe.Collector.Rollups
import Quantframe.Collector.Trends
import Quantframe.Collector.Closed
import Quantframe.LogParser.Dialog
import Quantframe.LogParser.Written
import Quantframe.LogParser.Scanner
import Quantframe.LogParser.Chunks
import Quantframe.Helper.Queue
import Quantframe.Helper.Acknowledged
import Quantframe.Helper.EeLog
import Quantframe.Lib.Utf8
import Quantframe.Lib.Calendar
import Quantframe.Lib.Digits
import Quantframe.Utils.Text
import Quantframe.Utils.Masking
import Quantframe.Utils.Logger
import Quantframe.Utils.Error
import Quantframe.Utils.Grouping
import Quantframe.Utils.Keys
import Quantframe.Dashboard.Summary
import Quantframe.Dashboard.Years
import Quantframe.Dashboard.Charts
import Quantframe.Lib.Ranking
import Quantframe.Lib.Retention
import Quantframe.Housekeeping.Backup
import Quantframe.Lib.Effect
import Quantframe.Lib.Log
import Quantframe.Trader.Entries
import Quantframe.Trader.Orders
import Quantframe.Trader.Helpers
import Quantframe.Trader.Items
import Quantframe.Trader.Rows
import Quantframe.Trader.Course
import Quantframe.Trader.Bookings
import Quantframe.Trader.Counts
import Quantframe.Trader.Removed
import Quantframe.Trader.Prefetch
import Quantframe.Trader.Interleaving
import Quantframe.Trader.Collect
import Quantframe.Trader.Moves
import Quantframe.Trader.Writes
import Quantframe.Trader.Cycles
import Quantframe.Trader.Posted
import Quantframe.Trader.SalePrice
import Quantframe.Trader.PostedRows
import Quantframe.Trader.Unchanged
import Quantframe.Trader.Bids
import Quantframe.Trader.BestSelection
import Quantframe.Trader.Airtight
import Quantframe.Trader.Blend
import Quantframe.Trader.Candidates
import Quantframe.Trader.SubTypeKeys
import Quantframe.Trader.Cached
import Quantframe.Trader.Deletes
import Quantframe.Trader.OneOrder
import Quantframe.Trader.Knapsack
import Quantframe.Trader.BuyCap
import Quantframe.Trader.Orphans
import Quantframe.Trader.Slots
import Quantframe.Trader.Distinct
import Quantframe.Trader.Lifecycle
import Quantframe.Trader.Controller
import Quantframe.Trader.OneEngine
import Quantframe.Utils.Objects
import Quantframe.Utils.Migration
import Quantframe.Utils.Validate
import Quantframe.Utils.Paginate
import Quantframe.Trader.RunLoop
import Quantframe.Lib.Worklist
import Quantframe.Collector.Statistics
import Quantframe.Collector.Refresh
import Quantframe.Collector.Passes
import Quantframe.Collector.TradeTax
import Quantframe.Collector.Lanes
import Quantframe.Collector.ColdPass
import Quantframe.Collector.Backfill
import Quantframe.Trader.Session
import Quantframe.Trader.Monitor
import Quantframe.Lib.Window
import Quantframe.Server.Auth
import Quantframe.Server.Keys
import Quantframe.Server.Routes
import Quantframe.Server.Gates
import Quantframe.Server.Devices
import Quantframe.Lib.GroupBy
import Quantframe.Analytics.Store
import Quantframe.Analytics.Tabs
import Quantframe.Housekeeping.Tick
import Quantframe.Housekeeping.Runs
