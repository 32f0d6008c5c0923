import Soms.Library.Txn
import Soms.Library.Table
import Soms.Library.Catalog
import Soms.Library.Run
import Soms.Library.Streak
import Soms.Library.RedisList
import Soms.Library.OneTime
import Soms.Library.Chain
import Soms.Library.Delimited
import Soms.Library.FirstBest
import Soms.Library.Weighted
import Soms.Library.Firsts
import Soms.Library.RowNumber
import Soms.Library.Reader
import Soms.Library.Assoc
import Soms.Library.Bytes
import Soms.Library.Keyset
import Soms.Library.PageSearch
import Soms.Somsai.RankPool
import Soms.Somsai.Data
import Soms.Somsai.Party
import Soms.Somsai.Dodge
import Soms.Somsai.Rating
import Soms.Somsai.Pool
import Soms.Somsai.Match
import Soms.Somsai.Queue
import Soms.Somsai.System
import Soms.Somsai.Frames
import Soms.Somsai.PartyInvariant
import Soms.Somsai.Board
import Soms.Somsai.Machine
import Soms.Somsai.Updates
import Soms.Somsai.Plays
import Soms.Somsai.Leasing
import Soms.Somsai.Change
import Soms.Somsai.Served
import Soms.Somsai.Rounds
import Soms.Somsai.Draft
import Soms.Somsai.Drafting
import Soms.Somsai.Clock
import Soms.Somsai.LeaseInvariant
import Soms.Somsai.Exclusive
import Soms.Somsai.Links
import Soms.Somsai.Settlement
import Soms.Somsai.Barred
import Soms.Somsai.Ticks
import Soms.Somsai.Results
import Soms.Somsai.Accountable
import Soms.Somsai.Lobby
import Soms.Somsai.Phantom
import Soms.Scores.Data
import Soms.Scores.Levels
import Soms.Scores.Policy
import Soms.Scores.Accounting
import Soms.Scores.PpBest
import Soms.Scores.Reconcile
import Soms.Scores.Submit
import Soms.Scores.Ranking
import Soms.Scores.System
import Soms.Scores.Plays
import Soms.Scores.PlayStep
import Soms.Scores.Once
import Soms.Scores.Limit
import Soms.Scores.PlaylistBest
import Soms.Scores.PolicyStep
import Soms.Scores.Derived
import Soms.Scores.ModBest
import Soms.Scores.LevelKept
import Soms.Scores.RoomTotals
import Soms.Scores.LocalRank
import Soms.Scores.Unrank
import Soms.Scores.ScoreDelete
import Soms.Retries.Worker
import Soms.Retries.Owed
import Soms.Retries.Totals
import Soms.Retries.Settled
import Soms.Retries.Replay
import Soms.Mods.Combination
import Soms.Mods.Configuration
import Soms.Mods.Definitions
import Soms.Mods.Legacy
import Soms.Replays.Retention
import Soms.Calculating.Accuracy
import Soms.Imports.Osr
import Soms.Imports.Accepted
import Soms.Imports.Renamed
import Soms.Imports.Uploaded
import Soms.Replays.Upload
import Soms.Replays.Slots
import Soms.Rooms.Room
import Soms.Rooms.Occupancy
import Soms.Daily.Calendar
import Soms.Daily.Challenge
import Soms.Daily.Streak
import Soms.Daily.Weekly
import Soms.Daily.Placements
import Soms.Chat.Store
import Soms.Chat.Server
import Soms.Chat.Privacy
import Soms.Chat.Persistence
import Soms.Chat.Kept
import Soms.Chat.Ids
import Soms.Auth.Sessions
import Soms.Auth.SecondFactor
import Soms.Auth.RefreshTokens
import Soms.Auth.Codes
import Soms.Auth.Account
import Soms.Auth.Redeem
import Soms.Auth.LoggedOut
import Soms.Auth.Scopes
import Soms.Auth.PasswordReset
import Soms.Rooms.Playlist
import Soms.Rooms.Position
import Soms.Rooms.Pages
import Soms.Social.Relationships
import Soms.Social.Teams
import Soms.Social.Membership
import Soms.Rankings.Ranking
import Soms.Rankings.Caches
import Soms.Rankings.Refresh
import Soms.Rankings.Refreshed
import Soms.Activity.Announcements
import Soms.Activity.FirstPlaces
import Soms.Activity.Handover
import Soms.Boards.Leaderboard
import Soms.Boards.Top
import Soms.Boards.Website
import Soms.Boards.FirstPlace
import Soms.Catalogue.Import
import Soms.Catalogue.Again
import Soms.Catalogue.Sync
import Soms.Catalogue.Complete
import Soms.Boards.Standing
import Soms.Profile.ScorePins
import Soms.Lifetime.Deletion
import Soms.Lifetime.Counters
import Soms.Lifetime.Rebuild
import Soms.Sync.Passes
import Soms.Somsai.Compatible
import Soms.Somsai.Balance
import Soms.Library.Representatives
import Soms.Somsai.Distinct
import Soms.Somsai.Matchmaking
import Soms.Somsai.Elo
import Soms.Somsai.Divisions
import Soms.Somsai.DivisionTable
import Soms.Somsai.FirstScore
import Soms.Somsai.Admission
import Soms.Somsai.Escalation
import Soms.Somsai.Months
import Soms.Bbcode.Tags
import Soms.Bbcode.Imagemap
import Soms.Bbcode.Patterns
import Soms.Bbcode.Passes
import Soms.Bbcode.Urls
import Soms.Helpers.AssetProxy
import Soms.Sync.Schedule
import Soms.Pools.Spec
import Soms.Pools.Collector
import Soms.Pools.Offers
import Soms.Pools.Complete
import Soms.Pools.Pool
import Soms.Pools.Saving
import Soms.Pools.Edits
import Soms.Chat.History
import Soms.Scores.NegativePp
import Soms.Marathon.Attempt
import Soms.Rooms.PlaylistItems
import Soms.RankedPlay.Beatmaps
import Soms.Tools.Targets
import Soms.Rankings.TopScores
import Soms.Api.Transform
import Soms.Stealth.Nearby
import Soms.Scores.SetPolicy
import Soms.Search.Query
import Soms.Search.Overlay
import Soms.Scores.Granted
import Soms.Scores.DifficultyAdjust
import Soms.Library.SlidingLog
import Soms.Limits.RateLimit
import Soms.Library.DepthRank
import Soms.Plugins.LoadOrder
import Soms.Mail.Queue
import Soms.Mail.Attempts
import Soms.Somsai.Revisions
import Soms.Library.Exclusive
import Soms.Medals.Process
import Soms.Medals.Awards
import Soms.Medals.Passes
