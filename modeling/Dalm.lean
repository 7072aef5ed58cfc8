import Dalm.Relational.Table
import Dalm.Relational.Transaction
import Dalm.Relational.System
import Dalm.Relational.Rules
import Dalm.Relational.Soundness
import Dalm.Relational.Statements
import Dalm.Database
import Dalm.App
import Dalm.PhotoValidation
import Dalm.Expiration
import Dalm.MatchRanking
import Dalm.Matching
import Dalm.PhotoEmbeddings
import Dalm.EmbeddingJobs
import Dalm.Home
import Dalm.Postcards
import Dalm.Moments
import Dalm.Safety
import Dalm.Service
import Dalm.Tables
import Dalm.Changes
import Dalm.Invariant
import Dalm.Preservation
import Dalm.Steps
import Dalm.Keeping
import Dalm.Programs
import Dalm.Turns
import Dalm.Finalization
import Dalm.Deliveries
import Dalm.Reachable
import Dalm.MatchIntegrity
import Dalm.Fresh
import Dalm.HandOuts
import Dalm.PhotoPipeline
import Dalm.LeaseFencing
import Dalm.BlockedMatches
import Dalm.PostcardOrder
import Dalm.RepeatableDeliveries
import Dalm.Grants
import Dalm.TokenStore
import Dalm.TokenLaws
import Dalm.Users
import Dalm.Auth
import Dalm.UserRules
import Dalm.AuthChanges
import Dalm.AuthPrograms
import Dalm.RefreshTokens
import Dalm.Relational.Alone
import Dalm.StoreAgreement
import Dalm.WithdrawnSessions
import Dalm.WithdrawnProfiles
import Dalm.WithdrawnMatching
import Dalm.Relational.Answers
import Dalm.ShownPostcards
import Dalm.ShownPermissions
import Dalm.Relational.Completion
import Dalm.Uploads
import Dalm.UploadedImages
import Dalm.Today
import Dalm.Relational.Serial
import Dalm.Registration
import Dalm.SerialRuns
import Dalm.Availability
import Dalm.PhotoViewers
import Dalm.BlockedPhotos
import Dalm.EmptyClaims
import Dalm.Relational.Notes
import Dalm.ReportRaces
import Dalm.RevokedTokens
import Dalm.EventNotices
import Dalm.NotifiedOnce
import Dalm.RepeatedSends
import Dalm.NoDeadlock
import Dalm.Notifications
import Dalm.PersonalActions
import Dalm.Relational.Pages
import Dalm.Codec.Base64
import Dalm.Codec.DateTime
import Dalm.Cursors
import Dalm.Lists
import Dalm.Pagination
import Dalm.Numeric.Rounding
import Dalm.Ranking
import Dalm.SearchDay
import Dalm.Lived
import Dalm.Relational.Conduct
import Dalm.MomentTabs
import Dalm.UnviewedMatches
import Dalm.FirstReads
import Dalm.Codec.Json
import Dalm.WorkerReports
import Dalm.AuthCommits
import Dalm.UniqueUsers
import Dalm.NicknameConflicts
import Dalm.SignUps
import Dalm.MissedMatches
import Dalm.MatchSides
import Dalm.PhotoViews
import Dalm.MockUploads
import Dalm.BestMatch
import Dalm.Relational.Warrants
import Dalm.MatchQuality
import Dalm.Preferences
import Dalm.Relational.Cells
import Dalm.PreferenceChanges
import Dalm.PreferenceRuns
import Dalm.ExpirySweeps
import Dalm.LeaseRounds
import Dalm.Apple
import Dalm.AppleKeys
import Dalm.QueueDrains
import Dalm.OwnRows
import Dalm.Summaries
