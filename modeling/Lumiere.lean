import Lumiere.Core.Run
import Lumiere.Core.Bits
import Lumiere.Models.Snowflake
import Lumiere.Models.SnowflakeGenerator
import Lumiere.Core.Broadcast
import Lumiere.DataServices.Coalescing
import Lumiere.DataServices.SharedResult
import Lumiere.DataServices.StuckWaiters
import Lumiere.Core.Scan
import Lumiere.Core.Walk
import Lumiere.Db.Messages
import Lumiere.Gateway.SessionManager
import Lumiere.Models.Error
import Lumiere.Routes.MessagePages
import Lumiere.Routes.MessageWalk
import Lumiere.Auth.Revocable
import Lumiere.Core.Str
import Lumiere.Core.Table
import Lumiere.Db.Effects
import Lumiere.Permissions
import Lumiere.Routes.Access
import Lumiere.Routes.Assignments
import Lumiere.Routes.ChannelAccess
import Lumiere.Routes.Escalation
import Lumiere.Auth.Jwt
import Lumiere.Db.Chat
import Lumiere.Gateway.FanOut
import Lumiere.Routes.Auth
import Lumiere.Routes.AuthStages
import Lumiere.Routes.LogoutEverywhere
import Lumiere.Routes.Timeouts
import Lumiere.Gateway.Connection
import Lumiere.Gateway.Handover
import Lumiere.Gateway.Listener
import Lumiere.Gateway.Membership
import Lumiere.Gateway.Replay
import Lumiere.Core.Interleaving
import Lumiere.Routes.Bans
import Lumiere.Routes.MemberCounts
import Lumiere.Core.Locks
import Lumiere.Core.Steps
import Lumiere.Db.ChannelStatements
import Lumiere.Routes.ChannelTree
import Lumiere.Routes.DeletedOwners
import Lumiere.Routes.InviteRaces
import Lumiere.Routes.Overrides
import Lumiere.Routes.RelationshipRaces
import Lumiere.Routes.Webhooks
import Lumiere.Routes.ChannelRaces
import Lumiere.Routes.StoredMessages
import Lumiere.Routes.Pins
import Lumiere.Routes.NewestMessage
import Lumiere.Routes.Unread
import Lumiere.Workers.SearchIndexer
import Lumiere.Core.TokenBucket
import Lumiere.Core.Keyed
import Lumiere.Middleware.RateLimit
import Lumiere.Middleware.GlobalLimit
import Lumiere.PermissionLayers
import Lumiere.Routes.Hierarchy
import Lumiere.Push.TokenStores
import Lumiere.Voice.Membership
import Lumiere.Gateway.InOrder
import Lumiere.Gateway.ResumeRaces
import Lumiere.Routes.DirectMessages
import Lumiere.Routes.DmRaces
import Lumiere.Core.Protocol
import Lumiere.Routes.Slowmode
import Lumiere.DataServices.Invalidation
import Lumiere.Core.Outcome
import Lumiere.Routes.RolePositions
import Lumiere.Routes.Moderation
import Lumiere.Routes.Blocks
import Lumiere.Routes.ServerEdits
import Lumiere.Routes.MemberEdits
import Lumiere.Routes.BanFailures
import Lumiere.Routes.ChannelFailures
import Lumiere.Routes.RefusedEdits
import Lumiere.Routes.Flags
import Lumiere.Routes.AroundWindow
import Lumiere.Middleware.Sanitize
import Lumiere.Middleware.RetryAfter
import Lumiere.Routes.Mentions
import Lumiere.Routes.Login
import Lumiere.Gateway.EventBuffer
import Lumiere.Routes.InviteValidity
import Lumiere.Routes.TypedUpdates
import Lumiere.Routes.Patches
import Lumiere.Routes.StoredNames
import Lumiere.Routes.ListWalks
import Lumiere.Media.Service
import Lumiere.Routes.Attachments
import Lumiere.Routes.Devices
import Lumiere.Push.PushService
import Lumiere.Db.Migrations
import Lumiere.Core.Bearer
import Lumiere.Push.Clients
import Lumiere.Push.Dispatch
import Lumiere.Core.Lease
import Lumiere.Gateway.Presence
import Lumiere.Workers.Payloads
import Lumiere.Workers.PushWorker
import Lumiere.Core.Owing
import Lumiere.Workers.SearchPipeline
import Lumiere.Routes.Typing
import Lumiere.Core.FixedWindow
import Lumiere.Gateway.CommandLimit
import Lumiere.Routes.UsernameChanges
import Lumiere.Core.Ledger
import Lumiere.Core.LiveWalk
import Lumiere.Routes.Warnings
import Lumiere.Routes.AuditLog
import Lumiere.Core.Follower
import Lumiere.Routes.Reactions
import Lumiere.Core.Interference
import Lumiere.Core.Sweep
import Lumiere.DataServices.Patterns
import Lumiere.Routes.Applications
import Lumiere.Voice.ServerStates
