import OpenMeet.Accounts
import OpenMeet.AdminApi
import OpenMeet.AnsweredTracks
import OpenMeet.AppearOffline
import OpenMeet.AttachmentDownloads
import OpenMeet.AttachmentUploads
import OpenMeet.BadgeNews
import OpenMeet.BadgeRows
import OpenMeet.Badges
import OpenMeet.BindingChecks
import OpenMeet.CallApi
import OpenMeet.CallAuthorization
import OpenMeet.CallCancellation
import OpenMeet.CallHistory
import OpenMeet.CallTransactions
import OpenMeet.CandidateLists
import OpenMeet.CandidateTexts
import OpenMeet.ChatLimits
import OpenMeet.ChatStore
import OpenMeet.CollapsedTexts
import OpenMeet.Components
import OpenMeet.Consistency
import OpenMeet.ContactData
import OpenMeet.ConversationApi
import OpenMeet.CountedPresence
import OpenMeet.DirectConsent
import OpenMeet.DirectTransactions
import OpenMeet.Directory
import OpenMeet.EndedMeetings
import OpenMeet.EntityDecoding
import OpenMeet.Eviction
import OpenMeet.ExpiringCache
import OpenMeet.FailingQueries
import OpenMeet.FirstJoins
import OpenMeet.ForwardedMedia
import OpenMeet.Forwarding
import OpenMeet.FriendApi
import OpenMeet.FriendsOnlyGroups
import OpenMeet.GroupCodes
import OpenMeet.GroupDeadlocks
import OpenMeet.GroupOwnership
import OpenMeet.GroupPasswords
import OpenMeet.GroupRowLocks
import OpenMeet.GroupSerialOrder
import OpenMeet.GroupTransactions
import OpenMeet.Grouping
import OpenMeet.GrowingPages
import OpenMeet.HeadMetas
import OpenMeet.HistoryPages
import OpenMeet.HistoryPeople
import OpenMeet.HtmlScanner
import OpenMeet.IpAddresses
import OpenMeet.KeyedMap
import OpenMeet.LikePatterns
import OpenMeet.LinkPreviews
import OpenMeet.LiteralSearch
import OpenMeet.LiveForwards
import OpenMeet.LiveMeetings
import OpenMeet.LiveRooms
import OpenMeet.LockCrossing
import OpenMeet.LockOrder
import OpenMeet.LossyBroadcast
import OpenMeet.MediaForwarding
import OpenMeet.MediaInvariants
import OpenMeet.MediaMoves
import OpenMeet.MediaTasks
import OpenMeet.MeetingAccess
import OpenMeet.MeetingRecorder
import OpenMeet.MeetingSessions
import OpenMeet.MessageApi
import OpenMeet.MessageDelivery
import OpenMeet.MessagePaging
import OpenMeet.Messages
import OpenMeet.Numerals
import OpenMeet.ObjectLedger
import OpenMeet.Occupancy
import OpenMeet.OpenGraphTitles
import OpenMeet.PacketBuffer
import OpenMeet.Pages
import OpenMeet.PanelManagers
import OpenMeet.PastTime
import OpenMeet.PendingInvitations
import OpenMeet.PeopleApi
import OpenMeet.PeopleIndex
import OpenMeet.PostedMessages
import OpenMeet.Presence
import OpenMeet.PreviewCache
import OpenMeet.PrivilegeConfinement
import OpenMeet.ProfileUpdates
import OpenMeet.RateLimiter
import OpenMeet.ReadCommitted
import OpenMeet.ReadMarks
import OpenMeet.ReadThenWrite
import OpenMeet.ReceiverFeedback
import OpenMeet.RecordedPresence
import OpenMeet.RefreshDelivery
import OpenMeet.Repository
import OpenMeet.RequestEffects
import OpenMeet.RequestProbing
import OpenMeet.Residue
import OpenMeet.Revocation
import OpenMeet.RingingCalls
import OpenMeet.RoleConflicts
import OpenMeet.RoomPasswords
import OpenMeet.RoomState
import OpenMeet.ScannedHeads
import OpenMeet.ScreenShares
import OpenMeet.SerialOrder
import OpenMeet.SessionTraces
import OpenMeet.Sessions
import OpenMeet.SfuLockOrder
import OpenMeet.SfuTasks
import OpenMeet.SharedMedia
import OpenMeet.ShownMessages
import OpenMeet.Sidebar
import OpenMeet.SignIn
import OpenMeet.SignalingServer
import OpenMeet.SignalingSteps
import OpenMeet.SlidingWindow
import OpenMeet.SocialEvents
import OpenMeet.SocialRequests
import OpenMeet.SocialRuns
import OpenMeet.SocialTables
import OpenMeet.SocketCleanup
import OpenMeet.SourceBooks
import OpenMeet.SpecialAddresses
import OpenMeet.StoredObjects
import OpenMeet.TagAttributes
import OpenMeet.Text
import OpenMeet.TextSlices
import OpenMeet.TrackMaps
import OpenMeet.TransitionSystem
import OpenMeet.Transitions
import OpenMeet.UnreadFlags
import OpenMeet.UploadGrammar
import OpenMeet.Urls
import OpenMeet.UserAvatars
import OpenMeet.ViewConvergence
