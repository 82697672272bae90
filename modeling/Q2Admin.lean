import Q2Admin.Lib.Separated
import Q2Admin.Go
import Q2Admin.Userinfo
import Q2Admin.Proto
import Q2Admin.Clock
import Q2Admin.Player
import Q2Admin.Lib.Tally
import Q2Admin.Rules
import Q2Admin.RuleMatching
import Q2Admin.Crypto
import Q2Admin.SymmetricRoundTrip
import Q2Admin.Buffer
import Q2Admin.Frontend
import Q2Admin.Command
import Q2Admin.KeySync
import Q2Admin.Obituary
import Q2Admin.Parse
import Q2Admin.Lib.Outcome
import Q2Admin.Session
import Q2Admin.Wire
import Q2Admin.Handlers
import Q2Admin.Framing
import Q2Admin.SlotSafety
import Q2Admin.Connection
import Q2Admin.Fallback
import Q2Admin.Handshake
import Q2Admin.Challenge
import Q2Admin.Takeover
import Q2Admin.HandshakeChecks
import Q2Admin.Endings
import Q2Admin.Outgoing
import Q2Admin.RuleActions
import Q2Admin.Lib.Base64
import Q2Admin.RpcToken
import Q2Admin.Roster
import Q2Admin.PlayerCount
import Q2Admin.Statistics
import Q2Admin.Agreement
import Q2Admin.Segmentation
import Q2Admin.Exceptions
import Q2Admin.Invitation
import Q2Admin.PlayerRows
import Q2Admin.Stifling
import Q2Admin.StickyMarks
import Q2Admin.DerivedFields
import Q2Admin.Scores
import Q2Admin.Evasion
import Q2Admin.Lib.Throttle
import Q2Admin.Throttling
import Q2Admin.Path
import Q2Admin.Website
import Q2Admin.Ownership
import Q2Admin.RuleFiles
import Q2Admin.Settings
import Q2Admin.Accounts
import Q2Admin.Disabled
import Q2Admin.SessionLife
import Q2Admin.Identity
import Q2Admin.InStep
import Q2Admin.SessionHandler
import Q2Admin.SessionEffects
import Q2Admin.SelectedServer
import Q2Admin.ConsoleStreams
import Q2Admin.LineArguments
import Q2Admin.Lib.SelfDelimiting
import Q2Admin.ServerFrames
import Q2Admin.Widening
import Q2Admin.ClockLimits
import Q2Admin.ShortStifles
import Q2Admin.Maintenance
import Q2Admin.Lib.Wildcard
import Q2Admin.DeathNotices
import Q2Admin.Suicides
import Q2Admin.Padding
import Q2Admin.Frags
import Q2Admin.UserinfoInverse
import Q2Admin.DirectLookup
import Q2Admin.TeleportTargets
import Q2Admin.VpnCache
import Q2Admin.ConsolePause
import Q2Admin.Lib.Cycle
import Q2Admin.MapRotator
import Q2Admin.KillRatio
import Q2Admin.Intervals
import Q2Admin.UnitOrder
import Q2Admin.Lib.Grouping
import Q2Admin.RuleOrder
import Q2Admin.Territory
import Q2Admin.Orderly
import Q2Admin.Freshness
import Q2Admin.Lib.Cells
import Q2Admin.Occupants
import Q2Admin.Lib.Loops
import Q2Admin.Progress
import Q2Admin.Tending
import Q2Admin.Process
import Q2Admin.Restart
import Q2Admin.Lib.Slices
import Q2Admin.Pointers
import Q2Admin.Pages
import Q2Admin.Arrivals
import Q2Admin.Dispatch
import Q2Admin.Shutdown
import Q2Admin.Proxy
import Q2Admin.Rpc
import Q2Admin.Consoles
import Q2Admin.KeptRules
