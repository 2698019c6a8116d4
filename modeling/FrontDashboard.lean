import FrontDashboard.Stream.NothingMissed
import FrontDashboard.Editor.Honesty
import FrontDashboard.Editor.Navigation
import FrontDashboard.Membership.Audience
import FrontDashboard.Trash.NeverDestroyed
import FrontDashboard.Fanout.NothingDropped
import FrontDashboard.Fanout.Reaches
import FrontDashboard.Activity.NoGaps
import FrontDashboard.Lists.Converges
import FrontDashboard.Boards.Correspondence
import FrontDashboard.Retention.Abandoned
import FrontDashboard.Links.ResetPath
import FrontDashboard.Deletion.Final
import FrontDashboard.Events.Stored
import FrontDashboard.EventEditor.Unchanged
import FrontDashboard.Invites.SingleUse
import FrontDashboard.Reaper.Unobservable
import FrontDashboard.Notifications.Complete
import FrontDashboard.Paging.ExactlyOnce
import FrontDashboard.AllDay.Occurrences
import FrontDashboard.Calendar.WalkEnds
import FrontDashboard.Calendar.Windowed
import FrontDashboard.Boards.Fitted
import FrontDashboard.Boards.BoundedCompactor
import FrontDashboard.Editor.Serialized
import FrontDashboard.Boards.Asked
import FrontDashboard.Query.Eviction
import FrontDashboard.Lists.CheckedPile
import FrontDashboard.Lists.RolledBack
import FrontDashboard.Lists.RefetchItems
import FrontDashboard.Occurrence.CoveredHeld
import FrontDashboard.Auth.SessionClocks
import FrontDashboard.Verification.OneSession
import FrontDashboard.EventDetails.NotFromBefore
import FrontDashboard.Preferences.TogglesKept
import FrontDashboard.Notifications.BadgeConverges
import FrontDashboard.MonthView.ExactDays
import FrontDashboard.Activity.ExactGroups
import FrontDashboard.Appending.SortsLast
import FrontDashboard.Overview.Converges
import FrontDashboard.Auth.Unrevealed
