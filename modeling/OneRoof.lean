import OneRoof.Lib.Async
import OneRoof.Lib.Discipline
import OneRoof.Lib.Decimal
import OneRoof.Lib.Sql
import OneRoof.Lib.Paths
import OneRoof.Uploads
import OneRoof.Maria
import OneRoof.Server
import OneRoof.Effects
import OneRoof.Statements
import OneRoof.Runs
import OneRoof.Safety
import OneRoof.Assignment
import OneRoof.Unauthenticated
import OneRoof.Confinement
import OneRoof.Acknowledge
import OneRoof.Sessions
import OneRoof.Accounts
import OneRoof.Identity
import OneRoof.Lib.Weights
import OneRoof.Responses
import OneRoof.Composite
import OneRoof.Details
import OneRoof.Lifecycle
import OneRoof.Membership
import OneRoof.Leaving
import OneRoof.Housemates
import OneRoof.Profiles
import OneRoof.OwnProfile
import OneRoof.Passwords
import OneRoof.Isolation
import OneRoof.Joining
import OneRoof.Enrolment
import OneRoof.Rosters
import OneRoof.Gathering
import OneRoof.HouseCodes
import OneRoof.Feed
import OneRoof.Assignees
import OneRoof.CurrentUser
import OneRoof.TaskList
import OneRoof.Page
import OneRoof.Everyone
import OneRoof.Comments
import OneRoof.Groups
import OneRoof.Bills
import OneRoof.Lib.Truncation
import OneRoof.DueDates
import OneRoof.Lib.Pairs
import OneRoof.Secrets
import OneRoof.Lookups
import OneRoof.Secrecy
import OneRoof.Credentials
import OneRoof.Lib.Growth
import OneRoof.History
import OneRoof.Replay
import OneRoof.Housing
import OneRoof.Logins
import OneRoof.Residents
import OneRoof.Answers
import OneRoof.Duties
import OneRoof.Remarks
import OneRoof.Lib.Effort
import OneRoof.Rest
import OneRoof.GroupRegister
import OneRoof.Listings
import OneRoof.Census
import OneRoof.Visits
import OneRoof.Lib.Clients
import OneRoof.Controller
import OneRoof.Site
import OneRoof.Shown
import OneRoof.Screens
import OneRoof.SiteRuns
