import Mecmcp.Changeset.Pending
import Mecmcp.Changeset.Terminal
import Mecmcp.Changeset.Seal
import Mecmcp.Changeset.Expiry
import Mecmcp.Changeset.Processes
import Mecmcp.Changeset.Undo
import Mecmcp.Changeset.OperatorWaiver
import Mecmcp.Changeset.Restart
import Mecmcp.Transport.TokenBucket
import Mecmcp.Transport.ForwardedFor
import Mecmcp.Transport.Preflight
import Mecmcp.Auth.StoreFile
import Mecmcp.Transport.SessionCap
import Mecmcp.Transport.Reaper
import Mecmcp.Redact.Marker
import Mecmcp.Redact.Union
import Mecmcp.Redact.Wrapper
import Mecmcp.Redact.Xml
import Mecmcp.Redact.Profile
import Mecmcp.Openapi.PathShape
import Mecmcp.Scp.Exact
import Mecmcp.Scp.KnownHosts
import Mecmcp.Audit.Join
import Mecmcp.Audit.LogEntries
import Mecmcp.Audit.ChangeContext
import Mecmcp.Audit.Spool
import Mecmcp.Audit.Ledger
import Mecmcp.Inventory.Race
import Mecmcp.Http.SafeUrl
import Mecmcp.Http.Retry
import Mecmcp.Policy.Allowlist
import Mecmcp.Policy.XmlCommand
