import UrlRouter.Holder
import UrlRouter.Proofs.Extract.Declared
import UrlRouter.Proofs.Extract.Entries
import UrlRouter.Proofs.Extract.Faults
import UrlRouter.Proofs.Extract.Integers
import UrlRouter.Proofs.Extract.Postponed
import UrlRouter.Proofs.Extract.Record
import UrlRouter.Proofs.Holder.Lifecycle
import UrlRouter.Proofs.Pattern.FirstFault
import UrlRouter.Proofs.Pattern.Grammar
import UrlRouter.Proofs.Pattern.Loosened
import UrlRouter.Proofs.Pattern.Positions
import UrlRouter.Proofs.Pattern.RoundTrip
import UrlRouter.Proofs.Router.Concatenated
import UrlRouter.Proofs.Router.DefaultScheme
import UrlRouter.Proofs.Router.Dispatch
import UrlRouter.Proofs.Router.FirstMatch
import UrlRouter.Proofs.Router.Flattened
import UrlRouter.Proofs.Router.Grouping
import UrlRouter.Proofs.Router.History
import UrlRouter.Proofs.Router.Nested
import UrlRouter.Proofs.Router.Printed
import UrlRouter.Proofs.Router.Stability
import UrlRouter.Proofs.Router.Tail
import UrlRouter.Proofs.Url.Bare
import UrlRouter.Proofs.Url.Items
import UrlRouter.Proofs.Url.Parts
import UrlRouter.Proofs.Url.Percent
import UrlRouter.Proofs.Url.Pieces
import UrlRouter.Proofs.Url.Query
import UrlRouter.Proofs.Url.Slashes
import UrlRouter.Proofs.UserInfo.History
import UrlRouter.Router.Action
import UrlRouter.Router.Script
import UrlRouter.UserInfo
