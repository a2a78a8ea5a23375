import Gateway.Handler.Permission
import Gateway.Handler.Service
import Gateway.Log.Filter
import Gateway.Main
import Gateway.Proofs.Exchange.Order
import Gateway.Proofs.Handler.Recovery
import Gateway.Proofs.Router.Pooling
import Gateway.Proofs.Router.Registration
import Gateway.Relay
import Gateway.Shutdown
import Gateway.Values.Shelf
import Gateway.Proofs.Exchange.Gate
import Gateway.Proofs.Handler.Auth
import Gateway.Proofs.Router.Access
import Gateway.Proofs.Balance.Build
import Gateway.Proofs.Config.Startup
import Gateway.Proofs.Exchange.Framing
import Gateway.Proofs.Proxy.Answer
import Gateway.Proofs.Router.Files
import Gateway.Proofs.Router.Lookup
import Gateway.Proofs.Config.Forwarding
import Gateway.Proofs.Proxy.Hop
import Gateway.Proofs.Proxy.Introduction
import Gateway.Proofs.Router.Logging
import Gateway.Proofs.Balance.History
import Gateway.Proofs.Pool.Lending
import Gateway.Proofs.Relay.Schedule
import Gateway.Proofs.Shutdown.Wakeup
import Gateway.Proofs.Route.Suffix
import Gateway.Proofs.Route.Trailing
import Gateway.Proofs.Balance.Turns
import Gateway.Proofs.Proxy.Address
import Gateway.Proofs.Proxy.Trail
import Gateway.Proofs.Balance.Shares
import Gateway.Proofs.Router.Sizes
import Gateway.Proofs.Router.Fallback
import Gateway.Proofs.Router.Identity
import Gateway.Proofs.Router.Directories
import Gateway.Proofs.Router.Grouping
import Gateway.Proofs.Values.History
