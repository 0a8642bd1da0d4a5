import SandboxPool.Guest.Call
import SandboxPool.Host.StoreDesk
import SandboxPool.Main
import SandboxPool.Pool.Handlers
import SandboxPool.Pool.Session
import SandboxPool.Program.Run
import SandboxPool.Proofs.Guest.Law
import SandboxPool.Proofs.Guest.Origin
import SandboxPool.Proofs.Handle.Generations
import SandboxPool.Proofs.Handle.History
import SandboxPool.Proofs.Handle.Reuse
import SandboxPool.Proofs.Handle.Table
import SandboxPool.Proofs.Host.Completion
import SandboxPool.Proofs.Host.Effects
import SandboxPool.Proofs.Pool.Abandonment
import SandboxPool.Proofs.Pool.Abroad
import SandboxPool.Proofs.Pool.Accounts
import SandboxPool.Proofs.Pool.Balance
import SandboxPool.Proofs.Pool.Borrows
import SandboxPool.Proofs.Pool.Cancellation
import SandboxPool.Proofs.Pool.Carrying
import SandboxPool.Proofs.Pool.Conservation
import SandboxPool.Proofs.Pool.Counting
import SandboxPool.Proofs.Pool.Driving
import SandboxPool.Proofs.Pool.Exclusion
import SandboxPool.Proofs.Pool.Frames
import SandboxPool.Proofs.Pool.Housing
import SandboxPool.Proofs.Pool.Looking
import SandboxPool.Proofs.Pool.Opening
import SandboxPool.Proofs.Pool.Moments
import SandboxPool.Proofs.Pool.Operations
import SandboxPool.Proofs.Pool.Provenance
import SandboxPool.Proofs.Pool.RoundTrip
import SandboxPool.Proofs.Pool.Scopes
import SandboxPool.Proofs.Pool.Tables
import SandboxPool.Proofs.Token.Agreement
import SandboxPool.Proofs.Message.RoundTrip
import SandboxPool.Proofs.Memory.Blocks
import SandboxPool.Proofs.Guest.Boundary
import SandboxPool.Proofs.Host.Upserts
import SandboxPool.Proofs.Pool.Closing
import SandboxPool.Proofs.Pool.Dropping
import SandboxPool.Proofs.Pool.Callbacks
import SandboxPool.Proofs.Pool.Visits
import SandboxPool.Proofs.Pool.Running
import SandboxPool.Proofs.Token.Reopening
import SandboxPool.Proofs.Host.Takes
import SandboxPool.Proofs.Pool.Acceptance
import SandboxPool.Proofs.Pool.Apart
import SandboxPool.Proofs.Pool.Rounds
import SandboxPool.Proofs.Pool.Requests
import SandboxPool.Proofs.Pool.Exports
import SandboxPool.Proofs.Pool.Returns
import SandboxPool.Proofs.Pool.Ledger
import SandboxPool.Proofs.Text.Utf16
import SandboxPool.Proofs.Memory.Ranges
import SandboxPool.Proofs.Memory.Allocation
import SandboxPool.Proofs.Memory.Strings
import SandboxPool.Proofs.Host.Transfers
import SandboxPool.Proofs.Pool.Hooks
import SandboxPool.Proofs.Pool.Misdirection
import SandboxPool.Proofs.Token.Deadlines
import SandboxPool.Proofs.Program.Hosting
import SandboxPool.Proofs.Program.Joining
import SandboxPool.Proofs.Program.Callers
import SandboxPool.Proofs.Message.Unknown
import SandboxPool.Proofs.Host.Registration
