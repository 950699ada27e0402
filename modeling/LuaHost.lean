import LuaHost.Config.Load
import LuaHost.Host.Scope
import LuaHost.Proofs.Neutral.Operations
import LuaHost.Proofs.Neutral.Scopes
import LuaHost.Proofs.Moves.Slots
import LuaHost.Proofs.Moves.Basic
import LuaHost.Proofs.Moves.Machine
import LuaHost.Proofs.Moves.Calls
import LuaHost.Proofs.Moves.Exchange
import LuaHost.Proofs.Lives.Closing
import LuaHost.Proofs.Lives.Handing
import LuaHost.Proofs.Lives.Ownership
import LuaHost.Proofs.Lives.Trampolines
import LuaHost.Proofs.Slots.Holders
import LuaHost.Proofs.Slots.Moves
import LuaHost.Proofs.Slots.Stages
import LuaHost.Proofs.Reports.Calls
import LuaHost.Proofs.Reports.Course
import LuaHost.Proofs.Reports.Modules
import LuaHost.Proofs.Reports.Operations
import LuaHost.Proofs.Slots.References
import LuaHost.Proofs.Entries.Chunks
import LuaHost.Proofs.Entries.Machines
import LuaHost.Proofs.Entries.Utf8
import LuaHost.Proofs.Entries.Calls
import LuaHost.Proofs.Lives.Selectors
import LuaHost.Proofs.Lives.Finalizers
import LuaHost.Proofs.Callbacks.Arguments
import LuaHost.Proofs.Callbacks.Balance
import LuaHost.Proofs.Callbacks.Results
import LuaHost.Proofs.Callbacks.Phases
import LuaHost.Proofs.Callbacks.Slots
import LuaHost.Proofs.Callbacks.Answers
import LuaHost.Proofs.Callbacks.Releases
import LuaHost.Proofs.Searches.Cache
import LuaHost.Proofs.Searches.Decisions
import LuaHost.Proofs.Searches.Candidates
import LuaHost.Proofs.Configs.Mappings
import LuaHost.Proofs.Configs.Files
import LuaHost.Proofs.Twins.Transparency
import LuaHost.Proofs.Routes.Delivery
import LuaHost.Proofs.Strings.Crossing
import LuaHost.Proofs.Debug.Processes
import LuaHost.Proofs.Debug.Sessions
import LuaHost.Proofs.Walks.Names
import LuaHost.Proofs.Walks.Assignments
import LuaHost.Proofs.Walks.Calls
import LuaHost.Proofs.Walks.Echoes
import LuaHost.Proofs.Walks.Findings
import LuaHost.Proofs.Openings.Agreement
import LuaHost.Proofs.Openings.Failures
import LuaHost.Proofs.Walks.Marshals
import LuaHost.Proofs.Walks.Restoring
import LuaHost.Proofs.Rooms.Runs
