import MessageBus.Basic
import MessageBus.Channel
import MessageBus.Channel.Command
import MessageBus.Description
import MessageBus.Executor
import MessageBus.Executor.Step
import MessageBus.Failure
import MessageBus.Failure.Command
import MessageBus.Fifo
import MessageBus.Fifo.Command
import MessageBus.Operation
import MessageBus.Outcome
import MessageBus.Registry
import MessageBus.Registry.Broadcast
import MessageBus.Registry.Waiting
import MessageBus.Reply
import MessageBus.Request
import MessageBus.Script
import MessageBus.Task
import MessageBus.Telemetry
import MessageBus.Telemetry.Command
import MessageBus.Telemetry.Report
import MessageBus.Text.CodeRange
import MessageBus.Text.Combining
import MessageBus.Text.Layout
import MessageBus.Text.Lines
import MessageBus.Text.Quoted
import MessageBus.Text.Unprintable
import MessageBus.WaitLine
import MessageBus.WaitLine.Command
import MessageBus.Proofs.Tickets
import MessageBus.Proofs.Sizes
import MessageBus.Proofs.Addresses
import MessageBus.Proofs.Balance
import MessageBus.Proofs.Waiting
import MessageBus.Proofs.Attempts
import MessageBus.Proofs.Moves
import MessageBus.Proofs.Stand
import MessageBus.Proofs.Wakeups
import MessageBus.Proofs.Holdings
import MessageBus.Proofs.Effects
import MessageBus.Proofs.Stack
import MessageBus.Proofs.Soundness
import MessageBus.Proofs.Asides
import MessageBus.Proofs.Turns
import MessageBus.Proofs.Requests
import MessageBus.Proofs.Instructions
import MessageBus.Proofs.Steps
import MessageBus.Proofs.Asks
import MessageBus.Proofs.Runs
import MessageBus.Proofs.Outstanding
import MessageBus.Proofs.LostWakeups
import MessageBus.Proofs.Origins
import MessageBus.Proofs.Stalls
import MessageBus.Proofs.Broadcasts
import MessageBus.Proofs.Transfers
import MessageBus.Proofs.Errands
import MessageBus.Proofs.Errands.Flows
import MessageBus.Proofs.Unfolding
import MessageBus.Proofs.Unfolding.Tasks
import MessageBus.Proofs.Unfolding.Steps
import MessageBus.Proofs.Unfolding.Asks
import MessageBus.Proofs.AnyRun
import MessageBus.Proofs.Histories
import MessageBus.Proofs.Targets
import MessageBus.Proofs.Identities
import MessageBus.Proofs.WaitEntries
import MessageBus.Proofs.WaitEntries.Errands
import MessageBus.Proofs.Trades
import MessageBus.Proofs.Holders
import MessageBus.Proofs.Calls
import MessageBus.Proofs.Ledgers
import MessageBus.Proofs.Attendance
import MessageBus.Proofs.Attendance.Steps
import MessageBus.Proofs.Attendance.Streams
import MessageBus.Proofs.Attendance.Runs
import MessageBus.Proofs.DryRuns
import MessageBus.Proofs.Occupancy
import MessageBus.Proofs.Faults
import MessageBus.Proofs.Effort
import MessageBus.Proofs.Effort.Steps
import MessageBus.Proofs.Effort.Errands
import MessageBus.Proofs.Effort.Growth
import MessageBus.Proofs.Effort.Bounds
import MessageBus.Proofs.Termination
import MessageBus.Proofs.ParkOrder
import MessageBus.Proofs.Gone
import MessageBus.Proofs.Endings
import MessageBus.Proofs.Catalogue
import MessageBus.Proofs.Catalogue.Simulation
import MessageBus.Proofs.Deferred
import MessageBus.Proofs.Catalogue.Runs
import MessageBus.Proofs.Broadcasts.Attempts
import MessageBus.Proofs.Broadcasts.Forms
import MessageBus.Proofs.Refusals
import MessageBus.Proofs.Stories
import MessageBus.Proofs.Catalogue.Errands
import MessageBus.Proofs.Stories.Looks
import MessageBus.Proofs.Stories.Calls
import MessageBus.Proofs.Broadcasts.Calls
import MessageBus.Proofs.Batches
import MessageBus.Proofs.Batches.Calls
import MessageBus.Proofs.Atomicity
import MessageBus.Proofs.LineOrder
import MessageBus.Proofs.Upcoming
import MessageBus.Proofs.Moments
import MessageBus.Proofs.Seats
import MessageBus.Proofs.Queues
import MessageBus.Proofs.Queues.Front
import MessageBus.Proofs.Queues.Runs
import MessageBus.Proofs.Replies
import MessageBus.Proofs.Receivers
import MessageBus.Proofs.Senders
import MessageBus.Proofs.Accesses
import MessageBus.Proofs.Keepsakes
import MessageBus.Proofs.LastErrors.Marks
import MessageBus.Proofs.LastErrors.Turns
import MessageBus.Proofs.LastErrors
import MessageBus.Proofs.Renewals
import MessageBus.Proofs.Streams
import MessageBus.Proofs.Answers
import MessageBus.Proofs.SpuriousPolls
import MessageBus.Proofs.Polls
import MessageBus.Proofs.Streams.Drops
import MessageBus.Proofs.Streams.Loops
import MessageBus.Proofs.Successions
import MessageBus.Proofs.Likeness
import MessageBus.Proofs.Likeness.Changes
import MessageBus.Proofs.Likeness.Steps
import MessageBus.Proofs.LeavingOut
import MessageBus.Proofs.LeavingOut.Errands
import MessageBus.Proofs.LeavingOut.Waiter
import MessageBus.Proofs.LeavingOut.Absentees
import MessageBus.Proofs.LeavingOut.Turns
import MessageBus.Proofs.LeavingOut.Steps
import MessageBus.Proofs.LeavingOut.Numbers
import MessageBus.Proofs.AbandonedWaiters
import MessageBus.Proofs.Independence
import MessageBus.Proofs.Trails
import MessageBus.Proofs.OldestFirst
import MessageBus.Proofs.Accounting.Counters
import MessageBus.Proofs.Accounting.Notes
import MessageBus.Proofs.Accounting.Occurrences
import MessageBus.Proofs.Accounting
import MessageBus.Proofs.FreeSlots
import MessageBus.Proofs.FreeSlots.Executors
import MessageBus.Proofs.FreeSlots.Steps
import MessageBus.Proofs.Deletion
import MessageBus.Proofs.Commands
import MessageBus.Proofs.Commands.Lines
