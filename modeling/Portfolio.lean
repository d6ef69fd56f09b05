import Portfolio.Main
import Portfolio.Simulation.ScriptedExchange
import Portfolio.Proofs.Calls.Basic
import Portfolio.Proofs.Calls.Exclusion
import Portfolio.Proofs.Calls.Leads
import Portfolio.Proofs.Calls.Readers
import Portfolio.Proofs.Tasks.Actions
import Portfolio.Proofs.Tasks.Basic
import Portfolio.Proofs.Tasks.Loops
import Portfolio.Proofs.Calls.Later
import Portfolio.Proofs.Tasks.Exclusion
import Portfolio.Proofs.Calls.Stamps
import Portfolio.Proofs.Calls.Join
import Portfolio.Proofs.Calls.Landing
import Portfolio.Proofs.Calls.Ledger
import Portfolio.Proofs.View.History
import Portfolio.Proofs.Alone.Bound
import Portfolio.Proofs.Calls.Queue
import Portfolio.Proofs.Number.Nearest
import Portfolio.Proofs.Number.Finite
import Portfolio.Proofs.View.Amounts
import Portfolio.Proofs.View.Completion
import Portfolio.Proofs.Calls.News
import Portfolio.Proofs.Suspended.Basic
import Portfolio.Proofs.Suspended.Whole
import Portfolio.Proofs.Suspended.Overtaking
import Portfolio.Proofs.Suspended.Records
import Portfolio.Proofs.Number.Written
import Portfolio.Proofs.Poloniex.Payload
import Portfolio.Proofs.Number.Overflow
import Portfolio.Proofs.Alone.Delay
import Portfolio.Proofs.Valuation.Run
import Portfolio.Proofs.Valuation.Ending
import Portfolio.Proofs.Valuation.Finiteness
import Portfolio.Proofs.Config.Build
import Portfolio.Proofs.Config.Acceptance
import Portfolio.Proofs.Config.Counting
import Portfolio.Proofs.Exchange.Budget
import Portfolio.Proofs.Config.Leverage
import Portfolio.Proofs.Config.Wiring
import Portfolio.Proofs.Poloniex.Faults
import Portfolio.Proofs.Polling.Single
import Portfolio.Proofs.Polling.Whole
import Portfolio.Proofs.Calls.Fetched
import Portfolio.Proofs.Fresh.Beside
import Portfolio.Proofs.Fresh.Cached
import Portfolio.Proofs.Fresh.Hears
import Portfolio.Proofs.Alone.Fetches
import Portfolio.Proofs.Fresh.Looks
import Portfolio.Proofs.Valuation.Order
import Portfolio.Proofs.Exchange.Spending
import Portfolio.Proofs.Text.Utf8
import Portfolio.Proofs.Text.Percent
import Portfolio.Proofs.Poloniex.Query
import Portfolio.Proofs.Text.Trim
import Portfolio.Proofs.Number.Units
import Portfolio.Proofs.Number.Spelling
import Portfolio.Proofs.Time.Duration
import Portfolio.Proofs.Account.Table
import Portfolio.Proofs.Watcher.Buffer
