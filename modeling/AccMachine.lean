import AccMachine.Bounds
import AccMachine.Instruction
import AccMachine.Memory
import AccMachine.Machine
import AccMachine.Text.Reading
import AccMachine.Text.Writing
import AccMachine.Text.Visible
import AccMachine.Assembly
import AccMachine.Execution
import AccMachine.Sweep
import AccMachine.CommandLine.Options
import AccMachine.CommandLine.Arguments
import AccMachine.CommandLine.Report
import AccMachine.Main
import AccMachine.Proofs.Ideal
import AccMachine.Proofs.Moves
import AccMachine.Proofs.Runs
import AccMachine.Proofs.Session
import AccMachine.Proofs.Soundness
import AccMachine.Proofs.Exactness
import AccMachine.Proofs.Fetches
import AccMachine.Proofs.Ceiling
import AccMachine.Proofs.Failures
import AccMachine.Proofs.Log
import AccMachine.Proofs.Recurrence
import AccMachine.Proofs.Drivers
import AccMachine.Proofs.Grammar
import AccMachine.Proofs.Verdict
import AccMachine.Proofs.Loading
import AccMachine.Proofs.Coding
import AccMachine.Proofs.Edits
import AccMachine.Proofs.Source
import AccMachine.Proofs.Printing
import AccMachine.Proofs.Listed
import AccMachine.Proofs.Reassembly
import AccMachine.Proofs.Tallies
import AccMachine.Proofs.Reports
import AccMachine.Proofs.Output
import AccMachine.Proofs.Unseen
import AccMachine.Proofs.Endless
import AccMachine.Proofs.Jumps
import AccMachine.Proofs.Countdown
import AccMachine.Proofs.Resolution
import AccMachine.Proofs.Draws
import AccMachine.Proofs.Population
import AccMachine.Proofs.Store
import AccMachine.Proofs.Headroom
import AccMachine.Proofs.Rows
import AccMachine.Proofs.Retelling
import AccMachine.Proofs.Misspelling
import AccMachine.Proofs.Assignments
