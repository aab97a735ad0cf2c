import ToyComputer.Main
import ToyComputer.Panel
import ToyComputer.Proofs.Disassembly
import ToyComputer.Proofs.LineFlow
import ToyComputer.Proofs.Streaming
import ToyComputer.Session.Timetable
import ToyComputer.Proofs.Executions
import ToyComputer.Proofs.Scheduling
import ToyComputer.Proofs.StepLimit
import ToyComputer.Proofs.Loads
import ToyComputer.Proofs.Delivery
import ToyComputer.Proofs.Cells
import ToyComputer.Proofs.CallStack
import ToyComputer.Proofs.FaultLines
import ToyComputer.Proofs.References
import ToyComputer.Proofs.Arrival
import ToyComputer.Proofs.ByteMap
import ToyComputer.Proofs.LabelNames
import ToyComputer.Proofs.Overflow
import ToyComputer.Proofs.Halting
import ToyComputer.Proofs.LineEnds
import ToyComputer.Proofs.IdleLines
import ToyComputer.Proofs.Capacity
import ToyComputer.Proofs.FreshStart
import ToyComputer.Proofs.WordAccess
import ToyComputer.Proofs.Grammar
import ToyComputer.Proofs.LoneLiterals
import ToyComputer.Proofs.PartOrder
import ToyComputer.Proofs.Arithmetic
import ToyComputer.Proofs.Polling
import ToyComputer.Proofs.Traffic
import ToyComputer.Proofs.Walks
import ToyComputer.Proofs.RegisterTable
import ToyComputer.Proofs.Listings
