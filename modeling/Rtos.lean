import Rtos.Session
import Rtos.Showcase
import Rtos.Proofs.Preemption
import Rtos.Proofs.Wakeup
import Rtos.Proofs.CeilingProtocol
import Rtos.Proofs.InheritanceProtocol
import Rtos.Proofs.CeilingDecision
import Rtos.Proofs.MutualExclusion
import Rtos.Proofs.QueueOrder
import Rtos.Proofs.Deadline
import Rtos.Proofs.TokenCount
import Rtos.Proofs.TickAccount
import Rtos.Proofs.Sanity
import Rtos.Proofs.Integrity
import Rtos.Proofs.Unwinding
import Rtos.Proofs.Choice
import Rtos.Proofs.Resting
import Rtos.Proofs.Abreast
import Rtos.Proofs.Course
import Rtos.Proofs.SpuriousWakeup
import Rtos.Proofs.Termination
import Rtos.Proofs.Timetable
import Rtos.Proofs.Punctuality
import Rtos.Proofs.SignalDelivery
import Rtos.Proofs.Agreement
import Rtos.Proofs.Configuration
import Rtos.Proofs.Threads
import Rtos.Proofs.InterruptEvents
import Rtos.Proofs.Introspection
import Rtos.Proofs.Kernel.Overflow
import Rtos.Proofs.MessageCopy
import Rtos.Proofs.Schedule.Sweeps
import Rtos.Proofs.IdleTime
import Rtos.Proofs.TimerOverflow
import Rtos.Proofs.DeadlockReport
import Rtos.Proofs.Rejection
import Rtos.Proofs.SlotOrder
