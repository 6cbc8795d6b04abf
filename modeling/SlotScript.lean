import SlotScript.Cache.Tokens
import SlotScript.Cache.Compiled
import SlotScript.Main
import SlotScript.Proofs.Syntax.Layout
import SlotScript.Proofs.Machine.Run
import SlotScript.Proofs.Compiler.Agreement
import SlotScript.Proofs.Machine.Path
import SlotScript.Proofs.Network.Course
import SlotScript.Proofs.Compiler.Depth
import SlotScript.Proofs.Compiler.Safety
import SlotScript.Proofs.Compiler.Correctness
import SlotScript.Proofs.Syntax.Grammar
import SlotScript.Proofs.Syntax.Soundness
import SlotScript.Proofs.Cache.Transparency
import SlotScript.Proofs.Compiler.Acceptance
import SlotScript.Proofs.Network.Reading
import SlotScript.Proofs.Network.Ownership
import SlotScript.Proofs.Network.Registration
import SlotScript.Proofs.Network.Consequence
import SlotScript.Proofs.Network.Freshness
import SlotScript.Proofs.Network.Lookup
import SlotScript.Proofs.Network.Progress
import SlotScript.Proofs.Network.Noninterference
import SlotScript.Proofs.Network.Termination
import SlotScript.Proofs.Network.Reentrance
import SlotScript.Proofs.Network.Recording
import SlotScript.Proofs.Network.Ending
import SlotScript.Proofs.Network.Notification
import SlotScript.Proofs.Network.Attention
import SlotScript.Proofs.Network.Wakening
import SlotScript.Proofs.Network.Tidiness
import SlotScript.Proofs.Network.Mirror
import SlotScript.Proofs.Network.Lockstep
import SlotScript.Proofs.Network.Confinement
import SlotScript.Proofs.Network.Shadowing
import SlotScript.Proofs.Network.Elements
import SlotScript.Proofs.Network.Writeback
import SlotScript.Proofs.Token.Separation
import SlotScript.Proofs.Token.Interchange
import SlotScript.Proofs.Token.Digits
import SlotScript.Proofs.Token.Quotation
import SlotScript.Proofs.Token.Numeral
import SlotScript.Proofs.Token.Printing
import SlotScript.Proofs.Token.Partition
import SlotScript.Proofs.Operator.Ordering
import SlotScript.Proofs.Network.Assignment
import SlotScript.Proofs.Network.Tally
import SlotScript.Proofs.Network.Roundtrip
