import CAres.Engine.Types
import CAres.Engine.Registry
import CAres.Engine.Dispatch
import CAres.Engine.Answer
import CAres.Engine.Events
import CAres.Proof.Wf
import CAres.Proof.Stream
import CAres.Proof.Dispatch
import CAres.Proof.Retry
import CAres.Proof.Inv
import CAres.Proof.Drain
import CAres.Proof.Timeouts
import CAres.Proof.Io
import CAres.Proof.Run
import CAres.Spec.Registry
import CAres.Proof.Deadlines
import CAres.Proof.Walk
import CAres.Spec.Answer
import CAres.Spec.Retry
import CAres.Proof.Framing
import CAres.Spec.Stream
import CAres.Engine.Init
import CAres.Engine.Config
import CAres.Engine.Resolv
import CAres.Spec.Init
import CAres.Spec.NextServer
import CAres.Spec.Deadline
import CAres.Spec.HandleError
import CAres.Spec.Edns
import CAres.Spec.Nameserver
import CAres.Spec.Resolv
import CAres.Spec.Subnet
import CAres.Spec.Sortlist
import CAres.Spec.Termination
import CAres.Proof.Accounting
import CAres.Spec.Completion
import CAres.Proof.SockState
import CAres.Spec.SockState
import CAres.Spec.ResolvConf
import CAres.Spec.Options
