import ConfigBind.Bind.Binder
import ConfigBind.Proofs.Bind.Calls
import ConfigBind.Proofs.Bind.Maps
import ConfigBind.Tree.Json
import ConfigBind.Tree.Report
import ConfigBind.Types.Fields
import ConfigBind.Proofs.Bind.Failures
import ConfigBind.Proofs.Bind.Propagation
import ConfigBind.Proofs.Bind.Recursion
import ConfigBind.Proofs.Bind.Redirection
import ConfigBind.Proofs.Bind.Absence
import ConfigBind.Proofs.Bind.Policies
import ConfigBind.Proofs.Bind.Instances
import ConfigBind.Proofs.Bind.Histories
import ConfigBind.Proofs.Bind.Exchanges
import ConfigBind.Proofs.Bind.Typing
import ConfigBind.Proofs.Bind.Soundness
import ConfigBind.Proofs.Bind.Members
import ConfigBind.Proofs.Path.Joints
import ConfigBind.Proofs.Path.Rendering
import ConfigBind.Proofs.Types.Lookups
import ConfigBind.Proofs.Types.Closure
import ConfigBind.Proofs.Bind.Shallow
import ConfigBind.Proofs.Text.Decomposition
import ConfigBind.Proofs.Bind.Templates
import ConfigBind.Proofs.Bind.Unregistered
import ConfigBind.Proofs.Bind.Successes
import ConfigBind.Proofs.Types.Joining
import ConfigBind.Proofs.Types.Layout
import ConfigBind.Proofs.Bind.Merging
import ConfigBind.Proofs.Bind.Amendments
import ConfigBind.Proofs.Path.Reading
import ConfigBind.Path.Table
import ConfigBind.Proofs.Path.Ranges
import ConfigBind.Proofs.Path.Tables
import ConfigBind.Proofs.Path.Emptiness
import ConfigBind.Proofs.Path.Windows
import ConfigBind.Proofs.Path.Positions
import ConfigBind.Proofs.Bind.Sequences
import ConfigBind.Proofs.Convert.Integers
import ConfigBind.Proofs.Bind.Priorities
import ConfigBind.Proofs.Bind.Splicing
import ConfigBind.Proofs.Types.Order
import ConfigBind.Proofs.Types.Extending
import ConfigBind.Proofs.Convert.Spelling
