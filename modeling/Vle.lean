import Vle.Utils.Outcome
import Vle.Utils.PackageTable
import Vle.Utils.SortedMap
import Vle.Extension.ValueBuffer
import Vle.Extension.DifferentialEquation
import Vle.Graph.Model
import Vle.Devs.Event
import Vle.Devs.View
import Vle.Devs.Dynamics
import Vle.Devs.Coordinator
import Vle.Devs.Coordinator.Executive
import Vle.Devs.Coordinator.Bookkeeping
import Vle.Devs.Coordinator.TwoPhase
import Vle.Devs.Coordinator.DelModel
import Vle.Devs.Coordinator.Routing
import Vle.Devs.Coordinator.Drain
import Vle.Devs.Coordinator.Time
import Vle.Devs.Coordinator.Views
import Vle.Devs.Coordinator.Schedule
import Vle.Devs.Coordinator.Models
import Vle.Extension.DifferentialEquation.Automaton
import Vle.Extension.DifferentialEquation.Kernel
import Vle.Vpz.NoVLEs
import Vle.Vpz.Condition
