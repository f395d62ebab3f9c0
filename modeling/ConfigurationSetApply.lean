import ConfigurationSetApply.Model.Types
import ConfigurationSetApply.Model.State
import ConfigurationSetApply.Model.Wp
import ConfigurationSetApply.Model.Primitives
import ConfigurationSetApply.Model.ProcessUnit
import ConfigurationSetApply.Model.Scheduler
import ConfigurationSetApply.Model.PreProcess
import ConfigurationSetApply.Model.Process
import ConfigurationSetApply.Trace.Log
import ConfigurationSetApply.Trace.Run
import ConfigurationSetApply.Trace.Order
import ConfigurationSetApply.Laws.ProcessUnit
import ConfigurationSetApply.Laws.Scheduler
import ConfigurationSetApply.Laws.RealRun
import ConfigurationSetApply.Laws.PreProcess
import ConfigurationSetApply.Laws.Process
import ConfigurationSetApply.Laws.Dependencies
import ConfigurationSetApply.Laws.DryRun
import ConfigurationSetApply.Laws.Cycle
import ConfigurationSetApply.Laws.Phase
import ConfigurationSetApply.Properties.Schedule
import ConfigurationSetApply.Laws.Frames
import ConfigurationSetApply.Properties.Protocol
import ConfigurationSetApply.Properties.Outcome
import ConfigurationSetApply.Properties.DryRun
import ConfigurationSetApply.Properties.Phase
import ConfigurationSetApply.Properties.Validation
import ConfigurationSetApply.Properties.Order
import ConfigurationSetApply.Properties.Answers
import ConfigurationSetApply.Properties.Records
import ConfigurationSetApply.Properties.Failures
import ConfigurationSetApply.Laws.Simulation
import ConfigurationSetApply.Properties.Normalization
