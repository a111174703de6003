import SimplexAgent.Persistence.JsonStore
import SimplexAgent.Persistence.SqliteStoreRuns
import SimplexAgent.Llm.ResponsesPayloads
import SimplexAgent.Loop.StateEdit
import SimplexAgent.Core.UsageService
import SimplexAgent.Llm.ChatReplay
import SimplexAgent.Tools.RegistryAnswers
import SimplexAgent.Tools.Registration
import SimplexAgent.Core.ConfirmationRun
import SimplexAgent.Core.Admission
import SimplexAgent.Core.RequestBounds
import SimplexAgent.Tools.ProcessSessionStore
import SimplexAgent.Tools.CommandPolicy
import SimplexAgent.Tools.SessionOutput
import SimplexAgent.ProcessIo.AnonymousPipeOutput
import SimplexAgent.Core.AnswerPages
import SimplexAgent.Hub.RequestRun
import SimplexAgent.Hub.PromptTable
import SimplexAgent.Endpoint.Interleaving
import SimplexAgent.Hub.OperationLedgerRun
import SimplexAgent.Textedit.Utf8Probe
import SimplexAgent.Textedit.LineIndex
import SimplexAgent.Endpoint.SseRewind
import SimplexAgent.Endpoint.ResolveEndpoint
import SimplexAgent.Dataclass.TemplateEdits
import SimplexAgent.Hub.InstallRuns
import SimplexAgent.Hub.CloseReason
import SimplexAgent.Hub.MeasureEnvelope
import SimplexAgent.Hub.LineSplitter
import SimplexAgent.Hub.SubagentReceive
import SimplexAgent.Hub.EventSequence
import SimplexAgent.Core.Display
import SimplexAgent.Hub.ApprovalPreview
import SimplexAgent.Tools.DeclarationChecks
import SimplexAgent.Persistence.ArchiveSearch
import SimplexAgent.Loop.WriteAhead
