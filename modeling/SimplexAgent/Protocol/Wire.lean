import SimplexAgent.Protocol.Codec

/-!
# The wire vocabulary

The records and the closed vocabularies of the worker protocol, as `protocol/wire.hpp`
describes them, the conditional rules from `protocol/wire.cpp`, and the two registries
from `protocol/manifest.cpp` that the published documents walk. The English summaries
are not read by the codec and are left out.
-/

namespace SimplexAgent.Protocol.Wire

open Dataclass

/-! ## Enumerations -/

def envelopeType : EnumDescriptor where
  name := "EnvelopeType"
  spellings := ["event", "payload", "signal", "confirmation_request",
    "confirmation_response", "tool_request", "tool_response"]

def inputOperation : EnumDescriptor where
  name := "InputOperation"
  spellings := ["message", "continue", "compact", "history", "answer"]

def signalOperation : EnumDescriptor where
  name := "SignalOperation"
  spellings := ["status", "options", "cancel", "shutdown"]

def contentType : EnumDescriptor where
  name := "ContentType"
  spellings := ["text", "binary", "external_ref"]

def modality : EnumDescriptor where
  name := "Modality"
  spellings := ["text", "image", "audio", "video", "document"]

def messageType : EnumDescriptor where
  name := "MessageType"
  spellings := ["user_input", "model_response", "invoke_return"]

def callScheduling : EnumDescriptor where
  name := "CallScheduling"
  spellings := ["read_only", "parall_write", "serial_write"]

def callSecurity : EnumDescriptor where
  name := "CallSecurity"
  spellings := ["default_deny", "require_confirm", "trusted"]

def confirmationDecision : EnumDescriptor where
  name := "ConfirmationDecision"
  spellings := ["approved", "denied"]

def eventName : EnumDescriptor where
  name := "EventName"
  spellings := ["ready", "status", "options", "history", "answer", "answer_error",
    "history_error", "input_admitted", "input_rejected", "run_started", "input_committed",
    "model_response", "tool_calls", "tool_results", "persisted", "compact_finished",
    "export_error", "error", "run_finished"]

def loopStatus : EnumDescriptor where
  name := "LoopStatus"
  spellings := ["idle", "running", "completed", "cancelled", "exchange_limit", "failed",
    "auto_compact_required"]

def loopPhase : EnumDescriptor where
  name := "LoopPhase"
  spellings := ["ready", "model", "tools", "projection", "blocked"]

def runStatus : EnumDescriptor where
  name := "RunStatus"
  spellings := ["completed", "cancelled", "exchange_limit", "failed"]

def persistBoundary : EnumDescriptor where
  name := "PersistBoundary"
  spellings := ["before_tools", "results_ready", "step_finished", "run_finished",
    "compact", "cancelled", "shutdown"]

def storageKind : EnumDescriptor where
  name := "StorageKind"
  spellings := ["json", "sqlite"]

def rejectionCode : EnumDescriptor where
  name := "RejectionCode"
  spellings := ["invalid_options", "payload_queue_full"]

def failureStage : EnumDescriptor where
  name := "FailureStage"
  spellings := ["model_request", "other"]

def toolStatus : EnumDescriptor where
  name := "ToolStatus"
  spellings := ["succeeded", "rejected"]

def capability : EnumDescriptor where
  name := "Capability"
  spellings := ["session-history", "context-compact", "auto-compact", "answer-pages"]

/-! ## Shared wire objects -/

def content : RecordDescriptor where
  name := "Content"
  fields :=
    [enumeration contentType "type" "text", enumeration modality "modality" "text", text "raw",
     (opaqueJson "extras").opt,
     (boolean "truncated").opt,
     (integer "bytes").opt,
     (boolean "omitted").opt]

def usage : RecordDescriptor where
  name := "Usage"
  fields := [integer "prompt", integer "generated", integer "cache_hit"]

def answerSource : RecordDescriptor where
  name := "AnswerSource"
  fields :=
    [text "worker_id", integer "turn", integer "step", text "commit_sequence", text "fingerprint"]
  unknown := .reject

def executionIdentity : RecordDescriptor where
  name := "ExecutionIdentity"
  fields := [text "worker_id", text "request_id", text "run_id"]

def call : RecordDescriptor where
  name := "Call"
  fields :=
    [text "id", text "name", (opaqueJson "arguments").nullableValue,
     enumeration callScheduling "type" "read_only",
     enumeration callSecurity "security" "trusted",
     (opaqueJson "extras").opt]

def result : RecordDescriptor where
  name := "Result"
  fields := [record "Call" "query", record "Content" "output", (opaqueJson "extras").opt]

def requestContent : RecordDescriptor where
  name := "RequestContent"
  fields :=
    [enumeration contentType "type" "text", enumeration modality "modality" "text", text "raw",
     (opaqueJson "extras").opt.objectOnly]

def responseProjection : RecordDescriptor where
  name := "ResponseProjection"
  fields :=
    [integer "index", enumeration messageType "type" "model_response", text "role",
     records "Content" "content",
     integer "tool_calls",
     integer "omitted_parts",
     (record "Content" "reasoning").opt,
     (text "commit_sequence").opt,
     (record "AnswerSource" "answer_source").opt,
     (record "Usage" "cost").opt,
     (projectedBatch "Call" "OmissionMarker" "invokes").opt]

def toolResultMessage : RecordDescriptor where
  name := "ToolResultMessage"
  fields :=
    [enumeration messageType "type" "invoke_return", text "role", records "Content" "content",
     (integer "omitted_parts").opt,
     (record "Result" "invoke_return").opt,
     (opaqueJson "extras").opt]

/-! ## Options and status -/

def optionChoice : RecordDescriptor where
  name := "OptionChoice"
  fields := [text "name", texts "options"]

def optionCategory : RecordDescriptor where
  name := "OptionCategory"
  fields := [records "OptionChoice" "available", opaqueJson "current"]

def optionsData : RecordDescriptor where
  name := "OptionsData"
  fields :=
    [(record "OptionCategory" "model").opt, (record "OptionCategory" "tools").opt,
     (record "OptionCategory" "confirmation").opt]

def eventQueue : RecordDescriptor where
  name := "EventQueue"
  fields := [(integer "count").opt, (integer "bytes").opt, (integer "transport_bytes").opt]

def memoryRetention : RecordDescriptor where
  name := "MemoryRetention"
  fields := [integer "max_archives"]

def autoCompact : RecordDescriptor where
  name := "AutoCompact"
  fields := [integer "attempts", integer "succeeded", integer "limit", integer "threshold"]

def loopProgress : RecordDescriptor where
  name := "LoopProgress"
  fields :=
    [enumeration loopStatus "status" "idle", enumeration loopPhase "phase" "ready",
     integer "completed_exchanges",
     integer "committed_response_sequence",
     text "error",
     opaqueJson "pending_results" (.arr [])]

def statusData : RecordDescriptor where
  name := "StatusData"
  fields :=
    [boolean "active", boolean "stopping", boolean "storage_failed", integer "rejected_payloads",
     (integer "rejected_queries").opt,
     (integer "unreported_rejections").opt,
     (record "EventQueue" "event_queue").opt,
     (record "MemoryRetention" "memory_retention").opt,
     (record "AutoCompact" "auto_compact").opt,
     texts "capabilities",
     (record "LoopProgress" "loop").opt]

/-! ## Worker requests -/

/-- The fields that a request which runs the model does not read. -/
def messageIgnored : List String := ["start", "step", "limit", "source", "part", "offset"]

def payloadRequest : RecordDescriptor where
  name := "PayloadRequest"
  fields :=
    [enumeration inputOperation "operation" "message", text "request_id",
     (records "RequestContent" "content").opt,
     (opaqueJson "options").opt.objectOnly,
     (integer "start").opt.defaultValue (Json.uint 0),
     (integer "step").opt.defaultValue (Json.uint 0),
     (integer "limit").opt,
     (record "AnswerSource" "source").opt,
     (integer "part").opt.defaultValue (Json.uint 0),
     (integer "offset").opt.defaultValue (Json.uint 0)]
  forbidden := ["role", "invokes", "invoke_return", "type", "text"]
  rules :=
    [{ whenField := "operation", whenEquals := "message",
       requiresFields := ["content"], ignoresFields := messageIgnored },
     { whenField := "operation", whenEquals := "continue",
       forbidsFields := ["content"], ignoresFields := messageIgnored },
     { whenField := "operation", whenEquals := "compact",
       forbidsFields := ["content"], ignoresFields := messageIgnored },
     { whenField := "operation", whenEquals := "history",
       forbidsFields := ["content", "options"],
       ignoresFields := ["source", "part", "offset"] },
     { whenField := "operation", whenEquals := "answer",
       requiresFields := ["source"],
       forbidsFields := ["content", "options", "start", "step", "limit"],
       closed := true }]

def signalRequest : RecordDescriptor where
  name := "SignalRequest"
  fields := [enumeration signalOperation "operation" "status", (text "run_id").opt]
  rules :=
    [{ whenField := "operation", whenEquals := "cancel", requiresFields := ["run_id"] },
     { whenField := "operation", whenEquals := "status", forbidsFields := ["run_id"] },
     { whenField := "operation", whenEquals := "options", forbidsFields := ["run_id"] },
     { whenField := "operation", whenEquals := "shutdown", forbidsFields := ["run_id"] }]

/-! ## Confirmation -/

def confirmationRequest : RecordDescriptor where
  name := "ConfirmationRequest"
  fields :=
    [text "worker_id", text "session_id", text "run_id", text "confirmation_id",
     record "Call" "call"]

def confirmationResponse : RecordDescriptor where
  name := "ConfirmationResponse"
  fields :=
    [text "worker_id", text "session_id", text "run_id", text "confirmation_id",
     enumeration confirmationDecision "decision" "denied",
     (text "reason").opt]

/-! ## Remote tools -/

def toolError : RecordDescriptor where
  name := "ToolError"
  fields := [text "code", text "message"]

def toolRequest : RecordDescriptor where
  name := "ToolRequest"
  fields :=
    [text "worker_id", text "session_id", text "run_id", text "request_id",
     (opaqueJson "arguments").objectOnly]

def toolResponse : RecordDescriptor where
  name := "ToolResponse"
  fields :=
    [text "worker_id", text "session_id", text "run_id", text "request_id", text "route",
     enumeration toolStatus "status" "succeeded",
     (record "ToolError" "error").opt,
     (opaqueJson "result").opt.objectOnly]
  rules :=
    [{ whenField := "status", whenEquals := "succeeded",
       requiresFields := ["result"], forbidsFields := ["error"] },
     { whenField := "status", whenEquals := "rejected",
       requiresFields := ["error"], forbidsFields := ["result"] }]

/-! ## History and answer pages -/

def historyStep : RecordDescriptor where
  name := "HistoryStep"
  fields :=
    [integer "index", records "Content" "content", integer "tool_calls", integer "omitted_parts",
     (record "Content" "reasoning").opt,
     (text "commit_sequence").opt,
     (record "AnswerSource" "answer_source").opt,
     (record "ExecutionIdentity" "execution").opt]

def historyTurn : RecordDescriptor where
  name := "HistoryTurn"
  fields :=
    [integer "index", records "Content" "user", records "HistoryStep" "steps",
     integer "omitted_user_parts",
     integer "omitted_steps",
     (record "ExecutionIdentity" "source").opt,
     (text "internal_input").opt]

def historyPage : RecordDescriptor where
  name := "HistoryPage"
  fields :=
    [text "request_id", integer "revision", integer "start", integer "step",
     integer "next", integer "next_step", integer "total", records "HistoryTurn" "turns"]

def answerPage : RecordDescriptor where
  name := "AnswerPage"
  fields :=
    [text "request_id", record "AnswerSource" "source", integer "part", integer "offset",
     text "raw",
     enumeration contentType "type" "text",
     enumeration modality "modality" "text",
     integer "bytes",
     integer "next_offset",
     integer "next_part",
     integer "total_parts",
     boolean "done"]

/-! ## Event data -/

def emptyData : RecordDescriptor where
  name := "EmptyData"
  fields := []

def queryErrorData : RecordDescriptor where
  name := "QueryErrorData"
  fields :=
    [(opaqueJson "request_id" .null).nullableValue, text "message", (text "code").opt]

def inputAdmittedData : RecordDescriptor where
  name := "InputAdmittedData"
  fields := [(enumeration inputOperation "operation" "message").opt]

def inputRejectedData : RecordDescriptor where
  name := "InputRejectedData"
  fields :=
    [(opaqueJson "request_id" .null).nullableValue, text "message",
     (enumeration inputOperation "operation" "message").opt,
     (enumeration rejectionCode "code" "invalid_options").opt]

def archiveRef : RecordDescriptor where
  name := "ArchiveRef"
  fields :=
    [text "session_id", text "archive_id", enumeration storageKind "storage_kind" "json",
     boolean "restorable" true]

def archiveCleanup : RecordDescriptor where
  name := "ArchiveCleanup"
  fields := [integer "removed_archives", integer "removed_bytes"]

def omissionSummary : RecordDescriptor where
  name := "OmissionSummary"
  fields := [boolean "display_omitted" true, integer "bytes", text "reason"]

def compactFinishedData : RecordDescriptor where
  name := "CompactFinishedData"
  fields :=
    [textOrRecord "OmissionSummary" "summary", (text "memory_file").opt,
     (record "ArchiveRef" "archive").opt,
     integer "removed_turns",
     integer "revision",
     boolean "durable" true,
     (text "origin").opt,
     (integer "cycle").opt,
     (text "call_id").opt,
     (record "ArchiveCleanup" "archive_cleanup").opt,
     (text "archive_cleanup_error").opt]

def persistedData : RecordDescriptor where
  name := "PersistedData"
  fields :=
    [enumeration persistBoundary "boundary" "before_tools",
     enumeration storageKind "backend" "json",
     (integer "revision").opt.nullableValue.required,
     text "operation_id"]

def exportErrorData : RecordDescriptor where
  name := "ExportErrorData"
  fields := [text "operation", text "message"]

def failureData : RecordDescriptor where
  name := "FailureData"
  fields :=
    [enumeration failureStage "stage" "other", text "operation", boolean "can_continue"]

def runOutcomeData : RecordDescriptor where
  name := "RunOutcomeData"
  fields :=
    [enumeration runStatus "status" "completed", text "error", integer "exchanges",
     (integer "task_exchanges").opt,
     (integer "compact_exchanges").opt,
     (record "AutoCompact" "auto_compact").opt,
     boolean "durable",
     (record "FailureData" "failure").opt,
     (integer "omitted_display_events").opt,
     (integer "omitted_query_events").opt,
     (integer "omitted_feedback_events").opt,
     (integer "coalesced_metadata_events").opt,
     (integer "rejected_queries").opt,
     (integer "unreported_rejections").opt]

def errorData : RecordDescriptor where
  name := "ErrorData"
  fields :=
    [text "message", (boolean "durable").opt, (opaqueJson "primary_outcome").opt,
     (text "storage_error").opt,
     (integer "rejected_queries").opt,
     (integer "unreported_rejections").opt]

def omissionMarker : RecordDescriptor where
  name := "OmissionMarker"
  fields := [boolean "display_omitted" true, integer "omitted_items"]

/-! ## Envelopes -/

def eventEnvelope : RecordDescriptor where
  name := "EventEnvelope"
  fields :=
    [(enumeration envelopeType "type" "event").constant "event",
     enumeration eventName "event" "ready",
     text "session_id",
     text "worker_id",
     text "request_id",
     text "run_id",
     integer "sequence",
     opaqueJson "data"]
  wireValidate := some "event"

def envelope (name type nested : String) : RecordDescriptor where
  name := name
  fields := [(enumeration envelopeType "type" type).constant type, record nested "data"]

def payloadEnvelope : RecordDescriptor :=
  { envelope "PayloadEnvelope" "payload" "PayloadRequest" with wireValidate := some "payload" }

def signalEnvelope : RecordDescriptor :=
  { envelope "SignalEnvelope" "signal" "SignalRequest" with wireValidate := some "signal" }

def confirmationRequestEnvelope : RecordDescriptor :=
  envelope "ConfirmationRequestEnvelope" "confirmation_request" "ConfirmationRequest"

def confirmationResponseEnvelope : RecordDescriptor :=
  envelope "ConfirmationResponseEnvelope" "confirmation_response" "ConfirmationResponse"

def toolRequestEnvelope : RecordDescriptor :=
  envelope "ToolRequestEnvelope" "tool_request" "ToolRequest"

def toolResponseEnvelope : RecordDescriptor :=
  envelope "ToolResponseEnvelope" "tool_response" "ToolResponse"

/-! ## Registries -/

/-- `record_registry`. -/
def recordRegistry : List RecordDescriptor :=
  [content, usage, answerSource, executionIdentity, call, result, requestContent,
   responseProjection, toolResultMessage, omissionSummary, optionChoice, optionCategory,
   optionsData, eventQueue, memoryRetention, autoCompact, loopProgress, statusData,
   payloadRequest, signalRequest, confirmationRequest, confirmationResponse, toolError,
   toolRequest, toolResponse, historyStep, historyTurn, historyPage, answerPage, emptyData,
   queryErrorData, inputAdmittedData, inputRejectedData, archiveRef, archiveCleanup,
   compactFinishedData, persistedData, exportErrorData, failureData, runOutcomeData,
   errorData, omissionMarker, eventEnvelope, payloadEnvelope, signalEnvelope,
   confirmationRequestEnvelope, confirmationResponseEnvelope, toolRequestEnvelope,
   toolResponseEnvelope]

/-- `enum_registry`. -/
def enumRegistry : List EnumDescriptor :=
  [envelopeType, inputOperation, signalOperation, contentType, modality, messageType,
   callScheduling, callSecurity, confirmationDecision, eventName, loopStatus, loopPhase,
   runStatus, persistBoundary, storageKind, rejectionCode, failureStage, toolStatus,
   capability]

def declarations : List RecordDescriptor := (omissionMarker :: recordRegistry).reverse

end SimplexAgent.Protocol.Wire
