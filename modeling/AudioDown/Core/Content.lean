/-
# AudioDown.Core.Content — invoking a content plugin

`invoke_content` starts a plugin that is not running, under the plugin's locks, and then lets the
runtime answer the call.  Unlike the other methods that rewrite a record it refuses one that is
installing.  The parameters and the result of the call pass through unread, except for
`PluginRpcResult::validate`; the runtime's answer here says whether that accepts it.
-/
import AudioDown.Core.Lifecycle

namespace AudioDown.Core

open Lib (mapErr)
open Supervisor

inductive ContentInvocationError where
  | invalidRequest
  | pluginNotFound
  | pluginDisabled
  | notContentPlugin
  | capabilityMissing
  | pluginBusy
  | runtimeUnavailable
  | invalidResponse
  | internal
deriving DecidableEq

structure ContentInvocationRequest where
  requestId : String
  pluginId : PluginId
  method : ContentMethod
deriving DecidableEq

/-- A method returning `Result<α, ContentInvocationError>`. -/
abbrev ContentM := ExceptT ContentInvocationError CoreProgram

def mapContentManagementError : PluginManagementError → ContentInvocationError
  | .pluginNotFound => .pluginNotFound
  | .pluginDisabled => .pluginDisabled
  | .pluginOperationInProgress => .pluginBusy
  | .runtimeUnavailable | .invalidRuntimeState => .runtimeUnavailable
  | .invalidPriority | .internal => .internal

def validateContentInvocation (record : InstallPluginRecord) (method : ContentMethod) :
    Except ContentInvocationError Unit :=
  if !record.enabled then .error .pluginDisabled
  else if record.pluginType ≠ .content then .error .notContentPlugin
  else
    match record.manifest with
    | none => .error .internal
    | some manifest =>
      if manifest.id ≠ record.pluginId ∨ manifest.pluginType ≠ .content ∨
          ¬ manifest.capabilities.any (· == method.capability) then
        .error .capabilityMissing
      else .ok ()

def validRequestId (requestId : String) : Bool :=
  !requestId.isEmpty && requestId.utf8ByteSize ≤ 128 && !requestId.contains '\x00'

/-- `.map_err(|_| error)?`, also for a lock that is answered by a flag. -/
def contentOr {ε α : Type} (x : CoreProgram (Except ε α)) (error : ContentInvocationError) :
    ContentM α := mapErr x error

def contentLock (a : CoreProgram Bool) (error : ContentInvocationError) : ContentM Unit := do
  if !(← ExceptT.lift a) then throw error

def persistContentCallLog (p : PluginId) (event : ContentCallEvent) : ContentM Unit :=
  contentOr (ask (.persistContentCallLog p event)) .internal

def ensureStarted (record : InstallPluginRecord) : ContentM Unit := do
  if record.status ≠ .healthy then
    match ← ExceptT.lift (startTransition record) with
    | (.error error, record) =>
      ExceptT.lift (recordManagementFailure record)
      throw (mapContentManagementError error)
    | (.ok (), record) => contentOr (ask (.savePlugin record)) .internal

def callRuntime (p : PluginId) (method : ContentMethod) : ContentM Unit := do
  persistContentCallLog p .started
  let now ← ExceptT.lift (ask .utcNow)
  contentOr (ask (.touch p now)) .internal
  match ← ExceptT.lift (ask (.invokeRuntime p method)) with
  | .ok true => persistContentCallLog p .succeeded
  | .ok false =>
    persistContentCallLog p .failed
    throw .invalidResponse
  | .error _ =>
    persistContentCallLog p .failed
    throw .runtimeUnavailable

def invokeContent (request : ContentInvocationRequest) : ContentM Unit := do
  if !validRequestId request.requestId then throw .invalidRequest
  else
    contentLock (ask (.contentStartupLock request.pluginId)) .internal
    contentLock (ask (.tryOperationLock request.pluginId)) .pluginBusy
    match ← ExceptT.lift (getRecord request.pluginId).run with
    | .error error => throw (mapContentManagementError error)
    | .ok record =>
      ExceptT.mk (pure (validateContentInvocation record request.method))
      contentLock (ask (.beginActiveCall request.pluginId)) .internal
      if record.status = .installing ∨ record.status = .starting then throw .runtimeUnavailable
      else
        ensureStarted record
        callRuntime record.pluginId request.method

end AudioDown.Core
