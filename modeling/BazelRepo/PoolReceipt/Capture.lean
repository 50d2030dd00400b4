import BazelRepo.PoolReceipt.Summary

namespace PoolReceipt

open Library

inductive Step where
  | createRoot
  | rootMetadata
  | createDirectory
  | syncParents
  | save (name : String)
  | create (name : String)
  | clone (name : String)
  | wait
  | sync (name : String)
  | stdoutMetadata
  | openStdout
  | readStdout
  deriving DecidableEq

structure Probe where
  success : Bool
  code : Option Int32
  stderr : List UInt8

/-- What the platform does in one invocation: the error of each step that fails, the answer about the nearest ancestor of the
root, the mode of the root, the name of the receipt, and the pool's process with its output. -/
structure System where
  fault : Step → Option String
  probe : Option (Except String Probe)
  mode : Nat
  id : Uuid
  spawn : Except String UInt32
  code : Option Int32
  signal : Option Int32
  stdout : List UInt8

structure Receipt where
  directory : String
  started : Bool := false
  pid : Option UInt32 := none
  code : Option Int32 := none
  signal : Option Int32 := none
  complete : Bool := false
  saved : List (String × Json) := []

/-- A step of an invocation leaves the receipt as it is then, also where it fails. -/
abbrev Session := ExceptT Failure (StateM Receipt)

def lift {α : Type} (result : Result α) : Session α := fun receipt => (result, receipt)

def System.check (system : System) (step : Step) : Result Unit :=
  match system.fault step with
  | none => .ok ()
  | some error => .error [error]

def System.step (system : System) (step : Step) : Session Unit := lift (system.check step)

def context {α : Type} (message : String) (result : Result α) : Result α := result.mapError fun failure => message :: failure

namespace Receipt

/-- No component leads to a parent, nor does the path start at the current directory. -/
def noTraversal (label : String) : Bool :=
  let parts := label.toList.splitOn '/'
  decide (['.', '.'] ∉ parts) && decide (parts.head? ≠ some ['.'])

def isAbsolute (label : String) : Bool := decide (label.toList.head? = some '/')

def join (path name : String) : String :=
  if path.toList.getLast? = some '/' then path ++ name else path ++ "/" ++ name

variable [Libraries]

def inspect (probe : Probe) : Result Unit := do
  ensure (probe.success = false) "receipts must be outside Git repositories"
  ensure (probe.code = some 128 ∧ "not a git repository".toList <:+: (Libraries.lossy probe.stderr).toList)
    "receipt location inspection failed"

def new (system : System) (root : List UInt8) : Result Receipt := do
  let label ← okOr (String.fromUTF8? ⟨root.toArray⟩) ["receipt root must be UTF-8"]
  ensure (noTraversal label = true) "receipt root must not contain parent traversal"
  ensure (isAbsolute label = true ∧ label.utf8ByteSize ≤ 2048 ∧ label.toList.any isControl = false)
    "receipt root must be absolute and at most 2048 bytes without control characters"
  let probe ← okOr system.probe ["receipt ancestor missing"]
  let probe ← context "cannot inspect receipt location" (probe.mapError fun error => [error])
  inspect probe
  system.check .createRoot
  system.check .rootMetadata
  -- The low six mode bits grant group or other access.
  ensure (system.mode % 64 = 0) "receipt root must be private"
  system.check .createDirectory
  system.check .syncParents
  .ok { directory := join label (toString system.id) }

end Receipt

section

variable [Libraries] (system : System)

def save (name : String) (value : Json) : Session Unit := do
  system.step (.save name)
  modify fun receipt => { receipt with saved := receipt.saved ++ [(name, value)] }

def argument (value : List UInt8) : Json :=
  object [("bytes", .array (value.map fun byte => number byte.toNat)), ("display_informational", .string (Libraries.lossy value))]

def invocation (args : List (List UInt8)) (task : String) (selected : Option String) : Json :=
  object [("version", number 1), ("program", .string "worktree-pool"),
    ("arguments", .array (("--json".toUTF8.data.toList :: args).map argument)), ("task", .string task),
    ("selected_assignment", optional .string selected)]

def int32 (value : Option Int32) : Json := optional (fun code : Int32 => number code.toInt) value

def uint32 (value : Option UInt32) : Json := optional (fun pid : UInt32 => number pid.toNat) value

def checkHandle (selected : Option String) : Result Unit :=
  match selected with
  | some handle => do
    let _ ← context "invalid explicit assignment handle" (parseUuid handle)
    .ok ()
  | none => .ok ()

def finish (pid : UInt32) : Session Unit := do
  modify fun receipt => { receipt with started := true, pid := some pid }
  lift (context "pool wait outcome is uncertain" (system.check .wait))
  modify fun receipt => { receipt with code := system.code, signal := system.signal }
  system.step (.sync "stdout")
  system.step (.sync "stderr")
  save system "exit-status.json" (object [("code", int32 system.code), ("signal", int32 system.signal),
    ("pid", uint32 (some pid)), ("started", .bool true)])
  modify fun receipt => { receipt with complete := true }

def run (args : List (List UInt8)) (task : String) (selected : Option String) : Session Unit := do
  save system "invocation.json" (invocation args task selected)
  lift (ensure (task ≠ "") "task identity is empty")
  lift (checkHandle selected)
  system.step (.create "stdout")
  system.step (.create "stderr")
  system.step (.clone "stdout")
  system.step (.clone "stderr")
  match system.spawn with
  | .error error => do
    save system "exit-status.json" (object [("code", .null), ("signal", .null), ("started", .bool false)])
    lift (.error ["cannot start worktree-pool", error])
  | .ok pid => finish system pid

structure Cli where
  task : String
  assignment : Option String
  poolArgs : List (List UInt8)

def maxInterpretBytes : Nat := 16 * 1024 * 1024

def isArgument (argument : Option (List UInt8)) (text : String) : Bool := decide (argument = some text.toUTF8.data.toList)

def requiresAssignment (cli : Cli) : Bool :=
  let first := cli.poolArgs.head?
  cli.assignment.isSome || isArgument first "acquire" || isArgument first "release" ||
    (isArgument first "assignment" && isArgument (cli.poolArgs[1]?) "inspect")

/-- The result of an answer, once the row that it selects has been saved. -/
def interpreted (cli : Cli) (value : Json) : Session Json := do
  let receipt ← get
  let (result, selected) ← lift (interpret value receipt.code cli.assignment (requiresAssignment cli))
  match selected with
  | some row => save system "selected-assignment.json" row
  | none => pure ()
  pure result

def knownOutcomes : List String := ["completed", "rejected", "pending", "unknown"]

def uninterpreted (value : Json) (failure : Failure) : Json :=
  object [("wrapper_exit", number 4),
    ("pool_outcome", optional .string ((value.field "outcome").asStr.filter fun outcome => decide (outcome ∈ knownOutcomes))),
    ("interpretation_failure", .string (excerpt (full failure) 256)),
    ("follow_up", .string "Stop effects. Inspect the recorded operation and assignment. Do not retry uncertain mutations or recover without exact human approval.")]

def execute (cli : Cli) : Session Json := do
  run system cli.poolArgs cli.task cli.assignment
  system.step .stdoutMetadata
  lift (ensure (system.stdout.length ≤ maxInterpretBytes) "raw response exceeds the 16 MiB interpretation budget")
  system.step .openStdout
  lift (context "raw pool JSON is partial or invalid" (system.check .readStdout))
  let value ← lift (context "raw pool JSON is partial or invalid" ((Libraries.json system.stdout).mapError fun error => [error]))
  tryCatch (interpreted system cli value) fun failure => pure (uninterpreted value failure)

/-- The result of an invocation that was not captured, or not as a whole. -/
def failed (receipt : Receipt) (failure : Failure) : Json :=
  set (object [("wrapper_exit", number 4),
      ("follow_up", .string "Stop effects. Preserve this receipt. Inspect known identities and request human resolution when ownership is uncertain.")])
    (if receipt.complete then "interpretation_failure" else "capture_failure") (.string (excerpt (full failure) 256))

def described (cli : Cli) (receipt : Receipt) (value : Json) : Json :=
  let value := set (set value "schema_version" (number 1)) "task_informational" (.string (excerpt cli.task 128))
  let value := set (set value "pool_exit" (int32 receipt.code)) "signal" (int32 receipt.signal)
  let value := set (set value "pool_pid" (uint32 receipt.pid)) "pool_started" (.bool receipt.started)
  set value "capture_complete" (.bool receipt.complete)

/-- What is reported, with the directory of the receipt and the receipt at the end. -/
structure Observation where
  result : Json
  directory : Option String
  receipt : Option Receipt

def saveError (value : Json) (receipt : Receipt) : Observation :=
  if (value.field "wrapper_exit").asI64 = some 4 then
    match (save system "wrapper-error.json" value).run receipt with
    | (.ok (), receipt) => ⟨value, some receipt.directory, some receipt⟩
    | (.error failure, receipt) =>
      ⟨set value "capture_failure" (.string (excerpt (brief failure) 256)), some receipt.directory, some receipt⟩
  else ⟨value, some receipt.directory, some receipt⟩

def observe (cli : Cli) (receipt : Receipt) : Observation :=
  let (outcome, receipt) := (execute system cli).run receipt
  let value := match outcome with
    | .ok value => value
    | .error failure => failed receipt failure
  saveError system (described cli receipt value) receipt

def main (root : Result (List UInt8)) (cli : Cli) : Observation :=
  match root.bind (Receipt.new system) with
  | .ok receipt => observe system cli receipt
  | .error failure =>
    ⟨object [("schema_version", number 1), ("wrapper_exit", number 4), ("pool_started", .bool false),
      ("capture_complete", .bool false), ("capture_failure", .string (excerpt (full failure) 256)),
      ("follow_up", .string "Stop effects. Resolve receipt capture before running the command.")], none, none⟩

/-- The text that is written and the status of the process: the report is read again before it is written. -/
def report (observation : Observation) : Result (List Char × Int) := do
  let text ← encode observation.result observation.directory
  let output ← (Libraries.json (String.ofList text).toUTF8.data.toList).mapError fun error => [error]
  let status ← okOr (output.field "wrapper_exit").asI64 ["wrapper exit missing"]
  .ok (text, status)

end

end PoolReceipt
