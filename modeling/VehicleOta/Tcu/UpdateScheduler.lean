import VehicleOta.Tcu.DynamicUpdatePlanner

/-!
# The update scheduler

`UpdateScheduler.execute` of `tcu/update_scheduler.py`.  The log of an execution holds the
transport attempts and the campaign results in the order in which they are made.
-/

namespace VehicleOta.Tcu

/-- The status strings of the campaign results. -/
inductive Status where
  | flashed
  | failed
  | skipped
  | satisfied
  | aborted
  deriving DecidableEq

inductive Event where
  | send (ecuName : String) (attempt : ℕ)
  | result (ecuName : String) (status : Status)
  deriving DecidableEq

def Event.result? : Event → Option (String × Status)
  | .send _ _ => none
  | .result ecuName status => some (ecuName, status)

/-- `campaign_results` -/
def resultsOf (log : List Event) : List (String × Status) := log.filterMap Event.result?

structure RunState where
  log : List Event := []
  failedEcus : List String := []
  skippedEcus : List String := []
  completedOrSatisfied : List String := []
  fatalPolicyAbort : Bool := false

/-- The loop goes on with the next ECU, or `execute` returns or raises. -/
inductive Verdict where
  | proceed (s : RunState)
  | stop (s : RunState) (returned : Except PyError Bool)

/-- What `execute` works on; `transport` is the outcome of `send_firmware` for an ECU at an
attempt, which may raise. -/
structure Execution where
  resolver : DependencyPolicyResolver
  flashRetryCount : ℕ
  transport : String → ℕ → Except PyError Bool
  repositoryComplete : Bool
  eligibleUpdates : List EligibleUpdate
  updateOrder : List String
  vehicle : Option Vehicle
  dependencyMap : Option (Dict String (List String))

namespace Execution

variable (x : Execution)

def discoveredNames : List String :=
  match x.vehicle with
  | none => []
  | some vehicle => vehicle.getAllEcus.map ECU.ecuName

/-- The state in front of the loop. -/
def initial : RunState where
  completedOrSatisfied :=
    x.discoveredNames.filter fun ecuName ↦ ecuName ∉ eligibleNames x.eligibleUpdates

def policyDependencies (ecuName : String) : List String :=
  if ecuName ∈ x.updateOrder then (x.resolver.forEcu ecuName).dependencies.dedup else []

/-- `dependency_lookup.get(ecu_name, set())`; an empty map falls back to the policies. -/
def dependencies (ecuName : String) : List String :=
  match x.dependencyMap with
  | none => x.policyDependencies ecuName
  | some map => if map.entries.isEmpty then x.policyDependencies ecuName
      else dependenciesOf map ecuName

/-- The three sets of dependencies that block an ECU, taken together. -/
def blockingDependencies (s : RunState) (ecuName : String) : List String :=
  (x.dependencies ecuName).filter fun d ↦
    d ∈ s.failedEcus ∨ d ∈ s.skippedEcus ∨ (d ∉ x.updateOrder ∧ d ∉ s.completedOrSatisfied)

/-- An ECU that is not updated: the campaign ends if the policy says so. -/
def skipEcu (aborts : Bool) (s : RunState) (ecuName : String) : Verdict :=
  let status := if aborts then Status.aborted else Status.skipped
  let skipped := { s with
    log := s.log ++ [.result ecuName status]
    skippedEcus := s.skippedEcus ++ [ecuName] }
  if aborts then .stop skipped (.ok false) else .proceed skipped

def blockEcu (s : RunState) (ecuName : String) : Verdict :=
  skipEcu (x.resolver.forEcu ecuName).dependencyFailureAbortsCampaign s ecuName

/-- The branch of an ECU without an eligible entry. -/
def withoutEntry (s : RunState) (ecuName : String) : Verdict :=
  if ecuName ∈ s.completedOrSatisfied then
    .proceed { s with log := s.log ++ [.result ecuName .satisfied] }
  else skipEcu (x.resolver.forEcu ecuName).unavailableAbortsCampaign s ecuName

/-- The attempts from number `attempt` on, `remaining` of them at most. -/
def sendAttempts (transport : ℕ → Except PyError Bool) (ecuName : String) :
    (attempt remaining : ℕ) → List Event × Except PyError Bool
  | _, 0 => ([], .ok false)
  | attempt, remaining + 1 =>
      match transport attempt with
      | .ok false =>
          let rest := sendAttempts transport ecuName (attempt + 1) remaining
          (.send ecuName attempt :: rest.1, rest.2)
      | outcome => ([.send ecuName attempt], outcome)

def flashEcu (s : RunState) (ecuName : String) : Verdict :=
  let sent := sendAttempts (x.transport ecuName) ecuName 1 x.flashRetryCount
  let log := s.log ++ sent.1
  match sent.2 with
  | .error e => .stop { s with log } (.error e)
  | .ok true => .proceed { s with
      log := log ++ [.result ecuName .flashed]
      completedOrSatisfied := s.completedOrSatisfied ++ [ecuName] }
  | .ok false => .proceed { s with
      log := log ++ [.result ecuName .failed]
      failedEcus := s.failedEcus ++ [ecuName]
      fatalPolicyAbort :=
        s.fatalPolicyAbort || (x.resolver.forEcu ecuName).criticality = "critical" }

/-- The body of the loop. -/
def processEcu (s : RunState) (ecuName : String) : Verdict :=
  if ¬ (x.blockingDependencies s ecuName).isEmpty then x.blockEcu s ecuName
  else if ecuName ∉ eligibleNames x.eligibleUpdates then x.withoutEntry s ecuName
  else x.flashEcu s ecuName

def runLoop : List String → RunState → Verdict
  | [], s => .proceed s
  | ecuName :: rest, s =>
      match x.processEcu s ecuName with
      | .proceed s => runLoop rest s
      | .stop s returned => .stop s returned

/-- The log of `execute` and what it returns or raises. -/
def execute : List Event × Except PyError Bool :=
  if ¬ x.repositoryComplete then
    ([], .error (.runtimeError "Firmware repository verification failed."))
  else
    match x.runLoop x.updateOrder x.initial with
    | .proceed s => (s.log, .ok (!s.fatalPolicyAbort && s.failedEcus.isEmpty))
    | .stop s returned => (s.log, returned)

end Execution

end VehicleOta.Tcu
