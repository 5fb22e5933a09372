import RecoverAI.Runs.History

/-!
# Schedules

A run can be given by its actions: `World.after` is where they lead, and any actions
lead somewhere reachable (`reaches_after`). `alone` schedules one operation without
interruption, `part` a part of one.

The rest are the parameters of the schedules that witness the results of the following
modules: one payment of 500, a policy without thresholds, and what the environment
answers to each command of each operation.
-/

namespace RecoverAI

open Interleave

namespace World

/-- Where a list of actions leads, if all of them are possible. -/
def after (w : World) (as : List Action) : World := (machine.runs w as).getD w

theorem reaches_after (w : World) (as : List Action) : machine.Reaches w (w.after as) := by
  unfold after
  cases h : machine.runs w as with
  | none => exact Machine.Reaches.refl
  | some w' => exact Machine.reaches_of_runs h

theorem reachable_after (as : List Action) : Reachable (World.empty.after as) :=
  reaches_after _ as

theorem reachesVia_after {ok : World → Action → Prop} {w : World} {as : List Action}
    (h : machine.AllVia ok w as) : machine.ReachesVia ok w (w.after as) := by
  unfold after
  cases hr : machine.runs w as with
  | none => exact Relation.ReflTransGen.refl
  | some w' => exact Machine.reachesVia_of_runs h hr

/-- The same on the open machine. -/
def afterOpen (w : World) (as : List Action) : World := (openMachine.runs w as).getD w

theorem reaches_afterOpen (w : World) (as : List Action) : openMachine.Reaches w (w.afterOpen as) := by
  unfold afterOpen
  cases h : openMachine.runs w as with
  | none => exact Machine.Reaches.refl
  | some w' => exact Machine.reaches_of_runs h

theorem reachesVia_afterOpen {ok : World → Action → Prop} {w : World} {as : List Action}
    (h : openMachine.AllVia ok w as) : openMachine.ReachesVia ok w (w.afterOpen as) := by
  unfold afterOpen
  cases hr : openMachine.runs w as with
  | none => exact Relation.ReflTransGen.refl
  | some w' => exact Machine.reachesVia_of_runs h hr

end World

/-- Some commands of the operation `t`, with what the environment answers. -/
def part (t : Tid) (is : List Input) : List Action := is.map (.run t)

/-- An operation from its start to its end, without interruption. -/
def alone (t : Tid) (op : Op) (is : List Input) : List Action :=
  .start op :: part t is ++ [.finish t]

namespace Sample

theorem zero_mem : (0 : ℚ) ≤ 0 ∧ (0 : ℚ) ≤ 1 := by decide

theorem length_mem : 1 ≤ "-".length ∧ "-".length ≤ 600 := by decide

def settings : Settings where
  recoveryPaymentLinkExpiryHours := 72
  policyMaxRetryCount := 3
  policyMaxRecoveryWindowDays := 14
  policyMaxCustomerContacts := 2
  policyMinConfidenceThreshold := 0
  policyHighValueAmountThreshold := 500_000
  policyHighValueMinConfidenceThreshold := 1
  policyMaxRecoveryAmount := 10_000_000
  expiryHours_ge := by decide
  maxRetryCount_ge := by decide
  maxRecoveryWindowDays_ge := by decide
  maxCustomerContacts_ge := by decide
  minConfidenceThreshold_mem := zero_mem
  highValueAmountThreshold_ge := by decide
  highValueMinConfidenceThreshold_mem := by decide
  maxRecoveryAmount_ge := by decide

def recommendation (action : RecoveryAction) : RecoveryRecommendation where
  diagnosisCategory := .temporaryFailure
  recoveryConfidence := 1
  recommendedAction := action
  decisionExplanation := "-"
  confidence_mem := by decide
  explanation_length := length_mem

def aiOutcome (action : RecoveryAction) : AIOutcome where
  decisionSource := .ai
  recommendation := recommendation action
  model := none
  promptVersion := "v1"
  retryCount := 0
  failureCode := none
  failureMessage := none

def request : PaymentIngestRequest where
  customerReference := none
  amount := 500
  currency := "INR"
  status := .failed
  paymentMethodType := .card
  failureReason := none
  attemptNumber := 1
  providerPaymentId := none
  autoCreateCase := true
  amount_pos := by decide
  currency_length := by decide
  attemptNumber_ge := by decide
  customerReference_length := by decide
  providerPaymentId_length := by decide

/-- A link for the whole amount, not yet paid. -/
def link (providerReference : String) : PaymentLinkSnapshot where
  providerReference := providerReference
  shortUrl := none
  status := .created
  amount := 500
  amountPaid := 0
  currency := "INR"
  referenceId := none
  expiresAt := none

def event (dedupKey paymentLinkId status : String) (amountPaid : Option Int) :
    ParsedWebhookEvent where
  eventType := some ("payment_link." ++ status)
  paymentLinkId := some paymentLinkId
  paymentLinkStatus := some status
  amountPaid := amountPaid
  paymentId := none
  dedupKey := dedupKey

/-! The inputs of an audit event, of a transition, and of each operation in turn. -/

def audit : List Input := [.time 0, .go]

def move : List Input := .go :: audit

/-- A payment with id `p` of a new customer `u`, opened as case `c`. -/
def ingest (u p c : Uuid) : List Input :=
  [.uuid u, .go, .uuid p, .time 0, .time 0, .go] ++ audit ++ [.uuid c, .time 0, .go] ++ audit ++
    [.go]

/-- A diagnosis of a case in DISCOVERED, or of one that has been diagnosed before. -/
def diagnose (discovered : Bool) (action : RecoveryAction) : List Input :=
  [.ranking []] ++ audit ++ (if discovered then move else []) ++ move ++
    [.time 0, .recommendation (.ok (aiOutcome action))] ++ audit ++ audit ++ move ++ move ++
    [.settings settings, .time 0] ++ audit ++ move ++ [.go]

/-- The first transaction of an execution. -/
def claim : List Input :=
  [.ranking []] ++ audit ++ [.settings settings, .time 0] ++ audit ++ move ++ [.go]

/-- The second, with execution reference `u` and attempt `a`. -/
def attempt (u a : Uuid) : List Input :=
  [.settings settings, .uuid u, .time 0, .uuid a, .time 0, .go] ++ audit ++ [.go]

/-- The call of the provider, which creates the link it answers with. -/
def call (providerReference : String) : List Input :=
  [.time 0, .created (some (link providerReference)) (.ok (link providerReference))]

/-- The last transaction, with the link under id `l`. -/
def record (l : Uuid) : List Input := [.time 0, .uuid l, .go] ++ audit ++ [.go]

def execute (u a l : Uuid) (providerReference : String) : List Input :=
  claim ++ attempt u a ++ call providerReference ++ record l

/-- Two payments, opened as cases 3 and 23. -/
def discovered : List Action :=
  alone 0 (.ingest request "c") (ingest 1 2 3) ++ alone 1 (.ingest request "c") (ingest 21 22 23)

def cycleBudget : CycleBudget where
  autoExecute := true
  maxDiscover := 2
  maxDiagnose := 2
  maxExecute := 1

/-- A cycle up to its candidates, and the end of one; no payment is without a case. -/
def openCycle : List Input := [.uuid 50, .time 0, .ranking [], .ranking [], .go, .ranking []]

def closeCycle : List Input := .time 0 :: audit ++ [.go]

/-- A diagnosis of a case in DISCOVERED up to the answer of the AI service, which raises. -/
def diagnoseRaising (error : Raised) : List Input :=
  [.ranking []] ++ audit ++ move ++ move ++ [.time 0, .recommendation (.error error)]

/-- A delivery up to its look-up of the link, and what follows for a case in
EXECUTING. -/
def deliver : List Input := [.ranking [], .go, .ranking []]

def settle : List Input := [.ranking []] ++ audit ++ move ++ [.go]

/-- What follows for a case that has moved on. -/
def observe : List Input := [.ranking []] ++ audit ++ [.go]

/-- A failed payment that is ingested without a case. -/
def uncased : List Action :=
  alone 0 (.ingest { request with autoCreateCase := false } "c")
    ([.uuid 1, .go, .uuid 2, .time 0, .time 0, .go] ++ audit ++ [.go])

/-- A payment ingested as case 3, and diagnosed for a payment link. -/
def approved : List Action :=
  alone 0 (.ingest request "c") (ingest 1 2 3) ++
    alone 1 (.diagnose 3 "c") (diagnose true .sendPaymentLink)

/-- And executed, with the link "L". -/
def executed : List Action := approved ++ alone 2 (.execute 3 "c") (execute 10 11 12 "L")

end Sample

end RecoverAI
