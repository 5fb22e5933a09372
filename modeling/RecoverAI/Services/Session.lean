import RecoverAI.Framework.RelyGuarantee
import RecoverAI.Framework.Solo
import RecoverAI.Services.Operations

/-!
# Sessions

The commands a service performs: selects, flushes, commits and rollbacks of its
database session, readings of the clock, of a random UUID and of the settings, and
calls of the two remote parties. `exec` gives each its effect on the state all
operations share.

The database runs at read-committed isolation: a select sees what is committed at
that moment, together with the session's own statements. A session keeps no row
longer than the service that loaded it, so no select is answered from memory.

`State.history` is a record of the run, newest first. No command reads it; it is
what statements about runs are made of.
-/

namespace RecoverAI

open Interleave

inductive Cmd where
  | select (query : Query)
  | flush (statements : List Stmt)
  | commit
  | rollback
  /-- `datetime.now(UTC)`, also as the default of a timestamp column. -/
  | now
  /-- `uuid.uuid4()`, also as the default of a primary key. -/
  | uuid4
  | getSettings
  | getRecommendation (context : PaymentRecoveryContext)
  /-- `provider.create_payment_link`. The case on whose behalf the call is made is
  noted with it; the provider does not see it. -/
  | createPaymentLink (caseId : Uuid) (request : CreatePaymentLinkRequest)
  /-- `provider.find_payment_link_by_reference`. -/
  | findPaymentLinkByReference (referenceId : String)

abbrev Cmd.Reply : Cmd → Type
  | .select query => query.Result
  | .flush _ => Except DbError Unit
  | .commit => Unit
  | .rollback => Unit
  | .now => Time
  | .uuid4 => Uuid
  | .getSettings => Settings
  | .getRecommendation _ => Except Raised AIOutcome
  | .createPaymentLink _ _ => Except ProviderException PaymentLinkSnapshot
  | .findPaymentLinkByReference _ => Except ProviderException (Option PaymentLinkSnapshot)

/-- The commands of the services, as a signature. -/
abbrev sig : Sig := ⟨Cmd, Cmd.Reply⟩

/-- What the environment decides about a command. -/
inductive Input where
  | go
  | ranking (ids : List Uuid)
  | time (t : Time)
  | uuid (id : Uuid)
  | settings (s : Settings)
  | recommendation (answer : Except Raised AIOutcome)
  /-- The link the call really created at the provider, if it did, and the
  answer that came back. -/
  | created (made : Option PaymentLinkSnapshot)
      (answer : Except ProviderException PaymentLinkSnapshot)
  | found (answer : Except ProviderException (Option PaymentLinkSnapshot))

/-- A remote party raises a subclass of `RecoverAIError`. -/
def Input.raisesRecoverAI : Input → Bool
  | .recommendation (.error (.recoverAI _)) => true
  | .created _ (.error (.other (.recoverAI _))) => true
  | .found (.error (.other (.recoverAI _))) => true
  | _ => false

/-- A provider that answers with a link has created it. -/
def answersTruly (made : Option PaymentLinkSnapshot)
    (answer : Except ProviderException PaymentLinkSnapshot) : Bool :=
  match answer with
  | .ok link => made = some link
  | .error _ => true

/-- What a run leaves a record of. -/
inductive Event where
  | started (op : Op)
  | selected (query : Query) (result : query.Result)
  | clock (t : Time)
  | configured (s : Settings)
  | recommended (context : PaymentRecoveryContext) (answer : Except Raised AIOutcome)
  | committed (statements : List Stmt)
  /-- A flush failed and took the transaction with it. -/
  | refused (statements : List Stmt) (error : DbError)
  | created (caseId : Uuid) (request : CreatePaymentLinkRequest)
      (made : Option PaymentLinkSnapshot)
      (answer : Except ProviderException PaymentLinkSnapshot)
  | found (referenceId : String) (answer : Except ProviderException (Option PaymentLinkSnapshot))
  /-- The operation delivered its outcome or, with `none`, was killed. -/
  | ended (outcome : Option Outcome)

/-- A recovery cycle starts. -/
def Event.startsCycle : Event → Bool
  | .started (.cycle _ _) => true
  | _ => false

/-- What all operations share. -/
structure State extends Txns Db Stmt where
  /-- The record of the run, newest first, each event with the operation it
  belongs to. -/
  history : List (Tid × Event)

namespace State

/-- Nothing has happened yet. -/
def initial : State where
  db := Db.empty
  pending := []
  history := []

/-- The events of one operation, newest first. -/
def own (s : State) (t : Tid) : List Event := (s.history.filter fun p => p.1 = t).map Prod.snd

/-- Add an event to the record. -/
def emit (s : State) (t : Tid) (e : Event) : State := { s with history := (t, e) :: s.history }

/-- Replace the transactions. -/
def withTxns (s : State) (x : Txns Db Stmt) : State := { s with toTxns := x }

/-- A remote party raises a domain error in a cycle that has statements flushed and not
committed. The cycle catches the error without a rollback, so the statements stay in its
session, and its next commit takes them along. -/
def spills (s : State) (t : Tid) (i : Input) : Bool :=
  i.raisesRecoverAI && (s.own t).any Event.startsCycle && !(s.pendingOf t).isEmpty

end State

/-- One command. An input of the wrong kind, and a flush that has to wait, are no
step. -/
def exec (t : Tid) : (c : Cmd) → Input → State → Option (c.Reply × State)
  | .select query, .ranking ids, s =>
    let result := query.eval (s.view t) ids
    some (result, s.emit t (.selected query result))
  | .flush sts, .go, s =>
    match s.toTxns.flush t sts with
    | some (.ok (), x) => some (.ok (), s.withTxns x)
    | some (.error e, x) => some (.error e, (s.withTxns x).emit t (.refused sts e))
    | none => none
  | .commit, .go, s =>
    some ((), (s.withTxns (s.toTxns.commit t)).emit t (.committed (s.pendingOf t)))
  | .rollback, .go, s => some ((), s.withTxns (s.toTxns.rollback t))
  | .now, .time now, s => some (now, s.emit t (.clock now))
  | .uuid4, .uuid id, s => some (id, s)
  | .getSettings, .settings settings, s => some (settings, s.emit t (.configured settings))
  | .getRecommendation context, .recommendation answer, s =>
    some (answer, s.emit t (.recommended context answer))
  | .createPaymentLink caseId request, .created made answer, s =>
    if answersTruly made answer then
      some (answer, s.emit t (.created caseId request made answer))
    else none
  | .findPaymentLinkByReference referenceId, .found answer, s =>
    some (answer, s.emit t (.found referenceId answer))
  | _, _, _ => none

/-! ### Services -/

/-- A service: a program over the commands that returns or raises. -/
abbrev Service (α : Type) := ExceptT Raised (Prog sig) α

namespace Service

/-- Perform a command. -/
def perform (c : Cmd) : Service c.Reply := ExceptT.lift (Prog.perform (S := sig) c)

def select (query : Query) : Service query.Result := perform (.select query)

/-- `session.flush()` with the statements the session has collected. -/
def flush (statements : List Stmt) : Service Unit := do
  match ← perform (.flush statements) with
  | .ok () => return ()
  | .error .stale => throw .staleData
  | .error .integrity => throw .integrityError

def commit : Service Unit := perform .commit

def rollback : Service Unit := perform .rollback

def now : Service Time := perform .now

def uuid4 : Service Uuid := perform .uuid4

def getSettings : Service Settings := perform .getSettings

/-- Raise a domain error. -/
def raise {α : Type} (e : RecoverAIError) : Service α := throw (.recoverAI e)

/-- A domain check inside a service. -/
def ofExcept {α : Type} : Except RecoverAIError α → Service α
  | .ok a => return a
  | .error e => raise e

/-- `scalar_one_or_none()`: at most one row. -/
def scalarOneOrNone {α : Type} : List α → Service (Option α)
  | [] => return none
  | [a] => return some a
  | _ => throw .multipleResultsFound

end Service

end RecoverAI
