import ReactorRuntime.Runtime.Runner

/-!
# The claims on connection ids

An id is claimed for a transport as it is minted, or as the transport asks for an id that a caller
chose; it stays claimed until the transport releases it or the session's connections are closed.
A transport reports a connection that it could not open with `connectionFailed`, at any time after
the connection was admitted.

A step of `control` is a call of a transport, or a step of the runner other than the admission and
the opening of a connection, which the transports report here with no regard to the session's state.

The draws of an id come with the call that asks for it.  Left out: the text and the detail of the
journal's entry.
-/

namespace ReactorRuntime.Runtime

def RESERVED_IDS : Finset ConnId := {SYSTEM_CONN_ID}

/-- The lowest id that the runtime mints (`MINTED_CONN_ID_MIN`). -/
def MIN_CONN_ID : ConnId := 5000

def MAX_CONN_ID : ConnId := 9999

/-- How many ids are drawn before `new_conn_id` gives up. -/
def MAX_MINT_ATTEMPTS : ℕ := 100

/-! ### The claims -/

structure Claims where
  holders : AList fun _ : ConnId => String := ∅

namespace Claims

def newConnId (c : Claims) (transport : String) (draws : List ConnId) : Option (ConnId × Claims) :=
  (draws.find? fun id => id ∉ c.holders ∧ id ∉ RESERVED_IDS).map fun id =>
    (id, { holders := c.holders.insert id transport })

/-- `claim_conn_id`: whether the claim is new.  It raises where another transport holds the id. -/
def claimConnId (c : Claims) (id : ConnId) (transport : String) : Option (Bool × Claims) :=
  if id ∈ RESERVED_IDS then none
  else match c.holders.lookup id with
    | none => some (true, { holders := c.holders.insert id transport })
    | some holder => if holder ≠ transport then none else some (false, c)

def claimHolder (c : Claims) (id : ConnId) : Option String := c.holders.lookup id

def releaseConnId (c : Claims) (id : ConnId) (transport : String) : Claims :=
  if id ∉ RESERVED_IDS ∧ c.holders.lookup id = some transport then
    { holders := c.holders.erase id }
  else c

end Claims

/-! ### The runner and its transports -/

/-- A connection that a transport admitted, by the session it was admitted in. -/
structure Admission where
  id : ConnId
  transport : String
  epoch : ℕ
  deriving DecidableEq

/-- The runner as its transports see it. -/
structure Control where
  runner : Runner := {}
  claims : Claims := {}
  /-- History: the connections admitted, in order. -/
  admitted : List Admission := []
  /-- History: the ids granted to a transport since the claims were cleared, less those that it
  released. -/
  granted : Finset (ConnId × String) := ∅
  /-- History: the ids claimed since the claims were cleared. -/
  claimed : Finset ConnId := ∅

/-- What happens next. -/
inductive Call where
  /-- A step of the runner that no transport asks for. -/
  | runner (label : Label)
  | newConnId (transport : String) (draws : List ConnId)
  | claimConnId (id : ConnId) (transport : String)
  | releaseConnId (id : ConnId) (transport : String)
  | offerAdmitted (id : ConnId) (transport : String)
  | connectionOpened (conn : Connection)
  /-- A transport reports the connection it admitted at the place given. -/
  | connectionFailed (place : ℕ)

namespace Control

variable (recording : Bool)

def connectionFailed (c : Control) (id : ConnId) (transport : String) : Control :=
  if c.claims.claimHolder id ≠ some transport then c
  else
    let stale := c.runner.offerEpochs.stale id
    let r : Runner := { c.runner with offerEpochs := c.runner.offerEpochs.consume id }
    if r.machine.state.isStale ∨ stale = true then { c with runner := r }
    else { c with runner := r.send recording .error .fact }

/-- Whether a step is of a transport's making. -/
def ofTransport : Label → Bool
  | .offerAdmitted _ | .connectionOpened _ => true
  | _ => false

/-- Whether a step of the runner empties the registry, and the claims with it. -/
def clears (r : Runner) : Label → Bool
  | .teardown task => (r.teardowns[task]?).any fun t => !t.cleared
  | _ => false

def clearClaims (c : Control) : Control := { c with claims := {}, granted := ∅, claimed := ∅ }

def grant (c : Control) (claims : Claims) (id : ConnId) (transport : String) : Control :=
  { c with claims, granted := insert (id, transport) c.granted, claimed := insert id c.claimed }

/-- The next state; `none` is a step that cannot come. -/
def next (c : Control) : Call → Option Control
  | .runner label =>
    if ofTransport label then none
    else (Runtime.next recording c.runner label).map fun runner =>
      if clears c.runner label then { c.clearClaims with runner } else { c with runner }
  | .newConnId transport draws =>
    if draws.length = MAX_MINT_ATTEMPTS ∧ ∀ id ∈ draws, MIN_CONN_ID ≤ id ∧ id ≤ MAX_CONN_ID then
      match c.claims.newConnId transport draws with
      | none => some c
      | some (id, claims) => some (c.grant claims id transport)
    else none
  | .claimConnId id transport =>
    match c.claims.claimConnId id transport with
    | none => some c
    | some (_, claims) => some (c.grant claims id transport)
  | .releaseConnId id transport => some { c with
      claims := c.claims.releaseConnId id transport
      granted := c.granted.erase (id, transport) }
  | .offerAdmitted id transport => some { c with
      runner := { c.runner with offerEpochs := c.runner.offerEpochs.stamp id }
      admitted := c.admitted ++ [{ id, transport, epoch := c.runner.offerEpochs.current }] }
  | .connectionOpened conn =>
    some { c with runner := c.runner.connectionOpened recording conn }
  | .connectionFailed place =>
    match c.admitted[place]? with
    | none => none
    | some a => some (c.connectionFailed recording a.id a.transport)

/-- The runner and its transports, from before the model is loaded. -/
def control : TransitionSystem Control Call where
  init := {}
  step := next recording

attribute [local simp] next

end Control

end ReactorRuntime.Runtime
