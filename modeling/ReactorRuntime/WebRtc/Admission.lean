import ReactorRuntime.Runtime.Runner
import ReactorRuntime.WebRtc.Acceptor

/-!
# The admission of offers

The WebRTC router, which admits an offer in the session that runs and hands it to the acceptor, and
the runner as the sink of the acceptor's connections.  The router's handler awaits nothing between
`require_session_running` and `start_offer`, so it is one step; a connection opening or being lost
runs the acceptor's callback and the runner's in one step.

`joined` is the history of the wires that `connection_opened` registered, each with the session that
was live then.

Left out: the claims on ids, by which a router shares them with the routers of other transports, and
those transports.
-/

namespace ReactorRuntime.WebRtc

open ReactorRuntime.Runtime (ConnId Connection Runner SessionParams Drawn)

structure Router where
  runner : Runner := {}
  acceptor : Acceptor := {}
  /-- History: the session each accepted offer was admitted in. -/
  admittedIn : Offer → Option ℕ := fun _ => none
  /-- History: the last offer that was admitted on each id; one that the acceptor then refused has
  no connection. -/
  stampedFor : AList fun _ : ConnId => Option Offer := ∅
  /-- History: the wires registered, with the session that was live. -/
  joined : List (Offer × Option ℕ) := []

namespace Router

variable (recording : Bool) (config : WebRtcConfig) (s : Router)

def liveSession : Option ℕ :=
  if s.runner.machine.state.isRunning then some s.runner.offerEpochs.current else none

def offerAdmitted (id : ConnId) : Router :=
  { s with runner := { s.runner with offerEpochs := s.runner.offerEpochs.stamp id } }

/-- The handler of an offer, once the session is known to run. -/
def offer (id : ConnId) (portRange : Option (ℕ × ℕ)) : Router :=
  let s := s.offerAdmitted id
  match s.acceptor.startOffer config id portRange with
  | .error _ => { s with stampedFor := s.stampedFor.insert id none }
  | .ok acceptor => { s with
      acceptor
      admittedIn := Function.update s.admittedIn s.acceptor.offers s.liveSession
      stampedFor := s.stampedFor.insert id (some s.acceptor.offers) }

def refuses (id : ConnId) : Bool :=
  s.runner.machine.state.isStale || s.runner.offerEpochs.stale id

/-- A wire connects: the acceptor announces it, and the runner registers it or not. -/
def connect (p : Offer) (id : ConnId) (acceptor : Acceptor) : Router :=
  { s with
    acceptor
    runner := s.runner.connectionOpened recording { id, wire := p }
    joined := if s.refuses id then s.joined else s.joined ++ [(p, s.liveSession)] }

/-- A wire is lost: the acceptor reports the loss of one that it announced. -/
def lose (id : ConnId) (acceptor : Acceptor) : Router :=
  { s with
    acceptor
    runner := if id ∈ s.acceptor.live then s.runner.drop recording id else s.runner }

end Router

/-! ### Runs -/

/-- What happens next. -/
inductive Router.Label where
  /-- Something of the runner that is not of a WebRTC connection. -/
  | runner (l : Runtime.Label)
  /-- Something of the acceptor that is neither an offer nor a wire. -/
  | acceptor (l : WebRtc.Label)
  | offer (id : ConnId) (portRange : Option (ℕ × ℕ))
  | connected (p : Offer)
  | lost (p : Offer)

/-- The steps of the runner that an offer or a wire makes. -/
def isWire : Runtime.Label → Bool
  | .offerAdmitted _ | .connectionOpened _ | .connectionClosed _ => true
  | _ => false

/-- The steps of the acceptor in which it hears of an offer or a wire. -/
def Label.isOutside : Label → Bool
  | .startOffer _ _ | .connected _ | .lost _ => true
  | _ => false

def Router.next (recording : Bool) (config : WebRtcConfig) (s : Router) :
    Router.Label → Option Router
  | .runner l =>
    if isWire l then none
    else (Runtime.next recording s.runner l).map fun runner => { s with runner }
  | .acceptor l =>
    if l.isOutside then none
    else (WebRtc.next config s.acceptor l).map fun acceptor => { s with acceptor }
  | .offer id portRange =>
    -- `require_session_running` refuses an offer outside a session
    if s.runner.machine.state.isRunning then some (s.offer config id portRange) else none
  | .connected p =>
    match s.acceptor.peers p with
    | some ⟨id, _⟩ => (WebRtc.next config s.acceptor (.connected p)).map (s.connect recording p id)
    | none => none
  | .lost p =>
    match s.acceptor.peers p with
    | some ⟨id, _⟩ => (WebRtc.next config s.acceptor (.lost p)).map (s.lose recording id)
    | none => none

/-- The router with its acceptor and its runner, from before the model is loaded. -/
def router (recording : Bool) (config : WebRtcConfig) : TransitionSystem Router Router.Label where
  init := {}
  step := Router.next recording config

end ReactorRuntime.WebRtc
