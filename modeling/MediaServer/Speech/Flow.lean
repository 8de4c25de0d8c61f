import MediaServer.Speech.Synthesizer
import Mathlib.Logic.Function.Basic

/-! `SpeechFlow`: one stream to the speech server that is opened again when it is lost, and
replaced when it is old.
-/

namespace MediaServer.Speech

inductive SpeechFunction
  | asr
  | tts
deriving DecidableEq

namespace SpeechFlow

inductive State
  | idle
  | token
  | connecting
  | ready
  | down
deriving DecidableEq

structure Params where
  keepAliveMs : QWORD := 30000
  maxAgeMs : QWORD := 3300000
  readyTimeoutMs : QWORD := 15000
  retiringTimeoutMs : QWORD := 10000
  retryMs : List QWORD := [1000, 2000, 5000, 10000, 30000]

/-- What goes out on a link. A text comes with the `sayId` it belongs to. -/
inductive Outgoing
  | text (owner : Nat) (text : Text)
  | flush
  | stop
  | pause
  | resume
  | done
  | close

/-- What comes in on a link. -/
inductive Incoming
  | ready
  | error (reason : String) (fatal : Bool) (id : Option Int)
  | text (text : Text)
  | say (id : Int) (text : Text)
  | done (id : Int)
  | stopped (ids : List Int)
  | other

inductive Call
  | ready (link : Nat)
  | text (text : Text)
  | pcm (data : Text)
  | say (link : Nat) (id : Int) (text : Text)
  | done (link : Nat) (id : Int)
  | stopped (ids : List Int)
  | rejected (link : Nat) (id : Int)
  | state (up : Bool) (reason : String)

structure Link where
  fatalReason : String := ""
  sent : List Outgoing := []

end SpeechFlow

open SpeechFlow in
structure SpeechFlow where
  function : SpeechFunction
  params : Params := {}
  streamingUrl : String := ""
  state : State := .idle
  stopped : Bool := false
  /-- The last state that was told. -/
  reported : Option Bool := none
  attempt : Nat := 0
  opening : Bool := false
  openingDeadlineMs : QWORD := 0
  openingLink : Option Nat := none
  current : Option Nat := none
  currentSinceMs : QWORD := 0
  lastSentMs : QWORD := 0
  retiring : Option Nat := none
  retiringDeadlineMs : QWORD := 0
  abandoned : List (Nat × QWORD) := []
  retryIndex : Nat := 0
  nextAttemptMs : QWORD := 0
  nextRotationMs : QWORD := 0
  paused : Bool := false
  /-- All links that ever were, and the number of the next one. -/
  links : Nat → Link := fun _ => {}
  nextLink : Nat := 0

namespace SpeechFlow

variable (flow : SpeechFlow)

def sendOn (link : Nat) (message : Outgoing) : SpeechFlow :=
  { flow with
    links := Function.update flow.links link
      { flow.links link with sent := (flow.links link).sent ++ [message] } }

def sendOn? (link : Option Nat) (message : Outgoing) : SpeechFlow :=
  match link with
  | none => flow
  | some link => flow.sendOn link message

variable (nowMs : QWORD)

def beginOpen : SpeechFlow :=
  { flow with
    opening := true
    openingDeadlineMs := nowMs + flow.params.readyTimeoutMs
    state := if flow.current.isNone then .token else flow.state
    attempt := flow.attempt + 1 }

def retryDelay : QWORD :=
  flow.params.retryMs.getD (min flow.retryIndex (flow.params.retryMs.length - 1)) 1000

/-- A failure without a stream is told once. -/
def tellDown (reason : String) : SpeechFlow × List Call :=
  if flow.reported = some false then (flow, [])
  else ({ flow with reported := some false }, [.state false reason])

def openingFailed (reason : String) (nowMs : QWORD) : SpeechFlow × List Call :=
  let failed := { flow with opening := false, retryIndex := flow.retryIndex + 1 }
  if flow.current.isSome then ({ failed with nextRotationMs := nowMs + flow.retryDelay }, [])
  else tellDown { failed with state := .down, nextAttemptMs := nowMs + flow.retryDelay } reason

def abandon (link : Nat) (nowMs : QWORD) : SpeechFlow :=
  let closed := flow.sendOn link .close
  { closed with abandoned := closed.abandoned ++ [(link, nowMs + flow.params.retiringTimeoutMs)] }

def abandon? (link : Option Nat) (nowMs : QWORD) : SpeechFlow :=
  match link with
  | none => flow
  | some link => flow.abandon link nowMs

def start : SpeechFlow :=
  if flow.stopped ∨ flow.state ≠ .idle ∨ flow.opening then flow else flow.beginOpen nowMs

def stop : SpeechFlow :=
  if flow.stopped then flow
  else
    let links := flow.openingLink.toList ++ flow.current.toList ++ flow.retiring.toList
      ++ flow.abandoned.map Prod.fst
    let ended : SpeechFlow :=
      { flow with
        stopped := true
        attempt := flow.attempt + 1
        opening := false
        openingLink := none
        current := none
        retiring := none
        abandoned := []
        state := .idle }
    links.foldl (fun flow link => flow.sendOn link .close) ended

def onToken (mine : Nat) (refusal : Option String) (nowMs : QWORD) : SpeechFlow × List Call :=
  if flow.stopped ∨ mine ≠ flow.attempt then (flow, [])
  else
    match refusal with
    | some reason => flow.openingFailed reason nowMs
    | none =>
      ({ flow with
          openingLink := some flow.nextLink
          nextLink := flow.nextLink + 1
          state := if flow.current.isNone then .connecting else flow.state },
        [])

def onConnectFailed (link : Nat) (nowMs : QWORD) : SpeechFlow × List Call :=
  if flow.stopped ∨ flow.openingLink ≠ some link then (flow, [])
  else
    openingFailed { flow with openingLink := none } ("cannot connect to " ++ flow.streamingUrl)
      nowMs

/-! The clock. -/

def tickRetry : SpeechFlow :=
  if flow.state = .down ∧ !flow.opening ∧ nowMs ≥ flow.nextAttemptMs then flow.beginOpen nowMs
  else flow

def tickDeadline : SpeechFlow × List Call :=
  if flow.opening ∧ nowMs ≥ flow.openingDeadlineMs then
    let late := { flow with attempt := flow.attempt + 1 }
    openingFailed { late.abandon? late.openingLink nowMs with openingLink := none }
      "no ready in time" nowMs
  else (flow, [])

def tickKeepAlive : SpeechFlow :=
  if flow.current.isSome ∧ nowMs - flow.lastSentMs ≥ flow.params.keepAliveMs
      ∧ (flow.function = .tts ∨ flow.paused) then
    sendOn? { flow with lastSentMs := nowMs } flow.current
      (if flow.function = .tts then .flush else .pause)
  else flow

def askRotation : Bool :=
  flow.current.isSome ∧ !flow.opening ∧ nowMs - flow.currentSinceMs ≥ flow.params.maxAgeMs
    ∧ nowMs ≥ flow.nextRotationMs

def tickRetiring : SpeechFlow :=
  if nowMs ≥ flow.retiringDeadlineMs then
    { flow.abandon? flow.retiring nowMs with retiring := none }
  else flow

def tickAbandoned : SpeechFlow :=
  { flow with abandoned := flow.abandoned.filter (fun entry => nowMs < entry.2) }

/-- The part of a tick under the lock, and whether it asks for a rotation. -/
def tick : SpeechFlow × List Call × Bool :=
  if flow.stopped ∨ flow.state = .idle then (flow, [], false)
  else
    let (flow, calls) := (flow.tickRetry nowMs).tickDeadline nowMs
    let flow := flow.tickKeepAlive nowMs
    ((flow.tickRetiring nowMs).tickAbandoned nowMs, calls, flow.askRotation nowMs)

/-- The part behind `CanRotate`. -/
def rotate : SpeechFlow :=
  if flow.stopped ∨ flow.current.isNone ∨ flow.opening then flow else flow.beginOpen nowMs

/-! What is sent. -/

def sendJson (message : Outgoing) (nowMs : QWORD) : Bool × SpeechFlow :=
  match flow.current with
  | none => (false, flow)
  | some link => (true, { flow.sendOn link message with lastSentMs := nowMs })

/-! What the links bring. -/

def isServing (link : Nat) : Bool := flow.current = some link ∨ flow.retiring = some link

def retire : SpeechFlow :=
  if flow.current.isSome then
    { flow.abandon? flow.retiring nowMs with
      retiring := flow.current
      retiringDeadlineMs := nowMs + flow.params.retiringTimeoutMs }
  else flow

def install (link : Nat) (nowMs : QWORD) : SpeechFlow :=
  { flow with
    current := some link
    openingLink := none
    opening := false
    currentSinceMs := nowMs
    lastSentMs := nowMs
    retryIndex := 0
    nextRotationMs := 0
    state := .ready
    reported := some true }

/-- The new stream takes the place of the current one, which ends. -/
def promote (link : Nat) (nowMs : QWORD) : SpeechFlow × List Call :=
  let promoted := (flow.retire nowMs).install link nowMs
  let paused := if promoted.paused then promoted.sendOn link .pause else promoted
  (paused.sendOn? flow.current (if flow.function = .asr then .done else .close),
    .ready link :: if flow.reported = some true then [] else [.state true ""])

/-- A link remembers why it is going to be closed. -/
def noteFatal (link : Nat) (reason : String) : SpeechFlow :=
  { flow with
    links := Function.update flow.links link { flow.links link with fatalReason := reason } }

def onLinkMessage (link : Nat) (message : Incoming) (nowMs : QWORD) : SpeechFlow × List Call :=
  if flow.stopped then (flow, [])
  else
    match message with
    | .ready => if flow.openingLink = some link then flow.promote link nowMs else (flow, [])
    | .error reason fatal id =>
      let noted := if fatal then flow.noteFatal link reason else flow
      match id with
      | none => (noted, [])
      | some id => if flow.isServing link then (noted, [.rejected link id]) else (noted, [])
    | .text text => if flow.isServing link then (flow, [.text text]) else (flow, [])
    | .say id text => if flow.isServing link then (flow, [.say link id text]) else (flow, [])
    | .done id => if flow.isServing link then (flow, [.done link id]) else (flow, [])
    | .stopped ids => if flow.isServing link then (flow, [.stopped ids]) else (flow, [])
    | .other => (flow, [])

def onLinkBinary (link : Nat) (data : Text) : List Call :=
  if !flow.stopped ∧ flow.isServing link then [.pcm data] else []

def onLinkClosed (link : Nat) (nowMs : QWORD) : SpeechFlow × List Call :=
  let reason :=
    if (flow.links link).fatalReason = "" then "connection closed"
    else (flow.links link).fatalReason
  if flow.stopped then (flow, [])
  else if flow.abandoned.any (fun entry => entry.1 = link) then
    ({ flow with abandoned := flow.abandoned.eraseP (fun entry => entry.1 = link) }, [])
  else if flow.retiring = some link then ({ flow with retiring := none }, [])
  else if flow.openingLink = some link then
    openingFailed { flow with openingLink := none, attempt := flow.attempt + 1 } reason nowMs
  else if flow.current = some link then
    tellDown
      (if flow.opening then
        { flow with
          current := none
          state := if flow.openingLink.isSome then .connecting else .token }
      else
        { flow with
          current := none
          state := .down
          nextAttemptMs := nowMs + flow.params.retryMs.headD 1000
          retryIndex := 1 })
      reason
  else (flow, [])

/-! The flow among its threads. A thread changes the flow under its lock and calls the listener
later.
-/

inductive Event
  | start (nowMs : QWORD)
  | stop
  | tick (nowMs : QWORD)
  | rotate (canRotate : Bool)
  | token (mine : Nat) (refusal : Option String) (nowMs : QWORD)
  | connectFailed (link : Nat) (nowMs : QWORD)
  | message (link : Nat) (message : Incoming) (nowMs : QWORD)
  | binary (link : Nat) (data : Text)
  | closed (link : Nat) (nowMs : QWORD)

/-- A flow, with the calls that the reactor thread and the other threads have yet to make, and
the ticks that have yet to ask whether they can rotate.
-/
structure Wire where
  flow : SpeechFlow
  untold : List Call := []
  elsewhere : List Call := []
  asking : List QWORD := []

namespace Wire

variable (wire : Wire)

def byReactor (result : SpeechFlow × List Call) : Wire :=
  { wire with flow := result.1, untold := wire.untold ++ result.2 }

def byOther (result : SpeechFlow × List Call) : Wire :=
  { wire with flow := result.1, elsewhere := wire.elsewhere ++ result.2 }

def step : Event → Wire
  | .start nowMs => { wire with flow := wire.flow.start nowMs }
  | .stop => { wire with flow := wire.flow.stop }
  | .tick nowMs =>
    let (flow, calls, asks) := wire.flow.tick nowMs
    { wire.byOther (flow, calls) with
      asking := wire.asking ++ if asks then [nowMs] else [] }
  | .rotate canRotate =>
    match wire.asking with
    | [] => wire
    | nowMs :: rest =>
      { wire with
        flow := if canRotate then wire.flow.rotate nowMs else wire.flow
        asking := rest }
  | .token mine refusal nowMs => wire.byOther (wire.flow.onToken mine refusal nowMs)
  | .connectFailed link nowMs => wire.byOther (wire.flow.onConnectFailed link nowMs)
  | .message link message nowMs => wire.byReactor (wire.flow.onLinkMessage link message nowMs)
  | .binary link data => wire.byReactor (wire.flow, wire.flow.onLinkBinary link data)
  | .closed link nowMs => wire.byReactor (wire.flow.onLinkClosed link nowMs)

end Wire

/-- A flow during a tick of the processor, with what other threads do before each of the calls
of the tick.
-/
structure Shared where
  wire : Wire
  during : List (List Event) := []

namespace Shared

def awaited (shared : Shared) : Shared where
  wire := (shared.during.headD []).foldl Wire.step shared.wire
  during := shared.during.tail

def send (nowMs : QWORD) (message : Outgoing) (shared : Shared) : Bool × Shared :=
  let (sent, flow) := shared.awaited.wire.flow.sendJson message nowMs
  (sent, { shared.awaited with wire := { shared.awaited.wire with flow } })

def calls (nowMs : QWORD) : FlowCalls Shared where
  sendText shared owner text := shared.send nowMs (.text owner text)
  flush := send nowMs .flush
  stopSpeaking := send nowMs .stop

end Shared

end SpeechFlow

def Synthesizer.listen (synth : Synthesizer) : SpeechFlow.Call → Synthesizer
  | .ready link => synth.push (.ready link)
  | .text _ => synth
  | .pcm data => synth.onPcm data
  | .say link id _ => synth.push (.say link id)
  | .done link id => synth.push (.done link id)
  | .stopped _ => synth.onStopped
  | .rejected link id => synth.push (.done link id)
  | .state up reason => synth.push (.state up reason)

end MediaServer.Speech
