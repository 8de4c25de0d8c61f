import MediaServer.Bfcp.Exchange
import MediaServer.Foundation.Framing

/-! One accepted TCP connection: a stream of messages that arrives in any pieces, and what of
it the server gets to see.
-/

namespace MediaServer.Bfcp

open Foundation WireMessage List
open Framing hiding next

inductive RecvEnd
  | wouldBlock | peerClosed | failed
  deriving DecidableEq

/-- A connection to a server in some state. What was handed to `MessageReceived` and whether
`TransportClosed` was called are kept along.
-/
structure BFCPTcpConnection (σ : Type) where
  server : σ
  /-- The octets that have been read and not yet handed up, `in`. -/
  incoming : List BYTE := []
  finished : Bool := false
  handedUp : List WireMessage := []
  transportClosed : Bool := false

namespace BFCPTcpConnection

variable {σ : Type}

def maxMessageLen : Nat := 65536

def announcedLen (medkit : Medkit) (buffer : List BYTE) : Nat :=
  WireMessage.headerLen + (medkit.get2 (buffer.getD 2 0) (buffer.getD 3 0)).toNat * 4

def drop (connection : BFCPTcpConnection σ) : BFCPTcpConnection σ :=
  { connection with finished := true, transportClosed := true }

/-- What the server does with a message, and whether it closes the connection meanwhile. -/
abbrev Receive (σ : Type) := σ → WireMessage → σ × Bool

def messageReceived (receive : Receive σ) (connection : BFCPTcpConnection σ)
    (msg : WireMessage) : BFCPTcpConnection σ :=
  let (server, closed) := receive connection.server msg
  { connection with
    server
    finished := connection.finished || closed
    handedUp := connection.handedUp ++ [msg] }

def handUpFor (medkit : Medkit) (receive : Receive σ)
    : Nat → BFCPTcpConnection σ → BFCPTcpConnection σ
  | 0, connection => connection
  | rounds + 1, connection =>
    if connection.finished || connection.incoming.length < WireMessage.headerLen then connection
    else
      let total := announcedLen medkit connection.incoming
      if total > maxMessageLen then connection.drop
      else if connection.incoming.length < total then connection
      else
        let message := connection.incoming.take total
        let connection := { connection with incoming := connection.incoming.drop total }
        match WireMessage.parse medkit message with
        | .refused | .fault => connection.drop
        | .value msg => handUpFor medkit receive rounds (connection.messageReceived receive msg)

/-- Every round takes a header at least, so the bound is never reached. -/
def handUp (medkit : Medkit) (receive : Receive σ) (connection : BFCPTcpConnection σ)
    : BFCPTcpConnection σ :=
  handUpFor medkit receive (connection.incoming.length + 1) connection

/-- `OnReadable`, with what the `recv` calls return. A finished connection is not polled. -/
def onReadable (medkit : Medkit) (receive : Receive σ) (connection : BFCPTcpConnection σ)
    (chunks : List (List BYTE)) (ending : RecvEnd) : BFCPTcpConnection σ :=
  if connection.finished then connection
  else
    let connection := { connection with incoming := connection.incoming ++ chunks.flatten }
    match ending with
    | .peerClosed | .failed => connection.drop
    | .wouldBlock => connection.handUp medkit receive

/-! The stream. -/

theorem announcedLen_append (medkit : Medkit) {buffer : List BYTE} (more : List BYTE)
    (header : headerLen ≤ buffer.length)
    : announcedLen medkit (buffer ++ more) = announcedLen medkit buffer := by
  have long : 12 ≤ buffer.length := header
  simp only [announcedLen]
  rw [getD_append _ _ _ _ (by omega), getD_append _ _ _ _ (by omega)]

/-- A message is there when all the octets that its header announces are. -/
def framing (medkit : Medkit) : Framing BYTE where
  next buffer :=
    if buffer.length < WireMessage.headerLen ∨ buffer.length < announcedLen medkit buffer then none
    else
      some (buffer.take (announcedLen medkit buffer), buffer.drop (announcedLen medkit buffer))
  joins := by
    intro buffer frame rest taken
    split_ifs at taken
    cases taken
    exact List.take_append_drop _ _
  nonempty := by
    intro buffer frame rest taken
    split_ifs at taken with short
    cases taken
    have positive : 0 < announcedLen medkit buffer := by
      rw [announcedLen, WireMessage.headerLen]
      omega
    rw [not_or, WireMessage.headerLen] at short
    rw [ne_eq, List.take_eq_nil_iff, not_or]
    refine ⟨by omega, ?_⟩
    rintro rfl
    simp at short
  stable := by
    intro buffer frame rest taken more
    split_ifs at taken with short
    cases taken
    rw [not_or, not_lt, not_lt] at short
    rw [announcedLen_append medkit more short.1, if_neg, List.take_append_of_le_length short.2,
      List.drop_append_of_le_length short.2]
    rw [List.length_append]
    omega

variable {medkit : Medkit} {buffer frame rest : List BYTE}

theorem next_eq_none (waits : (framing medkit).next buffer = none)
    : buffer.length < headerLen ∨ buffer.length < announcedLen medkit buffer := by
  simp only [framing, ite_eq_left_iff, reduceCtorEq, imp_false, not_not] at waits
  exact waits

theorem next_eq_some (taken : (framing medkit).next buffer = some (frame, rest))
    : headerLen ≤ buffer.length ∧ announcedLen medkit buffer ≤ buffer.length
      ∧ frame = buffer.take (announcedLen medkit buffer)
      ∧ rest = buffer.drop (announcedLen medkit buffer) := by
  simp only [framing] at taken
  split_ifs at taken with short
  cases taken
  rw [not_or, not_lt, not_lt] at short
  exact ⟨short.1, short.2, rfl, rfl⟩

theorem length_of_next (taken : (framing medkit).next buffer = some (frame, rest))
    : frame.length = announcedLen medkit buffer := by
  obtain ⟨-, enough, rfl, -⟩ := next_eq_some taken
  rw [length_take, Nat.min_eq_left enough]

/-- The octets of one message that the connection takes. -/
structure IsMessage (medkit : Medkit) (octets : List BYTE) (msg : WireMessage) : Prop where
  frame : (framing medkit).IsFrame octets
  parsed : WireMessage.parse medkit octets = .value msg
  small : octets.length ≤ maxMessageLen

def Acceptable (medkit : Medkit) (buffer : List BYTE) : Prop :=
  WireMessage.headerLen ≤ buffer.length → announcedLen medkit buffer ≤ maxMessageLen

/-- Each message before the last one leaves the connection open. -/
def StaysOpen (receive : Receive σ) : σ → List WireMessage → Prop
  | _, [] | _, [_] => True
  | server, msg :: next :: rest =>
    (receive server msg).2 = false ∧ StaysOpen receive (receive server msg).1 (next :: rest)

/-- The server after some messages, and whether it closed the connection at one of them. -/
def serve (receive : Receive σ) : σ → List WireMessage → σ × Bool
  | server, [] => (server, false)
  | server, msg :: rest =>
    if (receive server msg).2 then ((receive server msg).1, true)
    else serve receive (receive server msg).1 rest

/-- The messages up to the one at which the server closes the connection. -/
def shown (receive : Receive σ) : σ → List WireMessage → List WireMessage
  | _, [] => []
  | server, msg :: rest =>
    if (receive server msg).2 then [msg] else msg :: shown receive (receive server msg).1 rest

variable {server : σ} {msg : WireMessage} {receive : Receive σ}

theorem shown_front (server : σ) (msgs : List WireMessage)
    : shown receive server msgs <+: msgs := by
  induction msgs generalizing server with
  | nil => exact nil_prefix
  | cons msg rest ih =>
    rw [shown]
    split_ifs
    · exact prefix_append [msg] rest
    · exact (prefix_cons_inj msg).mpr (ih _)

theorem shown_eq_self_iff {msgs : List WireMessage}
    : shown receive server msgs = msgs ↔ StaysOpen receive server msgs := by
  induction msgs generalizing server with
  | nil => exact iff_of_true rfl trivial
  | cons msg rest ih =>
    cases rest with
    | nil => simp [shown, StaysOpen]
    | cons next rest =>
      rw [shown, StaysOpen, ← ih]
      cases (receive server msg).2 <;> simp

/-- Nothing is shown to a server that has closed the connection. -/
theorem shown_append (server : σ) (first second : List WireMessage)
    : shown receive server (first ++ second)
      = shown receive server first
        ++ if (serve receive server first).2 then []
          else shown receive (serve receive server first).1 second := by
  induction first generalizing server with
  | nil => rfl
  | cons msg rest ih =>
    simp only [cons_append, shown, serve]
    split_ifs <;> simp_all

theorem serve_append (server : σ) (first second : List WireMessage)
    : serve receive server (first ++ second)
      = if (serve receive server first).2 then serve receive server first
        else serve receive (serve receive server first).1 second := by
  induction first generalizing server with
  | nil => rfl
  | cons msg rest ih =>
    simp only [cons_append, serve]
    split_ifs <;> simp_all

/-! Handing up. -/

variable {receive : Receive σ} {connection : BFCPTcpConnection σ}

theorem handUpFor_finished (finished : connection.finished = true) (rounds : Nat)
    : handUpFor medkit receive rounds connection = connection := by
  cases rounds with
  | zero => rfl
  | succ rounds => simp [handUpFor, finished]

/-- A round without a whole message at the front of the buffer. -/
theorem handUpFor_waiting {rounds : Nat} (running : connection.finished = false)
    (waits : (framing medkit).next connection.incoming = none)
    (left : Acceptable medkit connection.incoming)
    : handUpFor medkit receive rounds connection = connection := by
  cases rounds with
  | zero => rfl
  | succ rounds =>
    simp only [handUpFor, running, Bool.false_or, decide_eq_true_eq]
    by_cases header : connection.incoming.length < headerLen
    · rw [if_pos header]
    · have small := left (not_lt.mp header)
      have short := (next_eq_none waits).resolve_left header
      rw [if_neg header, if_neg (not_lt.mpr small), if_pos short]

/-- One round with a whole message at the front of the buffer. -/
theorem handUpFor_message {rounds : Nat} {frame rest : List BYTE}
    (running : connection.finished = false)
    (taken : (framing medkit).next connection.incoming = some (frame, rest))
    (parsed : WireMessage.parse medkit frame = .value msg) (small : frame.length ≤ maxMessageLen)
    : handUpFor medkit receive (rounds + 1) connection
      = handUpFor medkit receive rounds
          (messageReceived receive { connection with incoming := rest } msg) := by
  have size := length_of_next taken
  obtain ⟨header, enough, rfl, rfl⟩ := next_eq_some taken
  rw [size] at small
  simp only [handUpFor, running, Bool.false_or, decide_eq_true_eq]
  rw [if_neg (not_lt.mpr header), if_neg (not_lt.mpr small), if_neg (not_lt.mpr enough)]
  simp only [parsed]

/-- The server has been shown some messages, and unless it has closed the connection at one of them
the octets behind them are kept.
-/
structure Serves (receive : Receive σ) (connection : BFCPTcpConnection σ) (msgs : List WireMessage)
    (left : List BYTE) (after : BFCPTcpConnection σ) : Prop where
  handedUp : after.handedUp = connection.handedUp ++ shown receive connection.server msgs
  state : serve receive connection.server msgs = (after.server, after.finished)
  kept : after.finished = false → after.incoming = left

section Serves

variable {first second : List WireMessage} {left later : List BYTE}
  {middle after : BFCPTcpConnection σ}

theorem Serves.closed (served : Serves receive connection first left middle)
    (closed : middle.finished = true)
    : Serves receive connection (first ++ second) later middle where
  handedUp := by
    rw [shown_append, served.state, if_pos closed, append_nil]
    exact served.handedUp
  state := by
    rw [serve_append, served.state, if_pos closed]
  kept running := absurd closed (Bool.eq_false_iff.mp running)

theorem Serves.append (served : Serves receive connection first left middle)
    (running : middle.finished = false) (next : Serves receive middle second later after)
    : Serves receive connection (first ++ second) later after where
  handedUp := by
    rw [shown_append, served.state, if_neg (Bool.eq_false_iff.mp running), ← append_assoc,
      ← served.handedUp]
    exact next.handedUp
  state := by
    rw [serve_append, served.state, if_neg (Bool.eq_false_iff.mp running)]
    exact next.state
  kept := next.kept

theorem serves_nothing (running : connection.finished = false)
    : Serves receive connection [] connection.incoming connection where
  handedUp := (append_nil _).symm
  state := by rw [running, serve]
  kept _ := rfl

theorem serves_message (running : connection.finished = false)
    : Serves receive connection [msg] left
        (messageReceived receive { connection with incoming := left } msg) where
  handedUp := by
    rw [shown, shown, ite_self]
    rfl
  state := by
    simp only [serve, messageReceived, running, Bool.false_or]
    split <;> simp_all
  kept _ := rfl

end Serves

/-- The whole messages of the buffer are handed up in order, and the rest is kept. -/
theorem handUpFor_messages {entries : List (List BYTE × WireMessage)}
    {connection : BFCPTcpConnection σ} {rounds : Nat} (running : connection.finished = false)
    (frames : ((framing medkit).split connection.incoming).1 = entries.map Prod.fst)
    (each : ∀ entry ∈ entries, IsMessage medkit entry.1 entry.2)
    (left : Acceptable medkit ((framing medkit).split connection.incoming).2)
    (enough : connection.incoming.length < rounds)
    : Serves receive connection (entries.map Prod.snd)
        ((framing medkit).split connection.incoming).2
        (handUpFor medkit receive rounds connection) := by
  induction entries generalizing connection rounds with
  | nil =>
    have waits := next_of_split_nil frames
    rw [split_of_none waits] at left ⊢
    rw [handUpFor_waiting running waits left]
    exact serves_nothing running
  | cons entry rest ih =>
    rw [forall_mem_cons] at each
    obtain ⟨behind, taken, others⟩ := next_of_split_cons frames
    obtain ⟨rounds, rfl⟩ : ∃ fewer, rounds = fewer + 1 := ⟨rounds - 1, by omega⟩
    rw [congrArg Prod.snd (split_of_some taken)] at left ⊢
    rw [handUpFor_message running taken each.1.parsed each.1.small]
    have served := @serves_message σ entry.2 receive connection behind running
    have shorter := (framing medkit).shorter taken
    generalize messageReceived receive { connection with incoming := behind } entry.2 = middle
      at served ⊢
    cases ends : middle.finished with
    | true =>
      rw [handUpFor_finished ends]
      exact served.closed ends
    | false =>
      have same := served.kept ends
      rw [← same] at others left ⊢
      exact served.append ends (ih ends others each.2 left (by rw [same]; omega))

/-- A header that announces too much would show in the stream as a whole. -/
theorem Acceptable.of_append {buffer more : List BYTE}
    (each : ∀ frame ∈ ((framing medkit).split (buffer ++ more)).1, frame.length ≤ maxMessageLen)
    (left : Acceptable medkit ((framing medkit).split (buffer ++ more)).2)
    : Acceptable medkit buffer := by
  intro header
  rw [← announcedLen_append medkit more header]
  cases taken : (framing medkit).next (buffer ++ more) with
  | none =>
    rw [split_of_none taken] at left
    exact left (by rw [length_append]; omega)
  | some entry =>
    rw [split_of_some taken] at each
    rw [← length_of_next taken]
    exact each entry.1 mem_cons_self

/-- The readable events of a stream one after the other, all but the last one of it. -/
def read (medkit : Medkit) (receive : Receive σ) (connection : BFCPTcpConnection σ)
    (events : List (List (List BYTE))) : BFCPTcpConnection σ :=
  run (fun connection chunks => connection.onReadable medkit receive chunks .wouldBlock)
    connection events

theorem read_finished {connection : BFCPTcpConnection σ} (finished : connection.finished = true)
    (events : List (List (List BYTE)))
    : read medkit receive connection events = connection := by
  induction events with
  | nil => rfl
  | cons chunks rest ih =>
    have same : connection.onReadable medkit receive chunks .wouldBlock = connection := by
      rw [onReadable, if_pos finished]
    rw [read, run_cons, same]
    exact ih

/-- However the octets are cut, the messages that are complete in them are handed up. -/
theorem read_messages {events : List (List (List BYTE))}
    {entries : List (List BYTE × WireMessage)} {connection : BFCPTcpConnection σ}
    (running : connection.finished = false)
    (frames
      : ((framing medkit).split (connection.incoming ++ events.flatten.flatten)).1
        = entries.map Prod.fst)
    (each : ∀ entry ∈ entries, IsMessage medkit entry.1 entry.2)
    (left
      : Acceptable medkit
          ((framing medkit).split (connection.incoming ++ events.flatten.flatten)).2)
    (waits : (framing medkit).next connection.incoming = none)
    : Serves receive connection (entries.map Prod.snd)
        ((framing medkit).split (connection.incoming ++ events.flatten.flatten)).2
        (read medkit receive connection events) := by
  induction events generalizing connection entries with
  | nil =>
    simp only [flatten_nil, append_nil, split_of_none waits] at frames ⊢
    obtain rfl : entries = [] := map_eq_nil_iff.mp frames.symm
    exact serves_nothing running
  | cons chunks rest ih =>
    rw [flatten_cons, flatten_append, ← append_assoc] at frames left ⊢
    generalize more : rest.flatten.flatten = later at frames left ⊢
    generalize buffer : connection.incoming ++ chunks.flatten = now at frames left ⊢
    rw [split_append] at frames left ⊢
    obtain ⟨first, second, rfl, firstFrames, secondFrames⟩ :=
      map_eq_append_iff.mp frames.symm
    rw [forall_mem_append] at each
    have soFar : Acceptable medkit ((framing medkit).split now).2 := by
      refine @Acceptable.of_append medkit _ later ?_ left
      rw [← secondFrames]
      exact forall_mem_map.mpr (fun entry member => (each.2 entry member).small)
    have served : Serves receive connection (first.map Prod.snd) ((framing medkit).split now).2
        (connection.onReadable medkit receive chunks .wouldBlock) := by
      rw [onReadable, if_neg (by simp [running])]
      dsimp only
      rw [buffer, handUp]
      obtain ⟨handedUp, state, kept⟩ := @handUpFor_messages σ medkit receive first
        { connection with incoming := now } _ running firstFrames.symm each.1 soFar
        (Nat.lt_succ_self _)
      exact ⟨handedUp, state, kept⟩
    rw [read, run_cons, map_append]
    generalize connection.onReadable medkit receive chunks .wouldBlock = middle at served ⊢
    cases ends : middle.finished with
    | true =>
      have stopped := @read_finished σ medkit receive middle ends rest
      rw [read] at stopped
      rw [stopped]
      exact served.closed ends
    | false =>
      have same := served.kept ends
      have done := @ih second middle ends (by rw [same, more]; exact secondFrames.symm) each.2
        (by rw [same, more]; exact left) (by rw [same]; exact next_split now)
      rw [same, more] at done
      exact served.append ends done

/-! Whole connections. -/

/-- The messages of a stream that are complete in its first octets. -/
def completeIn : List (List BYTE × WireMessage) → Nat → List (List BYTE × WireMessage)
  | [], _ => []
  | entry :: rest, count =>
    if entry.1.length ≤ count then entry :: completeIn rest (count - entry.1.length) else []

theorem completeIn_frames (stream : List (List BYTE × WireMessage)) (count : Nat)
    : (completeIn stream count).map Prod.fst = whole (stream.map Prod.fst) count := by
  induction stream generalizing count with
  | nil => rfl
  | cons entry rest ih =>
    rw [completeIn, map_cons, whole, ← ih]
    split_ifs <;> rfl

theorem completeIn_front (stream : List (List BYTE × WireMessage)) (count : Nat)
    : completeIn stream count <+: stream := by
  induction stream generalizing count with
  | nil => exact nil_prefix
  | cons entry rest ih =>
    rw [completeIn]
    split_ifs
    · exact prefix_cons_inj entry |>.mpr (ih _)
    · exact nil_prefix

/-- A connection that is accepted, read, and closed by its peer in the last event if at all. -/
def hear (medkit : Medkit) (receive : Receive σ) (server : σ) (events : List (List (List BYTE)))
    (closing : Option (List (List BYTE))) : BFCPTcpConnection σ :=
  closing.elim (read medkit receive { server } events)
    (fun chunks => (read medkit receive { server } events).onReadable medkit receive chunks
      .peerClosed)

theorem onReadable_peerClosed (connection : BFCPTcpConnection σ) (chunks : List (List BYTE))
    : (connection.onReadable medkit receive chunks .peerClosed).handedUp
      = connection.handedUp := by
  rw [onReadable]
  split_ifs <;> rfl

section Stream

variable {stream : List (List BYTE × WireMessage)}

/-- What a piece of the stream holds, and that the connection takes all of it. -/
theorem split_stream (wellFormed : ∀ entry ∈ stream, IsMessage medkit entry.1 entry.2)
    {piece : List BYTE} (front : piece <+: (stream.map Prod.fst).flatten)
    : ((framing medkit).split piece).1 = (completeIn stream piece.length).map Prod.fst
      ∧ Acceptable medkit ((framing medkit).split piece).2 := by
  have frames : ∀ frame ∈ stream.map Prod.fst, (framing medkit).IsFrame frame :=
    forall_mem_map.mpr (fun entry member => (wellFormed entry member).frame)
  refine ⟨?_, ?_⟩
  · rw [completeIn_frames]
    exact split_prefix frames front
  · obtain ⟨missing, whole⟩ := front
    have all := split_flatten frames
    rw [← whole, split_append, Prod.mk.injEq] at all
    refine @Acceptable.of_append medkit _ missing ?_ ?_
    · intro frame member
      have ofStream : frame ∈ stream.map Prod.fst := by
        rw [← all.1]
        exact mem_append_right _ member
      obtain ⟨entry, known, rfl⟩ := mem_map.mp ofStream
      exact (wellFormed entry known).small
    · rw [all.2]
      exact fun header => absurd header (by decide)

/-- The events before the last one hand up what is complete in their octets. -/
theorem read_stream (receive : Receive σ) (server : σ)
    (wellFormed : ∀ entry ∈ stream, IsMessage medkit entry.1 entry.2)
    {events : List (List (List BYTE))}
    (front : events.flatten.flatten <+: (stream.map Prod.fst).flatten)
    : Serves receive { server }
        ((completeIn stream events.flatten.flatten.length).map Prod.snd)
        ((framing medkit).split events.flatten.flatten).2
        (read medkit receive { server } events) := by
  obtain ⟨frames, left⟩ := split_stream wellFormed front
  have each : ∀ entry ∈ completeIn stream events.flatten.flatten.length,
      IsMessage medkit entry.1 entry.2 :=
    fun entry member => wellFormed entry ((completeIn_front _ _).subset member)
  exact @read_messages σ medkit receive events _ { server } rfl frames each left next_nil

/-- What a longer piece of the stream holds beside what the shorter one does. -/
theorem completeIn_append (wellFormed : ∀ entry ∈ stream, IsMessage medkit entry.1 entry.2)
    {piece more : List BYTE} (front : piece ++ more <+: (stream.map Prod.fst).flatten)
    : ∃ extra, completeIn stream (piece ++ more).length = completeIn stream piece.length ++ extra
      ∧ ((framing medkit).split (((framing medkit).split piece).2 ++ more)).1
        = extra.map Prod.fst := by
  obtain ⟨early, -⟩ := split_stream wellFormed ((prefix_append _ _).trans front)
  obtain ⟨frames, -⟩ := split_stream wellFormed front
  rw [split_append, early] at frames
  have sizes := congrArg List.length frames
  simp only [length_append, length_map] at sizes
  obtain ⟨extra, whole⟩ := prefix_of_prefix_length_le (completeIn_front stream piece.length)
    (completeIn_front stream (piece ++ more).length) (by rw [length_append]; omega)
  refine ⟨extra, whole.symm, ?_⟩
  rw [← whole, map_append] at frames
  exact append_cancel_left frames

/-- However a stream of messages is cut, and whether its peer closes it or not, the messages
that are complete in it are handed up once and in order, exactly when the server closes the
connection at none but the last of them and the event that sees the end of the stream finds no
complete message to hand up.
-/
theorem messages_handed_up_once_iff (medkit : Medkit) (receive : Receive σ) (server : σ)
    (wellFormed : ∀ entry ∈ stream, IsMessage medkit entry.1 entry.2)
    {events : List (List (List BYTE))} {closing : Option (List (List BYTE))}
    (front : (events ++ closing.toList).flatten.flatten <+: (stream.map Prod.fst).flatten)
    : let complete :=
        (completeIn stream (events ++ closing.toList).flatten.flatten.length).map Prod.snd
      (hear medkit receive server events closing).handedUp = complete
      ↔ StaysOpen receive server complete
        ∧ ∀ chunks ∈ closing,
            let connection := read medkit receive { server } events
            connection.finished = true
            ∨ (framing medkit).next (connection.incoming ++ chunks.flatten) = none := by
  dsimp only
  rw [← shown_eq_self_iff]
  cases closing with
  | none =>
    simp only [Option.toList_none, append_nil] at front ⊢
    rw [hear, Option.elim_none, (read_stream receive server wellFormed front).handedUp, nil_append]
    exact (and_iff_left nofun).symm
  | some chunks =>
    simp only [Option.toList_some, flatten_append, flatten_singleton] at front ⊢
    obtain ⟨extra, more, behind⟩ := completeIn_append wellFormed front
    have served := read_stream receive server wellFormed ((prefix_append _ _).trans front)
    rw [hear, Option.elim_some, onReadable_peerClosed, served.handedUp, nil_append, more,
      map_append]
    simp only [Option.mem_some, forall_eq']
    generalize (completeIn stream events.flatten.flatten.length).map Prod.snd = early at served ⊢
    constructor
    · -- the messages shown are among the early ones, so that the last event completed none
      intro same
      have none : extra.map Prod.snd = [] := by
        have short := (@shown_front σ receive server early).length_le
        rw [same, length_append] at short
        exact length_eq_zero_iff.mp (by omega)
      rw [none, append_nil] at same ⊢
      refine ⟨same, ?_⟩
      rw [map_eq_nil_iff.mp none] at behind
      cases running : (read medkit receive { server } events).finished with
      | true => exact .inl rfl
      | false => exact .inr (served.kept running ▸ next_of_split_nil behind)
    · rintro ⟨all, waits⟩
      cases running : (read medkit receive { server } events).finished with
      | true => rwa [shown_append, served.state, if_pos running, append_nil] at all
      | false =>
        have none := waits.resolve_left (Bool.eq_false_iff.mp running)
        rw [served.kept running] at none
        rw [split_of_none none] at behind
        rwa [map_eq_nil_iff.mp behind.symm, map_nil, append_nil] at all ⊢

end Stream

/-- A server that counts the messages and closes no connection. -/
def tally : Receive Nat := fun count _ => (count + 1, false)

def helloOctets : List BYTE := [0x20, 11, 0, 0, 0, 0, 0, 5, 0, 7, 0, 30]

def helloMessage : WireMessage :=
  { attributes := .hello, transactionId := 7, conferenceId := 5, userId := 30 }

theorem hello_isMessage : IsMessage Medkit.bigEndian helloOctets helloMessage where
  frame := by
    rw [Framing.IsFrame]
    decide +kernel
  parsed := by decide +kernel
  small := by decide +kernel

/-- Two messages in three pieces, and the close in an event of its own. -/
theorem messages_handed_up_once_hello
    : (hear Medkit.bigEndian tally 0
          [[helloOctets.take 5], [helloOctets.drop 5 ++ helloOctets.take 3, helloOctets.drop 3]]
          (some [])).handedUp
      = [helloMessage, helloMessage] := by
  have each : ∀ entry ∈ [(helloOctets, helloMessage), (helloOctets, helloMessage)],
      IsMessage Medkit.bigEndian entry.1 entry.2 :=
    forall_mem_cons.mpr
      ⟨hello_isMessage, forall_mem_cons.mpr ⟨hello_isMessage, by simp⟩⟩
  have heard := (@messages_handed_up_once_iff Nat _ Medkit.bigEndian tally 0 each
    [[helloOctets.take 5], [helloOctets.drop 5 ++ helloOctets.take 3, helloOctets.drop 3]]
    (some []) (by decide +kernel)).mpr
  rw [heard]
  · decide +kernel
  · refine ⟨⟨rfl, trivial⟩, ?_⟩
    rintro chunks ⟨⟩
    exact .inr (by decide +kernel)

/-- A message and the close that are seen in one event: the message is lost. -/
theorem message_lost_at_close
    : IsMessage Medkit.bigEndian helloOctets helloMessage
      ∧ (hear Medkit.bigEndian tally 0 [] (some [helloOctets])).handedUp = []
      ∧ (hear Medkit.bigEndian tally 0 [[helloOctets]] (some [])).handedUp = [helloMessage] := by
  exact ⟨hello_isMessage, by decide +kernel, by decide +kernel⟩

/-! What a peer can make the server keep. -/

/-- The connection is given up, or less than one message of the largest size is kept. -/
def Bounded (connection : BFCPTcpConnection σ) : Prop :=
  connection.finished = true ∨ connection.incoming.length < maxMessageLen

theorem handUpFor_bounded {rounds : Nat} {connection : BFCPTcpConnection σ}
    (enough : connection.incoming.length < rounds)
    : (handUpFor medkit receive rounds connection).Bounded := by
  induction rounds generalizing connection with
  | zero => cases enough
  | succ rounds ih =>
    simp only [handUpFor]
    split_ifs with waits large short
    · rw [Bool.or_eq_true, decide_eq_true_eq] at waits
      exact waits.imp_right fun short => short.trans (by decide)
    · exact .inl rfl
    · exact .inr (short.trans_le (not_lt.mp large))
    · split
      · exact .inl rfl
      · exact .inl rfl
      · refine ih ?_
        simp only [messageReceived, length_drop, announcedLen, headerLen] at enough short ⊢
        omega

/-- However much a peer sends, what is kept of it stays below the size of the largest message. -/
theorem kept_octets_bounded (server : σ) (events : List (List (List BYTE) × RecvEnd))
    : (run (fun connection event => onReadable medkit receive connection event.1 event.2)
        ({ server } : BFCPTcpConnection σ) events).Bounded := by
  refine run_invariant (fun connection event before => ?_) (.inr (Nat.zero_lt_succ _)) events
  rw [onReadable]
  split_ifs
  · exact before
  · cases event.2 with
    | wouldBlock => exact handUpFor_bounded (Nat.lt_succ_self _)
    | peerClosed | failed => exact .inl rfl

end BFCPTcpConnection

end MediaServer.Bfcp
