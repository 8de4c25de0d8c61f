import MediaServer.Bfcp.FloorControl

/-! The transactions that the server starts over unreliable transports: each one takes the next
number of one counter, whoever it is for.
-/

namespace MediaServer.Bfcp

open Foundation

/-- The numbers that a counter of 16 bits without zero gives out one after the other. -/
def issued : Nat → Nat → List Int
  | _, 0 => []
  | counter, count + 1 => ↑(counter % 0xFFFF + 1) :: issued (counter % 0xFFFF + 1) count

def counted : Nat → Nat → Nat
  | counter, 0 => counter
  | counter, count + 1 => counted (counter % 0xFFFF + 1) count

theorem counted_add (counter first second : Nat)
    : counted counter (first + second) = counted (counted counter first) second := by
  induction first generalizing counter with
  | zero => rw [Nat.zero_add, counted]
  | succ first ih =>
    rw [Nat.succ_add, counted, counted, ih]

theorem issued_add (counter first second : Nat)
    : issued counter (first + second)
      = issued counter first ++ issued (counted counter first) second := by
  induction first generalizing counter with
  | zero => rw [Nat.zero_add, issued, counted, List.nil_append]
  | succ first ih => rw [Nat.succ_add, issued, issued, counted, ih, List.cons_append]

namespace Turn

variable (turn : Turn)

/-- The transactions started so far towards peers that have to acknowledge them. -/
def started : List Int :=
  (turn.sent.filter (fun entry => !entry.1.isReliable && !entry.2.responder)).map
    (fun entry => entry.2.transactionId)

/-- Every transaction started in between took the next number. -/
structure Numbers (before after : Turn) : Prop where
  numbers
    : ∃ count, after.server.transactionCounter
        = counted before.server.transactionCounter count
      ∧ after.started = before.started ++ issued before.server.transactionCounter count

namespace Numbers

theorem of_silent {before after : Turn}
    (counter : after.server.transactionCounter = before.server.transactionCounter)
    (sent : after.started = before.started)
    : Numbers before after :=
  ⟨0, counter, by rw [sent, issued, List.append_nil]⟩

theorem refl (turn : Turn) : Numbers turn turn := of_silent rfl rfl

theorem trans {first second third : Turn} (left : Numbers first second)
    (right : Numbers second third)
    : Numbers first third := by
  obtain ⟨count, counter, sent⟩ := left
  obtain ⟨others, last, more⟩ := right
  refine ⟨count + others, by rw [last, counter, counted_add], ?_⟩
  rw [more, sent, counter, issued_add, List.append_assoc]

theorem change {first second third : Turn} (left : Numbers first second)
    (counter : third.server.transactionCounter = second.server.transactionCounter)
    (sent : third.started = second.started)
    : Numbers first third :=
  left.trans (.of_silent counter sent)

end Numbers

/-- An answer carries the number of its request, and a reliable transport needs none. -/
theorem send_silent {target : Option BFCPTransport} {msg : BFCPMessage}
    (silent : ∀ transport, target = some transport → transport.isReliable ∨ msg.responder)
    : Numbers turn (turn.send target msg) := by
  cases target with
  | none => exact .refl turn
  | some transport =>
    refine .of_silent rfl ?_
    rcases silent transport rfl with reliable | responder
    · simp [started, send, reliable]
    · simp [started, send, responder]

/-- A message under the next number, to a peer that has to acknowledge it. -/
theorem send_numbered {transport : BFCPTransport} {msg : BFCPMessage}
    (unreliable : transport.isReliable = false) (started : msg.responder = false)
    (number : msg.transactionId = turn.nextTransactionId.2)
    : Numbers turn (turn.nextTransactionId.1.send (some transport) msg) := by
  refine ⟨1, rfl, ?_⟩
  simp [Turn.started, send, unreliable, started, number, nextTransactionId, issued]

/-- A notification to a user: under the next number if the user is unreliable. -/
theorem notification_numbers (user : BFCPUser) {msg : Turn → Int → BFCPMessage}
    (number : ∀ turn id, (msg turn id).transactionId = id)
    (notification : ∀ turn id, (msg turn id).responder = false)
    : Numbers turn
        ((turn.notificationTransactionId (some user)).1.send user.transport
          (msg (turn.notificationTransactionId (some user)).1
            (turn.notificationTransactionId (some user)).2)) := by
  simp only [notificationTransactionId]
  split_ifs with reliable
  · refine send_silent turn ?_
    intro transport own
    exact .inl (by simpa [BFCPUser.isReliable, own] using reliable)
  · cases own : user.transport with
    | none => simp [BFCPUser.isReliable, own] at reliable
    | some transport =>
      refine send_numbered turn ?_ (notification _ _) (number _ _)
      simpa [BFCPUser.isReliable, own] using reliable

variable {answering : Prop} {before after : Turn}

theorem Says.numbers (speech : Says answering before after) : Numbers before after := by
  cases speech with
  | notice user msg number unsolicited => exact notification_numbers before user number unsolicited
  | answer _ target msg response => exact send_silent before (by simp [response])

theorem Talks.numbers (talks : Talks answering before after) : Numbers before after := by
  induction talks with
  | refl => exact .refl before
  | tail _ speech ih => exact ih.trans speech.numbers

theorem Ending.numbers {touched : BFCPFloorRequest → Prop}
    (ending : Ending answering touched before after)
    : Numbers before after := by
  cases ending with
  | speaks speech => exact speech.numbers
  | @erases middle id request status _ _ _ told =>
    have stored : Numbers before
        { before with server := before.server.setStatus id request status } :=
      .of_silent rfl rfl
    exact (stored.trans told.numbers).change rfl rfl

theorem Granting.numbers {id : Int} {request : BFCPFloorRequest}
    (granting : Granting answering id request before after)
    : Numbers before after := by
  obtain ⟨accepted, granted, first, second, rfl⟩ := granting
  have stored (turn : Turn) (status : Status)
      : Numbers turn { turn with server := turn.server.setStatus id request status } :=
    .of_silent rfl rfl
  have left := (stored before .accepted).trans first.numbers
  have right := (stored accepted .granted).trans second.numbers
  exact (left.trans right).change rfl rfl

theorem numbers_closed (answering : Prop)
    : Closed answering (fun _ => True) (fun _ => True) (fun _ => True) Numbers where
  refl := .refl
  trans := .trans
  ending := Ending.numbers
  users := fun _ same => .of_silent (by rw [same]) (by rw [same]; rfl)
  greets := fun _ _ => .of_silent rfl rfl
  stores := fun _ _ _ _ => .of_silent rfl rfl
  grants := fun id _ all => grantFloorRequestLocked_related answering .refl .trans
    Ending.numbers (fun _ _ granting => granting.numbers) all _ id

theorem endConference_numbers : Numbers turn turn.endConference := by
  have closed := numbers_closed False
  simp only [endConference]
  split
  · exact .refl turn
  · have ending : Numbers turn { turn with server := { turn.server with ending := true } } :=
      .of_silent rfl rfl
    have ends (turn : Turn) (id : Int)
        : Numbers turn (turn.endFloorRequest "conference ended" id) :=
      closed.ends (endFloorRequest_ends _ fun _ _ => trivial)
    have ended := ending.trans (closed.foldl ends turn.server.floorRequests.keys _)
    refine ((ended.change ?_ ?_).trans (closed.foldl closed.farewell _ _)).change rfl rfl
    all_goals rfl

/-- Every operation numbers the transactions it starts one after the other. -/
theorem apply_numbers (op : Op) : Numbers turn (turn.apply op) := by
  cases op with
  | addUser userId =>
    simp only [apply, addUser]
    split_ifs <;> exact .of_silent rfl rfl
  | addFloor floorId =>
    simp only [apply, addFloor]
    split_ifs <;> exact .of_silent rfl rfl
  | endConference => exact endConference_numbers turn
  | _ =>
    exact @apply_preserves turn _ (Numbers turn)
      (fun _ _ act numbers => numbers.trans ((numbers_closed True).act act trivial))
      (fun _ _ _ _ _ numbers => numbers.change rfl rfl) (.refl turn) trivial

end Turn

end MediaServer.Bfcp
