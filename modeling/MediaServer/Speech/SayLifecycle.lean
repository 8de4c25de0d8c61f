import MediaServer.Foundation.Runs
import MediaServer.Speech.Synthesizer
import Mathlib.Data.List.Nodup

/-! Every say ends exactly once: it waits in the queue, is held, has phrases at the server and
is done, and it is in one of these places at a time.
-/

namespace MediaServer.Speech

open Foundation Posted OrderedMap Desk Synthesizer List Option

def Posted.isStarted (id : Nat) : Posted → Bool
  | .started sayId _ => sayId = id
  | _ => false

def Posted.isDone (id : Nat) : Posted → Bool
  | .done sayId _ _ => sayId = id
  | _ => false

theorem Posted.isStarted_self (id : Nat) (cause : Nat × Int)
    : (started id cause).isStarted id = true :=
  decide_eq_true rfl

theorem Posted.isDone_self (id : Nat) (interrupted : Bool) (cause : Option (Nat × Int))
    : (done id interrupted cause).isDone id = true :=
  decide_eq_true rfl

def StartsBeforeDone (id : Nat) (posted : List Posted) : Prop :=
  ∀ before event after, posted = before ++ event :: after → event.isStarted id
    → before.countP (Posted.isDone id) = 0

variable {posted : List Posted}

theorem StartsBeforeDone.append {id : Nat} (ordered : StartsBeforeDone id posted) {event : Posted}
    (early : event.isStarted id → posted.countP (isDone id) = 0)
    : StartsBeforeDone id (posted ++ [event]) := by
  intro before other after isPosted starts
  rcases concat_split_cons isPosted with ⟨rfl, rfl, -⟩ | ⟨front, -, isFront⟩
  · exact early starts
  · exact ordered before other front isFront starts

theorem StartsBeforeDone.append_others {id : Nat} (ordered : StartsBeforeDone id posted)
    {more : List Posted} (others : ∀ event ∈ more, event.isStarted id = false)
    : StartsBeforeDone id (posted ++ more) := by
  induction more generalizing posted with
  | nil =>
    rw [append_nil]
    exact ordered
  | cons event rest ih =>
    obtain ⟨first, later⟩ := forall_mem_cons.mp others
    rw [← singleton_append, ← append_assoc]
    refine ih (ordered.append (fun starts => ?_)) later
    rw [first] at starts
    cases starts

def waiting (id : Nat) (queue : List (Nat × Text)) : Nat :=
  queue.countP (fun say => say.1 = id)

theorem waiting_eq_zero_iff {id : Nat} {queue : List (Nat × Text)}
    : waiting id queue = 0 ↔ id ∉ queue.map Prod.fst := by
  simp only [waiting, countP_eq_zero, decide_eq_true_iff, List.mem_map, not_exists,
    not_and]

/-- Whether a say has phrases at the server that are not done. -/
def Synthesizer.counted (synth : Synthesizer) (id : Nat) : Nat :=
  if (synth.remaining.find? id).isSome then 1 else 0

variable {synth : Synthesizer}

theorem Synthesizer.counted_eq_zero_iff {id : Nat}
    : synth.counted id = 0 ↔ id ∉ synth.remaining.keys := by
  rw [counted, OrderedMap.mem_keys]
  split_ifs with found <;> simp [found]

def Synthesizer.Numbered (synth : Synthesizer) : Prop :=
  ∀ key ∈ synth.owners.keys, key < synth.nextPhraseId

structure Life (id places : Nat) (queue : List (Nat × Text)) (synth : Synthesizer)
    (posted : List Posted) : Prop where
  single
    : waiting id queue + waiting id synth.held + synth.counted id
      + posted.countP (Posted.isDone id) = places
  phrases
    : (synth.owners.entries.countP (fun entry => entry.2 = id) : Int)
      = (synth.remaining.find? id).getD 0
  positive : ∀ left, synth.remaining.find? id = some left → 0 < left
  started : id ∈ synth.started → (synth.remaining.find? id).isSome
  once : posted.countP (Posted.isStarted id) ≤ 1
  begun
    : 0 < posted.countP (Posted.isStarted id)
      → id ∈ synth.started ∨ 0 < posted.countP (Posted.isDone id)
  ordered : StartsBeforeDone id posted
  texts : ∀ say ∈ queue ++ synth.held, say.1 = id → splitPhrases say.2 ≠ []
  numbers : synth.Numbered

namespace Life

variable {φ : Type} {id places : Nat} {queue : List (Nat × Text)} {desk : Desk φ}

theorem count_keys {map : OrderedMap Nat Int} (key : Nat)
    : map.keys.countP (fun other => other = key) = if (map.find? key).isSome then 1 else 0 := by
  have total := map.keys_nodup.count (a := key)
  simp only [OrderedMap.mem_keys] at total
  exact total

/-- Events that do not start the say. -/
theorem tell (life : Life id places queue synth posted) {more : List Posted}
    (others : ∀ event ∈ more, event.isStarted id = false)
    : (posted ++ more).countP (isStarted id) = posted.countP (isStarted id)
      ∧ StartsBeforeDone id (posted ++ more) := by
  have none : more.countP (isStarted id) = 0 :=
    countP_eq_zero.mpr (by simpa using others)
  exact ⟨by rw [countP_append, none, Nat.add_zero], life.ordered.append_others others⟩

/-- The event that ends the say, which was not done. -/
theorem finish (life : Life id places queue synth posted) (notDone : posted.countP (isDone id) = 0)
    (interrupted : Bool) (cause : Option (Nat × Int))
    : (posted ++ [Posted.done id interrupted cause]).countP (isDone id) = 1
      ∧ (posted ++ [Posted.done id interrupted cause]).countP (isStarted id) ≤ 1
      ∧ StartsBeforeDone id (posted ++ [.done id interrupted cause]) := by
  obtain ⟨starts, ordered⟩ := life.tell (forall_mem_singleton.mpr
    (rfl : (Posted.done id interrupted cause).isStarted id = false))
  refine ⟨?_, starts.trans_le life.once, ordered⟩
  rw [countP_append, notDone, countP_singleton, isDone_self]
  rfl

theorem notBegun (life : Life id places queue synth posted) (notStarted : id ∉ synth.started)
    (notDone : posted.countP (isDone id) = 0) : posted.countP (isStarted id) = 0 := by
  by_contra begun
  rcases life.begun (Nat.pos_of_ne_zero begun) with member | isDone
  · exact notStarted member
  · omega

theorem interruptAll (life : Life id places queue desk.synth desk.posted)
    : Life id places queue desk.interruptAll.synth desk.interruptAll.posted := by
  have done : (desk.synth.remaining.keys.map (fun sayId => Posted.done sayId true none)).countP
      (isDone id) = desk.synth.counted id := by
    rw [countP_map]
    exact count_keys id
  obtain ⟨starts, ordered⟩ := life.tell (forall_mem_map.mpr fun sayId _ =>
    (rfl : (Posted.done sayId true none).isStarted id = false))
  have single := life.single
  refine ⟨?_, rfl, nofun, fun member => absurd member (Finset.notMem_empty id),
    starts.trans_le life.once, fun isBegun => .inr ?_, ordered, life.texts, nofun⟩
  · show waiting id queue + waiting id desk.synth.held + 0 + _ = places
    rw [Desk.interruptAll, countP_append, done]
    omega
  · rw [Desk.interruptAll, countP_append, done]
    rcases life.begun (isBegun.trans_eq starts) with member | isDone
    · rw [counted, if_pos (life.started member)]
      omega
    · omega

theorem dropHeld (life : Life id places queue desk.synth desk.posted) (real : id ≠ 0)
    : Life id places queue desk.dropHeld.synth desk.dropHeld.posted := by
  have done : ((desk.synth.held.filter (fun say => say.1 ≠ 0)).map
      (fun say => Posted.done say.1 true none)).countP (isDone id)
      = waiting id desk.synth.held := by
    rw [countP_map, countP_filter, waiting]
    refine countP_congr (fun say _ => ?_)
    simp only [Function.comp_apply, isDone, Bool.and_eq_true, decide_eq_true_eq]
    exact and_iff_left_of_imp (fun same => same ▸ real)
  obtain ⟨starts, ordered⟩ := life.tell (forall_mem_map.mpr fun (say : Nat × Text) _ =>
    (rfl : (Posted.done say.1 true none).isStarted id = false))
  have single := life.single
  refine ⟨?_, life.phrases, life.positive, life.started, starts.trans_le life.once,
    fun isBegun => ?_, ordered, ?_, life.numbers⟩
  · show waiting id queue + 0 + desk.synth.counted id + _ = places
    rw [Desk.dropHeld, countP_append, done]
    omega
  · rw [Desk.dropHeld, countP_append]
    exact (life.begun (isBegun.trans_eq starts)).imp_right (fun isDone => by omega)
  · intro say member
    have inside : say ∈ queue := by
      simpa only [Desk.dropHeld, append_nil] using member
    exact life.texts say (mem_append_left _ inside)

/-- Other parts of the synthesizer do not matter, nor do those of other says. -/
theorem of_same {synth other : Synthesizer} (life : Life id places queue synth posted)
    (held : other.held = synth.held)
    (owners
      : other.owners.entries.countP (fun entry => entry.2 = id)
        = synth.owners.entries.countP (fun entry => entry.2 = id))
    (remaining : other.remaining.find? id = synth.remaining.find? id)
    (started : id ∈ other.started ↔ id ∈ synth.started) (numbers : other.Numbered)
    : Life id places queue other posted := by
  refine ⟨?_, ?_, ?_, ?_, life.once, ?_, life.ordered, ?_, numbers⟩
  · rw [counted, held, remaining]
    exact life.single
  · rw [owners, remaining]
    exact life.phrases
  · rw [remaining]
    exact life.positive
  · rw [started, remaining]
    exact life.started
  · rw [started]
    exact life.begun
  · rw [held]
    exact life.texts

/-- An event of something else. -/
theorem post (life : Life id places queue synth posted) {event : Posted}
    (notStarted : event.isStarted id = false) (notDone : event.isDone id = false)
    : Life id places queue synth (posted ++ [event]) := by
  have done : (posted ++ [event]).countP (isDone id) = posted.countP (isDone id) := by
    rw [countP_append, countP_singleton, notDone]
    rfl
  obtain ⟨starts, ordered⟩ := life.tell (forall_mem_singleton.mpr notStarted)
  refine { life with single := ?_, once := starts.trans_le life.once, begun := ?_, ordered }
  · rw [done]
    exact life.single
  · rw [starts, done]
    exact life.begun

section

variable (life : Life id places queue desk.synth desk.posted)
include life

theorem stopSynthesizer (real : id ≠ 0) (calls : FlowCalls φ)
    : Life id places queue (desk.stopSynthesizer calls).synth
        (desk.stopSynthesizer calls).posted := by
  refine Life.dropHeld (Life.interruptAll ?_) real
  exact { life with }

theorem onReady : Life id places queue desk.onReady.synth desk.onReady.posted :=
  { life.interruptAll with numbers := nofun }

theorem onState (real : id ≠ 0) (up : Bool) (reason : String)
    : Life id places queue (desk.onState up reason).synth (desk.onState up reason).posted := by
  unfold Desk.onState
  cases up with
  | true => exact life.post rfl rfl
  | false =>
    let lost : Desk φ :=
      { desk with synth := { desk.synth with streamReady := false, streamDown := true } }
    have down : Life id places queue lost.synth lost.posted :=
      { life with }
    exact (down.interruptAll.dropHeld real).post rfl rfl

end

/-- A say that owns a phrase has phrases that are not done. -/
theorem remaining_of_owner (life : Life id places queue synth posted) {key : Int}
    (owner : synth.owners.find? key = some id)
    : ∃ left, synth.remaining.find? id = some left := by
  have member := find?_eq_some_iff.mp owner
  have some : 0 < synth.owners.entries.countP (fun entry => entry.2 = id) :=
    countP_pos_iff.mpr ⟨_, member, decide_eq_true rfl⟩
  have phrases := life.phrases
  cases found : synth.remaining.find? id with
  | some left => exact ⟨left, rfl⟩
  | none =>
    rw [found, getD_none] at phrases
    omega

/-- While it has such phrases it is neither done nor anywhere else. -/
theorem alone (life : Life id places queue synth posted) (single : places ≤ 1) {left : Int}
    (found : synth.remaining.find? id = some left)
    : waiting id queue = 0 ∧ waiting id synth.held = 0 ∧ synth.counted id = 1
      ∧ posted.countP (isDone id) = 0 := by
  have counted : synth.counted id = 1 := by rw [counted, found]; rfl
  have total := life.single
  omega

theorem numbers_erase (life : Life id places queue synth posted) (number : Int)
    : ∀ key ∈ (synth.owners.erase number).keys, key < synth.nextPhraseId := by
  intro key member
  obtain ⟨entry, inside, isKey⟩ := mem_map.mp member
  rw [mem_erase] at inside
  exact life.numbers key (mem_map.mpr ⟨entry, inside.1, isKey⟩)

section

variable (life : Life id places queue desk.synth desk.posted) (real : id ≠ 0) (single : places ≤ 1)
include life real single

theorem onSay (link : Nat) (number : Int)
    : Life id places queue (desk.onSay link number).synth (desk.onSay link number).posted := by
  unfold Desk.onSay
  cases owner : desk.synth.owners.find? number with
  | none => exact life
  | some sayId =>
    simp only []
    split_ifs with typed known
    · exact life.post (decide_eq_false real.symm) rfl
    · exact life
    · by_cases same : sayId = id
      · rw [same] at owner known ⊢
        obtain ⟨left, found⟩ := life.remaining_of_owner owner
        obtain ⟨-, -, -, notDone⟩ := life.alone single found
        have starts : (desk.posted ++ [Posted.started id (link, number)]).countP
            (isStarted id) = 1 := by
          rw [countP_append, life.notBegun known notDone, countP_singleton, isStarted_self]
          rfl
        have done : (desk.posted ++ [Posted.started id (link, number)]).countP
            (isDone id) = desk.posted.countP (isDone id) := by
          rw [countP_append, countP_singleton]
          rfl
        refine ⟨?_, life.phrases, life.positive, fun _ => ?_, ?_, fun _ => .inl ?_, ?_,
          life.texts, life.numbers⟩
        · rw [done]
          exact life.single
        · exact isSome_of_eq_some found
        · rw [starts]
        · exact Finset.mem_insert_self _ _
        · exact life.ordered.append (fun _ => notDone)
      · have others : Life id places queue desk.synth
            (desk.posted ++ [.started sayId (link, number)]) :=
          life.post (decide_eq_false same) rfl
        refine others.of_same rfl rfl rfl ?_ others.numbers
        exact Finset.mem_insert.trans (or_iff_right (Ne.symm same))

/-- The end of one of its own phrases is the end of the say only where no other is left. -/
theorem onDone_own {link : Nat} {number : Int} (owner : desk.synth.owners.find? number = some id)
    : Life id places queue (desk.onDone link number).synth (desk.onDone link number).posted := by
  have count := countP_erase owner (fun entry => entry.2 = id)
  obtain ⟨left, found⟩ := life.remaining_of_owner owner
  obtain ⟨notQueued, notHeld, counted, notDone⟩ := life.alone single found
  have phrases := life.phrases
  have positive := life.positive left found
  have numbers := life.numbers_erase number
  rw [found, getD_some] at phrases
  rw [if_pos (decide_eq_true rfl)] at count
  rw [Desk.onDone, owner]
  simp only []
  rw [if_neg real, found, getD_some]
  split_ifs with more
  -- other phrases are left: nothing is posted
  · have after : (desk.synth.remaining.insert id (left - 1)).find? id = some (left - 1) := by
      rw [find?_insert, if_pos rfl]
    refine ⟨?_, ?_, ?_, fun _ => ?_, life.once, life.begun, life.ordered, life.texts, numbers⟩
    · simp only [Synthesizer.counted, after, isSome_some, if_true]
      rw [← counted]
      exact life.single
    · simp only [after, getD_some]
      omega
    · simp only [after]
      intro other isOther
      cases isOther
      exact more
    · exact isSome_of_eq_some after
  -- the last phrase: `remaining` gives the say up to the events posted
  · have after : (desk.synth.remaining.erase id).find? id = none := by
      rw [find?_erase, if_pos rfl]
    obtain ⟨done, once, ordered⟩ := life.finish notDone false (some (link, number))
    have total := life.single
    refine ⟨?_, ?_, ?_, fun member => ?_, once, fun _ => .inr ?_, ordered, life.texts, numbers⟩
    · simp only [Synthesizer.counted, after, done, isSome_none, Bool.false_eq_true, if_false]
      omega
    · simp only [after, getD_none]
      omega
    · simp only [after]
      rintro _ ⟨⟩
    · exact absurd member (Finset.notMem_erase _ _)
    · rw [done]
      exact Nat.one_pos

theorem onDone (link : Nat) (number : Int)
    : Life id places queue (desk.onDone link number).synth (desk.onDone link number).posted := by
  cases owner : desk.synth.owners.find? number with
  | none =>
    rw [Desk.onDone, owner]
    exact life
  | some sayId =>
    by_cases same : sayId = id
    · exact life.onDone_own real single (same ▸ owner)
    · have count := countP_erase owner (fun entry => entry.2 = id)
      have numbers := life.numbers_erase number
      rw [if_neg (by simpa using same), Nat.add_zero] at count
      rw [Desk.onDone, owner]
      simp only []
      have different : id ≠ sayId := Ne.symm same
      split_ifs with typed more
      · have others : Life id places queue desk.synth
            (desk.posted ++ [.done 0 false (some (link, number))]) :=
          life.post rfl (decide_eq_false real.symm)
        exact others.of_same rfl count rfl Iff.rfl numbers
      · refine life.of_same rfl count ?_ Iff.rfl numbers
        rw [find?_insert, if_neg different]
      · have others : Life id places queue desk.synth
            (desk.posted ++ [.done sayId false (some (link, number))]) :=
          life.post rfl (decide_eq_false same)
        refine others.of_same rfl count ?_ ?_ numbers
        · rw [find?_erase, if_neg different]
        · exact Finset.mem_erase.trans (and_iff_right different)

theorem hear (notice : Notice)
    : Life id places queue (desk.hear notice).synth (desk.hear notice).posted := by
  cases notice with
  | ready link => exact life.onReady
  | say link number => exact life.onSay real single link number
  | done link number => exact life.onDone real single link number
  | state up reason => exact life.onState real up reason

end

/-- What waits in the queue is held from now on. -/
theorem hold (life : Life id places queue desk.synth desk.posted)
    : Life id places [] (desk.hold queue).synth (desk.hold queue).posted := by
  refine { life with single := ?_, texts := ?_ }
  · have total := life.single
    have joined : waiting id (desk.synth.held ++ queue)
        = waiting id desk.synth.held + waiting id queue := countP_append
    show 0 + waiting id (desk.synth.held ++ queue) + desk.synth.counted id + _ = places
    rw [joined]
    show 0 + _ + _ + desk.posted.countP (isDone id) = places
    omega
  · intro say member
    have inside : say ∈ desk.synth.held ++ queue := member
    refine life.texts say ?_
    rcases mem_append.mp inside with early | late
    · exact mem_append_right _ early
    · exact mem_append_left _ late

theorem push (life : Life id places queue synth posted) (sayId : Nat) {text : Text}
    (any : splitPhrases text ≠ [])
    : Life id (places + if sayId = id then 1 else 0) (queue ++ [(sayId, text)]) synth posted := by
  have longer : waiting id (queue ++ [(sayId, text)])
      = waiting id queue + if sayId = id then 1 else 0 := by
    rw [waiting, countP_append, countP_singleton]
    simp only [decide_eq_true_eq]
    rfl
  have total := life.single
  refine { life with single := ?_, texts := ?_ }
  · rw [longer]
    omega
  · intro say member isOwn
    rw [append_assoc] at member
    rcases mem_append.mp member with old | later
    · exact life.texts say (mem_append_left _ old) isOwn
    · rcases mem_append.mp later with new | held
      · rw [mem_singleton.mp new]
        exact any
      · exact life.texts say (mem_append_right _ held) isOwn

/-- What is typed is held without an id. -/
theorem holdTyped (life : Life id places [] desk.synth desk.posted) (real : id ≠ 0) (text : Text)
    : Life id places [] (desk.hold [(0, text)]).synth (desk.hold [(0, text)]).posted := by
  have none : waiting id [(0, text)] = 0 := by
    rw [waiting, countP_singleton]
    exact if_neg (by simpa using real.symm)
  refine Life.hold { life with single := ?_, texts := ?_ }
  · rw [none]
    exact life.single
  · intro say member
    rcases mem_cons.mp member with isTyped | held
    · rw [isTyped]
      exact fun same => absurd same.symm real
    · exact life.texts say held

end Life

/-- The numbers that a say gets are new. -/
theorem Desk.own_spec (numbers : synth.Numbered) (sayId phrases id : Nat)
    : (Desk.own sayId phrases synth).Numbered
      ∧ (Desk.own sayId phrases synth).owners.entries.countP (fun entry => entry.2 = id)
        = synth.owners.entries.countP (fun entry => entry.2 = id)
          + (if sayId = id then phrases else 0) := by
  induction phrases generalizing synth with
  | zero => exact ⟨numbers, by rw [ite_self]; rfl⟩
  | succ phrases ih =>
    have absent : synth.owners.find? synth.nextPhraseId = none :=
      not_isSome_iff_eq_none.mp fun found =>
        Int.lt_irrefl _ (numbers _ (OrderedMap.mem_keys.mpr found))
    have larger : Synthesizer.Numbered
        { synth with
          owners := synth.owners.insert synth.nextPhraseId sayId
          nextPhraseId := synth.nextPhraseId + 1 } := by
      intro key member
      show key < synth.nextPhraseId + 1
      rcases mem_keys_insert.mp member with same | old
      · omega
      · have below := numbers key old
        omega
    obtain ⟨after, count⟩ := ih larger
    refine ⟨after, count.trans ?_⟩
    have first := countP_insert absent sayId (fun entry => entry.2 = id)
    rw [first]
    by_cases same : sayId = id
    · simp only [same, decide_true, if_true]
      omega
    · simp only [same, decide_false, Bool.false_eq_true, if_false]

theorem Desk.own_others (sayId phrases : Nat) (synth : Synthesizer)
    : (Desk.own sayId phrases synth).held = synth.held
      ∧ (Desk.own sayId phrases synth).remaining = synth.remaining
      ∧ (Desk.own sayId phrases synth).started = synth.started := by
  induction phrases generalizing synth with
  | zero => exact ⟨rfl, rfl, rfl⟩
  | succ phrases ih => exact ih _

namespace Life

variable {φ : Type} {id places : Nat} {desk : Desk φ} {synth : Synthesizer} {posted : List Posted}
  {rest : List (Nat × Text)}

theorem texts_rest {queue : List (Nat × Text)} (life : Life id places queue synth posted)
    {say : Nat × Text} (held : synth.held = say :: rest)
    : ∀ other ∈ [] ++ rest, other.1 = id → splitPhrases other.2 ≠ [] :=
  fun other member => life.texts other (mem_append_right _ (by rw [held]; exact .tail _ member))

/-- Another say is not held any longer. -/
theorem popOther (life : Life id places [] synth posted) {say : Nat × Text}
    (held : synth.held = say :: rest) (other : say.1 ≠ id)
    : Life id places [] { synth with held := rest } posted := by
  have total := life.single
  have same : waiting id synth.held = waiting id rest := by
    rw [held, waiting, countP_cons_of_neg (by simpa using other)]
    rfl
  rw [same] at total
  exact { life with single := total, texts := life.texts_rest held }

section

variable (life : Life id places [] synth posted) (single : places ≤ 1) {text : Text}
include life single

/-- A say at the front of those that are held is nowhere else. -/
theorem front (held : synth.held = (id, text) :: rest)
    : places = 1 ∧ waiting id rest = 0 ∧ synth.remaining.find? id = none
      ∧ posted.countP (isDone id) = 0 ∧ posted.countP (isStarted id) = 0
      ∧ id ∉ synth.started := by
  have total := life.single
  have more : waiting id synth.held = waiting id rest + 1 := by
    rw [held, waiting, countP_cons_of_pos (by simp)]
    rfl
  have absent : synth.remaining.find? id = none := by
    cases found : synth.remaining.find? id with
    | none => rfl
    | some left =>
      obtain ⟨-, nowhere, -⟩ := life.alone single found
      omega
  have notStarted : id ∉ synth.started := by
    intro member
    have impossible := life.started member
    rw [absent] at impossible
    cases impossible
  have notDone : posted.countP (isDone id) = 0 := by omega
  exact ⟨by omega, by omega, absent, notDone, life.notBegun notStarted notDone, notStarted⟩

/-- The phrases of a say are at the server. -/
theorem sent (real : id ≠ 0) {sayId : Nat} (held : synth.held = (sayId, text) :: rest)
    {phrases : Nat} (any : 0 < phrases)
    : Life id places []
        { Desk.count sayId phrases (Desk.own sayId phrases synth) with held := rest } posted := by
  obtain ⟨numbers, owners⟩ := own_spec life.numbers sayId phrases id
  obtain ⟨-, sameRemaining, sameStarted⟩ := own_others sayId phrases synth
  by_cases same : sayId = id
  · rw [same] at held owners numbers sameRemaining sameStarted ⊢
    obtain ⟨one, nowhere, absent, notDone, notBegun, notStarted⟩ := life.front single held
    have after : ((Desk.own id phrases synth).remaining.insert id phrases).find? id
        = some (phrases : Int) := by
      rw [find?_insert, if_pos rfl]
    have before := life.phrases
    rw [absent, getD_none] at before
    rw [if_pos rfl] at owners
    rw [Desk.count, if_neg real]
    refine ⟨?_, ?_, ?_, fun _ => ?_, ?_, ?_, life.ordered, life.texts_rest held, numbers⟩
    · simp only [counted, after, isSome_some, if_true, nowhere, notDone, one]
      rfl
    · simp only [after, getD_some]
      omega
    · simp only [after]
      intro left isLeft
      cases isLeft
      omega
    · exact isSome_of_eq_some after
    · rw [notBegun]
      exact Nat.zero_le 1
    · rw [notBegun]
      exact fun impossible => absurd impossible (Nat.lt_irrefl 0)
  · have popped := life.popOther held same
    rw [if_neg same, Nat.add_zero] at owners
    rw [Desk.count]
    split_ifs with typed
    · refine popped.of_same rfl owners ?_ ?_ numbers
      · rw [sameRemaining]
      · rw [sameStarted]
    · refine popped.of_same rfl owners ?_ ?_ numbers
      · rw [find?_insert, if_neg (Ne.symm same), sameRemaining]
      · rw [sameStarted]

/-- The stream is lost in the middle of a say. -/
theorem cutShort {sayId : Nat} (held : synth.held = (sayId, text) :: rest) (real : id ≠ 0)
    : Life id places [] { synth with held := rest }
        (posted ++ if sayId = 0 then [] else [.done sayId true none]) := by
  by_cases same : sayId = id
  · rw [same] at held ⊢
    obtain ⟨one, nowhere, absent, notDone, notBegun, notStarted⟩ := life.front single held
    rw [if_neg real]
    obtain ⟨done, once, ordered⟩ := life.finish notDone true none
    refine ⟨?_, life.phrases, life.positive, life.started, once,
      fun _ => .inr (by rw [done]; exact Nat.one_pos), ordered, life.texts_rest held, life.numbers⟩
    · show 0 + waiting id rest + synth.counted id + _ = places
      rw [nowhere, counted, absent, done, one]
      rfl
  · have popped := life.popOther held same
    split_ifs with typed
    · rw [append_nil]
      exact popped
    · exact popped.post rfl (decide_eq_false same)

end

section

variable (calls : FlowCalls φ) (life : Life id places [] desk.synth desk.posted)
  (single : places ≤ 1) (real : id ≠ 0)
include life single real

/-- The front of those that are held goes out, or stays for another stream. -/
theorem sendPhrases {sayId : Nat} {text : Text} (held : desk.synth.held = (sayId, text) :: rest)
    {dealt : Bool} {after : Desk φ}
    (result : sendPhrases calls sayId text desk = (dealt, after))
    : (dealt = false → Life id places [] after.synth after.posted)
      ∧ (dealt = true → Life id places [] { after.synth with held := rest } after.posted) := by
  unfold Desk.sendPhrases at result
  dsimp only at result
  generalize sendEach calls sayId (splitPhrases text) desk.flow = outcome at result
  obtain ⟨count, flow⟩ := outcome
  split_ifs at result with all empty nothing typed
  · cases result
    refine ⟨nofun, fun _ => life.popOther held (fun same => ?_)⟩
    exact life.texts (sayId, text) (by rw [held]; exact .head _) same empty
  · cases result
    exact ⟨nofun, fun _ => life.sent single real held (length_pos_iff.mpr empty)⟩
  · cases result
    exact ⟨fun _ => life, nofun⟩
  all_goals
    have cut := life.cutShort single held real
    simp only [typed, if_true, if_false] at cut
    cases result
    exact ⟨nofun, fun _ => cut⟩

end

/-- The parts of a tick keep the life of every say. -/
theorem steady (calls : FlowCalls φ) (single : places ≤ 1) (real : id ≠ 0)
    : Desk.Steady calls (fun _ queue desk => Life id places queue desk.synth desk.posted) where
  hear life := life.hear real single _
  stop life := life.stopSynthesizer real calls
  hold life := life.hold
  typed text life := life.holdTyped real text
  sent life held result := (life.sendPhrases calls single real held result).2 rfl
  stuck life held result :=
    have stays := (life.sendPhrases calls single real held result).1 rfl
    { stays with }
  drop life := life.dropHeld real
  other _ _ life := { life with }

end Life

/-! Runs. -/

/-- A port with the counter that all ports share, as the 32 bits of an `int`. -/
structure Port where
  synth : Synthesizer
  nextSayId : Nat := 1
  returned : List Nat := []
  posted : List Posted := []

/-- What happens to a port. A tick finds the flow in any state. -/
inductive PortEvent (φ : Type)
  | say (text : Text)
  | sayElsewhere
  | stopSpeaking
  | typed (text : Text)
  | notice (notice : Notice)
  | tick (nowMs : QWORD) (flow : φ)

/-- Whether the event is a say, here or elsewhere. -/
def PortEvent.isSay {φ : Type} : PortEvent φ → Bool
  | .say _ | .sayElsewhere => true
  | _ => false

namespace Port

variable {φ : Type} (calls : FlowCalls φ)

def countSay (port : Port) : Port :=
  { port with nextSayId := (port.nextSayId + 1) % 4294967296 }

def say (text : Text) (port : Port) : Port :=
  if splitPhrases text = [] then port
  else
    { port.countSay with
      synth := port.synth.pushSay port.nextSayId text
      returned := port.returned ++ [port.nextSayId] }

def step (port : Port) : PortEvent φ → Port
  | .say text => port.say text
  | .sayElsewhere => port.countSay
  | .stopSpeaking => { port with synth := port.synth.pushStopSpeaking }
  | .typed text => { port with synth := port.synth.pushTyped text }
  | .notice notice => { port with synth := port.synth.push notice }
  | .tick nowMs flow =>
    let desk := Desk.synthesize calls nowMs ⟨port.synth, flow, port.posted⟩
    { port with synth := desk.synth, posted := desk.posted }

/-- The lives of all ids: those that were returned are in one place, and others in none. -/
structure Kept (port : Port) : Prop where
  lives
    : ∀ id, id ≠ 0
      → Life id (port.returned.count id) port.synth.sayQueue port.synth port.posted
  increasing : ∀ id ∈ port.returned, 0 < id ∧ id < port.nextSayId
  nodup : port.returned.Nodup
  next : 0 < port.nextSayId

theorem nextSayId_countSay {port : Port} (few : port.nextSayId < 2147483648)
    : port.countSay.nextSayId = port.nextSayId + 1 :=
  Nat.mod_eq_of_lt (by omega)

theorem Kept.step {port : Port} (kept : port.Kept) (event : PortEvent φ)
    (few : event.isSay → port.nextSayId < 2147483648)
    : (port.step calls event).Kept := by
  have single : ∀ id, port.returned.count id ≤ 1 := nodup_iff_count_le_one.mp kept.nodup
  cases event with
  | say text =>
    show (port.say text).Kept
    unfold say
    split_ifs with empty
    · exact kept
    · have new : port.nextSayId ∉ port.returned :=
        fun member => Nat.lt_irrefl _ (kept.increasing _ member).2
      have counted : port.countSay.nextSayId = port.nextSayId + 1 := nextSayId_countSay (few rfl)
      refine ⟨fun id real => ?_, fun id member => ?_, ?_, counted.symm ▸ Nat.succ_pos _⟩
      · have life := (kept.lives id real).push port.nextSayId empty
        have count : (port.returned ++ [port.nextSayId]).count id
            = port.returned.count id + if port.nextSayId = id then 1 else 0 := by
          rw [count_append, count_singleton]
          simp only [beq_iff_eq]
        rw [← count] at life
        exact { life with }
      · rw [counted]
        rcases mem_append.mp member with old | isNew
        · exact ⟨(kept.increasing id old).1, Nat.lt_succ_of_lt (kept.increasing id old).2⟩
        · rw [mem_singleton.mp isNew]
          exact ⟨kept.next, Nat.lt_succ_self _⟩
      · exact nodup_append'.mpr ⟨kept.nodup, nodup_singleton _, disjoint_singleton.mpr new⟩
  | sayElsewhere =>
    have counted : port.countSay.nextSayId = port.nextSayId + 1 := nextSayId_countSay (few rfl)
    refine ⟨kept.lives, fun id member => ?_, kept.nodup, counted.symm ▸ Nat.succ_pos _⟩
    exact (kept.increasing id member).imp_right (fun below => counted ▸ Nat.lt_succ_of_lt below)
  | stopSpeaking | typed text =>
    refine { kept with lives := fun id real => ?_ }
    exact { kept.lives id real with }
  | notice notice =>
    refine { kept with lives := fun id real => ?_ }
    have life := kept.lives id real
    cases notice with
    | ready link | say link number | done link number | state up reason =>
      exact { life with }
  | tick nowMs flow =>
    refine { kept with lives := fun id real => ?_ }
    let desk : Desk φ := ⟨port.synth, flow, port.posted⟩
    have life := kept.lives id real
    have after := (Life.steady calls (single id) real).synthesize desk
      { life with } nowMs
    have taken : (desk.synthesize calls nowMs).synth.sayQueue = [] :=
      congrArg Prod.fst (queues_synthesize calls nowMs desk)
    rw [← taken] at after
    exact after

theorem nextSayId_step_le (port : Port) (event : PortEvent φ)
    : (port.step calls event).nextSayId ≤ port.nextSayId + if event.isSay then 1 else 0 := by
  cases event with
  | say text =>
    show (port.say text).nextSayId ≤ port.nextSayId + 1
    unfold say
    split_ifs
    · exact Nat.le_succ _
    · exact Nat.mod_le _ _
  | sayElsewhere => exact Nat.mod_le _ _
  | stopSpeaking | typed text | notice notice | tick nowMs flow => exact Nat.le_refl _

/-- Runs keep the lives as long as the counter does not run over. -/
theorem Kept.run {port : Port} (kept : port.Kept) {events : List (PortEvent φ)}
    (few : port.nextSayId + events.countP PortEvent.isSay ≤ 2147483648)
    : (Foundation.run (Port.step calls) port events).Kept := by
  induction events generalizing port with
  | nil => exact kept
  | cons event rest ih =>
    have next := nextSayId_step_le calls port event
    rw [countP_cons] at few
    refine ih (kept.step calls event (fun isSay => ?_)) (by omega)
    rw [if_pos isSay] at few
    omega

theorem kept_initial (announceCorrections : Bool)
    : Kept { synth := Synthesizer.new announceCorrections } where
  lives _ _ :=
    ⟨rfl, rfl, nofun, fun member => absurd member (Finset.notMem_empty _), Nat.zero_le 1,
      fun impossible => absurd impossible (Nat.lt_irrefl 0),
      fun before event after isPosted => absurd isPosted.symm (by simp), nofun, nofun⟩
  increasing := nofun
  nodup := nodup_nil
  next := Nat.one_pos

/-- Every say ends once: in every run with fewer says than an `int` can count, with a flow of any
behaviour, an id that `Say` returned gets at most one start and one end, does not start once it is
done, and has left the queue without an end exactly while it is held or has phrases that are not
done.
-/
theorem every_say_ends_once (announceCorrections : Bool) (events : List (PortEvent φ)) {port : Port}
    (isPort : port = Foundation.run (step calls)
      { synth := Synthesizer.new announceCorrections } events)
    (few : events.countP PortEvent.isSay < 2147483648)
    : ∀ id ∈ port.returned,
        port.posted.countP (Posted.isStarted id) ≤ 1
        ∧ port.posted.countP (Posted.isDone id) ≤ 1
        ∧ StartsBeforeDone id port.posted
        ∧ (id ∉ port.synth.sayQueue.map Prod.fst
          → (0 < port.posted.countP (Posted.isDone id)
            ↔ id ∉ port.synth.held.map Prod.fst ∧ id ∉ port.synth.remaining.keys)) := by
  have kept : port.Kept := by
    rw [isPort]
    refine (kept_initial announceCorrections).run calls ?_
    rw [Nat.add_comm]
    exact few
  intro id member
  have life := kept.lives id (Nat.ne_of_gt (kept.increasing id member).1)
  have one : port.returned.count id = 1 := count_eq_one_of_mem kept.nodup member
  have total := life.single
  rw [one] at total
  refine ⟨life.once, by omega, life.ordered, fun taken => ?_⟩
  rw [← waiting_eq_zero_iff] at taken ⊢
  rw [← counted_eq_zero_iff]
  omega

def obedient : FlowCalls Unit where
  sendText _ _ _ := (true, ())
  flush _ := (true, ())
  stopSpeaking _ := (true, ())

def saidOnce : List (PortEvent Unit) :=
  [.say [0x61], .notice (.ready 0), .tick 20 (), .notice (.say 0 1), .notice (.done 0 1),
    .tick 40 ()]

theorem every_say_ends_once_saidOnce
    : 1 ∈ (Foundation.run (step obedient) { synth := Synthesizer.new false } saidOnce).returned
      ∧ (Foundation.run (step obedient) { synth := Synthesizer.new false } saidOnce).posted.countP
        (Posted.isDone 1) = 1 := by
  have returned : 1 ∈ (Foundation.run (step obedient)
      { synth := Synthesizer.new false } saidOnce).returned := by decide +kernel
  obtain ⟨-, once, -, ends⟩ := every_say_ends_once obedient false saidOnce rfl (by decide) 1
    returned
  have gone := (ends (by decide +kernel)).mpr (by decide +kernel)
  exact ⟨returned, Nat.le_antisymm once gone⟩

end Port

end MediaServer.Speech
