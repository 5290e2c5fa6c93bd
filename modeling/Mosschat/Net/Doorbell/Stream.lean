import Mathlib.Data.List.ReduceOption
import Mosschat.Library.Machine
import Mosschat.Net.Doorbell.Turn

/-!
Owns two doorbells at the ends of one porch stream: what each reads of what the other wrote,
and the keys they come to hold.

Does not own the paths, nor the connection under the stream.
-/

namespace Mosschat.Net

open Mosschat.Core Mosschat.Library.Machine Mosschat.Net.Gate

/-! ## Two houses -/

/-- The house that opened the stream, or the one that accepted it. -/
inductive Side where
  | initiator
  | responder
deriving DecidableEq

/-- Two houses that run the doorbell with each other, and what is on the stream each way. -/
structure DoorbellPair where
  initiator : Doorbell
  responder : Doorbell
  toInitiator : List PorchFrame
  toResponder : List PorchFrame

/-- What happens to the pair. -/
inductive PairAction where
  | acts (side : Side) (action : DoorbellAction)
  /-- The reader of a side takes the next frame off the stream. -/
  | delivers (side : Side)
  /-- It finds the stream ended. -/
  | breaks (side : Side)

namespace DoorbellPair

open Doorbell

/-- Both have just opened the stream. -/
def new (holds : Hold × Hold) (noPunch : Bool × Bool) (synthetics : SocketAddr × SocketAddr)
    (paths : Option PathEntry × Option PathEntry) (started : Nat × Nat) : DoorbellPair where
  initiator := Doorbell.new ⟨1, holds.1, noPunch.1⟩ synthetics.1 paths.1 started.1
  responder := Doorbell.new ⟨2, holds.2, noPunch.2⟩ synthetics.2 paths.2 started.2
  toInitiator := []
  toResponder := []

/-- One action. What one side writes is on the stream toward the other, in order. -/
def step (crypto : Crypto) (pair : DoorbellPair) : PairAction → DoorbellPair
  | .acts .initiator action =>
    let (house, written) := pair.initiator.act crypto action
    { pair with initiator := house, toResponder := pair.toResponder ++ written }
  | .acts .responder action =>
    let (house, written) := pair.responder.act crypto action
    { pair with responder := house, toInitiator := pair.toInitiator ++ written }
  | .delivers .initiator =>
    match pair.toInitiator with
    | [] => pair
    | frame :: rest =>
      if pair.initiator.reading then
        { pair with initiator := pair.initiator.arrives (some frame), toInitiator := rest }
      else pair
  | .delivers .responder =>
    match pair.toResponder with
    | [] => pair
    | frame :: rest =>
      if pair.responder.reading then
        { pair with responder := pair.responder.arrives (some frame), toResponder := rest }
      else pair
  | .breaks .initiator => { pair with initiator := pair.initiator.arrives none }
  | .breaks .responder => { pair with responder := pair.responder.arrives none }

/-- What the responder wrote that the initiator has not read, the queue first. -/
def unreadInitiator (pair : DoorbellPair) : List PorchFrame :=
  pair.initiator.frames.reduceOption ++ pair.toInitiator

/-- What the initiator wrote that the responder has not read. -/
def unreadResponder (pair : DoorbellPair) : List PorchFrame :=
  pair.responder.frames.reduceOption ++ pair.toResponder

/-- The exchanges among some frames. -/
def exchanges (frames : List PorchFrame) : List (Bytes16 × Bytes32) :=
  frames.filterMap PorchFrame.exchange

/-- The initiator has left its attempt, and has not read the answer to its `Candidates`. -/
def waits (pair : DoorbellPair) : Bool :=
  match pair.initiator.stage with
  | .attempting _ | .exchanging _ => true
  | _ => false

/-- What no action may do: have the initiator leave its attempt while a frame of the responder
is unread, or have the responder write another frame than `Candidates` where the initiator
waits for one and it is not on its way. -/
def crosses (pair : DoorbellPair) : PairAction → Bool
  | .acts .initiator action =>
    pair.initiator.reruns action &&
      !((pair.initiator.queueAfter action).reduceOption ++ pair.toInitiator).isEmpty
  | .acts .responder action =>
    pair.responder.speaks action && pair.waits && (exchanges pair.unreadInitiator).isEmpty
  | .delivers _ | .breaks _ => false

/-! ## What the two keep -/

/-- The responder is armed with the attempt, or its visit is over. -/
def Settled (stage : DoorbellStage) (running : Running) : Prop :=
  stage.armed = some running ∨ ∃ result, stage = .ended result

/-- The initiator is between two attempts. -/
structure Rest (pair : DoorbellPair) : Prop where
  quiet : pair.unreadInitiator = []
  unasked : exchanges pair.unreadResponder = []
  free : ∀ read, pair.responder.stage ≠ .attempting (some read)

/-- The responder has the offer before it, or has read it, or is past it. -/
structure Asked (pair : DoorbellPair) (offer : Offer) : Prop where
  quiet : pair.unreadInitiator = []
  asked : ((∀ read, pair.responder.stage ≠ .attempting (some read)) ∧
      (exchanges pair.unreadResponder).Sublist [(offer.attempt, offer.half)]) ∨
    ∃ read, pair.responder.stage = .attempting (some read) ∧ read.attempt = offer.attempt ∧
      read.peerHalf = offer.half ∧ exchanges pair.unreadResponder = []

/-- The answer to the offer is the next frame the initiator reads. -/
structure Answered (crypto : Crypto) (pair : DoorbellPair) (offer : Offer) : Prop where
  unasked : exchanges pair.unreadResponder = []
  next : ∃ frame rest half, pair.unreadInitiator = frame :: rest ∧
    frame.exchange = some (offer.attempt, half) ∧ exchanges rest = [] ∧
    Settled pair.responder.stage ⟨offer.attempt, probeKey crypto offer.attempt offer.half half⟩

/-- Both are in the attempt. -/
structure Joint (pair : DoorbellPair) (running : Running) : Prop where
  unanswered : exchanges pair.unreadInitiator = []
  unasked : exchanges pair.unreadResponder = []
  settled : Settled pair.responder.stage running

/-- What the responder and the stream are at, by where the initiator is. -/
inductive Coupled (crypto : Crypto) (pair : DoorbellPair) : Prop where
  | rests : pair.initiator.stage = .attempting none → Rest pair → Coupled crypto pair
  | asks {offer : Offer} : pair.initiator.stage = .exchanging offer → Asked pair offer →
      Coupled crypto pair
  | answered {offer : Offer} : pair.initiator.stage = .exchanging offer →
      Answered crypto pair offer → Coupled crypto pair
  | joins {running : Running} : pair.initiator.stage.armed = some running →
      Joint pair running → Coupled crypto pair
  | ended {result : Except DoorbellError DoorbellOutcome} :
      pair.initiator.stage = .ended result → result ≠ .error .protocol → Coupled crypto pair

/-- What holds of the pair in every run in which nothing crosses. -/
structure Agreed (crypto : Crypto) (pair : DoorbellPair) : Prop where
  initiator : pair.initiator.initiator = true
  responder : pair.responder.initiator = false
  /-- While the reader runs, the queue of the initiator holds no error. -/
  clear : pair.initiator.reading = true → none ∉ pair.initiator.frames
  safe : pair.responder.stage ≠ .ended (.error .protocol)
  /-- Until the responder has read a frame, all it has before it are `Candidates`. -/
  opening : pair.responder.stage.fresh = true →
    ∀ frame ∈ pair.unreadResponder, frame.exchange ≠ none
  coupled : Coupled crypto pair

theorem agreed_new (crypto : Crypto) (holds : Hold × Hold) (noPunch : Bool × Bool)
    (synthetics : SocketAddr × SocketAddr) (paths : Option PathEntry × Option PathEntry)
    (started : Nat × Nat) : Agreed crypto (new holds noPunch synthetics paths started) where
  initiator := rfl
  responder := rfl
  clear := nofun
  safe := nofun
  opening := nofun
  coupled := .rests rfl ⟨rfl, rfl, nofun⟩

section Frames

variable {frames others : List PorchFrame}

@[simp] theorem exchanges_append (frames others : List PorchFrame) :
    exchanges (frames ++ others) = exchanges frames ++ exchanges others := List.filterMap_append

theorem exchanges_sublist (shorter : frames.Sublist others) :
    (exchanges frames).Sublist (exchanges others) := shorter.filterMap _

theorem exchanges_eq_nil_of_sublist (shorter : frames.Sublist others)
    (none : exchanges others = []) : exchanges frames = [] := by
  have sublist := exchanges_sublist shorter
  rw [none] at sublist
  exact List.sublist_nil.mp sublist

theorem exchanges_cons {frame : PorchFrame} {exchange : Bytes16 × Bytes32}
    (isExchange : frame.exchange = some exchange) (rest : List PorchFrame) :
    exchanges (frame :: rest) = exchange :: exchanges rest :=
  List.filterMap_cons_some isExchange

theorem exchanges_cons_none {frame : PorchFrame} (other : frame.exchange = none)
    (rest : List PorchFrame) : exchanges (frame :: rest) = exchanges rest :=
  List.filterMap_cons_none other

theorem reduceOption_suffix {frames others : List (Option PorchFrame)}
    (isSuffix : frames <:+ others) : frames.reduceOption.Sublist others.reduceOption :=
  isSuffix.sublist.filterMap _

end Frames

section Coupled

variable {crypto : Crypto} {pair next : DoorbellPair}

/-- What is settled is neither fresh nor about to answer. -/
theorem Settled.cases {stage : DoorbellStage} {running : Running} (settled : Settled stage running) :
    (∀ read, stage ≠ .attempting (some read)) ∧ stage.fresh = false := by
  rcases settled with isArmed | ⟨result, isEnded⟩
  · refine ⟨?_, fresh_of_armed isArmed⟩
    intro read isStage
    rw [isStage] at isArmed
    cases isArmed
  · rw [isEnded]
    exact ⟨nofun, rfl⟩

/-- Frames that get lost, behind the one the initiator reads next, leave the two as they are. -/
theorem Coupled.lossy (coupled : Coupled crypto pair)
    (initiator : next.initiator.stage = pair.initiator.stage)
    (responder : next.responder.stage = pair.responder.stage)
    (toInitiator : next.unreadInitiator.Sublist pair.unreadInitiator)
    (head : ∀ frame rest, pair.unreadInitiator = frame :: rest → frame.exchange ≠ none →
      ∃ left, next.unreadInitiator = frame :: left ∧ left.Sublist rest)
    (toResponder : next.unreadResponder.Sublist pair.unreadResponder) : Coupled crypto next := by
  cases coupled with
  | rests isStage rest =>
      apply Coupled.rests (initiator.trans isStage)
      constructor
      · have quiet := toInitiator
        rw [rest.quiet] at quiet
        exact List.sublist_nil.mp quiet
      · exact exchanges_eq_nil_of_sublist toResponder rest.unasked
      · rw [responder]
        exact rest.free
  | asks isStage asked =>
      apply Coupled.asks (initiator.trans isStage)
      constructor
      · have quiet := toInitiator
        rw [asked.quiet] at quiet
        exact List.sublist_nil.mp quiet
      · rw [responder]
        rcases asked.asked with ⟨free, offered⟩ | ⟨read, isRead, attempt, half, none⟩
        · exact Or.inl ⟨free, (exchanges_sublist toResponder).trans offered⟩
        · exact Or.inr ⟨read, isRead, attempt, half,
            exchanges_eq_nil_of_sublist toResponder none⟩
  | answered isStage answered =>
      apply Coupled.answered (initiator.trans isStage)
      obtain ⟨frame, rest, half, isUnread, isExchange, none, settled⟩ := answered.next
      constructor
      · exact exchanges_eq_nil_of_sublist toResponder answered.unasked
      · have notNone : frame.exchange ≠ Option.none := by
          rw [isExchange]
          exact nofun
        obtain ⟨left, isLeft, shorter⟩ := head frame rest isUnread notNone
        rw [responder]
        exact ⟨frame, left, half, isLeft, isExchange,
          exchanges_eq_nil_of_sublist shorter none, settled⟩
  | joins isArmed joint =>
      apply Coupled.joins
      · rw [initiator]
        exact isArmed
      · constructor
        · exact exchanges_eq_nil_of_sublist toInitiator joint.unanswered
        · exact exchanges_eq_nil_of_sublist toResponder joint.unasked
        · rw [responder]
          exact joint.settled
  | ended isStage safe => exact .ended (initiator.trans isStage) safe

/-- The responder comes to a stage in which it answers nothing, and writes nothing. -/
theorem Coupled.onward (coupled : Coupled crypto pair)
    (initiator : next.initiator = pair.initiator) (toInitiator : next.toInitiator = pair.toInitiator)
    (settled : ∀ running, Settled pair.responder.stage running →
      Settled next.responder.stage running)
    (free : ∀ read, next.responder.stage ≠ .attempting (some read))
    (toResponder : next.unreadResponder.Sublist pair.unreadResponder) : Coupled crypto next := by
  have unread : next.unreadInitiator = pair.unreadInitiator := by
    unfold unreadInitiator
    rw [initiator, toInitiator]
  cases coupled with
  | rests isStage rest =>
      apply Coupled.rests
      · rw [initiator]
        exact isStage
      · exact ⟨unread.trans rest.quiet, exchanges_eq_nil_of_sublist toResponder rest.unasked, free⟩
  | asks isStage asked =>
      apply Coupled.asks
      · rw [initiator]
        exact isStage
      · refine ⟨unread.trans asked.quiet, Or.inl ⟨free, ?_⟩⟩
        rcases asked.asked with ⟨_, offered⟩ | ⟨read, _, _, _, none⟩
        · exact (exchanges_sublist toResponder).trans offered
        · rw [exchanges_eq_nil_of_sublist toResponder none]
          exact List.nil_sublist _
  | answered isStage answered =>
      obtain ⟨frame, rest, half, isUnread, isExchange, none, before⟩ := answered.next
      apply Coupled.answered
      · rw [initiator]
        exact isStage
      · exact ⟨exchanges_eq_nil_of_sublist toResponder answered.unasked, frame, rest, half,
          unread.trans isUnread, isExchange, none, settled _ before⟩
  | joins isArmed joint =>
      apply Coupled.joins
      · rw [initiator]
        exact isArmed
      · constructor
        · rw [unread]
          exact joint.unanswered
        · exact exchanges_eq_nil_of_sublist toResponder joint.unasked
        · exact settled _ joint.settled
  | ended isStage safe =>
      apply Coupled.ended _ safe
      rw [initiator]
      exact isStage

/-- The responder writes a frame of its attempt where no exchange is waited for. -/
theorem Coupled.speaks (coupled : Coupled crypto pair)
    {house : Doorbell} {frame : PorchFrame} (isFrame : frame.exchange = none)
    (unwaited : pair.waits = true → exchanges pair.unreadInitiator ≠ [])
    (settled : ∀ running, Settled pair.responder.stage running → Settled house.stage running)
    (frames : house.frames = pair.responder.frames) :
    Coupled crypto { pair with responder := house, toInitiator := pair.toInitiator ++ [frame] } := by
  generalize isNext : ({ pair with
    responder := house, toInitiator := pair.toInitiator ++ [frame] } : DoorbellPair) = next
  have initiator : next.initiator = pair.initiator := by
    rw [← isNext]
  have responder : next.responder = house := by
    rw [← isNext]
  have unread : next.unreadInitiator = pair.unreadInitiator ++ [frame] := by
    rw [← isNext]
    exact (List.append_assoc _ _ _).symm
  have toResponder : next.unreadResponder = pair.unreadResponder := by
    unfold unreadResponder
    rw [← isNext]
    show house.frames.reduceOption ++ _ = _
    rw [frames]
  have quietly : pair.waits = true → pair.unreadInitiator ≠ [] := by
    intro isWaiting quiet
    apply unwaited isWaiting
    rw [quiet]
    rfl
  cases coupled with
  | rests isStage rest =>
      have isWaiting : pair.waits = true := by
        unfold waits
        rw [isStage]
      exact absurd rest.quiet (quietly isWaiting)
  | asks isStage asked =>
      have isWaiting : pair.waits = true := by
        unfold waits
        rw [isStage]
      exact absurd asked.quiet (quietly isWaiting)
  | answered isStage answered =>
      obtain ⟨first, rest, half, isUnread, isExchange, none, before⟩ := answered.next
      apply Coupled.answered
      · rw [initiator]
        exact isStage
      · constructor
        · rw [toResponder]
          exact answered.unasked
        · refine ⟨first, rest ++ [frame], half, ?_, isExchange, ?_, ?_⟩
          · rw [unread, isUnread]
            rfl
          · rw [exchanges_append, none, exchanges_cons_none isFrame]
            rfl
          · rw [responder]
            exact settled _ before
  | joins isArmed joint =>
      apply Coupled.joins
      · rw [initiator]
        exact isArmed
      · constructor
        · rw [unread, exchanges_append, joint.unanswered, exchanges_cons_none isFrame]
          rfl
        · rw [toResponder]
          exact joint.unasked
        · rw [responder]
          exact settled _ joint.settled
  | ended isStage safe =>
      apply Coupled.ended _ safe
      rw [initiator]
      exact isStage

theorem eq_of_cons_sublist_singleton {exchange offered : Bytes16 × Bytes32}
    {rest : List (Bytes16 × Bytes32)} (shorter : (exchange :: rest).Sublist [offered]) :
    exchange = offered ∧ rest = [] := by
  have same : exchange = offered := List.mem_singleton.mp (shorter.subset List.mem_cons_self)
  have short := shorter.length_le
  rw [List.length_cons, List.length_singleton] at short
  exact ⟨same, List.length_eq_zero_iff.mp (by omega)⟩

/-- The unread frames, once the responder has taken the first. -/
theorem unreadResponder_cons {house : Doorbell} {frame : PorchFrame}
    (frames : pair.responder.frames = some frame :: house.frames)
    (responder : next.responder = house) (toResponder : next.toResponder = pair.toResponder) :
    pair.unreadResponder = frame :: next.unreadResponder := by
  unfold unreadResponder
  rw [frames, responder, toResponder, List.reduceOption_cons_of_some]
  rfl

theorem Coupled.adopts (coupled : Coupled crypto pair) {house : Doorbell} {frame : PorchFrame}
    {running : Running} {read : Exchanged} (isArmed : pair.responder.stage.armed = some running)
    (frames : pair.responder.frames = some frame :: house.frames)
    (isExchange : frame.exchange = some (read.attempt, read.peerHalf))
    (stage : house.stage = .attempting (some read)) :
    Coupled crypto { pair with responder := house } := by
  generalize isNext : ({ pair with responder := house } : DoorbellPair) = next
  have initiator : next.initiator = pair.initiator := by
    rw [← isNext]
  have responder : next.responder = house := by
    rw [← isNext]
  have quiet : next.unreadInitiator = pair.unreadInitiator := by
    rw [← isNext]
    rfl
  have unread : exchanges pair.unreadResponder =
      (read.attempt, read.peerHalf) :: exchanges next.unreadResponder := by
    rw [unreadResponder_cons frames responder (by rw [← isNext])]
    exact exchanges_cons isExchange _
  cases coupled with
  | rests _ rest =>
      have none := rest.unasked
      rw [unread] at none
      cases none
  | asks isStage asked =>
      rcases asked.asked with ⟨_, offered⟩ | ⟨found, isRead, _⟩
      · rw [unread] at offered
        obtain ⟨same, none⟩ := eq_of_cons_sublist_singleton offered
        rw [Prod.mk.injEq] at same
        apply Coupled.asks
        · rw [initiator]
          exact isStage
        · refine ⟨quiet.trans asked.quiet, Or.inr ⟨read, ?_, same.1, same.2, none⟩⟩
          rw [responder]
          exact stage
      · rw [isRead] at isArmed
        cases isArmed
  | answered _ answered =>
      have none := answered.unasked
      rw [unread] at none
      cases none
  | joins _ joint =>
      have none := joint.unasked
      rw [unread] at none
      cases none
  | ended isStage safe =>
      apply Coupled.ended _ safe
      rw [initiator]
      exact isStage

/-- The responder answers the offer, with the key the initiator will come to. -/
theorem answered_reply {offer : Offer} (isStage : pair.initiator.stage = .exchanging offer)
    (quiet : pair.unreadInitiator = []) {house : Doorbell} {frame : PorchFrame} {half : Bytes32}
    (isArmed : house.stage.armed =
      some ⟨offer.attempt, probeKey crypto offer.attempt offer.half half⟩)
    (isExchange : frame.exchange = some (offer.attempt, half))
    (unasked : exchanges (house.frames.reduceOption ++ pair.toResponder) = []) :
    Coupled crypto { pair with responder := house, toInitiator := pair.toInitiator ++ [frame] } := by
  apply Coupled.answered
  · exact isStage
  · constructor
    · exact unasked
    · refine ⟨frame, [], half, ?_, isExchange, rfl, Or.inl isArmed⟩
      show pair.initiator.frames.reduceOption ++ (pair.toInitiator ++ [frame]) = [frame]
      rw [← List.append_assoc]
      show pair.unreadInitiator ++ [frame] = [frame]
      rw [quiet]
      rfl

theorem Coupled.answers (coupled : Coupled crypto pair) (role : pair.responder.initiator = false)
    {house : Doorbell} {frame : PorchFrame} {read : Exchanged} {half : Bytes32}
    (stage : pair.responder.stage = .attempting (some read))
    (isArmed : house.stage.armed =
      some ⟨read.attempt, pair.responder.keyFor crypto read half⟩)
    (isExchange : frame.exchange = some (read.attempt, half))
    (frames : house.frames = pair.responder.frames) :
    Coupled crypto { pair with responder := house, toInitiator := pair.toInitiator ++ [frame] } := by
  have key : pair.responder.keyFor crypto read half =
      probeKey crypto read.attempt read.peerHalf half := by
    unfold keyFor
    rw [role, if_neg Bool.false_ne_true]
  rw [key] at isArmed
  have unsettled : ∀ running, ¬Settled pair.responder.stage running := by
    intro running settled
    exact settled.cases.1 read stage
  cases coupled with
  | rests _ rest => exact absurd stage (rest.free read)
  | asks isStage asked =>
      rcases asked.asked with ⟨free, _⟩ | ⟨found, isRead, attempt, peerHalf, none⟩
      · exact absurd stage (free read)
      · rw [stage] at isRead
        cases isRead
        rw [attempt, peerHalf] at isArmed
        rw [attempt] at isExchange
        apply answered_reply isStage asked.quiet isArmed isExchange
        rw [frames]
        exact none
  | answered _ answered =>
      obtain ⟨_, _, _, _, _, _, settled⟩ := answered.next
      exact absurd settled (unsettled _)
  | joins _ joint => exact absurd joint.settled (unsettled _)
  | ended isStage safe => exact .ended isStage safe

theorem Coupled.returns (coupled : Coupled crypto pair) (role : pair.responder.initiator = false)
    {house : Doorbell} {frame written : PorchFrame} {read : Exchanged} {offer : Offer}
    (stage : pair.responder.stage = .exchanging offer)
    (frames : pair.responder.frames = some frame :: house.frames)
    (isExchange : frame.exchange = some (read.attempt, read.peerHalf))
    (isArmed : house.stage.armed =
      some ⟨read.attempt, pair.responder.keyFor crypto read offer.half⟩)
    (isWritten : written.exchange = some (read.attempt, offer.half)) :
    Coupled crypto
      { pair with responder := house, toInitiator := pair.toInitiator ++ [written] } := by
  have key : pair.responder.keyFor crypto read offer.half =
      probeKey crypto read.attempt read.peerHalf offer.half := by
    unfold keyFor
    rw [role, if_neg Bool.false_ne_true]
  rw [key] at isArmed
  have unsettled : ∀ running, ¬Settled pair.responder.stage running := by
    intro running settled
    have notFresh := settled.cases.2
    rw [stage] at notFresh
    cases notFresh
  have unread : exchanges pair.unreadResponder = (read.attempt, read.peerHalf) ::
      exchanges (house.frames.reduceOption ++ pair.toResponder) := by
    unfold unreadResponder
    rw [frames, List.reduceOption_cons_of_some]
    exact exchanges_cons isExchange _
  cases coupled with
  | rests _ rest =>
      have none := rest.unasked
      rw [unread] at none
      cases none
  | asks isStage asked =>
      rcases asked.asked with ⟨_, offered⟩ | ⟨found, isRead, _⟩
      · rw [unread] at offered
        obtain ⟨same, none⟩ := eq_of_cons_sublist_singleton offered
        rw [Prod.mk.injEq] at same
        rw [same.1, same.2] at isArmed
        rw [same.1] at isWritten
        exact answered_reply isStage asked.quiet isArmed isWritten none
      · rw [stage] at isRead
        cases isRead
  | answered _ answered =>
      obtain ⟨_, _, _, _, _, _, settled⟩ := answered.next
      exact absurd settled (unsettled _)
  | joins _ joint => exact absurd joint.settled (unsettled _)
  | ended isStage safe => exact .ended isStage safe

end Coupled

/-! ## The turns of the two -/

section Responder

variable {crypto : Crypto} {pair : DoorbellPair} {house : Doorbell} {action : DoorbellAction}
  {written : List PorchFrame}

/-- A responder never refuses a frame: it reads only one in `expect_candidates`, and that is
the initiator's first. -/
theorem Agreed.unrefused (agreed : Agreed crypto pair) {offer : Offer} {frame : PorchFrame}
    (stage : pair.responder.stage = .exchanging offer)
    (frames : pair.responder.frames = some frame :: house.frames)
    (refused : frame.exchange = none ∨ pair.responder.initiator = true ∧
      ∀ half, frame.exchange ≠ some (offer.attempt, half)) : False := by
  rcases refused with none | ⟨initiator, _⟩
  · have isFresh : pair.responder.stage.fresh = true := by
      rw [stage]
      rfl
    have member : frame ∈ pair.unreadResponder := by
      unfold unreadResponder
      rw [frames, List.reduceOption_cons_of_some]
      exact List.mem_cons_self
    exact agreed.opening isFresh frame member none
  · rw [agreed.responder] at initiator
    cases initiator

theorem Agreed.safeResponder (agreed : Agreed crypto pair)
    (turn : Turn crypto pair.responder action house written) :
    house.stage ≠ .ended (.error .protocol) := by
  have ofArmed : ∀ running, house.stage.armed = some running →
      house.stage ≠ .ended (.error .protocol) := by
    intro running isArmed isEnded
    rw [isEnded] at isArmed
    cases isArmed
  cases turn with
  | rests stage _ =>
      rw [stage]
      exact agreed.safe
  | goes _ isArmed _ => exact ofArmed _ isArmed
  | speaks _ _ _ after _ =>
      rcases after with isArmed | ⟨outcome, isEnded⟩
      · exact ofArmed _ isArmed
      · rw [isEnded]
        exact nofun
  | ends isEnded safe _ =>
      rw [isEnded]
      exact fun same => safe (DoorbellStage.ended.inj same)
  | reruns _ _ _ stage _ =>
      rw [stage]
      exact nofun
  | opens _ _ stage _ _ =>
      rw [stage]
      exact nofun
  | listens _ _ stage _ =>
      rw [stage]
      exact nofun
  | answers _ isArmed _ _ => exact ofArmed _ isArmed
  | adopts _ _ _ stage =>
      rw [stage]
      exact nofun
  | takes _ _ _ _ _ isArmed => exact ofArmed _ isArmed
  | returns _ _ _ _ isArmed _ => exact ofArmed _ isArmed
  | refuses stage frames refused _ => exact (agreed.unrefused stage frames refused).elim

theorem settled_of_armed {stage next : DoorbellStage} {running : Running}
    (isArmed : stage.armed = some running)
    (after : next.armed = some running ∨ ∃ outcome, next = .ended outcome) :
    ∀ found, Settled stage found → Settled next found := by
  intro found settled
  rcases settled with same | ⟨result, isEnded⟩
  · rw [isArmed] at same
    cases same
    exact after
  · rw [isEnded] at isArmed
    cases isArmed

theorem Agreed.coupledResponder (agreed : Agreed crypto pair)
    (turn : Turn crypto pair.responder action house written)
    (keeps : pair.crosses (.acts .responder action) = false) :
    Coupled crypto
      { pair with responder := house, toInitiator := pair.toInitiator ++ written } := by
  have shorter : (house.frames.reduceOption ++ pair.toResponder).Sublist pair.unreadResponder :=
    (reduceOption_suffix turn.suffix).append_right pair.toResponder
  have freeOfArmed : ∀ running, house.stage.armed = some running →
      ∀ read, house.stage ≠ .attempting (some read) := by
    intro running isArmed read isRead
    rw [isRead] at isArmed
    cases isArmed
  cases turn with
  | rests stage frames =>
      rw [List.append_nil]
      apply agreed.coupled.lossy
      · rfl
      · exact stage
      · exact List.Sublist.refl _
      · exact fun frame rest isUnread _ => ⟨rest, isUnread, List.Sublist.refl rest⟩
      · exact shorter
  | goes before after _ =>
      rw [List.append_nil]
      apply agreed.coupled.onward
      · rfl
      · rfl
      · exact settled_of_armed before (Or.inl after)
      · exact freeOfArmed _ after
      · exact shorter
  | speaks isSpeaking before isFrame after frames =>
      apply agreed.coupled.speaks isFrame
      · intro isWaiting none
        simp only [crosses] at keeps
        rw [isSpeaking, isWaiting, none] at keeps
        cases keeps
      · apply settled_of_armed before
        rcases after with isArmed | ⟨outcome, isEnded⟩
        · exact Or.inl isArmed
        · exact Or.inr ⟨_, isEnded⟩
      · exact frames
  | ends stage _ _ =>
      rw [List.append_nil]
      apply agreed.coupled.onward
      · rfl
      · rfl
      · exact fun _ _ => Or.inr ⟨_, stage⟩
      · intro read isRead
        change house.stage = _ at isRead
        rw [stage] at isRead
        cases isRead
      · exact shorter
  | reruns _ initiator _ _ _ =>
      rw [agreed.responder] at initiator
      cases initiator
  | opens initiator _ _ _ _ =>
      rw [agreed.responder] at initiator
      cases initiator
  | listens _ before after _ =>
      rw [List.append_nil]
      apply agreed.coupled.onward
      · rfl
      · rfl
      · intro running settled
        have notFresh := settled.cases.2
        rw [before] at notFresh
        cases notFresh
      · intro read isRead
        change house.stage = _ at isRead
        rw [after] at isRead
        cases isRead
      · exact shorter
  | answers stage isArmed isExchange frames =>
      exact agreed.coupled.answers agreed.responder stage isArmed isExchange frames
  | adopts before frames isExchange stage =>
      rw [List.append_nil]
      exact agreed.coupled.adopts before frames isExchange stage
  | takes initiator _ _ _ _ _ =>
      rw [agreed.responder] at initiator
      cases initiator
  | returns _ stage frames isExchange isArmed isWritten =>
      exact agreed.coupled.returns agreed.responder stage frames isExchange isArmed isWritten
  | refuses stage frames refused _ => exact (agreed.unrefused stage frames refused).elim

theorem Agreed.actsResponder (agreed : Agreed crypto pair) (action : DoorbellAction)
    (keeps : pair.crosses (.acts .responder action) = false) :
    Agreed crypto (pair.step crypto (.acts .responder action)) := by
  have turn := turn_act crypto pair.responder action
  have same := same_act crypto pair.responder action
  exact
    { initiator := agreed.initiator
      responder := by
        show ((pair.responder.act crypto action).1.params.role == 1) = false
        rw [same.1]
        exact agreed.responder
      clear := agreed.clear
      safe := agreed.safeResponder turn
      opening := by
        intro isFresh frame member
        obtain ⟨wasFresh, frames⟩ := turn.fresh agreed.responder isFresh
        apply agreed.opening wasFresh frame
        unfold unreadResponder
        rw [← frames]
        exact member
      coupled := agreed.coupledResponder turn keeps }

end Responder

section Initiator

variable {crypto : Crypto} {pair : DoorbellPair} {house : Doorbell} {action : DoorbellAction}
  {written : List PorchFrame}

theorem Coupled.joint_of_armed (coupled : Coupled crypto pair) {running : Running}
    (isArmed : pair.initiator.stage.armed = some running) : Joint pair running := by
  cases coupled with
  | rests isStage _ =>
      rw [isStage] at isArmed
      cases isArmed
  | asks isStage _ =>
      rw [isStage] at isArmed
      cases isArmed
  | answered isStage _ =>
      rw [isStage] at isArmed
      cases isArmed
  | joins isFound joint =>
      rw [isFound] at isArmed
      cases isArmed
      exact joint
  | ended isStage _ =>
      rw [isStage] at isArmed
      cases isArmed

theorem Coupled.unadopted (coupled : Coupled crypto pair) (read : Exchanged) :
    pair.initiator.stage ≠ .attempting (some read) := by
  intro isRead
  cases coupled with
  | rests isStage _ =>
      rw [isRead] at isStage
      cases isStage
  | asks isStage _ =>
      rw [isRead] at isStage
      cases isStage
  | answered isStage _ =>
      rw [isRead] at isStage
      cases isStage
  | joins isArmed _ =>
      rw [isRead] at isArmed
      cases isArmed
  | ended isStage _ =>
      rw [isRead] at isStage
      cases isStage

theorem Coupled.rest_of_stage (coupled : Coupled crypto pair)
    (stage : pair.initiator.stage = .attempting none) : Rest pair := by
  cases coupled with
  | rests _ rest => exact rest
  | asks isStage _ =>
      rw [stage] at isStage
      cases isStage
  | answered isStage _ =>
      rw [stage] at isStage
      cases isStage
  | joins isArmed _ =>
      rw [stage] at isArmed
      cases isArmed
  | ended isStage _ =>
      rw [stage] at isStage
      cases isStage

/-- A frame the initiator has before it while it waits is the answer. -/
theorem Coupled.answered_of_frame (coupled : Coupled crypto pair) {offer : Offer}
    (stage : pair.initiator.stage = .exchanging offer) {frame : PorchFrame}
    {rest : List PorchFrame} (unread : pair.unreadInitiator = frame :: rest) :
    ∃ half, frame.exchange = some (offer.attempt, half) ∧ exchanges rest = [] ∧
      exchanges pair.unreadResponder = [] ∧
      Settled pair.responder.stage
        ⟨offer.attempt, probeKey crypto offer.attempt offer.half half⟩ := by
  cases coupled with
  | rests isStage _ =>
      rw [stage] at isStage
      cases isStage
  | asks isStage asked =>
      rw [asked.quiet] at unread
      cases unread
  | answered isStage answered =>
      rw [stage] at isStage
      cases isStage
      obtain ⟨first, others, half, isUnread, isExchange, none, settled⟩ := answered.next
      rw [isUnread] at unread
      cases unread
      exact ⟨half, isExchange, none, answered.unasked, settled⟩
  | joins isArmed _ =>
      rw [stage] at isArmed
      cases isArmed
  | ended isStage _ =>
      rw [stage] at isStage
      cases isStage

theorem unreadInitiator_cons {frame : PorchFrame}
    (frames : pair.initiator.frames = some frame :: house.frames) :
    pair.unreadInitiator = frame :: (house.frames.reduceOption ++ pair.toInitiator) := by
  unfold unreadInitiator
  rw [frames, List.reduceOption_cons_of_some]
  rfl

theorem Agreed.coupledInitiator (agreed : Agreed crypto pair)
    (turn : Turn crypto pair.initiator action house written)
    (keeps : pair.crosses (.acts .initiator action) = false) :
    Coupled crypto
      { pair with initiator := house, toResponder := pair.toResponder ++ written } := by
  have shorter : (house.frames.reduceOption ++ pair.toInitiator).Sublist pair.unreadInitiator :=
    (reduceOption_suffix turn.suffix).append_right pair.toInitiator
  have further : pair.responder.frames.reduceOption ++ (pair.toResponder ++ written) =
      pair.unreadResponder ++ written := (List.append_assoc _ _ _).symm
  cases turn with
  | rests stage frames =>
      rw [List.append_nil]
      apply agreed.coupled.lossy
      · exact stage
      · rfl
      · exact shorter
      · intro frame rest isUnread _
        refine ⟨rest, ?_, List.Sublist.refl rest⟩
        show house.frames.reduceOption ++ pair.toInitiator = frame :: rest
        rw [frames]
        exact isUnread
      · exact List.Sublist.refl _
  | goes before after _ =>
      have joint := agreed.coupled.joint_of_armed before
      rw [List.append_nil]
      apply Coupled.joins
      · exact after
      · exact ⟨exchanges_eq_nil_of_sublist shorter joint.unanswered, joint.unasked, joint.settled⟩
  | speaks _ before isFrame after frames =>
      have joint := agreed.coupled.joint_of_armed before
      rcases after with isArmed | ⟨outcome, isEnded⟩
      · apply Coupled.joins
        · exact isArmed
        · constructor
          · exact exchanges_eq_nil_of_sublist shorter joint.unanswered
          · show exchanges (pair.responder.frames.reduceOption ++ (pair.toResponder ++ _)) = []
            rw [further, exchanges_append, joint.unasked, exchanges_cons_none isFrame]
            rfl
          · exact joint.settled
      · apply Coupled.ended
        · exact isEnded
        · exact nofun
  | ends stage safe _ =>
      apply Coupled.ended
      · exact stage
      · exact safe
  | reruns isRerun _ before stage frames =>
      have joint := agreed.coupled.joint_of_armed before
      simp only [crosses] at keeps
      rw [isRerun, Bool.true_and, Bool.not_eq_false', List.isEmpty_iff] at keeps
      rw [List.append_nil]
      apply Coupled.rests
      · exact stage
      · constructor
        · show house.frames.reduceOption ++ pair.toInitiator = []
          rw [frames]
          exact keeps
        · exact joint.unasked
        · exact joint.settled.cases.1
  | opens _ before stage isExchange frames =>
      have rest := agreed.coupled.rest_of_stage before
      apply Coupled.asks
      · exact stage
      · constructor
        · show house.frames.reduceOption ++ pair.toInitiator = []
          rw [frames]
          exact rest.quiet
        · refine Or.inl ⟨rest.free, ?_⟩
          show (exchanges (pair.responder.frames.reduceOption ++ (pair.toResponder ++ _))).Sublist _
          rewrite [further, exchanges_append, rest.unasked, exchanges_cons isExchange]
          exact List.Sublist.refl _
  | listens role _ _ _ =>
      rw [agreed.initiator] at role
      cases role
  | answers stage _ _ _ => exact absurd stage (agreed.coupled.unadopted _)
  | adopts before frames isExchange _ =>
      have none := (agreed.coupled.joint_of_armed before).unanswered
      rw [unreadInitiator_cons frames, exchanges_cons isExchange] at none
      cases none
  | takes role stage frames isExchange attempt isArmed =>
      obtain ⟨half, isAnswer, none, unasked, settled⟩ :=
        agreed.coupled.answered_of_frame stage (unreadInitiator_cons frames)
      rw [isExchange] at isAnswer
      have both := Prod.mk.inj (Option.some.inj isAnswer)
      rw [List.append_nil]
      apply Coupled.joins
      · exact isArmed
      · refine ⟨none, unasked, ?_⟩
        unfold keyFor
        rw [role, if_pos rfl, both.1, both.2]
        exact settled
  | returns role _ _ _ _ _ =>
      rw [agreed.initiator] at role
      cases role
  | refuses stage frames refused _ =>
      obtain ⟨half, isAnswer, _⟩ :=
        agreed.coupled.answered_of_frame stage (unreadInitiator_cons frames)
      rcases refused with none | ⟨_, other⟩
      · rw [none] at isAnswer
        cases isAnswer
      · exact absurd isAnswer (other half)

/-- What the initiator writes before the responder has read a frame is `Candidates`. -/
theorem Agreed.writtenInitiator (agreed : Agreed crypto pair)
    (turn : Turn crypto pair.initiator action house written)
    (isFresh : pair.responder.stage.fresh = true) :
    ∀ frame ∈ written, frame.exchange ≠ none := by
  intro frame member
  cases turn with
  | rests _ _ => cases member
  | goes _ _ _ => cases member
  | speaks _ before _ _ _ =>
      have notFresh := (agreed.coupled.joint_of_armed before).settled.cases.2
      rw [isFresh] at notFresh
      cases notFresh
  | ends _ _ _ => cases member
  | reruns _ _ _ _ _ => cases member
  | opens _ _ _ isExchange _ =>
      rw [List.mem_singleton.mp member, isExchange]
      exact nofun
  | listens _ _ _ _ => cases member
  | answers _ _ isExchange _ =>
      rw [List.mem_singleton.mp member, isExchange]
      exact nofun
  | adopts _ _ _ _ => cases member
  | takes _ _ _ _ _ _ => cases member
  | returns _ _ _ _ _ isWritten =>
      rw [List.mem_singleton.mp member, isWritten]
      exact nofun
  | refuses _ _ _ _ => cases member

theorem Agreed.actsInitiator (agreed : Agreed crypto pair) (action : DoorbellAction)
    (keeps : pair.crosses (.acts .initiator action) = false) :
    Agreed crypto (pair.step crypto (.acts .initiator action)) := by
  have turn := turn_act crypto pair.initiator action
  have same := same_act crypto pair.initiator action
  exact
    { initiator := by
        show ((pair.initiator.act crypto action).1.params.role == 1) = true
        rw [same.1]
        exact agreed.initiator
      responder := agreed.responder
      clear := by
        intro isReading member
        change (pair.initiator.act crypto action).1.reading = true at isReading
        rw [same.2] at isReading
        exact agreed.clear isReading (turn.suffix.subset member)
      safe := agreed.safe
      opening := by
        intro isFresh frame member
        have either : frame ∈ pair.unreadResponder ++ (pair.initiator.act crypto action).2 := by
          have inside : frame ∈ pair.responder.frames.reduceOption ++
              (pair.toResponder ++ (pair.initiator.act crypto action).2) := member
          rw [← List.append_assoc] at inside
          exact inside
        rw [List.mem_append] at either
        rcases either with before | isWritten
        · exact agreed.opening isFresh frame before
        · exact agreed.writtenInitiator turn isFresh frame isWritten
      coupled := agreed.coupledInitiator turn keeps }

end Initiator

section Stream

variable {crypto : Crypto} {pair : DoorbellPair} {house : Doorbell}

theorem stage_arrives (house : Doorbell) (frame : Option PorchFrame) :
    (house.arrives frame).stage = house.stage ∧ (house.arrives frame).params = house.params := by
  unfold arrives
  split
  · exact ⟨rfl, rfl⟩
  · exact ⟨rfl, rfl⟩

/-- What a running reader takes goes to the end of the queue, or is lost where that is full. -/
theorem frames_arrives (isReading : house.reading = true) (frame : Option PorchFrame) :
    (house.arrives frame).frames = house.frames ++ [frame] ∨
      porchFrameQueue ≤ house.frames.length ∧ (house.arrives frame).frames = house.frames := by
  unfold arrives
  rw [if_pos isReading]
  by_cases room : house.frames.length < porchFrameQueue
  · left
    exact if_pos room
  · right
    exact ⟨Nat.le_of_not_lt room, if_neg room⟩

theorem unread_arrives (isReading : house.reading = true) (frame : PorchFrame)
    (rest : List PorchFrame) :
    (house.arrives (some frame)).frames.reduceOption ++ rest =
        house.frames.reduceOption ++ frame :: rest ∨
      porchFrameQueue ≤ house.frames.length ∧
        (house.arrives (some frame)).frames.reduceOption ++ rest =
          house.frames.reduceOption ++ rest := by
  rcases frames_arrives isReading (some frame) with pushed | ⟨full, same⟩
  · left
    rw [pushed, List.reduceOption_append, List.append_assoc]
    rfl
  · right
    rw [same]
    exact ⟨full, rfl⟩

theorem unread_break (house : Doorbell) :
    (house.arrives none).frames.reduceOption = house.frames.reduceOption := by
  unfold arrives
  split
  · show (if _ then house.frames ++ [none] else house.frames).reduceOption = _
    split
    · rw [List.reduceOption_append]
      exact List.append_nil _
    · rfl
  · rfl

theorem sublist_lost (before : List PorchFrame) (frame : PorchFrame) (rest : List PorchFrame) :
    (before ++ rest).Sublist (before ++ frame :: rest) :=
  (List.Sublist.refl before).append (List.sublist_cons_self frame rest)

theorem Agreed.deliversInitiator (agreed : Agreed crypto pair) :
    Agreed crypto (pair.step crypto (.delivers .initiator)) := by
  simp only [step]
  split
  · exact agreed
  · next frame rest isStream =>
      split
      · next isReading =>
          obtain ⟨stage, params⟩ := stage_arrives pair.initiator (some frame)
          have before : pair.unreadInitiator =
              pair.initiator.frames.reduceOption ++ frame :: rest := by
            unfold unreadInitiator
            rw [isStream]
          exact
            { initiator := by
                show ((pair.initiator.arrives (some frame)).params.role == 1) = true
                rw [params]
                exact agreed.initiator
              responder := agreed.responder
              clear := by
                intro _ member
                change none ∈ (pair.initiator.arrives (some frame)).frames at member
                rcases frames_arrives isReading (some frame) with pushed | ⟨_, same⟩
                · rw [pushed, List.mem_append] at member
                  rcases member with old | new
                  · exact agreed.clear isReading old
                  · cases List.mem_singleton.mp new
                · rw [same] at member
                  exact agreed.clear isReading member
              safe := agreed.safe
              opening := agreed.opening
              coupled := by
                rcases unread_arrives isReading frame rest with same | ⟨full, lost⟩
                · apply agreed.coupled.lossy
                  · exact stage
                  · rfl
                  · rewrite [before, ← same]
                    exact List.Sublist.refl _
                  · intro first others isUnread _
                    rw [before, ← same] at isUnread
                    exact ⟨others, isUnread, List.Sublist.refl others⟩
                  · exact List.Sublist.refl _
                · apply agreed.coupled.lossy
                  · exact stage
                  · rfl
                  · rw [before]
                    show ((pair.initiator.arrives (some frame)).frames.reduceOption ++ rest).Sublist _
                    rw [lost]
                    exact sublist_lost _ frame rest
                  · -- a full queue begins with a frame, and that stays
                    intro first others isUnread _
                    cases isQueue : pair.initiator.frames with
                    | nil =>
                        rw [isQueue] at full
                        cases full
                    | cons oldest later =>
                        cases oldest with
                        | none =>
                            have clear := agreed.clear isReading
                            rw [isQueue] at clear
                            exact absurd List.mem_cons_self clear
                        | some oldest =>
                            rw [before, isQueue, List.reduceOption_cons_of_some] at isUnread
                            cases isUnread
                            refine ⟨later.reduceOption ++ rest, ?_, sublist_lost _ frame rest⟩
                            show (pair.initiator.arrives (some frame)).frames.reduceOption ++ rest = _
                            rw [lost, isQueue, List.reduceOption_cons_of_some]
                            rfl
                  · exact List.Sublist.refl _ }
      · exact agreed

theorem Agreed.deliversResponder (agreed : Agreed crypto pair) :
    Agreed crypto (pair.step crypto (.delivers .responder)) := by
  simp only [step]
  split
  · exact agreed
  · next frame rest isStream =>
      split
      · next isReading =>
          obtain ⟨stage, params⟩ := stage_arrives pair.responder (some frame)
          have shorter : ((pair.responder.arrives (some frame)).frames.reduceOption ++ rest).Sublist
              pair.unreadResponder := by
            unfold unreadResponder
            rw [isStream]
            rcases unread_arrives isReading frame rest with same | ⟨_, lost⟩
            · rewrite [same]
              exact List.Sublist.refl _
            · rw [lost]
              exact sublist_lost _ frame rest
          exact
            { initiator := agreed.initiator
              responder := by
                show ((pair.responder.arrives (some frame)).params.role == 1) = false
                rw [params]
                exact agreed.responder
              clear := agreed.clear
              safe := by
                show (pair.responder.arrives (some frame)).stage ≠ _
                rw [stage]
                exact agreed.safe
              opening := by
                intro isFresh other member
                change (pair.responder.arrives (some frame)).stage.fresh = true at isFresh
                rw [stage] at isFresh
                exact agreed.opening isFresh other (shorter.subset member)
              coupled := by
                apply agreed.coupled.lossy
                · rfl
                · exact stage
                · exact List.Sublist.refl _
                · exact fun first others isUnread _ => ⟨others, isUnread, List.Sublist.refl others⟩
                · exact shorter }
      · exact agreed

theorem Agreed.breaks (agreed : Agreed crypto pair) (side : Side) :
    Agreed crypto (pair.step crypto (.breaks side)) := by
  cases side with
  | initiator =>
      obtain ⟨stage, params⟩ := stage_arrives pair.initiator none
      have unread : (pair.initiator.arrives none).frames.reduceOption ++ pair.toInitiator =
          pair.unreadInitiator := by
        rw [unread_break]
        rfl
      exact
        { initiator := by
            show ((pair.initiator.arrives none).params.role == 1) = true
            rw [params]
            exact agreed.initiator
          responder := agreed.responder
          clear := by
            intro isReading
            change (pair.initiator.arrives none).reading = true at isReading
            unfold arrives at isReading
            split at isReading
            · cases isReading
            · next notReading => exact absurd isReading notReading
          safe := agreed.safe
          opening := agreed.opening
          coupled := by
            apply agreed.coupled.lossy
            · exact stage
            · rfl
            · show ((pair.initiator.arrives none).frames.reduceOption ++ pair.toInitiator).Sublist _
              rewrite [unread]
              exact List.Sublist.refl _
            · exact fun first others isUnread _ =>
                ⟨others, unread.trans isUnread, List.Sublist.refl others⟩
            · exact List.Sublist.refl _ }
  | responder =>
      obtain ⟨stage, params⟩ := stage_arrives pair.responder none
      have unread : (pair.responder.arrives none).frames.reduceOption ++ pair.toResponder =
          pair.unreadResponder := by
        rw [unread_break]
        rfl
      exact
        { initiator := agreed.initiator
          responder := by
            show ((pair.responder.arrives none).params.role == 1) = false
            rw [params]
            exact agreed.responder
          clear := agreed.clear
          safe := by
            show (pair.responder.arrives none).stage ≠ _
            rw [stage]
            exact agreed.safe
          opening := by
            intro isFresh frame member
            change (pair.responder.arrives none).stage.fresh = true at isFresh
            rw [stage] at isFresh
            apply agreed.opening isFresh frame
            rw [← unread]
            exact member
          coupled := by
            apply agreed.coupled.lossy
            · rfl
            · exact stage
            · exact List.Sublist.refl _
            · exact fun first others isUnread _ => ⟨others, isUnread, List.Sublist.refl others⟩
            · show ((pair.responder.arrives none).frames.reduceOption ++ pair.toResponder).Sublist _
              rewrite [unread]
              exact List.Sublist.refl _ }

end Stream

/-- An action that crosses nothing keeps the two agreed. -/
theorem agreed_step {crypto : Crypto} {pair : DoorbellPair} (agreed : Agreed crypto pair)
    (action : PairAction) (keeps : pair.crosses action = false) :
    Agreed crypto (pair.step crypto action) := by
  cases action with
  | acts side action =>
      cases side with
      | initiator => exact agreed.actsInitiator action keeps
      | responder => exact agreed.actsResponder action keeps
  | delivers side =>
      cases side with
      | initiator => exact agreed.deliversInitiator
      | responder => exact agreed.deliversResponder
  | breaks side => exact agreed.breaks side

/-! ## Every run -/

/-- Neither side ended over a frame of the other, and where both are armed with an attempt of
one id they hold the same key. -/
structure Understood (pair : DoorbellPair) : Prop where
  initiator : pair.initiator.stage ≠ .ended (.error .protocol)
  responder : pair.responder.stage ≠ .ended (.error .protocol)
  key : ∀ first second, pair.initiator.stage.armed = some first →
    pair.responder.stage.armed = some second → first.attempt = second.attempt →
    first.key = second.key

theorem Agreed.understood {crypto : Crypto} {pair : DoorbellPair} (agreed : Agreed crypto pair) :
    Understood pair where
  initiator := by
    intro isEnded
    cases agreed.coupled with
    | rests isStage _ =>
        rw [isEnded] at isStage
        cases isStage
    | asks isStage _ =>
        rw [isEnded] at isStage
        cases isStage
    | answered isStage _ =>
        rw [isEnded] at isStage
        cases isStage
    | joins isArmed _ =>
        rw [isEnded] at isArmed
        cases isArmed
    | ended isStage safe =>
        rw [isEnded] at isStage
        exact safe (DoorbellStage.ended.inj isStage).symm
  responder := agreed.safe
  key := by
    intro first second isFirst isSecond _
    rcases (agreed.coupled.joint_of_armed isFirst).settled with same | ⟨result, isEnded⟩
    · rw [isSecond] at same
      rw [Option.some.inj same]
    · rw [isEnded] at isSecond
      cases isSecond

/-- In every run in which nothing crosses, the two understand each other. -/
theorem porch_understood (crypto : Crypto) (holds : Hold × Hold) (noPunch : Bool × Bool)
    (synthetics : SocketAddr × SocketAddr) (paths : Option PathEntry × Option PathEntry)
    (started : Nat × Nat) (actions : List PairAction)
    (keeps : Guarded (step crypto) (fun pair action => pair.crosses action = false)
      (new holds noPunch synthetics paths started) actions) :
    Understood (run (step crypto) (new holds noPunch synthetics paths started) actions) := by
  have preserved : ∀ (pair : DoorbellPair) action, Agreed crypto pair →
      pair.crosses action = false → Agreed crypto (pair.step crypto action) :=
    fun _ action agreed kept => agreed_step agreed action kept
  have start := agreed_new crypto holds noPunch synthetics paths started
  exact (run_preserves preserved start keeps).understood

/-! ### A rerun -/

def firstAttempt : Bytes16 := List.Vector.replicate 16 1

def secondAttempt : Bytes16 := List.Vector.replicate 16 2

def initiatorHalf : Bytes32 := List.Vector.replicate 32 3

def responderHalf : Bytes32 := List.Vector.replicate 32 4

/-- The address the responder finds a path to. -/
def foundAddress : SocketAddr := ⟨.v4 (List.Vector.replicate 4 9), 4433⟩

theorem length_suffix (input : List UInt8) :
    ((input.reverse ++ List.replicate 32 0).take 32).length = 32 := by
  simp

/-- Primitives under which a digest is the last 32 bytes, in reverse. -/
def suffixCrypto : Crypto where
  blake3 input := ⟨(input.reverse ++ List.replicate 32 0).take 32, length_suffix input⟩
  verifyingKey _ := true
  verifyStrict _ _ _ := true

/-- Two houses that hold the visit open. -/
def heldPair : DoorbellPair :=
  new (.untilPeerLeaves, .untilPeerLeaves) (false, false) (foundAddress, foundAddress)
    (none, none) (0, 0)

/-- The two exchange candidates for an attempt. -/
def exchange (attempt : Bytes16) : List PairAction :=
  [.acts .initiator (.begins attempt initiatorHalf [] 0 false), .delivers .responder]

/-- The responder answers its first exchange, both are started, and the responder finds a path. -/
def upgraded : List PairAction :=
  exchange firstAttempt ++
    [.acts .responder (.begins firstAttempt responderHalf [] 0 false),
      .acts .responder (.expects 0 false), .delivers .initiator,
      .acts .initiator (.expects 0 false), .acts .initiator (.startRequested 0 false),
      .acts .initiator (.startAwaited 0 false), .acts .responder (.startAwaited 0 false),
      .acts .responder (.wins foundAddress 0 0 false)]

/-- A turn of the responder's watch, so many milliseconds into it. -/
def watchedAt (millis : Nat) : PairAction :=
  .acts .responder (.turns false (List.Vector.replicate 8 0) (fromMillis millis) true false)

/-- No probe is answered, and the path goes stale. -/
def stale : List PairAction :=
  [watchedAt 0, watchedAt 600, watchedAt 1200, watchedAt 1800, watchedAt 2400, watchedAt 3000]

/-- The initiator reads `PathUp` and `PathDown`, and reruns. -/
def leavesPath : List PairAction :=
  [.delivers .initiator, .delivers .initiator, .acts .initiator (.reads 0),
    .acts .initiator (.reads 0)]

/-- The responder adopts the second attempt and answers it. -/
def adopted : List PairAction :=
  exchange secondAttempt ++
    [.acts .responder (.reads 0), .acts .responder (.begins firstAttempt responderHalf [] 0 false),
      .delivers .initiator, .acts .initiator (.expects 0 false)]

/-- The responder is asked to stop, and says goodbye. -/
def stopped : List PairAction := [.acts .responder .stops, .acts .responder (.leaves 0 false)]

theorem porch_understood_rerun :
    Understood (run (step suffixCrypto) heldPair (upgraded ++ stale ++ leavesPath ++ adopted)) :=
  porch_understood suffixCrypto (.untilPeerLeaves, .untilPeerLeaves) (false, false)
    (foundAddress, foundAddress) (none, none) (0, 0) (upgraded ++ stale ++ leavesPath ++ adopted)
    (by decide)

/-- The goodbye of the attempt that is left is on its way when the initiator reruns, and ends
its visit as a frame that is not `Candidates`. -/
theorem refused_stopped :
    let pair := run (step suffixCrypto) heldPair
      (upgraded ++ stale ++ stopped ++ leavesPath ++ exchange secondAttempt ++
        [.delivers .initiator, .acts .initiator (.expects 0 false)])
    pair.initiator.stage = .ended (.error .protocol) ∧ ¬Understood pair := by
  intro pair
  have isEnded : pair.initiator.stage = .ended (.error .protocol) := by rfl
  exact ⟨isEnded, fun understood => understood.initiator isEnded⟩

end DoorbellPair

end Mosschat.Net
