import Mosschat.Net.Gate.StartReader

/-!
Owns whether a `Start` reaches the doorbell it is for: what no action may do for nothing
to be forgotten or lost, and where each `Start` is after every run that keeps to that.

Does not own the introductions a session comes from, nor what a doorbell does with a
`Start`.
-/

namespace Mosschat.Net.Gate

open Mosschat.Library Mosschat.Library.Machine Mosschat.Library.Oneshot

namespace Visits

/-! ## When nothing is forgotten or lost -/

/-- The reader's signal gets to a call or into its slot, and nothing due is written over. -/
def placeable (world : Visits) (signal : StartSignal) : Bool :=
  match (world.slot signal.session).waiter with
  | some waiter =>
    !world.isDue signal.frame || decide (world.calls.Waits waiter signal.session)
  | none =>
    !world.keepsDue signal.session &&
      (!world.isDue signal.frame ||
        decide (world.starts.entries.length < limits.maxSessionsPerRegistration) ||
        decide (signal.session ∈ world.starts))

/-- What no action may do: forget a session that is watched, ring for one that has no
entry, or take a `Start` from a slot without a call that gets it. -/
def loses (world : Visits) : VisitAction → Bool
  | .gateOpens session => world.rings session && decide (session ∉ world.sessions)
  | .rememberSession session (some _) now =>
    world.doorbells.values.any fun doorbell =>
      doorbell.session != session && world.live.contains doorbell.session &&
        !world.sessions.spares doorbell.session session now
  | .readStart _ =>
    (world.sent[world.read]?).any fun frame =>
      frame.due && !world.watched frame.session && decide (frame.session ∉ world.sessions)
  | .placeStart => world.reading.any fun signal => !world.placeable signal
  | .runDoorbell _ session => decide (session ∉ world.sessions)
  | .removeSlot visit =>
    match world.doorbells.lookup visit with
    | some ⟨session, .dropping⟩ => world.keepsDue session
    | _ => false
  | .leave call =>
    match world.calls.lookup call with
    | some ⟨session, .leaving⟩ => world.keepsDue session
    | _ => false
  | _ => false

section Keeping

variable {world next : Visits}

theorem isDue_of_extends (sent : world.sent <+: next.sent) {index : Nat}
    (inRange : index < world.sent.length) : next.isDue index = world.isDue index := by
  obtain ⟨rest, isNext⟩ := sent
  unfold isDue
  rw [← isNext, List.getElem?_append_left inRange]

/-- What is due and is somewhere stays somewhere. -/
theorem Kept.onward (kept : Kept world) (sound : Sound world) (read : next.read = world.read)
    (sent : world.sent <+: next.sent)
    (stays : ∀ place signal, world.signalAt place = some signal → world.isDue signal.frame = true →
      ∃ other, next.signalAt other = some signal) : Kept next := by
  intro index isDue wasRead
  rw [read] at wasRead
  have inRange : index < world.sent.length := Nat.lt_of_lt_of_le wasRead sound.few
  rw [isDue_of_extends sent inRange] at isDue
  obtain ⟨place, signal, isAt, isFrame⟩ := kept index isDue wasRead
  obtain ⟨other, isOther⟩ := stays place signal isAt (isFrame ▸ isDue)
  exact ⟨other, signal, isOther, isFrame⟩

theorem Kept.same (kept : Kept world) (sound : Sound world) (read : next.read = world.read)
    (sent : world.sent <+: next.sent)
    (same : ∀ place, next.signalAt place = world.signalAt place) : Kept next := by
  apply kept.onward sound read sent
  intro place signal isAt _
  exact ⟨place, (same place).trans isAt⟩

/-- A slot that keeps nothing due can go. -/
theorem Kept.dropSlot (kept : Kept world) (sound : Sound world) {session : UInt32}
    (nothing : world.keepsDue session = false) : Kept (world.dropSlot session) := by
  apply kept.onward sound
  · rfl
  · exact List.prefix_refl world.sent
  · intro place signal isAt isDue
    refine ⟨place, ?_⟩
    rw [signalAt_dropSlot]
    split
    · next isSlot =>
        rw [isSlot] at isAt
        have isReceived : (world.slot session).received = some signal := isAt
        unfold keepsDue at nothing
        rw [isReceived, Option.any_some, isDue] at nothing
        cases nothing
    · exact isAt

/-- A call takes what it finds. -/
theorem Kept.await (kept : Kept world) (sound : Sound world) {id : CallId}
    (fresh : id ∉ world.calls) (session : UInt32) : Kept (world.await id session) := by
  have sameRest : (world.await id session).read = world.read ∧
      (world.await id session).sent = world.sent := by
    unfold Visits.await
    split <;> exact ⟨rfl, rfl⟩
  apply kept.onward sound
  · exact sameRest.1
  · rewrite [sameRest.2]
    exact List.prefix_refl world.sent
  · intro place signal isAt _
    have notCall : place ≠ .call id := by
      intro isCall
      rw [isCall] at isAt
      have nothing : world.signalAt (.call id) = none := by
        show (world.calls.lookup id).bind _ = none
        rw [AList.lookup_eq_none.mpr fresh]
        rfl
      rw [nothing] at isAt
      cases isAt
    by_cases isSlot : place = .slot session
    · refine ⟨.call id, ?_⟩
      rw [signalAt_await, if_pos rfl]
      rw [isSlot] at isAt
      exact isAt
    · refine ⟨place, ?_⟩
      rw [signalAt_await, if_neg notCall, if_neg isSlot]
      exact isAt

theorem Kept.keepStart (kept : Kept world) (sound : Sound world) {signal : StartSignal}
    (isReading : world.reading = some signal)
    (nothingDue : world.keepsDue signal.session = false) :
    Kept { world with
      starts := world.starts.put signal.session
        { world.slot signal.session with received := some signal }
      reading := none } := by
  apply kept.onward sound
  · rfl
  · exact List.prefix_refl world.sent
  · intro place found isAt isDue
    by_cases isReader : place = .reader
    · rw [isReader] at isAt
      have isFound : world.reading = some found := isAt
      rw [isReading] at isFound
      refine ⟨.slot signal.session, ?_⟩
      rw [signalAt_keepStart, if_pos rfl]
      exact isFound
    · refine ⟨place, ?_⟩
      have notSlot : place ≠ .slot signal.session := by
        intro isSlot
        rw [isSlot] at isAt
        have isReceived : (world.slot signal.session).received = some found := isAt
        unfold keepsDue at nothingDue
        rw [isReceived, Option.any_some, isDue] at nothingDue
        cases nothingDue
      rw [signalAt_keepStart, if_neg notSlot, if_neg isReader]
      exact isAt

theorem Kept.handOver (kept : Kept world) (sound : Sound world) {signal : StartSignal}
    {waiter : CallId} (isReading : world.reading = some signal)
    (isWaiter : (world.slot signal.session).waiter = some waiter)
    (waits : world.isDue signal.frame = true → world.calls.Waits waiter signal.session) :
    Kept { world with
      starts := world.starts.erase signal.session
      calls := world.calls.move waiter (Stage.send signal)
      reading := none } := by
  apply kept.onward sound
  · rfl
  · exact List.prefix_refl world.sent
  · intro place found isAt isDue
    cases place with
    | reader =>
        have isFound : world.reading = some found := isAt
        rw [isReading] at isFound
        cases isFound
        have isThere : world.calls.lookup waiter = some ⟨signal.session, .waiting⟩ := waits isDue
        refine ⟨.call waiter, ?_⟩
        show ((world.calls.move waiter (Stage.send signal)).lookup waiter).bind _ = _
        rw [Calls.lookup_move, if_pos rfl, isThere]
        rfl
    | slot session =>
        refine ⟨.slot session, ?_⟩
        show (((world.starts.erase signal.session).lookup session).getD .empty).received = _
        have apart : session ≠ signal.session := by
          intro same
          have noWaiter := sound.idle session found isAt
          rw [same, isWaiter] at noWaiter
          cases noWaiter
        rw [slot_erase, if_neg apart]
        exact isAt
    | call id =>
        refine ⟨.call id, ?_⟩
        obtain ⟨call, isThere, isGot⟩ := Option.bind_eq_some_iff.mp isAt
        have notWaiting : call.stage ≠ .waiting := by
          intro isWaiting
          rw [isWaiting] at isGot
          cases isGot
        show ((world.calls.move waiter (Stage.send signal)).lookup id).bind _ = _
        rw [Calls.lookup_move_of_lookup isThere, Option.bind_some,
          Stage.got_send_of_ne_waiting signal notWaiting, ite_self]
        exact isGot

/-- What the reader holds goes where it may be put. -/
theorem Kept.placeStart (kept : Kept world) (sound : Sound world) {signal : StartSignal}
    (isReading : world.reading = some signal) (placeable : world.placeable signal = true) :
    Kept { world.place signal with reading := none } := by
  unfold Visits.placeable at placeable
  cases isWaiter : (world.slot signal.session).waiter with
  | some waiter =>
      rw [isWaiter, Bool.or_eq_true, Bool.not_eq_true', decide_eq_true_iff] at placeable
      rw [place_of_waiter isWaiter]
      apply kept.handOver sound isReading isWaiter
      intro isDue
      rw [isDue] at placeable
      exact placeable.resolve_left nofun
  | none =>
      rw [isWaiter, Bool.and_eq_true, Bool.not_eq_true', Bool.or_eq_true, Bool.or_eq_true,
        Bool.not_eq_true', decide_eq_true_iff, decide_eq_true_iff] at placeable
      obtain ⟨nothingDue, roomy⟩ := placeable
      rw [place_of_no_waiter isWaiter]
      split
      · next full =>
          apply kept.onward sound
          · rfl
          · exact List.prefix_refl world.sent
          · intro place found isAt isDue
            refine ⟨place, ?_⟩
            cases place with
            | reader =>
                have isFound : world.reading = some found := isAt
                rw [isReading] at isFound
                cases isFound
                rw [isDue] at roomy
                rcases roomy with (notDue | room) | occupied
                · cases notDue
                · exact absurd room (Nat.not_lt.mpr full.1)
                · exact absurd occupied full.2
            | slot session => exact isAt
            | call id => exact isAt
      · exact kept.keepStart sound isReading nothingDue

theorem rings_iff (world : Visits) (session : UInt32) :
    world.rings session = true ↔
      ∃ visit guard, world.doorbells.lookup visit = some ⟨session, guard⟩ := by
  unfold rings
  rw [List.any_eq_true]
  constructor
  · intro some
    obtain ⟨doorbell, member, same⟩ := some
    obtain ⟨visit, isThere⟩ := (HashMap.mem_values _ _).mp member
    have isSession : doorbell.session = session := eq_of_beq same
    refine ⟨visit, doorbell.guard, ?_⟩
    rw [isThere, ← isSession]
  · intro some
    obtain ⟨visit, guard, isThere⟩ := some
    exact ⟨_, (HashMap.mem_values _ _).mpr ⟨visit, isThere⟩, beq_self_eq_true session⟩

theorem watched_iff (world : Visits) (session : UInt32) :
    world.watched session = true ↔ session ∈ world.live ∧ world.rings session = true := by
  unfold watched
  rw [Bool.and_eq_true, List.contains_iff_mem]

/-- A doorbell that goes on is one for the same session. -/
theorem rings_of_put {visit : Nat} {session other : UInt32} {guard before : Guard}
    (isThere : world.doorbells.lookup visit = some ⟨session, before⟩)
    (doorbells : next.doorbells = world.doorbells.put visit ⟨session, guard⟩)
    (rings : next.rings other = true) : world.rings other = true := by
  rw [rings_iff] at rings ⊢
  obtain ⟨another, itsGuard, isAnother⟩ := rings
  rw [doorbells, HashMap.lookup_put] at isAnother
  split at isAnother
  · cases isAnother
    exact ⟨visit, before, isThere⟩
  · exact ⟨another, itsGuard, isAnother⟩

/-- Nothing is forgotten where no session comes to be watched and no entry goes. -/
theorem Remembered.onward (remembered : Remembered world)
    (watched : ∀ session, next.watched session = true → world.watched session = true)
    (stays : ∀ session, session ∈ world.sessions → session ∈ next.sessions) : Remembered next := by
  intro session isWatched
  exact stays session (remembered session (watched session isWatched))

theorem remembered_step (action : VisitAction) (sound : Sound world)
    (remembered : Remembered world) (keeps : world.loses action = false) :
    Remembered (world.step action) := by
  cases action with
  | gateOpens session =>
      simp only [step]
      split
      · exact remembered
      · intro other isWatched
        rw [watched_iff] at isWatched
        by_cases same : other = session
        · rw [same]
          by_contra isAbsent
          have absent : session ∉ world.sessions := isAbsent
          have rings : world.rings session = true := same ▸ isWatched.2
          simp only [loses] at keeps
          rw [rings, decide_eq_true absent] at keeps
          cases keeps
        · have wasLive : other ∈ world.live := (List.mem_cons.mp isWatched.1).resolve_left same
          exact remembered other ((watched_iff world other).mpr ⟨wasLive, isWatched.2⟩)
  | gateCloses session =>
      apply remembered.onward
      · intro other isWatched
        rw [watched_iff] at isWatched ⊢
        exact ⟨List.mem_of_mem_filter isWatched.1, isWatched.2⟩
      · exact fun _ inside => inside
  | gateStarts session fireInMs gateMs => exact remembered
  | rememberSession session peerObserved now =>
      cases peerObserved with
      | none => exact remembered
      | some peerObserved =>
          intro other isWatched
          by_cases same : other = session
          · rw [same, ← AList.lookup_isSome]
            show ((world.sessions.rememberSession session _ now).lookup session).isSome = true
            rw [SessionMap.lookup_rememberSession_self]
            rfl
          · have wasWatched : world.watched other = true := isWatched
            have inside := remembered other wasWatched
            rw [watched_iff, rings_iff] at wasWatched
            obtain ⟨isLive, visit, guard, isRinging⟩ := wasWatched
            have spared : world.sessions.spares other session now = true := by
              simp only [loses] at keeps
              rw [List.any_eq_false] at keeps
              have held := keeps _ ((HashMap.mem_values _ _).mpr ⟨visit, isRinging⟩)
              simpa [same, isLive] using held
            rw [← AList.lookup_isSome] at inside ⊢
            show ((world.sessions.rememberSession session _ now).lookup other).isSome = true
            rw [SessionMap.lookup_rememberSession sound.sized same spared]
            exact inside
  | readStart now =>
      simp only [step]
      split <;> exact remembered
  | placeStart =>
      simp only [step]
      split
      · exact remembered
      · next signal isReading =>
          have sameRest : (world.place signal).sessions = world.sessions ∧
              (world.place signal).live = world.live ∧
              (world.place signal).doorbells = world.doorbells := by
            unfold Visits.place
            split
            · exact ⟨rfl, rfl, rfl⟩
            · split <;> exact ⟨rfl, rfl, rfl⟩
          apply remembered.onward
          · intro other isWatched
            rw [watched_iff, rings_iff] at isWatched ⊢
            rw [← sameRest.2.1, ← sameRest.2.2]
            exact isWatched
          · intro other inside
            show other ∈ (world.place signal).sessions
            rw [sameRest.1]
            exact inside
  | runDoorbell visit session =>
      simp only [step]
      split
      · exact remembered
      · intro other isWatched
        have isHeld : session ∈ world.sessions := by
          by_contra absent
          simp only [loses] at keeps
          rw [decide_eq_true absent] at keeps
          cases keeps
        rw [watched_iff, rings_iff] at isWatched
        obtain ⟨isLive, another, guard, isAnother⟩ := isWatched
        rw [HashMap.lookup_put] at isAnother
        split at isAnother
        · cases isAnother
          exact isHeld
        · apply remembered other
          rw [watched_iff, rings_iff]
          exact ⟨isLive, another, guard, isAnother⟩
  | armAttempt visit =>
      simp only [step]
      split
      · next session isThere =>
          apply remembered.onward
          · intro other isWatched
            rw [watched_iff] at isWatched ⊢
            exact ⟨isWatched.1, rings_of_put isThere rfl isWatched.2⟩
          · exact fun _ inside => inside
      · exact remembered
  | finishAttempt visit =>
      simp only [step]
      split
      · next session isThere =>
          apply remembered.onward
          · intro other isWatched
            rw [watched_iff] at isWatched ⊢
            exact ⟨isWatched.1, rings_of_put isThere rfl isWatched.2⟩
          · intro other inside
            exact (SessionMap.mem_markFinished world.sessions session other).mpr inside
      · exact remembered
  | removeSlot visit =>
      simp only [step]
      split
      · next session isThere =>
          apply remembered.onward
          · intro other isWatched
            rw [watched_iff] at isWatched ⊢
            exact ⟨isWatched.1, rings_of_put isThere rfl isWatched.2⟩
          · exact fun _ inside => inside
      · exact remembered
  | endDoorbell visit =>
      simp only [step]
      split
      · next session isThere =>
          apply remembered.onward
          · intro other isWatched
            rw [watched_iff, rings_iff] at isWatched ⊢
            obtain ⟨isLive, another, guard, isAnother⟩ := isWatched
            rw [HashMap.lookup_erase] at isAnother
            split at isAnother
            · cases isAnother
            · exact ⟨isLive, another, guard, isAnother⟩
          · exact fun _ inside => inside
      · exact remembered
  | awaitStart call session =>
      simp only [step]
      split
      · exact remembered
      · unfold Visits.await
        split <;> exact remembered
  | deadline call => exact remembered
  | wake call => exact remembered
  | leave call =>
      simp only [step]
      split <;> exact remembered
  | cancel call => exact remembered

theorem kept_step (action : VisitAction) (sound : Sound world) (remembered : Remembered world)
    (kept : Kept world) (keeps : world.loses action = false) : Kept (world.step action) := by
  cases action with
  | gateOpens session =>
      simp only [step]
      split <;> exact kept
  | gateCloses session => exact kept
  | gateStarts session fireInMs gateMs =>
      exact kept.same sound rfl (List.prefix_append _ _) fun _ => rfl
  | rememberSession session peerObserved now => exact kept
  | readStart now =>
      simp only [step]
      split
      · next frame idleReader isNext =>
          intro index isDue wasRead
          by_cases isLast : index = world.read
          · have frameDue : frame.due = true := by
              have due : (world.sent[index]?).any SentStart.due = true := isDue
              rw [isLast, isNext] at due
              exact due
            have isHeld : frame.session ∈ world.sessions := by
              by_contra absent
              have unwatched : world.watched frame.session = false := by
                by_contra watched
                exact absent (remembered _ (Bool.eq_true_of_not_eq_false watched))
              simp only [loses] at keeps
              rw [isNext, Option.any_some, frameDue, unwatched, decide_eq_true absent] at keeps
              cases keeps
            refine ⟨.reader, frame.signal now world.read, ?_, isLast.symm⟩
            exact if_pos isHeld
          · have wasReadBefore : index < world.read := by
              have below : index < world.read + 1 := wasRead
              omega
            obtain ⟨place, signal, isAt, isFrame⟩ := kept index isDue wasReadBefore
            refine ⟨place, signal, ?_, isFrame⟩
            cases place with
            | reader =>
                have isReading : world.reading = some signal := isAt
                rw [idleReader] at isReading
                cases isReading
            | slot session => exact isAt
            | call id => exact isAt
      · exact kept
  | placeStart =>
      simp only [step]
      split
      · exact kept
      · next signal isReading =>
          have placeable : world.placeable signal = true := by
            simp only [loses] at keeps
            rw [isReading] at keeps
            simpa using keeps
          exact kept.placeStart sound isReading placeable
  | runDoorbell visit session =>
      simp only [step]
      split <;> exact kept
  | armAttempt visit =>
      simp only [step]
      split <;> exact kept
  | finishAttempt visit =>
      simp only [step]
      split <;> exact kept
  | removeSlot visit =>
      simp only [step]
      split
      · next session isDropping =>
          have nothing : world.keepsDue session = false := by
            simp only [loses] at keeps
            rw [isDropping] at keeps
            exact keeps
          exact kept.dropSlot sound nothing
      · exact kept
  | endDoorbell visit =>
      simp only [step]
      split <;> exact kept
  | awaitStart call session =>
      simp only [step]
      split
      · exact kept
      · next fresh => exact kept.await sound fresh session
  | deadline call =>
      exact kept.same sound rfl (List.prefix_refl _) (signalAt_moveCall call Stage.got_expire)
  | wake call =>
      exact kept.same sound rfl (List.prefix_refl _) (signalAt_moveCall call Stage.got_wake)
  | leave call =>
      simp only [step]
      split
      · next session isLeaving =>
          have nothing : world.keepsDue session = false := by
            simp only [loses] at keeps
            rw [isLeaving] at keeps
            exact keeps
          have dropped := kept.dropSlot sound nothing
          exact dropped.same (sound.dropSlot session) rfl (List.prefix_refl _)
            (signalAt_moveCall call Stage.got_leave)
      · exact kept
  | cancel call =>
      exact kept.same sound rfl (List.prefix_refl _) (signalAt_moveCall call Stage.got_cancel)

end Keeping

/-! ## Runs -/

/-- A due frame is on its way, or in one place, which is one for its session: the reader's
hands, the slot in which it stays for the next call, or the one call that got it. -/
def Delivered (world : Visits) (index : Nat) (frame : SentStart) : Prop :=
  (world.read ≤ index ∧
    ∀ place signal, world.signalAt place = some signal → signal.frame ≠ index) ∨
  ∃ place now, world.signalAt place = some (frame.signal now index) ∧
    world.serves frame.session place ∧
    ∀ other signal, world.signalAt other = some signal → signal.frame = index → other = place

/-- Sound, with everything due kept and everything watched remembered. -/
structure Minded (world : Visits) : Prop where
  sound : Sound world
  kept : Kept world
  remembered : Remembered world

theorem minded_step (world : Visits) (action : VisitAction) (minded : Minded world)
    (keeps : world.loses action = false) : Minded (world.step action) where
  sound := sound_step world action minded.sound
  kept := kept_step action minded.sound minded.remembered minded.kept keeps
  remembered := remembered_step action minded.sound minded.remembered keeps

theorem minded_empty : Minded empty where
  sound := sound_empty
  kept := by
    intro index isDue wasRead
    exact absurd wasRead (Nat.not_lt_zero index)
  remembered := by
    intro session isWatched
    cases isWatched

theorem Minded.delivered {world : Visits} (minded : Minded world) {index : Nat}
    {frame : SentStart} (isSent : world.sent[index]? = some frame) (isDue : frame.due = true) :
    world.Delivered index frame := by
  by_cases wasRead : index < world.read
  · right
    have due : world.isDue index = true := by
      unfold Visits.isDue
      rw [isSent]
      exact isDue
    obtain ⟨place, signal, isAt, isFrame⟩ := minded.kept index due wasRead
    obtain ⟨_, found, now, isFound, isSignal⟩ := minded.sound.genuine place signal isAt
    rw [isFrame, isSent] at isFound
    cases isFound
    rw [isFrame] at isSignal
    have served := minded.sound.served place signal isAt
    rw [isSignal] at isAt served
    refine ⟨place, now, isAt, served, ?_⟩
    intro other otherSignal isOther sameFrame
    exact minded.sound.apart other place otherSignal _ isOther isAt sameFrame
  · refine Or.inl ⟨Nat.le_of_not_lt wasRead, ?_⟩
    intro place signal isAt sameFrame
    have below := (minded.sound.genuine place signal isAt).1
    omega

/-- In every run in which no action loses anything: every session that the gate keeps and a
doorbell still runs for has its entry, so its peer's address is known; every `Start` the
gate sent for such a session is on its way or in one place for that session, with one call
of `await_start` at most; it is handed to the call that waits, and kept in its slot only
while none does, where the next call takes it. -/
theorem starts_delivered (actions : List VisitAction)
    (keeps : Guarded step (fun world action => world.loses action = false) empty actions) :
    let world := run step empty actions
    (∀ session, world.watched session = true →
      (world.sessions.peerObservedFor session).isSome = true) ∧
    (∀ index frame, world.sent[index]? = some frame → frame.due = true →
      world.Delivered index frame) ∧
    (∀ signal id, world.reading = some signal → world.calls.Waits id signal.session →
      (world.step .placeStart).calls.lookup id = some ⟨signal.session, .handed signal⟩) ∧
    ∀ session signal, (world.slot session).received = some signal →
      (∀ id, ¬world.calls.Waits id session) ∧
      ∀ id, id ∉ world.calls →
        (world.step (.awaitStart id session)).calls.lookup id =
          some ⟨session, .returned (some signal)⟩ := by
  intro world
  have minded : Minded world := run_preserves minded_step minded_empty keeps
  refine ⟨?_, ?_, ?_, ?_⟩
  · intro session isWatched
    have inside := AList.lookup_isSome.mpr (minded.remembered session isWatched)
    unfold SessionMap.peerObservedFor
    rw [Option.isSome_map]
    exact inside
  · exact fun index frame isSent isDue => minded.delivered isSent isDue
  · intro signal id isReading waits
    have isWaiter := minded.sound.waiting signal.session id waits
    have isThere : world.calls.lookup id = some ⟨signal.session, .waiting⟩ := waits
    simp only [step]
    rw [isReading]
    show (world.place signal).calls.lookup id = _
    rw [place_of_waiter isWaiter]
    show (world.calls.move id _).lookup id = _
    rw [Calls.lookup_move, if_pos rfl, isThere]
    rfl
  · intro session signal isReceived
    constructor
    · intro id waits
      have isWaiter := minded.sound.waiting session id waits
      rw [minded.sound.idle session signal isReceived] at isWaiter
      cases isWaiter
    · intro id fresh
      simp only [step]
      rw [if_neg fresh, lookup_await, if_pos rfl, isReceived]

/-! ### One long visit -/

/-- The address the gate observed each peer at. -/
def peerAddr : SocketAddr := ⟨.v4 ⟨[192, 0, 2, 1], rfl⟩, 4433⟩

/-- A session is opened, a doorbell rings for it and waits for its `Start`. -/
def firstVisit : List VisitAction :=
  [.gateOpens 7, .rememberSession 7 (some peerAddr) 0, .runDoorbell 0 7, .armAttempt 0,
    .awaitStart 0 7, .gateStarts 7 200 5, .readStart 1, .placeStart, .wake 0]

/-- Ninety seconds into the visit, with the gate still keeping its session, the house is
introduced to someone else; then the gate sends the `Start` of the next attempt. -/
def longVisit : List VisitAction :=
  firstVisit ++ [.gateOpens 8, .rememberSession 8 (some peerAddr) limits.registrationTtl,
    .gateStarts 7 200 6, .readStart (limits.registrationTtl + 1), .placeStart]

theorem starts_delivered_firstVisit :
    (run step empty firstVisit).Delivered 0 ⟨7, 200, 5, true⟩ :=
  (starts_delivered firstVisit (by decide)).2.1 0 _ (by decide) rfl

/-- The session of a visit that goes on is forgotten, and the next `Start` for it is lost. -/
theorem forgotten_longVisit :
    let world := run step empty longVisit
    world.watched 7 = true ∧ world.sessions.peerObservedFor 7 = none ∧
      world.sent[1]? = some ⟨7, 200, 6, true⟩ ∧ ¬world.Delivered 1 ⟨7, 200, 6, true⟩ := by
  intro world
  have noSlots : world.starts.entries = [] := by decide
  have noneGot : (world.calls.values.all fun call =>
      call.stage.got.all fun signal => signal.frame != 1) = true := by decide
  have wasRead : world.read = 2 := by decide
  refine ⟨by decide, by decide, by decide, ?_⟩
  intro delivered
  rcases delivered with ⟨unread, _⟩ | ⟨place, now, isAt, _⟩
  · omega
  · cases place with
    | reader =>
        have idleReader : world.reading = none := by decide
        have isReading : world.reading = some _ := isAt
        rw [idleReader] at isReading
        cases isReading
    | slot session =>
        have isReceived : ((world.starts.lookup session).getD .empty).received = some _ := isAt
        have noSlot : world.starts.lookup session = none := by
          show world.starts.entries.dlookup session = none
          rw [noSlots]
          rfl
        rw [noSlot] at isReceived
        cases isReceived
    | call id =>
        obtain ⟨call, isThere, isGot⟩ := Option.bind_eq_some_iff.mp isAt
        rw [List.all_eq_true] at noneGot
        have notThis := noneGot call ((HashMap.mem_values _ _).mpr ⟨id, isThere⟩)
        rw [isGot] at notThis
        cases notThis

end Visits

end Mosschat.Net.Gate
