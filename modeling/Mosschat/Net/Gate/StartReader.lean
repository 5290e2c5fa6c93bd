import Mosschat.Net.Gate.Visits

/-!
Owns the reader of the `Start` frames: the signal it takes, hands to the call that waits or
keeps in the slot, and that every step leaves the client's maps sound.

Does not own whether a `Start` is lost.
-/

namespace Mosschat.Net.Gate

open Mosschat.Library Mosschat.Library.Machine Mosschat.Library.Oneshot

namespace Visits

/-! ## The reader -/

section Moves

variable {world next : Visits}

/-- The reader hands its signal to the call whose sender the slot holds. -/
theorem place_of_waiter {signal : StartSignal} {waiter : CallId}
    (isWaiter : (world.slot signal.session).waiter = some waiter) :
    world.place signal =
      { world with
        starts := world.starts.erase signal.session
        calls := world.calls.move waiter (Stage.send signal) } := by
  have occupied : signal.session ∈ world.starts := by
    by_contra vacant
    unfold slot at isWaiter
    rw [AList.lookup_eq_none.mpr vacant] at isWaiter
    cases isWaiter
  unfold Visits.place
  rw [if_neg (fun full => full.2 occupied), isWaiter]

/-- Where the slot holds no sender the reader keeps its signal there, if there is room. -/
theorem place_of_no_waiter {signal : StartSignal}
    (noWaiter : (world.slot signal.session).waiter = none) :
    world.place signal =
      if limits.maxSessionsPerRegistration ≤ world.starts.entries.length ∧
          signal.session ∉ world.starts then world
      else
        { world with
          starts := world.starts.put signal.session
            { world.slot signal.session with received := some signal } } := by
  unfold Visits.place
  rw [noWaiter]

/-- The slot goes, and its sender is used: the call gets the signal if it still waits. -/
theorem Sound.handOver (sound : Sound world) {signal : StartSignal} {waiter : CallId}
    (isReading : world.reading = some signal)
    (isWaiter : (world.slot signal.session).waiter = some waiter) :
    Sound { world with
      starts := world.starts.erase signal.session
      calls := world.calls.move waiter (Stage.send signal)
      reading := none } := by
  have isAtReader : world.signalAt .reader = some signal := isReading
  obtain ⟨stage, isThere, nothing⟩ := sound.sender signal.session waiter isWaiter
  have sameSlot : ∀ other, ((world.starts.erase signal.session).lookup other).getD .empty =
      if other = signal.session then .empty else world.slot other :=
    slot_erase world.starts signal.session
  have came : ∀ place found,
      ({ world with
        starts := world.starts.erase signal.session
        calls := world.calls.move waiter (Stage.send signal)
        reading := none } : Visits).signalAt place = some found →
      world.signalAt (if place = .call waiter then .reader else place) = some found ∧
        place ≠ .reader := by
    intro place found isAt
    cases place with
    | reader => cases isAt
    | slot other =>
        refine ⟨?_, nofun⟩
        rw [if_neg nofun]
        change (((world.starts.erase signal.session).lookup other).getD .empty).received = _ at isAt
        rw [sameSlot] at isAt
        split at isAt
        · cases isAt
        · exact isAt
    | call id =>
        refine ⟨?_, nofun⟩
        change ((world.calls.move waiter (Stage.send signal)).lookup id).bind _ = _ at isAt
        rw [Calls.lookup_move] at isAt
        by_cases same : id = waiter
        · rw [if_pos same, same, isThere] at isAt
          rw [if_pos (congrArg Place.call same)]
          have isGot : (Stage.send signal stage).got = some found := isAt
          by_cases waits : stage = .waiting
          · rw [waits] at isGot
            exact isAtReader.trans isGot
          · rw [Stage.got_send_of_ne_waiting signal waits, nothing] at isGot
            cases isGot
        · have apart : Place.call id ≠ .call waiter := fun isSame => same (Place.call.inj isSame)
          rw [if_neg same] at isAt
          rw [if_neg apart]
          exact isAt
  apply sound.moved (fun place => if place = .call waiter then .reader else place)
  · exact sound.sized
  · rfl
  · exact List.prefix_refl world.sent
  · intro place found isAt
    exact (came place found isAt).1
  · intro place other found otherFound isAt isOther same
    have notReader := (came place found isAt).2
    have otherNotReader := (came other otherFound isOther).2
    by_cases isCall : place = .call waiter
    · by_cases otherIsCall : other = .call waiter
      · rw [isCall, otherIsCall]
      · rw [if_pos isCall, if_neg otherIsCall] at same
        exact absurd same.symm otherNotReader
    · by_cases otherIsCall : other = .call waiter
      · rw [if_neg isCall, if_pos otherIsCall] at same
        exact absurd same notReader
      · rw [if_neg isCall, if_neg otherIsCall] at same
        exact same
  · intro place found isAt
    have wasAt := (came place found isAt).1
    cases place with
    | reader => trivial
    | slot other =>
        rw [if_neg nofun] at wasAt
        exact sound.served (.slot other) found wasAt
    | call id =>
        by_cases same : id = waiter
        · rw [if_pos (congrArg Place.call same), isAtReader] at wasAt
          cases wasAt
          rw [same]
          exact ⟨_, Calls.lookup_move_of_lookup isThere waiter _⟩
        · have apart : Place.call id ≠ .call waiter := fun isSame => same (Place.call.inj isSame)
          rw [if_neg apart] at wasAt
          obtain ⟨_, isCall⟩ := sound.served (.call id) found wasAt
          exact ⟨_, Calls.lookup_move_of_lookup isCall waiter _⟩
  · intro other found isReceived
    change (((world.starts.erase signal.session).lookup other).getD .empty).received = _
      at isReceived
    show (((world.starts.erase signal.session).lookup other).getD .empty).waiter = _
    rw [sameSlot] at isReceived ⊢
    split at isReceived
    · cases isReceived
    · next apart =>
        rw [if_neg apart]
        exact sound.idle other found isReceived
  · intro other id isSender
    change (((world.starts.erase signal.session).lookup other).getD .empty).waiter = _ at isSender
    rw [sameSlot] at isSender
    split at isSender
    · cases isSender
    · next apart =>
        obtain ⟨otherStage, isCall, otherNothing⟩ := sound.sender other id isSender
        have notWaiter : id ≠ waiter := by
          intro same
          rw [same, isThere] at isCall
          exact apart (congrArg Call.key (Option.some.inj isCall)).symm
        refine ⟨otherStage, ?_, otherNothing⟩
        show (world.calls.move waiter _).lookup id = _
        rw [Calls.lookup_move, if_neg notWaiter, isCall]
  · intro other id waits
    obtain ⟨otherStage, isCall, isWaiting⟩ := Calls.lookup_of_waits_move waits
    have notWaiter : id ≠ waiter := by
      intro same
      rw [if_pos same] at isWaiting
      exact Stage.send_ne_waiting isWaiting
    rw [if_neg notWaiter] at isWaiting
    rw [isWaiting] at isCall
    have isSender := sound.waiting other id isCall
    show (((world.starts.erase signal.session).lookup other).getD .empty).waiter = _
    have apart : other ≠ signal.session := by
      intro same
      rw [same, isWaiter] at isSender
      exact notWaiter (Option.some.inj isSender).symm
    rw [sameSlot, if_neg apart]
    exact isSender

/-- The signal stays in the slot of its session, over what was there. -/
theorem signalAt_keepStart (signal : StartSignal) (place : Place) :
    ({ world with
      starts := world.starts.put signal.session
        { world.slot signal.session with received := some signal }
      reading := none } : Visits).signalAt place =
      if place = .slot signal.session then some signal
      else if place = .reader then none
      else world.signalAt place := by
  cases place with
  | reader => rfl
  | slot other =>
      show (((world.starts.put signal.session _).lookup other).getD .empty).received = _
      rw [slot_put, if_neg (nofun : Place.slot other ≠ .reader)]
      by_cases same : other = signal.session
      · rw [if_pos same, if_pos (congrArg Place.slot same)]
      · have apart : Place.slot other ≠ .slot signal.session :=
          fun isSame => same (Place.slot.inj isSame)
        rw [if_neg same, if_neg apart]
        rfl
  | call id => rfl

theorem Sound.keepStart (sound : Sound world) {signal : StartSignal}
    (isReading : world.reading = some signal)
    (noWaiter : (world.slot signal.session).waiter = none) :
    Sound { world with
      starts := world.starts.put signal.session
        { world.slot signal.session with received := some signal }
      reading := none } := by
  have isAtReader : world.signalAt .reader = some signal := isReading
  have sameWaiter : ∀ other,
      (((world.starts.put signal.session
        { world.slot signal.session with received := some signal }).lookup other).getD
          .empty).waiter = (world.slot other).waiter := by
    intro other
    rw [slot_put]
    split
    · next same =>
        rw [same]
    · rfl
  apply sound.moved (fun place => if place = .slot signal.session then .reader else place)
  · exact sound.sized
  · rfl
  · exact List.prefix_refl world.sent
  · intro place found isAt
    rw [signalAt_keepStart] at isAt
    split at isAt
    · next isSlot =>
        rw [if_pos isSlot]
        exact isAtReader.trans isAt
    · next notSlot =>
        rw [if_neg notSlot]
        split at isAt
        · cases isAt
        · exact isAt
  · intro place other found otherFound isAt isOther same
    rw [signalAt_keepStart] at isAt isOther
    by_cases isSlot : place = .slot signal.session
    · by_cases otherIsSlot : other = .slot signal.session
      · rw [isSlot, otherIsSlot]
      · rw [if_pos isSlot, if_neg otherIsSlot] at same
        rw [if_neg otherIsSlot, if_pos same.symm] at isOther
        cases isOther
    · by_cases otherIsSlot : other = .slot signal.session
      · rw [if_neg isSlot, if_pos otherIsSlot] at same
        rw [if_neg isSlot, if_pos same] at isAt
        cases isAt
      · rw [if_neg isSlot, if_neg otherIsSlot] at same
        exact same
  · intro place found isAt
    rw [signalAt_keepStart] at isAt
    split at isAt
    · next isSlot =>
        cases isAt
        rw [isSlot]
        exact rfl
    · split at isAt
      · cases isAt
      · have served := sound.served place found isAt
        cases place with
        | reader => trivial
        | slot other => exact served
        | call id => exact served
  · intro other found isReceived
    change Visits.signalAt _ (.slot other) = some found at isReceived
    rw [signalAt_keepStart, if_neg (nofun : Place.slot other ≠ .reader)] at isReceived
    refine (sameWaiter other).trans ?_
    split at isReceived
    · next isSlot =>
        rw [Place.slot.inj isSlot]
        exact noWaiter
    · exact sound.idle other found isReceived
  · intro other id isWaiter
    exact sound.sender other id ((sameWaiter other).symm.trans isWaiter)
  · intro other id waits
    exact (sameWaiter other).trans (sound.waiting other id waits)

/-- The reader's hands are empty again. -/
theorem Sound.dropReading (sound : Sound world) : Sound { world with reading := none } := by
  have kept : ∀ place found, ({ world with reading := none } : Visits).signalAt place = some found →
      world.signalAt place = some found := by
    intro place found isAt
    cases place with
    | reader => cases isAt
    | slot other => exact isAt
    | call id => exact isAt
  apply sound.moved (fun place => place)
  · exact sound.sized
  · rfl
  · exact List.prefix_refl world.sent
  · exact kept
  · intro place other _ _ _ _ same
    exact same
  · intro place found isAt
    have served := sound.served place found (kept place found isAt)
    cases place with
    | reader => trivial
    | slot other => exact served
    | call id => exact served
  · exact sound.idle
  · exact sound.sender
  · exact sound.waiting

theorem Sound.placeStart (sound : Sound world) {signal : StartSignal}
    (isReading : world.reading = some signal) :
    Sound { world.place signal with reading := none } := by
  cases isWaiter : (world.slot signal.session).waiter with
  | some waiter =>
      rw [place_of_waiter isWaiter]
      exact sound.handOver isReading isWaiter
  | none =>
      rw [place_of_no_waiter isWaiter]
      split
      · exact sound.dropReading
      · exact sound.keepStart isReading isWaiter

/-- The reader takes the next frame, which is nowhere yet. -/
theorem Sound.readStart (sound : Sound world) {frame : SentStart}
    (idleReader : world.reading = none) (isNext : world.sent[world.read]? = some frame)
    {taken : Option StartSignal} {now : Nat}
    (isTaken : taken = some (frame.signal now world.read) ∨ taken = none) :
    Sound { world with read := world.read + 1, reading := taken } := by
  have before : ∀ place signal,
      ({ world with read := world.read + 1, reading := taken } : Visits).signalAt place =
        some signal →
      world.signalAt place = some signal ∨
        place = .reader ∧ signal = frame.signal now world.read := by
    intro place signal isAt
    cases place with
    | reader =>
        right
        have isSignal : taken = some signal := isAt
        rcases isTaken with isFrame | nothing
        · rw [isFrame] at isSignal
          exact ⟨rfl, (Option.some.inj isSignal).symm⟩
        · rw [nothing] at isSignal
          cases isSignal
    | slot session => exact Or.inl isAt
    | call id => exact Or.inl isAt
  have notReader : ∀ place signal, world.signalAt place = some signal → place ≠ .reader := by
    intro place signal isAt isReader
    rw [isReader] at isAt
    have isReading : world.reading = some signal := isAt
    rw [idleReader] at isReading
    cases isReading
  exact
    { sized := sound.sized
      few := (List.getElem?_eq_some_iff.mp isNext).1
      genuine := by
        intro place signal isAt
        rcases before place signal isAt with wasAt | ⟨_, isNew⟩
        · have genuine := sound.genuine place signal wasAt
          exact ⟨Nat.lt_succ_of_lt genuine.1, genuine.2⟩
        · rw [isNew]
          exact ⟨Nat.lt_succ_self world.read, frame, now, isNext, rfl⟩
      served := by
        intro place signal isAt
        rcases before place signal isAt with wasAt | ⟨isReader, _⟩
        · have served := sound.served place signal wasAt
          cases place with
          | reader => trivial
          | slot session => exact served
          | call id => exact served
        · rw [isReader]
          trivial
      apart := by
        intro place other signal otherSignal isAt isOther sameFrame
        have lower : ∀ place signal, world.signalAt place = some signal →
            signal.frame < world.read := fun place signal wasAt =>
          (sound.genuine place signal wasAt).1
        rcases before place signal isAt with wasAt | ⟨isReader, isNew⟩
        · rcases before other otherSignal isOther with otherWasAt | ⟨_, otherIsNew⟩
          · exact sound.apart place other signal otherSignal wasAt otherWasAt sameFrame
          · have low := lower place signal wasAt
            rw [sameFrame, otherIsNew] at low
            exact absurd low (Nat.lt_irrefl world.read)
        · rcases before other otherSignal isOther with otherWasAt | ⟨otherIsReader, _⟩
          · have low := lower other otherSignal otherWasAt
            rw [← sameFrame, isNew] at low
            exact absurd low (Nat.lt_irrefl world.read)
          · rw [isReader, otherIsReader]
      idle := sound.idle
      sender := sound.sender
      waiting := sound.waiting }

end Moves

theorem sound_empty : Sound empty where
  sized := Nat.zero_le _
  few := Nat.le_refl _
  genuine := by
    intro place signal isAt
    cases place <;> cases isAt
  served := by
    intro place signal isAt
    cases place <;> cases isAt
  apart := by
    intro place other signal otherSignal isAt
    cases place <;> cases isAt
  idle := by
    intro session signal isReceived
    cases isReceived
  sender := by
    intro session id isWaiter
    cases isWaiter
  waiting := by
    intro session id waits
    cases waits

/-- Whatever happens, what the client holds stays sound. -/
theorem sound_step (world : Visits) (action : VisitAction) (sound : Sound world) :
    Sound (world.step action) := by
  cases action with
  | gateOpens session =>
      simp only [step]
      split
      · exact sound
      · exact sound.untouched sound.sized (List.prefix_refl _) rfl rfl rfl rfl
  | gateCloses session =>
      exact sound.untouched sound.sized (List.prefix_refl _) rfl rfl rfl rfl
  | gateStarts session fireInMs gateMs =>
      exact sound.untouched sound.sized (List.prefix_append _ _) rfl rfl rfl rfl
  | rememberSession session peerObserved now =>
      have sized := SessionMap.length_rememberSession session peerObserved now sound.sized
      exact sound.untouched sized (List.prefix_refl _) rfl rfl rfl rfl
  | readStart now =>
      simp only [step]
      split
      · next frame idleReader isNext =>
          apply sound.readStart idleReader isNext
          split
          · exact Or.inl rfl
          · exact Or.inr rfl
      · exact sound
  | placeStart =>
      simp only [step]
      split
      · exact sound
      · next signal isReading => exact sound.placeStart isReading
  | runDoorbell visit session =>
      simp only [step]
      split
      · exact sound
      · exact sound.untouched sound.sized (List.prefix_refl _) rfl rfl rfl rfl
  | armAttempt visit =>
      simp only [step]
      split
      · exact sound.untouched sound.sized (List.prefix_refl _) rfl rfl rfl rfl
      · exact sound
  | finishAttempt visit =>
      simp only [step]
      split
      · next session isArmed =>
          have sized : (world.sessions.markFinished session).entries.length ≤
              limits.maxSessionsPerRegistration := by
            rw [SessionMap.length_markFinished]
            exact sound.sized
          exact sound.untouched sized (List.prefix_refl _) rfl rfl rfl rfl
      · exact sound
  | removeSlot visit =>
      simp only [step]
      split
      · next session isDropping =>
          have dropped := sound.dropSlot session
          exact dropped.untouched dropped.sized (List.prefix_refl _) rfl rfl rfl rfl
      · exact sound
  | endDoorbell visit =>
      simp only [step]
      split
      · exact sound.untouched sound.sized (List.prefix_refl _) rfl rfl rfl rfl
      · exact sound
  | awaitStart call session =>
      simp only [step]
      split
      · exact sound
      · next fresh => exact sound.await fresh session
  | deadline call =>
      exact sound.moveCall call Stage.got_expire fun _ waits => absurd waits Stage.expire_ne_waiting
  | wake call => exact sound.moveCall call Stage.got_wake fun _ => Stage.waiting_of_wake
  | leave call =>
      simp only [step]
      split
      · next session isLeaving =>
          exact (sound.dropSlot session).moveCall call Stage.got_leave
            fun _ => Stage.waiting_of_leave
      · exact sound
  | cancel call =>
      exact sound.moveCall call Stage.got_cancel fun _ waits => absurd waits Stage.cancel_ne_waiting

end Visits

end Mosschat.Net.Gate
