import Mosschat.Net.Gate.Server

/-!
Owns the frames the gate's sections queue for its houses: for each section the list of
what it sends and to which registration, and that the queues and the `Introduce` buckets
change by nothing else.

Does not own when a section runs.
-/

namespace Mosschat.Net.Gate.Server

open Mosschat.Core Mosschat.Library Mosschat.Library.Cbor

/-! ## What a section sends -/

section Sends

variable {F : Type}

/-- `try_send`, on the registration's side. -/
def RegistrationCells.push (cells : RegistrationCells F) (frame : Frame) : RegistrationCells F :=
  if cells.frameTxOpen ∧ cells.frameTx.length < limits.frameTxQueueCap then
    { cells with frameTx := cells.frameTx ++ [frame] }
  else cells

/-- The cells after the frames were sent in order. -/
def posted (cells : Nat → RegistrationCells F) (sends : List (Registration × Frame)) :
    Nat → RegistrationCells F :=
  sends.foldl (fun cells send =>
    Function.update cells send.1.id ((cells send.1.id).push send.2)) cells

/-- The frames `handle_start_request` sends. -/
def startsFor (state : ServerState F) (session : UInt32) (keyA keyB : Bytes32) (gateMs : UInt64) :
    List (Registration × Frame) :=
  [keyA, keyB].filterMap fun key =>
    (state.lastOf key).map fun target =>
      (target, Frame.start 1 session limits.startFireInMs gateMs)

/-- The frames `handle_knock_answer` sends. -/
def introductionsFor (tag : Bytes32) (session : UInt32) (requester target : Registration) :
    List (Registration × Frame) :=
  [(requester, .introduction 1 tag session (Addr.fromSocketAddr target.observed) 1),
    (target, .introduction 1 tag session (Addr.fromSocketAddr requester.observed) 2)]

/-- The refusal of a frame for its rate. -/
def limitedFor (registration : Registration) (detail : String) : List (Registration × Frame) :=
  [(registration, .error 1 errorRateLimited detail)]

variable [F64 F]

/-- The frames one section sends, with the registrations they are queued for. -/
def Task.sends (state : ServerState F) (ambient : Ambient) : Task → List (Registration × Frame)
  | .controlLoop registration =>
    match ambient.frame with
    | none => []
    | some _ =>
      if ((state.cells registration.id).frameRate.tryTake ambient.now).2 then []
      else limitedFor registration "frame rate limit exceeded"
  | .keepalive registration =>
    if ((state.cells registration.id).keepaliveRate.tryTake ambient.now).2 then
      [(registration, .keepaliveAck 1 (Addr.fromSocketAddr registration.observed))]
    else limitedFor registration "keepalive rate limit exceeded"
  | .introduce registration _ _ _ =>
    if (takeBoth (state.cells registration.id).introduceMin
        (state.cells registration.id).introduceHour ambient.now).2 then []
    else limitedFor registration "introduce rate limit exceeded"
  | .introduceSend _ tag ttlS sealedBytes target => [(target, .knock 1 tag ttlS sealedBytes)]
  | .answerNote _ tag _ session requester target _ _ => introductionsFor tag session requester target
  | .startSend _ session keyA keyB gateMs => startsFor state session keyA keyB gateMs
  | _ => []

/-- The section is the writer's, or decides whether there will be one. -/
def Task.writes : Task → Bool
  | .register .. | .writer .. => true
  | _ => false

/-- The section charges the `Introduce` buckets of the registration. -/
def Task.charges (id : Nat) : Task → Prop
  | .introduce registration _ _ _ => registration.id = id
  | _ => False

end Sends

/-! ## What a section writes to the registrations -/

section Cells

variable {F : Type}

/-- The queues are as before, and the `Introduce` buckets of all but some. -/
structure Rewrote (charged : Nat → Prop) (before after : Nat → RegistrationCells F) : Prop where
  frameTx : ∀ id, (after id).frameTx = (before id).frameTx
  frameTxOpen : ∀ id, (after id).frameTxOpen = (before id).frameTxOpen
  buckets : ∀ id, ¬charged id → (after id).introduceMin = (before id).introduceMin ∧
    (after id).introduceHour = (before id).introduceHour

variable {charged : Nat → Prop}

theorem Rewrote.refl (cells : Nat → RegistrationCells F) : Rewrote charged cells cells :=
  ⟨fun _ => rfl, fun _ => rfl, fun _ _ => ⟨rfl, rfl⟩⟩

theorem Rewrote.trans {first second third : Nat → RegistrationCells F}
    (left : Rewrote charged first second) (right : Rewrote charged second third) :
    Rewrote charged first third where
  frameTx id := (right.frameTx id).trans (left.frameTx id)
  frameTxOpen id := (right.frameTxOpen id).trans (left.frameTxOpen id)
  buckets id free := by
    have before := left.buckets id free
    have after := right.buckets id free
    exact ⟨after.1.trans before.1, after.2.trans before.2⟩

/-- One registration's cells are written, its queue apart. -/
theorem rewrote_update (before : Nat → RegistrationCells F) {id : Nat}
    {cells : RegistrationCells F} (frameTx : cells.frameTx = (before id).frameTx)
    (frameTxOpen : cells.frameTxOpen = (before id).frameTxOpen)
    (buckets : ¬charged id → cells.introduceMin = (before id).introduceMin ∧
      cells.introduceHour = (before id).introduceHour) :
    Rewrote charged before (Function.update before id cells) := by
  constructor
  · intro other
    by_cases same : other = id
    · rw [same, Function.update_self, frameTx]
    · rw [Function.update_of_ne same]
  · intro other
    by_cases same : other = id
    · rw [same, Function.update_self, frameTxOpen]
    · rw [Function.update_of_ne same]
  · intro other free
    by_cases same : other = id
    · rw [same, Function.update_self]
      exact buckets (same ▸ free)
    · rw [Function.update_of_ne same]
      exact ⟨rfl, rfl⟩

theorem cells_sendFrame (state : ServerState F) (registration : Registration) (frame : Frame) :
    (sendFrame state registration frame).cells = posted state.cells [(registration, frame)] := by
  show _ = Function.update state.cells registration.id ((state.cells registration.id).push frame)
  unfold sendFrame RegistrationCells.push
  dsimp only
  split
  · rfl
  · rw [Function.update_eq_self]
    rfl

theorem registrations_sendFrame (state : ServerState F) (registration : Registration)
    (frame : Frame) : (sendFrame state registration frame).registrations = state.registrations := by
  unfold sendFrame
  dsimp only
  split <;> rfl

/-- What a push leaves alone, sending frames does. -/
theorem posted_keeps {α : Type} (field : RegistrationCells F → α)
    (pushed : ∀ cells frame, field (cells.push frame) = field cells)
    (cells : Nat → RegistrationCells F) (sends : List (Registration × Frame)) (id : Nat) :
    field (posted cells sends id) = field (cells id) := by
  induction sends generalizing cells with
  | nil => rfl
  | cons send rest ih =>
      apply (ih _).trans
      dsimp only
      by_cases same : id = send.1.id
      · rw [same, Function.update_self]
        exact pushed _ send.2
      · rw [Function.update_of_ne same]

/-- A frame takes no token. -/
theorem buckets_posted (cells : Nat → RegistrationCells F) (sends : List (Registration × Frame))
    (id : Nat) :
    (posted cells sends id).introduceMin = (cells id).introduceMin ∧
      (posted cells sends id).introduceHour = (cells id).introduceHour := by
  constructor
  · apply posted_keeps RegistrationCells.introduceMin
    intro cells frame
    unfold RegistrationCells.push
    split <;> rfl
  · apply posted_keeps RegistrationCells.introduceHour
    intro cells frame
    unfold RegistrationCells.push
    split <;> rfl

/-- What a section leaves of the registrations' cells: its own writing, then what it sends. -/
def Posts (charged : Nat → Prop) (before : ServerState F) (sends : List (Registration × Frame))
    (after : ServerState F) : Prop :=
  ∃ cells, Rewrote charged before.cells cells ∧ after.cells = posted cells sends

theorem rewrote_noteSession (state : ServerState F) (registration : Registration)
    (session : UInt32) :
    Rewrote charged state.cells (state.noteSession registration session).cells :=
  rewrote_update state.cells rfl rfl fun _ => ⟨rfl, rfl⟩

/-- A section that sends nothing. -/
theorem Posts.silent {before after : ServerState F}
    (rewrote : Rewrote charged before.cells after.cells) : Posts charged before [] after :=
  ⟨after.cells, rewrote, rfl⟩

/-- One frame more. -/
theorem Posts.send {before after : ServerState F} {sends : List (Registration × Frame)}
    (posts : Posts charged before sends after) (registration : Registration) (frame : Frame) :
    Posts charged before (sends ++ [(registration, frame)])
      (sendFrame after registration frame) := by
  obtain ⟨cells, rewrote, isPosted⟩ := posts
  refine ⟨cells, rewrote, ?_⟩
  rw [cells_sendFrame, isPosted]
  exact List.foldl_append.symm

theorem cells_removeSession (peerKey : Bytes32) (sessionIds : List UInt32)
    (state : ServerState F) :
    (sessionIds.foldl (removeSession peerKey) (state, [])).1.cells = state.cells :=
  foldl_removeSession (fun after => after.cells = state.cells)
    (fun _ _ _ _ before => before) sessionIds (state, []) rfl

theorem rewrote_removeOrphan (state : ServerState F) (orphan : Bytes32 × UInt32) :
    Rewrote charged state.cells (removeOrphan state orphan).cells := by
  unfold removeOrphan
  generalize (state.registrations.lookup orphan.1).getD [] = registrations
  induction registrations generalizing state with
  | nil => exact .refl _
  | cons registration rest ih =>
      apply Rewrote.trans _ (ih _)
      exact rewrote_update state.cells rfl rfl fun _ => ⟨rfl, rfl⟩

/-- Where each removal rewrites the cells so, a list of them does. -/
theorem Rewrote.foldl {α : Type} {removes : ServerState F → α → ServerState F}
    (each : ∀ state removed, Rewrote charged state.cells (removes state removed).cells)
    (state : ServerState F) (removed : List α) :
    Rewrote charged state.cells (removed.foldl removes state).cells := by
  induction removed generalizing state with
  | nil => exact .refl _
  | cons first rest ih =>
      exact (each state first).trans (ih _)

theorem cells_afterCharge (state : ServerState F) (registration : Registration)
    (session : UInt32) (payload : Bytes) (shaper : Nat) (allowed : Bool) :
    (afterCharge state registration session payload shaper allowed).state.cells = state.cells := by
  unfold afterCharge
  dsimp only
  split
  · split <;> rfl
  · rfl

/-- One round of the loop of `handle_start_request`. -/
def startTo (session : UInt32) (gateMs : UInt64) (state : ServerState F) (key : Bytes32) :
    ServerState F :=
  match state.lastOf key with
  | none => state
  | some target => sendFrame state target (.start 1 session limits.startFireInMs gateMs)

/-- The starts go to the newest connections of both keys, as they were before the first. -/
theorem cells_startSend (state : ServerState F) (registration : Registration) (session : UInt32)
    (keyA keyB : Bytes32) (gateMs : UInt64) :
    (startSend state registration session keyA keyB gateMs).state.cells =
      posted state.cells (startsFor state session keyA keyB gateMs) := by
  have general : ∀ (keys : List Bytes32) (after : ServerState F),
      after.registrations = state.registrations →
      (keys.foldl (startTo session gateMs) after).cells =
        posted after.cells (keys.filterMap fun key => (state.lastOf key).map fun target =>
          (target, Frame.start 1 session limits.startFireInMs gateMs)) := by
    intro keys
    induction keys with
    | nil => exact fun _ _ => rfl
    | cons key rest ih =>
        intro after same
        have sameLast : after.lastOf key = state.lastOf key := by
          unfold ServerState.lastOf
          rw [same]
        rw [List.foldl_cons, startTo, sameLast, List.filterMap_cons]
        cases isLast : state.lastOf key with
        | none => exact ih after same
        | some target =>
            have sent := ih
              (sendFrame after target (.start 1 session limits.startFireInMs gateMs))
              ((registrations_sendFrame after target _).trans same)
            rw [cells_sendFrame] at sent
            exact sent
  exact general [keyA, keyB] state rfl

variable [F64 F]

/-- Every section but the writer's writes to the registrations' cells, then sends its
frames, and charges no `Introduce` bucket but the one that `handle_introduce` does. -/
theorem posts_run (crypto : Crypto) (state : ServerState F) (handler : Handler)
    (ambient : Ambient) {task : Task} (notWriter : task.writes = false) :
    Posts (fun id => task.charges id) state (task.sends state ambient)
      (task.run crypto state handler ambient).state := by
  have unwritten : (task.run crypto state handler ambient).state.cells = state.cells →
      task.sends state ambient = [] →
      Posts (fun id => task.charges id) state (task.sends state ambient)
        (task.run crypto state handler ambient).state := by
    intro same silent
    rw [silent]
    apply Posts.silent
    rw [same]
    exact .refl _
  cases task with
  | register registration => cases notWriter
  | writer registration => cases notWriter
  | controlLoop registration =>
      unfold Task.run Task.sends controlLoop
      dsimp only
      cases ambient.frame with
      | none => exact .silent (.refl _)
      | some frame =>
          have charged : Rewrote (fun id => Task.charges id (.controlLoop registration))
              state.cells (Function.update state.cells registration.id
                { state.cells registration.id with
                    frameRate :=
                      ((state.cells registration.id).frameRate.tryTake ambient.now).1 }) :=
            rewrote_update state.cells rfl rfl fun _ => ⟨rfl, rfl⟩
          dsimp only
          split
          · exact .silent charged
          · exact Posts.send (.silent charged) registration _
  | keepalive registration =>
      unfold Task.run Task.sends keepalive
      dsimp only
      split
      · refine Posts.send (.silent ?_) registration _
        exact rewrote_update state.cells rfl rfl fun _ => ⟨rfl, rfl⟩
      · refine Posts.send (.silent ?_) registration _
        exact rewrote_update state.cells rfl rfl fun _ => ⟨rfl, rfl⟩
  | introduce registration tag ttlS sealedBytes =>
      unfold Task.run Task.sends introduce
      dsimp only
      split
      · exact .silent (rewrote_update state.cells rfl rfl fun free => absurd rfl free)
      · refine Posts.send (.silent ?_) registration _
        exact rewrote_update state.cells rfl rfl fun free => absurd rfl free
  | introduceTarget registration tag ttlS sealedBytes =>
      refine unwritten ?_ rfl
      show (introduceTarget crypto state registration tag ttlS sealedBytes).state.cells = _
      unfold introduceTarget
      split <;> rfl
  | introduceSeat registration tag ttlS sealedBytes targetKey =>
      refine unwritten ?_ rfl
      show (introduceSeat state registration tag ttlS sealedBytes targetKey).state.cells = _
      unfold introduceSeat
      split <;> rfl
  | introduceRecord registration tag ttlS sealedBytes targetKey target => exact unwritten rfl rfl
  | introduceSend registration tag ttlS sealedBytes target =>
      exact Posts.send (.silent (.refl _)) target _
  | answer registration tag accept =>
      refine unwritten ?_ rfl
      show (answer state handler registration tag accept).state.cells = _
      unfold answer
      split
      · rfl
      · split <;> rfl
  | answerCheck registration tag accept knock =>
      refine unwritten ?_ rfl
      show (answerCheck state registration tag accept knock ambient.now).state.cells = _
      unfold answerCheck
      split
      · rfl
      · split <;> rfl
  | answerOpen registration tag knock answeredAt =>
      refine unwritten ?_ rfl
      have opened := answerOpened_answerOpen state handler registration tag knock answeredAt ambient
      show (answerOpen state handler registration tag knock answeredAt ambient).state.cells = _
      generalize answerOpen state handler registration tag knock answeredAt ambient = outcome
        at opened ⊢
      cases opened <;> rfl
  | answerNote registration tag knock session requester target aToBShaper bToAShaper =>
      have noted : Posts (fun id => Task.charges id (.answerNote registration tag knock session
          requester target aToBShaper bToAShaper)) state []
          ((state.noteSession requester session).noteSession target session) :=
        .silent ((rewrote_noteSession state requester session).trans
          (rewrote_noteSession _ target session))
      exact (noted.send requester _).send target _
  | startRequest registration session =>
      refine unwritten ?_ rfl
      show (startRequest state registration session ambient.now).state.cells = _
      unfold startRequest
      dsimp only
      split
      · rfl
      · split
        · rfl
        · split <;> rfl
  | startSend registration session keyA keyB gateMs =>
      exact ⟨state.cells, .refl _, cells_startSend state registration session keyA keyB gateMs⟩
  | teardown peerKey registration later =>
      refine unwritten ?_ rfl
      show (teardown state peerKey registration later).state.cells = _
      unfold teardown
      dsimp only
      split <;> rfl
  | teardownIds peerKey registration later =>
      refine unwritten ?_ rfl
      show (teardownIds state peerKey registration later).state.cells = _
      unfold teardownIds
      dsimp only
      split <;> rfl
  | teardownSessions peerKey sessionIds later =>
      refine unwritten ?_ rfl
      show (teardownSessions state peerKey sessionIds later).state.cells = _
      rw [teardownSessions_state]
      exact cells_removeSession peerKey sessionIds state
  | teardownOrphans orphaned later => exact .silent (.foldl rewrote_removeOrphan state orphaned)
  | relayLoop registration =>
      refine unwritten ?_ rfl
      show (relayLoop state registration ambient).state.cells = _
      unfold relayLoop
      split
      · rfl
      · split <;> rfl
  | forward registration session payload =>
      refine unwritten ?_ rfl
      have forwarded := forwarded_forward state registration session payload ambient.now
      show (forward state registration session payload ambient.now).state.cells = _
      generalize forward state registration session payload ambient.now = outcome at forwarded ⊢
      cases forwarded with
      | refused stranger => rfl
      | aToB found isFound sender => exact cells_afterCharge _ registration session payload _ _
      | bToA found isFound other sender =>
          exact cells_afterCharge _ registration session payload _ _
  | enqueue registration session payload shaper encoded =>
      refine unwritten ?_ rfl
      show (enqueue state registration shaper encoded ambient.now).state.cells = _
      unfold enqueue
      dsimp only
      split <;> rfl
  | drain session destinationKey shaper =>
      refine unwritten ?_ rfl
      show (drain state session destinationKey shaper ambient.now).state.cells = _
      unfold drain
      dsimp only
      split <;> rfl
  | drainCheck session destinationKey shaper payloads => exact unwritten rfl rfl
  | drainSeat session destinationKey shaper payloads => exact unwritten rfl rfl
  | drainSend session destinationKey shaper destination payloads =>
      refine unwritten ?_ rfl
      show (drainSend state session destinationKey shaper destination payloads ambient).state.cells = _
      unfold drainSend
      split
      · rfl
      · split <;> rfl
  | sweepLoop => exact unwritten rfl rfl
  | sweepKnocks now => exact unwritten rfl rfl
  | sweepExpired now => exact unwritten rfl rfl

end Cells

end Mosschat.Net.Gate.Server
