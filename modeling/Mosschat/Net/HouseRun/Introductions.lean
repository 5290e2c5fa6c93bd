import Mosschat.Net.HouseRun

/-!
Owns which introduction a visit of the house runs on: over every order in which the gate
introduces peers, their dials arrive and the house takes its events, a visit gets the session
its dial followed where it looks at the right time, and only there.

Does not own how the gate makes an introduction, nor what a visit does with its session.
-/

namespace Mosschat.Net

open Mosschat.Core Mosschat.Library Mosschat.Library.Machine

/-- A peer the gate introduced to the house, and the session it did so under. -/
structure Introduction where
  peerKey : Bytes32
  session : UInt32
deriving DecidableEq

/-- A house, and the gate's introductions on their way to it. -/
structure Hosting where
  house : HouseRun
  /-- All the gate made, in order. -/
  made : List Introduction
  /-- Those the house has not taken from its events yet. -/
  underway : List Introduction
  /-- Those the house has taken. -/
  taken : List Introduction
  /-- The introduction that the dial of each visit followed, if any did. -/
  follows : List (Option Introduction)

/-- What happens to a house and its introductions. -/
inductive HostAction where
  /-- The gate introduces a peer. -/
  | introduces (introduction : Introduction)
  /-- The house takes the next of its events. -/
  | takes
  /-- The next event was dropped: the queue was full when it came. -/
  | misses
  /-- A dial, made after the introduction of this number. -/
  | dials (dialler : Bytes32) (follows : Option Nat)
  /-- Any other action of the house. -/
  | acts (action : HouseAction)

namespace Hosting

/-- A house that has just registered. -/
def new : Hosting := ⟨.new, [], [], [], []⟩

/-- The introduction of the number, of the peer that dialled. -/
def introductionOf (hosting : Hosting) (dialler : Bytes32) (number : Nat) : Option Introduction :=
  (hosting.made[number]?).filter fun introduction => introduction.peerKey == dialler

/-- A dial that follows `introduction`. -/
def dial (hosting : Hosting) (dialler : Bytes32) (introduction : Option Introduction) : Hosting :=
  let house := hosting.house.step (.dials dialler)
  if hosting.house.visits.length < house.visits.length then
    { hosting with house := house, follows := hosting.follows ++ [introduction] }
  else { hosting with house := house }

/-- One action. A dial cannot follow what the gate has not made. -/
def step (hosting : Hosting) : HostAction → Hosting
  | .introduces introduction =>
    { hosting with
      made := hosting.made ++ [introduction]
      underway := hosting.underway ++ [introduction] }
  | .takes =>
    match hosting.underway with
    | [] => hosting
    | next :: later =>
      { hosting with
        house := hosting.house.step (.introduced next.session next.peerKey)
        underway := later
        taken := hosting.taken ++ [next] }
  | .misses => { hosting with underway := hosting.underway.tail }
  | .dials dialler none => hosting.dial dialler none
  | .dials dialler (some number) =>
    match hosting.introductionOf dialler number with
    | none => hosting
    | some introduction => hosting.dial dialler (some introduction)
  | .acts (.introduced ..) => hosting
  | .acts (.dials _) => hosting
  | .acts action => { hosting with house := hosting.house.step action }

/-- The session of the last introduction of the peer that the house has taken. -/
def lastTaken (hosting : Hosting) (peerKey : Bytes32) : Option UInt32 :=
  ((hosting.taken.filter fun introduction => introduction.peerKey == peerKey).getLast?).map
    Introduction.session

/-- Every visit whose dial followed an introduction runs on that introduction's session. -/
def RunsOnOwn (hosting : Hosting) : Prop :=
  ∀ (place : Nat) (visit : Visit) (peerKey : Bytes32) (session : UInt32)
    (introduction : Introduction),
    hosting.house.visits[place]? = some visit → visit.stage = .visiting peerKey session →
      hosting.follows[place]? = some (some introduction) → session = introduction.session

/-- A visit that looks for its session does so when the last introduction of its peer the
house has taken, if there is one, is the one its dial followed. -/
def LooksInTime (hosting : Hosting) : HostAction → Prop
  | .acts (.polls place _ _) =>
    ∀ (visit : Visit) (peerKey : Bytes32) (introduction : Introduction) (session : UInt32),
      hosting.house.visits[place]? = some visit → visit.stage = .waiting peerKey →
        hosting.follows[place]? = some (some introduction) →
          hosting.lastTaken peerKey = some session → session = introduction.session
  | _ => True

/-! ## What the table of sessions holds -/

/-- The table holds the last introduction taken of each peer, and every visit has its
place. -/
structure Recalls (hosting : Hosting) : Prop where
  sessions : ∀ peerKey, hosting.house.sessions.lookup peerKey = hosting.lastTaken peerKey
  places : hosting.follows.length = hosting.house.visits.length

theorem recalls_new : Recalls new := ⟨fun _ => rfl, rfl⟩

end Hosting

namespace HouseRun

theorem sessions_emitError (house : HouseRun) (error : Option String) :
    (house.emitError error).sessions = house.sessions := by
  cases error with
  | none => rfl
  | some text => rfl

theorem visits_emitError (house : HouseRun) (error : Option String) :
    (house.emitError error).visits = house.visits := by
  cases error with
  | none => rfl
  | some text => rfl

/-- What an action does to the visits: nothing, or one visit moves, to its doorbell only
where it looked for its session and the table had one. -/
inductive Moved (house : HouseRun) (action : HouseAction) (later : HouseRun) : Prop where
  | none (visits : later.visits = house.visits)
  | one (place : Nat) (visit : Visit) (stage : VisitStage)
      (isAt : house.visits[place]? = some visit)
      (visits : later.visits = house.visits.set place { visit with stage := stage })
      (goes : ∀ peerKey session, stage = .visiting peerKey session →
        visit.stage = .waiting peerKey ∧ house.sessions.lookup peerKey = some session ∧
          ∃ late dropped, action = .polls place late dropped)

theorem Moved.of_stage {house later : HouseRun} {action : HouseAction} {place : Nat}
    {visit : Visit} {stage : VisitStage} (isAt : house.visits[place]? = some visit)
    (visits : later.visits = house.visits.set place { visit with stage := stage })
    (elsewhere : ∀ peerKey session, stage ≠ .visiting peerKey session) :
    Moved house action later :=
  .one place visit stage isAt visits
    fun peerKey session isVisiting => absurd isVisiting (elsewhere peerKey session)

/-- The actions that are neither a dial nor an introduction. -/
theorem moved_step (house : HouseRun) (action : HouseAction)
    (notDial : ∀ dialler, action ≠ .dials dialler)
    (notIntroduced : ∀ session peerKey, action ≠ .introduced session peerKey) :
    (house.step action).sessions = house.sessions ∧ Moved house action (house.step action) := by
  cases action with
  | dials dialler => exact absurd rfl (notDial dialler)
  | introduced session peerKey => exact absurd rfl (notIntroduced session peerKey)
  | knockAccepted peerKey => exact ⟨rfl, .none rfl⟩
  | stops => exact ⟨rfl, .none rfl⟩
  | accepts place error =>
      simp only [step]
      split
      · next visit isAt =>
          split
          · split
            · next error =>
                exact ⟨rfl, .of_stage isAt rfl (by simp)⟩
            · unfold charge
              dsimp only
              split
              · exact ⟨rfl, .of_stage isAt rfl (by simp)⟩
              · exact ⟨rfl, .of_stage isAt rfl (by simp)⟩
          · exact ⟨rfl, .none rfl⟩
      · exact ⟨rfl, .none rfl⟩
  | polls place late dropped =>
      simp only [step]
      split
      · next visit isAt =>
          split
          · next peerKey isWaiting =>
              split
              · next session isFound =>
                  refine ⟨rfl, .one place visit (.visiting peerKey session) isAt rfl ?_⟩
                  rintro _ _ ⟨⟩
                  exact ⟨isWaiting, isFound, late, dropped, rfl⟩
              · split
                · exact ⟨rfl, .of_stage isAt rfl (by simp)⟩
                · exact ⟨rfl, .none rfl⟩
          · exact ⟨rfl, .none rfl⟩
      · exact ⟨rfl, .none rfl⟩
  | doorbellEnds place error =>
      simp only [step]
      split
      · next visit isAt =>
          split
          · rw [sessions_emitError]
            exact ⟨rfl, .of_stage isAt (visits_emitError _ _) (by simp)⟩
          · exact ⟨rfl, .none rfl⟩
      · exact ⟨rfl, .none rfl⟩
  | removesControl place =>
      simp only [step]
      split
      · next visit isAt =>
          split
          · exact ⟨rfl, .of_stage isAt rfl (by simp)⟩
          · exact ⟨rfl, .none rfl⟩
      · exact ⟨rfl, .none rfl⟩
  | givesBack place =>
      simp only [step]
      split
      · next visit isAt =>
          split
          · exact ⟨rfl, .of_stage isAt rfl (by simp)⟩
          · exact ⟨rfl, .none rfl⟩
      · exact ⟨rfl, .none rfl⟩

theorem Moved.length {house later : HouseRun} {action : HouseAction}
    (moved : Moved house action later) : later.visits.length = house.visits.length := by
  cases moved with
  | none visits => rw [visits]
  | one place visit stage isAt visits goes => rw [visits, List.length_set]

/-- A dial starts a visit at the end, or none. -/
theorem dials_cases (house : HouseRun) (dialler : Bytes32) :
    (house.step (.dials dialler)).sessions = house.sessions ∧
      ((house.step (.dials dialler)).visits = house.visits ∨
        ∃ id, (house.step (.dials dialler)).visits =
          house.visits ++ [⟨id, dialler, .accepting⟩]) := by
  simp only [step]
  split
  · exact ⟨rfl, Or.inl rfl⟩
  · split
    · exact ⟨rfl, Or.inl rfl⟩
    · exact ⟨rfl, Or.inr ⟨_, rfl⟩⟩

end HouseRun

namespace Hosting

section Steps

variable {hosting : Hosting}

theorem recalls_dial (recalls : Recalls hosting) (dialler : Bytes32)
    (introduction : Option Introduction) : Recalls (hosting.dial dialler introduction) := by
  obtain ⟨sessions, visits⟩ := hosting.house.dials_cases dialler
  unfold dial
  dsimp only
  rcases visits with same | ⟨id, started⟩
  · rw [same, if_neg (Nat.lt_irrefl _)]
    refine ⟨fun peerKey => ?_, ?_⟩
    · show (hosting.house.step (.dials dialler)).sessions.lookup peerKey = _
      rw [sessions]
      exact recalls.sessions peerKey
    · show hosting.follows.length = (hosting.house.step (.dials dialler)).visits.length
      rw [same]
      exact recalls.places
  · have longer : hosting.house.visits.length <
        (hosting.house.step (.dials dialler)).visits.length := by
      rw [started, List.length_append, List.length_singleton]
      exact Nat.lt_succ_self _
    rw [if_pos longer]
    refine ⟨fun peerKey => ?_, ?_⟩
    · show (hosting.house.step (.dials dialler)).sessions.lookup peerKey = _
      rw [sessions]
      exact recalls.sessions peerKey
    · show (hosting.follows ++ [introduction]).length =
        (hosting.house.step (.dials dialler)).visits.length
      rw [started, List.length_append, List.length_append, recalls.places]
      rfl

/-- A visit that has just been started is not at its doorbell. -/
theorem runsOnOwn_dial (recalls : Recalls hosting) (own : RunsOnOwn hosting) (dialler : Bytes32)
    (introduction : Option Introduction) : RunsOnOwn (hosting.dial dialler introduction) := by
  obtain ⟨_, visits⟩ := hosting.house.dials_cases dialler
  unfold dial
  dsimp only
  rcases visits with same | ⟨id, started⟩
  · rw [same, if_neg (Nat.lt_irrefl _)]
    intro place visit peerKey session followed isAt
    change (hosting.house.step (.dials dialler)).visits[place]? = some visit at isAt
    rw [same] at isAt
    exact own place visit peerKey session followed isAt
  · have longer : hosting.house.visits.length <
        (hosting.house.step (.dials dialler)).visits.length := by
      rw [started, List.length_append, List.length_singleton]
      exact Nat.lt_succ_self _
    rw [if_pos longer]
    intro place visit peerKey session followed isAt isVisiting isFollowed
    change (hosting.house.step (.dials dialler)).visits[place]? = some visit at isAt
    change (hosting.follows ++ [introduction])[place]? = some (some followed) at isFollowed
    rw [started, List.getElem?_append] at isAt
    split at isAt
    · next inside =>
        rw [List.getElem?_append_left (by rw [recalls.places]; exact inside)] at isFollowed
        exact own place visit peerKey session followed isAt isVisiting isFollowed
    · have isNew : visit = ⟨id, dialler, .accepting⟩ :=
        List.mem_singleton.mp (List.mem_of_getElem? isAt)
      rw [isNew] at isVisiting
      cases isVisiting

theorem lastTaken_concat (introduction : Introduction) (taken : List Introduction)
    (peerKey : Bytes32) :
    (((taken ++ [introduction]).filter fun other => other.peerKey == peerKey).getLast?).map
        Introduction.session =
      if peerKey = introduction.peerKey then some introduction.session
      else ((taken.filter fun other => other.peerKey == peerKey).getLast?).map
        Introduction.session := by
  rw [List.filter_append, List.filter_singleton]
  by_cases isPeer : peerKey = introduction.peerKey
  · rw [if_pos isPeer, beq_iff_eq.mpr isPeer.symm, cond_true, List.getLast?_concat]
    rfl
  · have isOther : (introduction.peerKey == peerKey) = false :=
      beq_eq_false_iff_ne.mpr fun same => isPeer same.symm
    rw [if_neg isPeer, isOther, cond_false, List.append_nil]

/-- An action of the house, beside its dials and introductions. -/
theorem recalls_moved (recalls : Recalls hosting) {action : HouseAction}
    (moved : (hosting.house.step action).sessions = hosting.house.sessions ∧
      HouseRun.Moved hosting.house action (hosting.house.step action)) :
    Recalls { hosting with house := hosting.house.step action } where
  sessions := by
    intro peerKey
    show (hosting.house.step action).sessions.lookup peerKey = _
    rw [moved.1]
    exact recalls.sessions peerKey
  places := by
    show _ = (hosting.house.step action).visits.length
    rw [moved.2.length]
    exact recalls.places

theorem runsOnOwn_moved (recalls : Recalls hosting) (own : RunsOnOwn hosting)
    {action : HouseAction}
    (moved : HouseRun.Moved hosting.house action (hosting.house.step action))
    (inTime : hosting.LooksInTime (.acts action)) :
    RunsOnOwn { hosting with house := hosting.house.step action } := by
  intro place visit peerKey session followed isAt isVisiting isFollowed
  change (hosting.house.step action).visits[place]? = some visit at isAt
  cases moved with
  | none visits =>
      rw [visits] at isAt
      exact own place visit peerKey session followed isAt isVisiting isFollowed
  | one there before stage wasAt visits goes =>
      rw [visits, List.getElem?_set] at isAt
      split at isAt
      · next isThere =>
          split at isAt
          · cases isAt
            obtain ⟨isWaiting, isFound, late, dropped, rfl⟩ := goes peerKey session isVisiting
            rw [recalls.sessions] at isFound
            rw [← isThere] at isFollowed
            exact inTime before peerKey followed session wasAt isWaiting isFollowed isFound
          · cases isAt
      · exact own place visit peerKey session followed isAt isVisiting isFollowed

/-- A visit that looks at the wrong time gets another session. -/
theorem looksInTime_of_runsOnOwn (recalls : Recalls hosting) {action : HouseAction}
    (own : RunsOnOwn { hosting with house := hosting.house.step action }) :
    hosting.LooksInTime (.acts action) := by
  cases action with
  | polls place late dropped =>
      intro visit peerKey followed session isAt isWaiting isFollowed isLast
      rw [← recalls.sessions] at isLast
      have moves : hosting.house.step (.polls place late dropped) =
          hosting.house.move place visit (.visiting peerKey session) := by
        simp only [HouseRun.step, isAt, isWaiting, isLast]
      rw [moves] at own
      have inside : place < hosting.house.visits.length := (List.getElem?_eq_some_iff.mp isAt).1
      apply own place { visit with stage := .visiting peerKey session } peerKey session followed
      · show (hosting.house.visits.set place _)[place]? = _
        rw [List.getElem?_set_self inside]
      · rfl
      · exact isFollowed
  | _ => trivial

/-- Every action that the house does not do by itself keeps what it recalls. -/
theorem acts_cases (hosting : Hosting) (action : HouseAction) :
    (∀ place late dropped, action ≠ .polls place late dropped) ∧
        hosting.step (.acts action) = hosting ∨
      hosting.step (.acts action) = { hosting with house := hosting.house.step action } ∧
        (hosting.house.step action).sessions = hosting.house.sessions ∧
        HouseRun.Moved hosting.house action (hosting.house.step action) := by
  cases action with
  | dials dialler => exact Or.inl ⟨by simp, rfl⟩
  | introduced session peerKey => exact Or.inl ⟨by simp, rfl⟩
  | _ => exact Or.inr ⟨rfl, hosting.house.moved_step _ (by simp) (by simp)⟩

theorem recalls_step (recalls : Recalls hosting) (action : HostAction) :
    Recalls (hosting.step action) := by
  cases action with
  | introduces introduction => exact ⟨recalls.sessions, recalls.places⟩
  | misses => exact ⟨recalls.sessions, recalls.places⟩
  | takes =>
      simp only [step]
      split
      · exact recalls
      · next introduction later _ =>
          refine ⟨fun peerKey => ?_, recalls.places⟩
          show (hosting.house.sessions.put introduction.peerKey introduction.session).lookup
            peerKey = _
          rw [HashMap.lookup_put, recalls.sessions]
          exact (lastTaken_concat introduction hosting.taken peerKey).symm
  | dials dialler follows =>
      cases follows with
      | none => exact recalls_dial recalls dialler none
      | some number =>
          simp only [step]
          split
          · exact recalls
          · exact recalls_dial recalls dialler _
  | acts action =>
      rcases acts_cases hosting action with ⟨_, same⟩ | ⟨stepped, moved⟩
      · rw [same]
        exact recalls
      · rw [stepped]
        exact recalls_moved recalls moved

/-- An action keeps every visit on its own session exactly where a visit that looks does so
in time. -/
theorem runsOnOwn_step (recalls : Recalls hosting) (own : RunsOnOwn hosting)
    (action : HostAction) :
    RunsOnOwn (hosting.step action) ↔ hosting.LooksInTime action := by
  cases action with
  | introduces introduction => exact ⟨fun _ => trivial, fun _ => own⟩
  | misses => exact ⟨fun _ => trivial, fun _ => own⟩
  | takes =>
      refine ⟨fun _ => trivial, fun _ => ?_⟩
      simp only [step]
      split
      · exact own
      · exact own
  | dials dialler follows =>
      refine ⟨fun _ => trivial, fun _ => ?_⟩
      cases follows with
      | none => exact runsOnOwn_dial recalls own dialler none
      | some number =>
          simp only [step]
          split
          · exact own
          · exact runsOnOwn_dial recalls own dialler _
  | acts action =>
      rcases acts_cases hosting action with ⟨notPolls, same⟩ | ⟨stepped, _, moved⟩
      · rw [same]
        refine ⟨fun _ => ?_, fun _ => own⟩
        cases action with
        | polls place late dropped => exact absurd rfl (notPolls place late dropped)
        | _ => trivial
      · rw [stepped]
        exact ⟨looksInTime_of_runsOnOwn recalls, runsOnOwn_moved recalls own moved⟩

end Steps

/-- Over the life of a house, whatever its dials, its introductions and their order, its
visits run on the sessions their dials followed exactly as long as each looks for its session
in time. -/
theorem visit_session_iff (actions : List HostAction) :
    Throughout step RunsOnOwn new actions ↔ Guarded step LooksInTime new actions := by
  have stepExact : ∀ (hosting : Hosting) (action : HostAction),
      Recalls hosting ∧ RunsOnOwn hosting →
        (Recalls (hosting.step action) ∧ RunsOnOwn (hosting.step action) ↔
          hosting.LooksInTime action) := by
    rintro hosting action ⟨recalls, own⟩
    rw [and_iff_right (recalls_step recalls action)]
    exact runsOnOwn_step recalls own action
  have initial : Recalls new ∧ RunsOnOwn new := by
    refine ⟨recalls_new, ?_⟩
    intro place visit peerKey session introduction isAt
    cases isAt
  rw [← throughout_iff_guarded stepExact initial]
  have preserved : ∀ (hosting : Hosting) (action : HostAction), Recalls hosting →
      Recalls (hosting.step action) :=
    fun hosting action recalls => recalls_step recalls action
  have recalled : ∀ front : List HostAction, Recalls (run step new front) :=
    run_always preserved recalls_new
  constructor
  · intro always front inside
    exact ⟨recalled front, always front inside⟩
  · intro always front inside
    exact (always front inside).2

end Hosting

/-! ### A friend that visits twice -/

open HouseRun (otherFriend)

/-- A friend is introduced and visits; it is introduced again, and its second dial comes
before the house hears of that. -/
def secondVisit : List HostAction :=
  let introduction (session : UInt32) : HostAction := .introduces ⟨otherFriend, session⟩
  [introduction 1, .takes, .dials otherFriend (some 0), .acts (.accepts 0 none),
    .acts (.polls 0 false 0), .acts (.doorbellEnds 0 none), .acts (.removesControl 0),
    .acts (.givesBack 0), introduction 2, .dials otherFriend (some 1), .acts (.accepts 1 none),
    .acts (.polls 1 false 0)]

/-- The second visit runs on the session of the first. -/
theorem secondVisit_stale : ¬Throughout Hosting.step Hosting.RunsOnOwn Hosting.new secondVisit := by
  intro always
  have own := always secondVisit (List.prefix_refl _) 1
    ⟨1, otherFriend, .visiting otherFriend 1⟩ otherFriend 1 ⟨otherFriend, 2⟩ (by decide) rfl
    (by decide)
  exact absurd own (by decide)

end Mosschat.Net
