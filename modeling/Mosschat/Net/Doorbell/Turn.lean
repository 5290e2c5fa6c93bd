import Mosschat.Net.Doorbell

/-!
Owns what an action of a doorbell can do to its attempt, its queue and its stream: one relation
that every action is an instance of.

Does not own the path, nor the house at the other end of the stream.
-/

namespace Mosschat.Net

open Mosschat.Core Mosschat.Net.Gate

/-- The attempt and the half of a `Candidates` frame. -/
def PorchFrame.exchange : PorchFrame → Option (Bytes16 × Bytes32)
  | .candidates _ attempt _ probeHalf _ => some (attempt, probeHalf)
  | .pathUp _ _ _ _ | .pathDown _ _ _ _ | .goodbye _ _ => none

/-- The attempt a stage is armed with. -/
def DoorbellStage.armed : DoorbellStage → Option Running
  | .requesting running | .awaiting running | .looping running _ => some running
  | .attempting _ | .exchanging _ | .ended _ => none

/-- The house has read no frame yet. -/
def DoorbellStage.fresh : DoorbellStage → Bool
  | .attempting none | .exchanging _ => true
  | .attempting (some _) | .requesting _ | .awaiting _ | .looping _ _ | .ended _ => false

namespace Doorbell

/-! ## What an action does to the stream -/

/-- The change the watch of a path comes to at `now`. -/
def changes (watch : Watch) (now : Nat) : Option LivenessChange :=
  ((watch.liveness.dueProbe now).1.poll now).2

/-- The action has an initiator leave its attempt for another: its watch dies, or it reads
that the peer left the path of the attempt. -/
def reruns (house : Doorbell) (action : DoorbellAction) : Bool :=
  match house.stage, action with
  | .looping _ (.watching watch), .turns _ _ now _ _ =>
    house.held && house.initiator && changes watch now == some .wentDead
  | .looping running _, .reads _ =>
    house.held && house.initiator &&
      match house.frames with
      | some (.pathDown _ attempt _ _) :: _ => attempt == running.attempt
      | _ => false
  | _, _ => false

/-- The action writes `PathUp`, `PathDown` or `Goodbye`. -/
def speaks (house : Doorbell) (action : DoorbellAction) : Bool :=
  match house.stage, action with
  | .looping _ .probing, .wins _ _ _ failed => !failed
  | .looping _ (.watching watch), .turns _ _ now _ failed =>
    !failed && changes watch now == some .wentStale
  | .looping _ _, .leaves now failed =>
    !failed && (house.stopping || house.holdUntil.any fun last => last ≤ now)
  | _, _ => false

/-- What of the queue the action leaves. -/
def queueAfter (house : Doorbell) (action : DoorbellAction) : List (Option PorchFrame) :=
  match action with
  | .reads _ => house.frames.tail
  | _ => house.frames

/-- The key of an exchange, from the half it was gone into with. -/
def keyFor (crypto : Crypto) (house : Doorbell) (read : Exchanged) (half : Bytes32) : Bytes32 :=
  if house.initiator then probeKey crypto read.attempt half read.peerHalf
  else probeKey crypto read.attempt read.peerHalf half

/-- What an action can do to the attempt, the queue and the stream. -/
inductive Turn (crypto : Crypto) (house : Doorbell) (action : DoorbellAction) :
    Doorbell → List PorchFrame → Prop where
  | rests {next : Doorbell} : next.stage = house.stage → next.frames = house.frames →
      Turn crypto house action next []
  | goes {next : Doorbell} {running : Running} : house.stage.armed = some running →
      next.stage.armed = some running → next.frames <:+ house.frames →
      Turn crypto house action next []
  | speaks {next : Doorbell} {running : Running} {frame : PorchFrame} :
      house.speaks action = true → house.stage.armed = some running → frame.exchange = none →
      (next.stage.armed = some running ∨ ∃ outcome, next.stage = .ended (.ok outcome)) →
      next.frames = house.frames → Turn crypto house action next [frame]
  | ends {next : Doorbell} {result : Except DoorbellError DoorbellOutcome} :
      next.stage = .ended result → result ≠ .error .protocol → next.frames <:+ house.frames →
      Turn crypto house action next []
  | reruns {next : Doorbell} {running : Running} : house.reruns action = true →
      house.initiator = true → house.stage.armed = some running →
      next.stage = .attempting none → next.frames = house.queueAfter action →
      Turn crypto house action next []
  | opens {next : Doorbell} {offer : Offer} {frame : PorchFrame} :
      house.initiator = true → house.stage = .attempting none →
      next.stage = .exchanging offer → frame.exchange = some (offer.attempt, offer.half) →
      next.frames = house.frames → Turn crypto house action next [frame]
  | listens {next : Doorbell} {offer : Offer} : house.initiator = false →
      house.stage = .attempting none → next.stage = .exchanging offer →
      next.frames = house.frames → Turn crypto house action next []
  | answers {next : Doorbell} {read : Exchanged} {half : Bytes32} {frame : PorchFrame} :
      house.stage = .attempting (some read) →
      next.stage.armed = some ⟨read.attempt, house.keyFor crypto read half⟩ →
      frame.exchange = some (read.attempt, half) → next.frames = house.frames →
      Turn crypto house action next [frame]
  | adopts {next : Doorbell} {running : Running} {read : Exchanged} {frame : PorchFrame} :
      house.stage.armed = some running → house.frames = some frame :: next.frames →
      frame.exchange = some (read.attempt, read.peerHalf) →
      next.stage = .attempting (some read) → Turn crypto house action next []
  | takes {next : Doorbell} {offer : Offer} {read : Exchanged} {frame : PorchFrame} :
      house.initiator = true → house.stage = .exchanging offer →
      house.frames = some frame :: next.frames →
      frame.exchange = some (read.attempt, read.peerHalf) → read.attempt = offer.attempt →
      next.stage.armed = some ⟨read.attempt, house.keyFor crypto read offer.half⟩ →
      Turn crypto house action next []
  | returns {next : Doorbell} {offer : Offer} {read : Exchanged} {frame written : PorchFrame} :
      house.initiator = false → house.stage = .exchanging offer →
      house.frames = some frame :: next.frames →
      frame.exchange = some (read.attempt, read.peerHalf) →
      next.stage.armed = some ⟨read.attempt, house.keyFor crypto read offer.half⟩ →
      written.exchange = some (read.attempt, offer.half) →
      Turn crypto house action next [written]
  | refuses {next : Doorbell} {offer : Offer} {frame : PorchFrame} :
      house.stage = .exchanging offer → house.frames = some frame :: next.frames →
      (frame.exchange = none ∨ house.initiator = true ∧
        ∀ half, frame.exchange ≠ some (offer.attempt, half)) →
      next.stage = .ended (.error .protocol) → Turn crypto house action next []

section Turns

variable {crypto : Crypto} {house : Doorbell} {action : DoorbellAction}

theorem armed_exchanged (crypto : Crypto) (house : Doorbell) (read : Exchanged) (half : Bytes32)
    (now : Nat) : (house.exchanged crypto read half now).stage.armed =
      some ⟨read.attempt, house.keyFor crypto read half⟩ := by
  unfold Doorbell.exchanged
  simp only
  split
  · rfl
  · split
    · rfl
    · rfl

theorem frames_exchanged (crypto : Crypto) (house : Doorbell) (read : Exchanged) (half : Bytes32)
    (now : Nat) : (house.exchanged crypto read half now).frames = house.frames := by
  unfold Doorbell.exchanged
  simp only
  split
  · rfl
  · split
    · rfl
    · rfl

theorem turn_begins (attempt : Bytes16) (half : Bytes32) (candidates : List SocketAddr)
    (now : Nat) (failed : Bool) :
    Turn crypto house action (house.begins crypto attempt half candidates now failed).1
      (house.begins crypto attempt half candidates now failed).2 := by
  unfold Doorbell.begins
  split
  · next adopted isStage =>
      unfold Doorbell.answers
      split
      · exact .ends rfl nofun (List.suffix_refl _)
      · exact .answers isStage (armed_exchanged crypto house adopted half now) rfl
          (frames_exchanged crypto house adopted half now)
  · next isStage =>
      split
      · next isInitiator =>
          split
          · exact .ends rfl nofun (List.suffix_refl _)
          · exact .opens isInitiator isStage rfl rfl rfl
      · next notInitiator =>
          rw [Bool.not_eq_true] at notInitiator
          exact .listens notInitiator isStage rfl rfl
  · exact .rests rfl rfl

theorem turn_expects (now : Nat) (failed : Bool) :
    Turn crypto house action (house.expects crypto now failed).1
      (house.expects crypto now failed).2 := by
  unfold Doorbell.expects
  split
  · next offer v attempt addrs probeHalf noUpgrade rest isStage isFrames =>
      have armed := armed_exchanged crypto { house with frames := rest }
        ⟨attempt, addrs, probeHalf, noUpgrade⟩ offer.half now
      have isNext : house.frames = some (.candidates v attempt addrs probeHalf noUpgrade) ::
          (exchanged crypto { house with frames := rest }
            ⟨attempt, addrs, probeHalf, noUpgrade⟩ offer.half now).frames := by
        rw [frames_exchanged]
        exact isFrames
      simp only
      split
      · next isInitiator =>
          split
          · next other =>
              apply Turn.refuses isStage
              · exact isFrames
              · right
                refine ⟨isInitiator, ?_⟩
                intro half same
                have both := Option.some.inj same
                exact other (congrArg Prod.fst both)
              · rfl
          · next same =>
              rw [not_not] at same
              have role : house.initiator = true := isInitiator
              exact .takes role isStage isNext rfl same armed
      · next notInitiator =>
          rw [Bool.not_eq_true] at notInitiator
          have role : house.initiator = false := notInitiator
          unfold Doorbell.answers
          split
          · apply Turn.ends
            · rfl
            · exact nofun
            · rw [isFrames]
              exact List.suffix_cons _ _
          · exact .returns role isStage isNext rfl armed rfl
  · next offer frame rest other isStage isFrames =>
      have isOther : frame.exchange = none := by
        cases frame with
        | candidates v attempt addrs probeHalf noUpgrade =>
            exact absurd rfl (other v attempt addrs probeHalf noUpgrade)
        | pathUp v attempt addr rttUs => rfl
        | pathDown v attempt addr reason => rfl
        | goodbye v reason => rfl
      exact .refuses isStage isFrames (Or.inl isOther) rfl
  · next rest _ isFrames =>
      apply Turn.ends
      · rfl
      · exact nofun
      · rw [isFrames]
        exact List.suffix_cons _ _
  · exact .rests rfl rfl

theorem turn_signalled {running : Running} {onward : DoorbellStage}
    (isArmed : house.stage.armed = some running) (isOnward : onward.armed = some running)
    (now : Nat) (failed : Bool) :
    Turn crypto house action (house.signalled running onward now failed) [] := by
  unfold Doorbell.signalled
  split
  · split
    · exact .goes isArmed rfl (List.suffix_refl _)
    · exact .ends rfl nofun (List.suffix_refl _)
  · exact .goes isArmed isOnward (List.suffix_refl _)

theorem turn_leaves {running : Running} {phase : Phase} {now : Nat} {failed : Bool}
    (isStage : house.stage = .looping running phase) :
    Turn crypto house (.leaves now failed) (house.leaves now failed).1
      (house.leaves now failed).2 := by
  have isArmed : house.stage.armed = some running := by
    rw [isStage]
    rfl
  unfold Doorbell.leaves
  split
  · next leaving =>
      cases failed with
      | true => exact .ends rfl nofun (List.suffix_refl _)
      | false =>
          apply Turn.speaks
          · unfold Doorbell.speaks
            rw [isStage]
            cases phase with
            | probing => exact leaving
            | watching watch => exact leaving
            | relayed watch => exact leaving
          · exact isArmed
          · rfl
          · exact Or.inr ⟨_, rfl⟩
          · rfl
  · exact .rests rfl rfl

theorem turn_watches {running : Running} {watch : Watch} {givenUp : Bool}
    {tx : List.Vector UInt8 8} {now : Nat} {sent failed : Bool}
    (isStage : house.stage = .looping running (.watching watch)) :
    Turn crypto house (.turns givenUp tx now sent failed)
      (house.watches running watch tx now failed).1
      (house.watches running watch tx now failed).2 := by
  have isArmed : house.stage.armed = some running := by
    rw [isStage]
    rfl
  have isChange : ((if (watch.liveness.dueProbe now).2 = true then
      ({ watch with
          liveness := (watch.liveness.dueProbe now).1
          outstanding := some tx
          sentAt := some now } : Watch)
      else { watch with liveness := (watch.liveness.dueProbe now).1 }).liveness.poll now).2 =
        changes watch now := by
    unfold changes
    split
    · rfl
    · rfl
  unfold Doorbell.watches
  simp only
  rw [isChange]
  split
  · next isStale =>
      cases failed with
      | true =>
          split
          · exact .goes isArmed rfl (List.suffix_refl _)
          · exact .ends rfl nofun (List.suffix_refl _)
      | false =>
          have speaks : house.speaks (.turns givenUp tx now sent false) = true := by
            unfold Doorbell.speaks
            rw [isStage]
            show (!false && changes watch now == some .wentStale) = true
            rw [isStale]
            rfl
          split
          · exact .speaks speaks isArmed rfl (Or.inl rfl) rfl
          · exact .speaks speaks isArmed rfl (Or.inr ⟨_, rfl⟩) rfl
  · next isDead =>
      split
      · next both =>
          rw [Bool.and_eq_true] at both
          apply Turn.reruns
          · unfold Doorbell.reruns
            rw [isStage]
            show (house.held && house.initiator && changes watch now == some .wentDead) = true
            rw [isDead, both.1, both.2]
            rfl
          · exact both.2
          · exact isArmed
          · rfl
          · rfl
      · exact .goes isArmed rfl (List.suffix_refl _)
  · exact .goes isArmed rfl (List.suffix_refl _)

theorem turn_turns (givenUp : Bool) (tx : List.Vector UInt8 8) (now : Nat) (sent failed : Bool) :
    Turn crypto house (.turns givenUp tx now sent failed)
      (house.turns givenUp tx now sent failed).1 (house.turns givenUp tx now sent failed).2 := by
  unfold Doorbell.turns
  split
  · next running isStage =>
      have isArmed : house.stage.armed = some running := by
        rw [isStage]
        rfl
      split
      · split
        · exact .goes isArmed rfl (List.suffix_refl _)
        · exact .ends rfl nofun (List.suffix_refl _)
      · exact .rests rfl rfl
  · next isStage => exact turn_watches isStage
  · next running watch isStage =>
      have isArmed : house.stage.armed = some running := by
        rw [isStage]
        rfl
      unfold Doorbell.relayWatches
      simp only
      split
      · split
        · exact .goes isArmed rfl (List.suffix_refl _)
        · exact .ends rfl nofun (List.suffix_refl _)
      · exact .goes isArmed rfl (List.suffix_refl _)
      · exact .goes isArmed rfl (List.suffix_refl _)
  · exact .rests rfl rfl

theorem turn_pongs (source : SocketAddr) (tx : List.Vector UInt8 8) (arrived : Nat) :
    Turn crypto house action (house.pongs source tx arrived) [] := by
  unfold Doorbell.pongs
  split
  · next running watch isStage =>
      have isArmed : house.stage.armed = some running := by
        rw [isStage]
        rfl
      split
      · split
        · exact .goes isArmed rfl (List.suffix_refl _)
        · exact .goes isArmed rfl (List.suffix_refl _)
      · exact .rests rfl rfl
  · next running watch isStage =>
      have isArmed : house.stage.armed = some running := by
        rw [isStage]
        rfl
      split
      · exact .goes isArmed rfl (List.suffix_refl _)
      · exact .rests rfl rfl
  · exact .rests rfl rfl

theorem turn_wins (addr : SocketAddr) (rtt now : Nat) (failed : Bool) :
    Turn crypto house (.wins addr rtt now failed) (house.wins addr rtt now failed).1
      (house.wins addr rtt now failed).2 := by
  unfold Doorbell.wins
  split
  · next running isStage =>
      have isArmed : house.stage.armed = some running := by
        rw [isStage]
        rfl
      cases failed with
      | true => exact .ends rfl nofun (List.suffix_refl _)
      | false =>
          apply Turn.speaks
          · unfold Doorbell.speaks
            rw [isStage]
            rfl
          · exact isArmed
          · rfl
          · exact Or.inl rfl
          · rfl
  · exact .rests rfl rfl

theorem turn_reads (now : Nat) : Turn crypto house (.reads now) (house.reads now) [] := by
  unfold Doorbell.reads
  split
  · next running phase frame rest isStage isFrames =>
      have isArmed : house.stage.armed = some running := by
        rw [isStage]
        rfl
      have isSuffix : rest <:+ house.frames := by
        rw [isFrames]
        exact List.suffix_cons _ _
      simp only
      split
      · exact .ends rfl nofun isSuffix
      · split
        · exact .adopts isArmed isFrames rfl rfl
        · apply Turn.goes isArmed
          · exact isArmed
          · exact isSuffix
      · next v attempt addr reason =>
          split
          · next same =>
              unfold Doorbell.pathDown
              simp only
              generalize isLeft : (if (house.path.bind fun entry =>
                  entry.fallBackToRelay.2).isSome = true then _ else _ : Doorbell) = left
              have frames : left.frames = rest := by
                rw [← isLeft]
                split
                · rfl
                · rfl
              split
              · next isHeld =>
                  split
                  · next isInitiator =>
                      have isRerun :
                          (house.held && house.initiator && attempt == running.attempt) = true := by
                        rw [Bool.and_eq_true, Bool.and_eq_true]
                        exact ⟨⟨isHeld, isInitiator⟩, beq_iff_eq.mpr same⟩
                      apply Turn.reruns
                      · unfold Doorbell.reruns
                        rw [isStage, isFrames]
                        cases phase with
                        | probing => exact isRerun
                        | watching watch => exact isRerun
                        | relayed watch => exact isRerun
                      · exact isInitiator
                      · exact isArmed
                      · rfl
                      · show left.frames = house.frames.tail
                        rw [frames, isFrames]
                        rfl
                  · apply Turn.goes isArmed
                    · rfl
                    · show left.frames <:+ house.frames
                      rw [frames]
                      exact isSuffix
              · apply Turn.ends
                · rfl
                · exact nofun
                · show left.frames <:+ house.frames
                  rw [frames]
                  exact isSuffix
          · apply Turn.goes isArmed
            · exact isArmed
            · exact isSuffix
      · apply Turn.goes isArmed
        · exact isArmed
        · exact isSuffix
      · apply Turn.goes isArmed
        · exact isArmed
        · exact isSuffix
  · exact .rests rfl rfl

/-- Every action is one of the turns. -/
theorem turn_act (crypto : Crypto) (house : Doorbell) (action : DoorbellAction) :
    Turn crypto house action (house.act crypto action).1 (house.act crypto action).2 := by
  cases action with
  | begins attempt half candidates now failed =>
      exact turn_begins attempt half candidates now failed
  | expects now failed => exact turn_expects now failed
  | timesOut =>
      simp only [act]
      split
      · exact .ends rfl nofun (List.suffix_refl _)
      · exact .rests rfl rfl
  | startRequested now failed =>
      simp only [act]
      split
      · next running isStage =>
          apply turn_signalled
          · rw [isStage]
            rfl
          · rfl
      · exact .rests rfl rfl
  | startAwaited now failed =>
      simp only [act]
      split
      · next running isStage =>
          apply turn_signalled
          · rw [isStage]
            rfl
          · rfl
      · exact .rests rfl rfl
  | leaves now failed =>
      simp only [act]
      split
      · next isStage => exact turn_leaves isStage
      · exact .rests rfl rfl
  | turns givenUp tx now sent failed => exact turn_turns givenUp tx now sent failed
  | pongs source tx arrived => exact turn_pongs source tx arrived
  | wins addr rtt now failed => exact turn_wins addr rtt now failed
  | reads now => exact turn_reads now
  | closes =>
      simp only [act]
      split
      · exact .ends rfl nofun (List.suffix_refl _)
      · exact .rests rfl rfl
  | stops => exact .rests rfl rfl

/-- No action changes what the house was asked to do, nor its reader. -/
def Same (house next : Doorbell) : Prop :=
  next.params = house.params ∧ next.reading = house.reading

theorem same_exchanged (crypto : Crypto) (house : Doorbell) (read : Exchanged) (half : Bytes32)
    (now : Nat) : Same house (house.exchanged crypto read half now) := by
  unfold Doorbell.exchanged
  simp only
  split
  · exact ⟨rfl, rfl⟩
  · split
    · exact ⟨rfl, rfl⟩
    · exact ⟨rfl, rfl⟩

theorem same_answers (crypto : Crypto) (house : Doorbell) (read : Exchanged) (half : Bytes32)
    (candidates : List SocketAddr) (now : Nat) (failed : Bool) :
    Same house (house.answers crypto read half candidates now failed).1 := by
  unfold Doorbell.answers
  split
  · exact ⟨rfl, rfl⟩
  · exact same_exchanged crypto house read half now

theorem same_begins (crypto : Crypto) (house : Doorbell) (attempt : Bytes16) (half : Bytes32)
    (candidates : List SocketAddr) (now : Nat) (failed : Bool) :
    Same house (house.begins crypto attempt half candidates now failed).1 := by
  unfold Doorbell.begins
  split
  · exact same_answers crypto house _ half candidates now failed
  · split
    · split
      · exact ⟨rfl, rfl⟩
      · exact ⟨rfl, rfl⟩
    · exact ⟨rfl, rfl⟩
  · exact ⟨rfl, rfl⟩

theorem same_expects (crypto : Crypto) (house : Doorbell) (now : Nat) (failed : Bool) :
    Same house (house.expects crypto now failed).1 := by
  unfold Doorbell.expects
  split
  · next rest _ _ =>
      simp only
      split
      · split
        · exact ⟨rfl, rfl⟩
        · exact same_exchanged crypto { house with frames := rest } _ _ now
      · exact same_answers crypto { house with frames := rest } _ _ _ now failed
  · exact ⟨rfl, rfl⟩
  · exact ⟨rfl, rfl⟩
  · exact ⟨rfl, rfl⟩

theorem same_signalled (house : Doorbell) (running : Running) (onward : DoorbellStage)
    (now : Nat) (failed : Bool) : Same house (house.signalled running onward now failed) := by
  unfold Doorbell.signalled
  split
  · split
    · exact ⟨rfl, rfl⟩
    · exact ⟨rfl, rfl⟩
  · exact ⟨rfl, rfl⟩

theorem same_watches (house : Doorbell) (running : Running) (watch : Watch)
    (tx : List.Vector UInt8 8) (now : Nat) (failed : Bool) :
    Same house (house.watches running watch tx now failed).1 := by
  unfold Doorbell.watches
  simp only
  split
  · split
    · exact ⟨rfl, rfl⟩
    · exact ⟨rfl, rfl⟩
  · split
    · exact ⟨rfl, rfl⟩
    · exact ⟨rfl, rfl⟩
  · exact ⟨rfl, rfl⟩

theorem same_turns (house : Doorbell) (givenUp : Bool) (tx : List.Vector UInt8 8) (now : Nat)
    (sent failed : Bool) : Same house (house.turns givenUp tx now sent failed).1 := by
  unfold Doorbell.turns
  split
  · split
    · split
      · exact ⟨rfl, rfl⟩
      · exact ⟨rfl, rfl⟩
    · exact ⟨rfl, rfl⟩
  · exact same_watches house _ _ tx now failed
  · unfold Doorbell.relayWatches
    simp only
    split
    · split
      · exact ⟨rfl, rfl⟩
      · exact ⟨rfl, rfl⟩
    · exact ⟨rfl, rfl⟩
    · exact ⟨rfl, rfl⟩
  · exact ⟨rfl, rfl⟩

theorem same_pongs (house : Doorbell) (source : SocketAddr) (tx : List.Vector UInt8 8)
    (arrived : Nat) : Same house (house.pongs source tx arrived) := by
  unfold Doorbell.pongs
  split
  · split
    · split
      · exact ⟨rfl, rfl⟩
      · exact ⟨rfl, rfl⟩
    · exact ⟨rfl, rfl⟩
  · split
    · exact ⟨rfl, rfl⟩
    · exact ⟨rfl, rfl⟩
  · exact ⟨rfl, rfl⟩

theorem same_pathDown (house : Doorbell) (running : Running) (now : Nat) :
    Same house (house.pathDown running now) := by
  unfold Doorbell.pathDown
  simp only
  split
  · split
    · split
      · exact ⟨rfl, rfl⟩
      · exact ⟨rfl, rfl⟩
    · split
      · exact ⟨rfl, rfl⟩
      · exact ⟨rfl, rfl⟩
  · split
    · exact ⟨rfl, rfl⟩
    · exact ⟨rfl, rfl⟩

theorem same_reads (house : Doorbell) (now : Nat) : Same house (house.reads now) := by
  unfold Doorbell.reads
  split
  · next rest _ _ =>
      simp only
      split
      · exact ⟨rfl, rfl⟩
      · split
        · exact ⟨rfl, rfl⟩
        · exact ⟨rfl, rfl⟩
      · split
        · exact same_pathDown { house with frames := rest } _ now
        · exact ⟨rfl, rfl⟩
      · exact ⟨rfl, rfl⟩
      · exact ⟨rfl, rfl⟩
  · exact ⟨rfl, rfl⟩

theorem same_act (crypto : Crypto) (house : Doorbell) (action : DoorbellAction) :
    Same house (house.act crypto action).1 := by
  cases action with
  | begins attempt half candidates now failed =>
      exact same_begins crypto house attempt half candidates now failed
  | expects now failed => exact same_expects crypto house now failed
  | timesOut =>
      simp only [act]
      split
      · exact ⟨rfl, rfl⟩
      · exact ⟨rfl, rfl⟩
  | startRequested now failed =>
      simp only [act]
      split
      · exact same_signalled house _ _ now failed
      · exact ⟨rfl, rfl⟩
  | startAwaited now failed =>
      simp only [act]
      split
      · exact same_signalled house _ _ now failed
      · exact ⟨rfl, rfl⟩
  | leaves now failed =>
      simp only [act]
      split
      · unfold Doorbell.leaves
        split
        · exact ⟨rfl, rfl⟩
        · exact ⟨rfl, rfl⟩
      · exact ⟨rfl, rfl⟩
  | turns givenUp tx now sent failed => exact same_turns house givenUp tx now sent failed
  | pongs source tx arrived => exact same_pongs house source tx arrived
  | wins addr rtt now failed =>
      simp only [act, Doorbell.wins]
      split
      · split
        · exact ⟨rfl, rfl⟩
        · exact ⟨rfl, rfl⟩
      · exact ⟨rfl, rfl⟩
  | reads now => exact same_reads house now
  | closes =>
      simp only [act]
      split
      · exact ⟨rfl, rfl⟩
      · exact ⟨rfl, rfl⟩
  | stops => exact ⟨rfl, rfl⟩

variable {next : Doorbell} {written : List PorchFrame}

theorem Turn.suffix (turn : Turn crypto house action next written) :
    next.frames <:+ house.frames := by
  have same : next.frames = house.frames → next.frames <:+ house.frames := by
    intro same
    rewrite [same]
    exact List.suffix_refl house.frames
  have popped : ∀ frame, house.frames = frame :: next.frames → next.frames <:+ house.frames := by
    intro frame popped
    rw [popped]
    exact List.suffix_cons frame next.frames
  cases turn with
  | rests _ frames => exact same frames
  | goes _ _ isSuffix => exact isSuffix
  | speaks _ _ _ _ frames => exact same frames
  | ends _ _ isSuffix => exact isSuffix
  | reruns _ _ _ _ frames =>
      rw [frames]
      unfold queueAfter
      split
      · exact List.tail_suffix house.frames
      · exact List.suffix_refl house.frames
  | opens _ _ _ _ frames => exact same frames
  | listens _ _ _ frames => exact same frames
  | answers _ _ _ frames => exact same frames
  | adopts _ frames _ _ => exact popped _ frames
  | takes _ _ frames _ _ _ => exact popped _ frames
  | returns _ _ frames _ _ _ => exact popped _ frames
  | refuses _ frames _ _ => exact popped _ frames

theorem fresh_of_armed {stage : DoorbellStage} {running : Running}
    (isArmed : stage.armed = some running) : stage.fresh = false := by
  cases stage with
  | requesting found => rfl
  | awaiting found => rfl
  | looping found phase => rfl
  | attempting adopted => cases isArmed
  | exchanging offer => cases isArmed
  | ended result => cases isArmed

/-- A responder that has read no frame after a turn had read none before it. -/
theorem Turn.fresh (turn : Turn crypto house action next written)
    (responder : house.initiator = false) (isFresh : next.stage.fresh = true) :
    house.stage.fresh = true ∧ next.frames = house.frames := by
  have notArmed : ∀ running, next.stage.armed ≠ some running := by
    intro running isArmed
    rw [fresh_of_armed isArmed] at isFresh
    cases isFresh
  cases turn with
  | rests stage frames =>
      rw [stage] at isFresh
      exact ⟨isFresh, frames⟩
  | goes _ isArmed _ => exact absurd isArmed (notArmed _)
  | speaks _ _ _ after _ =>
      rcases after with isArmed | ⟨outcome, isEnded⟩
      · exact absurd isArmed (notArmed _)
      · rw [isEnded] at isFresh
        cases isFresh
  | ends isEnded _ _ =>
      rw [isEnded] at isFresh
      cases isFresh
  | reruns _ initiator _ _ _ =>
      rw [responder] at initiator
      cases initiator
  | opens initiator _ _ _ _ =>
      rw [responder] at initiator
      cases initiator
  | listens _ stage _ frames =>
      rw [stage]
      exact ⟨rfl, frames⟩
  | answers _ isArmed _ _ => exact absurd isArmed (notArmed _)
  | adopts _ _ _ stage =>
      rw [stage] at isFresh
      cases isFresh
  | takes _ _ _ _ _ isArmed => exact absurd isArmed (notArmed _)
  | returns _ _ _ _ isArmed _ => exact absurd isArmed (notArmed _)
  | refuses _ _ _ isEnded =>
      rw [isEnded] at isFresh
      cases isFresh

end Turns

end Doorbell

end Mosschat.Net
