import Mosschat.Library.Machine
import Mosschat.Net.Doorbell

/-!
Owns what the path entry of a peer is in every turn of a doorbell: direct while the watch of
its address is live, on the relay otherwise.

Does not own what the peer makes of the frames, nor the path of the peer.
-/

namespace Mosschat.Net

open Mosschat.Core Mosschat.Library.Machine Mosschat.Net.Gate

/-- What a doorbell takes in: a frame of its stream, or something of its own. -/
inductive DoorbellInput where
  | arrives (frame : Option PorchFrame)
  | acts (action : DoorbellAction)

namespace Doorbell

def step (crypto : Crypto) (house : Doorbell) : DoorbellInput → Doorbell
  | .arrives frame => house.arrives frame
  | .acts action => (house.act crypto action).1

/-! ## What the entry should be -/

/-- In the loop, the entry and the phase agree: a relayed phase has it on the relay, a watch
has it direct to its address while it is live and on the relay after. -/
structure PathWatched (house : Doorbell) : Prop where
  relayed : ∀ running watch entry, house.stage = .looping running (.relayed watch) →
    house.path = some entry → entry.directAddr = none
  live : ∀ running watch entry, house.stage = .looping running (.watching watch) →
    house.path = some entry → watch.liveness.state = .live → entry.kind = .direct watch.addr
  left : ∀ running watch entry, house.stage = .looping running (.watching watch) →
    house.path = some entry → watch.liveness.state ≠ .live → entry.directAddr = none
  /-- No traffic leaves on a direct address that nobody watches. -/
  watched : ∀ running phase entry addr, house.stage = .looping running phase →
    house.path = some entry → entry.directAddr = some addr →
    ∃ watch, phase = .watching watch ∧ watch.addr = addr ∧ watch.liveness.state = .live

/-- The house adopts another attempt while its entry is direct. -/
def strays (house : Doorbell) : DoorbellInput → Bool
  | .acts (.reads _) =>
    match house.stage, house.frames with
    | .looping running _, some (.candidates _ attempt _ _ _) :: _ =>
      attempt != running.attempt && house.path.any fun entry => entry.directAddr.isSome
    | _, _ => false
  | _ => false

/-- The kind of path a stage goes with. -/
def pathKind : DoorbellStage → Option PathKind
  | .looping _ (.watching watch) =>
    some (if watch.liveness.state = .live then .direct watch.addr else .relay)
  | .looping _ _ | .attempting _ | .exchanging _ | .requesting _ | .awaiting _ => some .relay
  | .ended _ => none

/-- The entry is of the kind the stage goes with. -/
def Kept (house : Doorbell) : Prop :=
  ∀ entry kind, house.path = some entry → pathKind house.stage = some kind → entry.kind = kind

def OnRelay (house : Doorbell) : Prop := ∀ entry, house.path = some entry → entry.kind = .relay

section Kept

variable {house : Doorbell}

theorem Kept.onRelay (kept : Kept house) (isRelay : pathKind house.stage = some .relay) :
    OnRelay house := fun entry isEntry => kept entry .relay isEntry isRelay

theorem OnRelay.kept {next : Doorbell} (onRelay : OnRelay house) (path : next.path = house.path)
    (isRelay : pathKind next.stage = some .relay) : Kept next := by
  intro entry kind isEntry isKind
  rw [isRelay] at isKind
  rw [path] at isEntry
  rw [← Option.some.inj isKind]
  exact onRelay entry isEntry

theorem kept_ends (house : Doorbell) (result : Except DoorbellError DoorbellOutcome) :
    Kept (house.ends result) := by
  intro entry kind _ isKind
  cases isKind

theorem onRelay_fallsBack (house : Doorbell) : OnRelay house.fallsBack := by
  intro entry isEntry
  obtain ⟨before, _, isNow⟩ := Option.map_eq_some_iff.mp isEntry
  rw [← isNow]
  exact before.kind_fallBackToRelay

theorem OnRelay.relays (onRelay : OnRelay house) (running : Running) (now : Nat) :
    Kept (house.relays running now) := onRelay.kept rfl rfl

theorem OnRelay.exchanged (onRelay : OnRelay house) (crypto : Crypto) (read : Exchanged)
    (half : Bytes32) (now : Nat) : Kept (house.exchanged crypto read half now) := by
  unfold Doorbell.exchanged
  simp only
  split
  · exact onRelay.kept rfl rfl
  · split
    · exact onRelay.kept rfl rfl
    · exact onRelay.kept rfl rfl

theorem OnRelay.answers (onRelay : OnRelay house) (crypto : Crypto) (read : Exchanged)
    (half : Bytes32) (candidates : List SocketAddr) (now : Nat) (failed : Bool) :
    Kept (house.answers crypto read half candidates now failed).1 := by
  unfold Doorbell.answers
  split
  · exact kept_ends house _
  · exact onRelay.exchanged crypto read half now

theorem Kept.begins (kept : Kept house) (crypto : Crypto) (attempt : Bytes16) (half : Bytes32)
    (candidates : List SocketAddr) (now : Nat) (failed : Bool) :
    Kept (house.begins crypto attempt half candidates now failed).1 := by
  unfold Doorbell.begins
  split
  · next adopted isStage =>
      have onRelay : OnRelay house := by
        apply kept.onRelay
        rw [isStage]
        rfl
      exact onRelay.answers crypto adopted half candidates now failed
  · next isStage =>
      have onRelay : OnRelay house := by
        apply kept.onRelay
        rw [isStage]
        rfl
      split
      · split
        · exact kept_ends house _
        · exact onRelay.kept rfl rfl
      · exact onRelay.kept rfl rfl
  · exact kept

theorem Kept.expects (kept : Kept house) (crypto : Crypto) (now : Nat) (failed : Bool) :
    Kept (house.expects crypto now failed).1 := by
  unfold Doorbell.expects
  split
  · next offer _ attempt addrs probeHalf noUpgrade rest isStage _ =>
      have onRelay : OnRelay house := by
        apply kept.onRelay
        rw [isStage]
        rfl
      have shorter : OnRelay { house with frames := rest } := onRelay
      simp only
      split
      · split
        · exact kept_ends _ _
        · exact shorter.exchanged crypto _ offer.half now
      · exact shorter.answers crypto _ offer.half offer.candidates now failed
  · exact kept_ends _ _
  · exact kept_ends _ _
  · exact kept

theorem OnRelay.signalled (onRelay : OnRelay house) (running : Running) {onward : DoorbellStage}
    (isRelay : pathKind onward = some .relay) (now : Nat) (failed : Bool) :
    Kept (house.signalled running onward now failed) := by
  unfold Doorbell.signalled
  split
  · split
    · exact onRelay.relays running now
    · exact kept_ends house _
  · exact onRelay.kept rfl isRelay

theorem Kept.watches {running : Running} {watch : Watch} (kept : Kept house)
    (isStage : house.stage = .looping running (.watching watch)) (tx : List.Vector UInt8 8)
    (now : Nat) (failed : Bool) : Kept (house.watches running watch tx now failed).1 := by
  unfold Doorbell.watches
  simp only
  generalize isProbed : (if (watch.liveness.dueProbe now).2 = true then
      ({ watch with
          liveness := (watch.liveness.dueProbe now).1
          outstanding := some tx
          sentAt := some now } : Watch)
      else { watch with liveness := (watch.liveness.dueProbe now).1 }) = probed
  have sameAddr : probed.addr = watch.addr := by
    rw [← isProbed]
    split
    · rfl
    · rfl
  have sameState : probed.liveness.state = watch.liveness.state := by
    rw [← isProbed, ← watch.liveness.state_dueProbe now]
    split
    · rfl
    · rfl
  have polled := probed.liveness.state_poll now
  split
  · -- the path is left before anything is written
    split
    · next isChange _ =>
        rw [isChange] at polled
        intro entry kind isEntry isKind
        have isRelay : entry.kind = .relay := onRelay_fallsBack _ entry isEntry
        have isWatch : some _ = some kind := isKind
        rw [if_neg] at isWatch
        · exact isRelay.trans (Option.some.inj isWatch)
        · show (probed.liveness.poll now).1.state ≠ .live
          rw [polled]
          exact nofun
    · exact kept_ends _ _
  · next isChange =>
      -- what dies was stale, and so on the relay already
      have onRelay : OnRelay house := by
        apply kept.onRelay
        have wasStale := PeerLiveness.state_of_poll isChange
        rw [sameState] at wasStale
        rw [isStage]
        show some (if watch.liveness.state = .live then _ else PathKind.relay) = some .relay
        rw [if_neg]
        rw [wasStale]
        exact nofun
      split
      · exact onRelay.kept rfl rfl
      · exact onRelay.kept rfl rfl
  · next isChange =>
      rw [isChange] at polled
      intro entry kind isEntry isKind
      apply kept entry kind isEntry
      rw [isStage]
      change some (if (probed.liveness.poll now).1.state = .live then
        PathKind.direct probed.addr else PathKind.relay) = some kind at isKind
      rw [polled, sameState, sameAddr] at isKind
      exact isKind

theorem OnRelay.relayWatches (onRelay : OnRelay house) (running : Running) (watch : RelayWatch)
    (tx : List.Vector UInt8 8) (now : Nat) (sent : Bool) :
    Kept (house.relayWatches running watch tx now sent) := by
  unfold Doorbell.relayWatches
  simp only
  split
  · split
    · exact onRelay.kept rfl rfl
    · exact kept_ends _ _
  · exact onRelay.kept rfl rfl
  · exact onRelay.kept rfl rfl

theorem Kept.turns (kept : Kept house) (givenUp : Bool) (tx : List.Vector UInt8 8) (now : Nat)
    (sent failed : Bool) : Kept (house.turns givenUp tx now sent failed).1 := by
  unfold Doorbell.turns
  split
  · next running isStage =>
      have onRelay : OnRelay house := by
        apply kept.onRelay
        rw [isStage]
        rfl
      split
      · split
        · exact onRelay.relays running now
        · exact kept_ends house _
      · exact kept
  · next isStage => exact kept.watches isStage tx now failed
  · next running watch isStage =>
      have onRelay : OnRelay house := by
        apply kept.onRelay
        rw [isStage]
        rfl
      exact onRelay.relayWatches running watch tx now sent
  · exact kept

theorem Kept.pongs (kept : Kept house) (source : SocketAddr) (tx : List.Vector UInt8 8)
    (arrived : Nat) : Kept (house.pongs source tx arrived) := by
  unfold Doorbell.pongs
  split
  · next running watch isStage =>
      split
      · split
        · intro entry kind isEntry isKind
          apply kept entry kind isEntry
          rw [isStage]
          exact isKind
        · next sent _ =>
            intro entry kind isEntry isKind
            obtain ⟨before, wasEntry, isNow⟩ := Option.map_eq_some_iff.mp isEntry
            rw [← isNow, PathEntry.kind_recordRtt]
            apply kept before kind wasEntry
            rw [isStage]
            change some (if (watch.liveness.onPong arrived (arrived - sent)).1.state = .live then
              PathKind.direct watch.addr else PathKind.relay) = some kind at isKind
            rw [PeerLiveness.state_onPong] at isKind
            exact isKind
      · exact kept
  · next running watch isStage =>
      have onRelay : OnRelay house := by
        apply kept.onRelay
        rw [isStage]
        rfl
      split
      · exact onRelay.kept rfl rfl
      · exact kept
  · exact kept

theorem Kept.wins (kept : Kept house) (addr : SocketAddr) (rtt now : Nat) (failed : Bool) :
    Kept (house.wins addr rtt now failed).1 := by
  unfold Doorbell.wins
  split
  · simp only
    split
    · exact kept_ends _ _
    · intro entry kind isEntry isKind
      obtain ⟨before, _, isNow⟩ := Option.map_eq_some_iff.mp isEntry
      rw [← isNow, PathEntry.kind_recordRtt, PathEntry.kind_upgradeTo]
      exact Option.some.inj isKind
  · exact kept

theorem kept_pathDown (house : Doorbell) (running : Running) (now : Nat) :
    Kept (house.pathDown running now) := by
  have onRelay := onRelay_fallsBack house
  unfold Doorbell.pathDown
  simp only
  generalize isLeft : (if (house.path.bind fun entry => entry.fallBackToRelay.2).isSome = true then
      ({ house.fallsBack with outcome := { house.fallsBack.outcome with fellBack := true } } :
        Doorbell)
      else house.fallsBack) = left
  have leftRelay : OnRelay left := by
    rw [← isLeft]
    split
    · exact onRelay
    · exact onRelay
  split
  · split
    · exact leftRelay.kept rfl rfl
    · exact leftRelay.relays running now
  · exact kept_ends left _

/-- Adopting another attempt keeps the entry only where it is on the relay. -/
theorem Kept.reads (kept : Kept house) (now : Nat)
    (stays : house.strays (.acts (.reads now)) = false) : Kept (house.reads now) := by
  unfold Doorbell.reads
  simp only [strays] at stays
  split
  · next running phase frame rest isStage isFrames =>
      have shorter : Kept { house with frames := rest } := kept
      simp only
      split
      · exact kept_ends _ _
      · next _ attempt _ _ _ =>
          split
          · next other =>
              rw [isStage, isFrames] at stays
              change (attempt != running.attempt && house.path.any fun entry =>
                entry.directAddr.isSome) = false at stays
              have isOther : (attempt != running.attempt) = true := bne_iff_ne.mpr other
              rw [isOther, Bool.true_and] at stays
              intro entry kind isEntry isKind
              have isPath : house.path = some entry := isEntry
              rw [isPath, Option.any_some] at stays
              rw [← Option.some.inj isKind]
              cases isEntryKind : entry.kind with
              | relay => rfl
              | direct addr =>
                  unfold PathEntry.directAddr at stays
                  rw [isEntryKind] at stays
                  cases stays
          · exact shorter
      · split
        · exact kept_pathDown _ running now
        · exact shorter
      · exact shorter
      · exact shorter
  · exact kept

/-- An input by which the house does not stray keeps the entry as the stage has it. -/
theorem kept_step (crypto : Crypto) (kept : Kept house) (input : DoorbellInput)
    (stays : house.strays input = false) : Kept (house.step crypto input) := by
  cases input with
  | arrives frame =>
      show Kept (house.arrives frame)
      unfold Doorbell.arrives
      split
      · exact kept
      · exact kept
  | acts action =>
      show Kept (house.act crypto action).1
      cases action with
      | begins attempt half candidates now failed =>
          exact kept.begins crypto attempt half candidates now failed
      | expects now failed => exact kept.expects crypto now failed
      | timesOut =>
          simp only [act]
          split
          · exact kept_ends house _
          · exact kept
      | startRequested now failed =>
          simp only [act]
          split
          · next running isStage =>
              have onRelay : OnRelay house := by
                apply kept.onRelay
                rw [isStage]
                rfl
              exact onRelay.signalled running rfl now failed
          · exact kept
      | startAwaited now failed =>
          simp only [act]
          split
          · next running isStage =>
              have onRelay : OnRelay house := by
                apply kept.onRelay
                rw [isStage]
                rfl
              exact onRelay.signalled running rfl now failed
          · exact kept
      | leaves now failed =>
          simp only [act]
          split
          · unfold Doorbell.leaves
            split
            · exact kept_ends house _
            · exact kept
          · exact kept
      | turns givenUp tx now sent failed => exact kept.turns givenUp tx now sent failed
      | pongs source tx arrived => exact kept.pongs source tx arrived
      | wins addr rtt now failed => exact kept.wins addr rtt now failed
      | reads now => exact kept.reads now stays
      | closes =>
          simp only [act]
          split
          · exact kept_ends house _
          · exact kept
      | stops => exact kept

theorem Kept.pathWatched (kept : Kept house) : PathWatched house where
  relayed := by
    intro running watch entry isStage isEntry
    have isRelay : entry.kind = .relay := by
      apply kept entry .relay isEntry
      rw [isStage]
      rfl
    unfold PathEntry.directAddr
    rw [isRelay]
  live := by
    intro running watch entry isStage isEntry isLive
    apply kept entry _ isEntry
    rw [isStage]
    show some (if watch.liveness.state = .live then _ else PathKind.relay) = _
    rw [if_pos isLive]
  left := by
    intro running watch entry isStage isEntry notLive
    have isRelay : entry.kind = .relay := by
      apply kept entry .relay isEntry
      rw [isStage]
      show some (if watch.liveness.state = .live then _ else PathKind.relay) = _
      rw [if_neg notLive]
    unfold PathEntry.directAddr
    rw [isRelay]
  watched := by
    intro running phase entry addr isStage isEntry isDirect
    have isKind : ∀ kind, pathKind (.looping running phase) = some kind → entry.kind = kind := by
      intro kind isKind
      apply kept entry kind isEntry
      rw [isStage]
      exact isKind
    have notRelay : entry.kind ≠ .relay := by
      intro isRelay
      unfold PathEntry.directAddr at isDirect
      rw [isRelay] at isDirect
      cases isDirect
    cases phase with
    | probing => exact absurd (isKind .relay rfl) notRelay
    | relayed watch => exact absurd (isKind .relay rfl) notRelay
    | watching watch =>
        have isWatch := isKind _ rfl
        split at isWatch
        · next isLive =>
            refine ⟨watch, rfl, ?_, isLive⟩
            unfold PathEntry.directAddr at isDirect
            rw [isWatch] at isDirect
            exact Option.some.inj isDirect
        · exact absurd isWatch notRelay

end Kept

/-! ## Every run -/

/-- A doorbell that starts with its entry on the relay, and adopts no other attempt while it
is direct, has the entry and the phase agree in every turn. -/
theorem path_watched (crypto : Crypto) (params : DoorbellParams) (synthetic : SocketAddr)
    (path : Option PathEntry) (started : Nat)
    (relayed : ∀ entry, path = some entry → entry.directAddr = none)
    (inputs : List DoorbellInput)
    (stays : Guarded (step crypto) (fun house input => house.strays input = false)
      (new params synthetic path started) inputs) :
    PathWatched (run (step crypto) (new params synthetic path started) inputs) := by
  have start : Kept (new params synthetic path started) := by
    intro entry kind isEntry isKind
    have onRelay := relayed entry isEntry
    rw [← Option.some.inj isKind]
    unfold PathEntry.directAddr at onRelay
    split at onRelay
    · next isRelay => exact isRelay
    · cases onRelay
  have preserved : ∀ (house : Doorbell) input, Kept house → house.strays input = false →
      Kept (house.step crypto input) := fun _ input kept stays => kept_step crypto kept input stays
  exact (run_preserves preserved start stays).pathWatched

/-! ### The peer reruns -/

/-- Primitives under which a digest is the last 32 bytes. -/
def tailCrypto : Crypto where
  blake3 input := ⟨((input.reverse ++ List.replicate 32 0).take 32), by simp⟩
  verifyingKey _ := true
  verifyStrict _ _ _ := true

def relayEntry : PathEntry := ⟨.relay, none, 0⟩

def directAddress : SocketAddr := ⟨.v4 (List.Vector.replicate 4 9), 4433⟩

def peerSynthetic : SocketAddr := ⟨.v6 (List.Vector.replicate 16 0xfd), 1⟩

/-- A peer's `Candidates`, of the attempt named by `id`. -/
def peerCandidates (id : UInt8) (noUpgrade : Bool) : Option PorchFrame :=
  some (.candidates 1 (List.Vector.replicate 16 id) [] zero32 noUpgrade)

/-- A responder that is held exchanges candidates, is started and finds a path. -/
def upgrades : List DoorbellInput :=
  [.acts (.begins (List.Vector.replicate 16 0) zero32 [] 0 false), .arrives (peerCandidates 1 false),
    .acts (.expects 1 false), .acts (.startAwaited 2 false),
    .acts (.wins directAddress 5 3 false)]

/-- The peer leaves the path first, and then reruns without probing. -/
def leftFirst : List DoorbellInput :=
  [.arrives (some (.pathDown 1 (List.Vector.replicate 16 1) ⟨0, List.Vector.replicate 16 0, 0⟩ 16)),
    .acts (.reads 4)]

/-- The peer reruns, and will not probe. -/
def rerun : List DoorbellInput :=
  [.arrives (peerCandidates 2 true), .acts (.reads 5),
    .acts (.begins (List.Vector.replicate 16 0) zero32 [] 6 false)]

def heldResponder : Doorbell :=
  new ⟨2, .untilPeerLeaves, false⟩ peerSynthetic (some relayEntry) 0

theorem path_watched_leftFirst :
    PathWatched (run (step tailCrypto) heldResponder (upgrades ++ leftFirst ++ rerun)) :=
  path_watched tailCrypto ⟨2, .untilPeerLeaves, false⟩ peerSynthetic (some relayEntry) 0
    (fun entry isEntry => by
      cases isEntry
      rfl)
    (upgrades ++ leftFirst ++ rerun) (by decide)

/-- A peer that reruns without having left the path leaves the house in its relayed phase with
its traffic on an address that nobody watches. -/
theorem unwatched_rerun :
    let house := run (step tailCrypto) heldResponder (upgrades ++ rerun)
    (∃ running watch, house.stage = .looping running (.relayed watch)) ∧
      house.path.bind PathEntry.directAddr = some directAddress ∧ ¬PathWatched house := by
  intro house
  have isDirect : house.path.bind PathEntry.directAddr = some directAddress := by decide
  have isRelayed : ∃ running watch, house.stage = .looping running (.relayed watch) :=
    ⟨_, _, rfl⟩
  refine ⟨isRelayed, isDirect, ?_⟩
  intro watched
  obtain ⟨running, watch, isStage⟩ := isRelayed
  obtain ⟨entry, isEntry, isAddr⟩ := Option.bind_eq_some_iff.mp isDirect
  have none := watched.relayed running watch entry isStage isEntry
  rw [none] at isAddr
  cases isAddr

end Doorbell

end Mosschat.Net
