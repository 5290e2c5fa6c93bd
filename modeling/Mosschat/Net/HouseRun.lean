import Mosschat.Library.HashMap
import Mosschat.Library.Machine
import Mosschat.Net.Path

/-!
Owns the visits of `house.rs` as one headless house runs them: the slot a dial takes before
its peer is known, the slot its peer is charged once it is, and the give-back of both.

Does not own the handshake of a dial nor the doorbell of a visit, of which it takes that they
end, nor the diagnostics record.
-/

namespace Mosschat.Net

open Mosschat.Core Mosschat.Library Mosschat.Library.Machine Mosschat.Net.Gate

/-- `MAX_LIVE_VISITS`. -/
def maxLiveVisits : Nat := limits.maxSessionsPerRegistration

/-- `MAX_VISITS_PER_PEER`. -/
def maxVisitsPerPeer : Nat := 2

/-- `VisitEventKind`, the two kinds the loop and its visits emit. -/
inductive VisitEventKind where
  | knock
  | refused
deriving DecidableEq

/-- `HouseEvent`, with the key its fingerprint is made from. -/
structure HouseEvent where
  kind : VisitEventKind
  peer : Option Bytes32
  detail : String
deriving DecidableEq

/-- Where a task of `Visit::run` is. -/
inductive VisitStage where
  /-- In `accept_peer`. -/
  | accepting
  /-- In `wait_for_session`, its peer charged. -/
  | waiting (peerKey : Bytes32)
  /-- In `run_doorbell`. -/
  | visiting (peerKey : Bytes32) (session : UInt32)
  /-- `serve` has returned. -/
  | served (counted : Option Bytes32)
  /-- Its control is out of the table. -/
  | released (counted : Option Bytes32)
  | ended
deriving DecidableEq

namespace VisitStage

/-- `Visit::counted`: the peer that is charged a slot. -/
def counted : VisitStage → Option Bytes32
  | .accepting | .ended => none
  | .waiting peerKey | .visiting peerKey _ => some peerKey
  | .served counted | .released counted => counted

/-- The visit has not taken its control out of the table. -/
def controlled : VisitStage → Bool
  | .released _ | .ended => false
  | _ => true

end VisitStage

/-- `Visit`, with the peer that dialled it. -/
structure Visit where
  id : UInt64
  dialler : Bytes32
  stage : VisitStage
deriving DecidableEq

/-- A dial that was refused for lack of room, and who had dialled the visits held then. -/
structure Refusal where
  dialler : Bytes32
  heldBy : List Bytes32
deriving DecidableEq

/-- The visits held when the dial was refused were not all of one other peer. -/
def Refusal.Fair (refusal : Refusal) : Prop :=
  ¬∃ other, other ≠ refusal.dialler ∧ ∀ dialler ∈ refusal.heldBy, dialler = other

/-- The tables of `house::run` and its visits, ended ones too. -/
structure HouseRun where
  sessions : HashMap Bytes32 UInt32
  controls : HashMap UInt64 Unit
  peers : HashMap Bytes32 Nat
  nextVisit : UInt64
  /-- In the order they were started. -/
  visits : List Visit
  /-- The loop was left. -/
  stopping : Bool
  events : List HouseEvent
  refusals : List Refusal

/-- What happens to a house. An action of a visit names it by its place in their order. -/
inductive HouseAction where
  | knockAccepted (peerKey : Bytes32)
  | introduced (session : UInt32) (peerKey : Bytes32)
  /-- `endpoint.accept`, of a dial `dialler` made. -/
  | dials (dialler : Bytes32)
  /-- The handshake completes, and so proves the dialler's key, or `accept_peer` returns an
  error, of this text. -/
  | accepts (visit : Nat) (error : Option String)
  /-- One turn of `wait_for_session`, before its deadline or past it. -/
  | polls (visit : Nat) (late : Bool) (eventsDropped : UInt64)
  | doorbellEnds (visit : Nat) (error : Option String)
  | removesControl (visit : Nat)
  | givesBack (visit : Nat)
  /-- The loop is left. -/
  | stops

namespace HouseRun

/-- A house that has just registered. -/
def new : HouseRun := ⟨∅, ∅, ∅, 0, [], false, [], []⟩

def emit (house : HouseRun) (peer : Option Bytes32) (detail : String) : HouseRun :=
  { house with events := house.events ++ [⟨.refused, peer, detail⟩] }

/-- A visit that ended in an error says so. -/
def emitError (house : HouseRun) : Option String → HouseRun
  | none => house
  | some error => house.emit none ("the visit ended without opening: " ++ error)

def move (house : HouseRun) (place : Nat) (visit : Visit) (stage : VisitStage) : HouseRun :=
  { house with visits := house.visits.set place { visit with stage := stage } }

/-- The per-peer cap of `Visit::serve`. -/
def charge (house : HouseRun) (place : Nat) (visit : Visit) (peerKey : Bytes32) : HouseRun :=
  let peers := house.peers.orInsert peerKey 0
  let held := (peers.lookup peerKey).getD 0
  if maxVisitsPerPeer ≤ held then
    { (house.move place visit (.served none)).emit (some peerKey)
        ("no room for this peer: it already holds " ++ toString held ++
          " visits, the most one peer will (" ++ toString maxVisitsPerPeer ++ ")") with
      peers := peers }
  else
    { house.move place visit (.waiting peerKey) with peers := peers.put peerKey (held + 1) }

/-- The end of `Visit::run`, once its control is out. -/
def giveBack (peers : HashMap Bytes32 Nat) : Option Bytes32 → HashMap Bytes32 Nat
  | none => peers
  | some peerKey =>
    match peers.lookup peerKey with
    | none => peers
    | some held => if held - 1 = 0 then peers.erase peerKey else peers.put peerKey (held - 1)

/-- The visits the house holds. -/
def held (house : HouseRun) : List Visit :=
  house.visits.filter fun visit => visit.stage.controlled

/-- One action. What names no visit there, or one elsewhere, changes nothing. -/
def step (house : HouseRun) : HouseAction → HouseRun
  | .knockAccepted peerKey =>
    { house with
      events := house.events ++
        [⟨.knock, some peerKey, "accepted: a friend on this house's list"⟩] }
  | .introduced session peerKey => { house with sessions := house.sessions.put peerKey session }
  | .dials dialler =>
    if house.stopping then house
    else
      let live := house.controls.entries.length
      if maxLiveVisits ≤ live then
        { house.emit none ("no room: this house already holds " ++ toString live ++
            " visits, the most it will (" ++ toString maxLiveVisits ++ ")") with
          refusals := house.refusals ++ [⟨dialler, house.held.map Visit.dialler⟩] }
      else
        { house with
          controls := house.controls.put house.nextVisit ()
          nextVisit := saturatingAddU64 house.nextVisit 1
          visits := house.visits ++ [⟨house.nextVisit, dialler, .accepting⟩] }
  | .accepts place error =>
    match house.visits[place]? with
    | some visit =>
      if visit.stage = .accepting then
        match error with
        | some error => (house.move place visit (.served none)).emitError (some error)
        | none => house.charge place visit visit.dialler
      else house
    | none => house
  | .polls place late eventsDropped =>
    match house.visits[place]? with
    | some visit =>
      match visit.stage with
      | .waiting peerKey =>
        match house.sessions.lookup peerKey with
        | some session => house.move place visit (.visiting peerKey session)
        | none =>
          if late then
            (house.move place visit (.served (some peerKey))).emit (some peerKey)
              ("no introduction arrived for this dial inside 5 s (" ++ toString eventsDropped ++
                " gate events dropped so far)")
          else house
      | _ => house
    | none => house
  | .doorbellEnds place error =>
    match house.visits[place]? with
    | some visit =>
      match visit.stage with
      | .visiting peerKey _ => (house.move place visit (.served (some peerKey))).emitError error
      | _ => house
    | none => house
  | .removesControl place =>
    match house.visits[place]? with
    | some visit =>
      match visit.stage with
      | .served counted =>
        { house.move place visit (.released counted) with
          controls := house.controls.erase visit.id }
      | _ => house
    | none => house
  | .givesBack place =>
    match house.visits[place]? with
    | some visit =>
      match visit.stage with
      | .released counted =>
        { house.move place visit .ended with peers := giveBack house.peers counted }
      | _ => house
    | none => house
  | .stops => { house with stopping := true }

/-! ## Whose the slots are -/

/-- The visit is charged to the peer. -/
def chargedTo (peerKey : Bytes32) (visit : Visit) : Bool :=
  visit.stage.counted == some peerKey

/-- The slots that connections of the peer take and the peer is not charged for: their
handshake is not done, or they were turned away and have not gone. -/
def uncharged (house : HouseRun) (peerKey : Bytes32) : Nat :=
  house.visits.countP fun visit =>
    visit.stage.controlled && visit.dialler == peerKey && visit.stage.counted.isNone

/-- The slots of the peer's charged visits. -/
def charged (house : HouseRun) (peerKey : Bytes32) : Nat :=
  house.visits.countP fun visit =>
    visit.stage.controlled && visit.dialler == peerKey && visit.stage.counted.isSome

/-- A dial finds every slot its caller could have had taken by uncharged connections of one
other peer, but for those of that peer's charged visits. -/
def Crowded (house : HouseRun) : HouseAction → Prop
  | .dials dialler =>
    house.stopping = false ∧ ∃ other, other ≠ dialler ∧
      house.uncharged other = maxLiveVisits - house.charged other
  | _ => False

/-- The counter of the visits is used up. -/
def overflows (house : HouseRun) : HouseAction → Bool
  | .dials _ => house.nextVisit.toNat + 1 == 2 ^ 64
  | _ => false

/-! ## What every run keeps -/

/-- The tables hold what the visits account for. -/
structure Kept (house : HouseRun) : Prop where
  next : house.nextVisit.toNat = house.visits.length
  numbered : ∀ (place : Nat) (visit : Visit), house.visits[place]? = some visit →
    visit.id.toNat = place
  controlled : ∀ visit : Visit, visit ∈ house.visits →
    (visit.id ∈ house.controls ↔ visit.stage.controlled = true)
  known : ∀ id, id ∈ house.controls → id.toNat < house.visits.length
  room : house.controls.entries.length = house.visits.countP fun visit => visit.stage.controlled
  within : house.controls.entries.length ≤ maxLiveVisits
  counts : ∀ peerKey,
    (house.peers.lookup peerKey).getD 0 = house.visits.countP (chargedTo peerKey)
  positive : ∀ peerKey, house.peers.lookup peerKey ≠ some 0
  capped : ∀ peerKey, (house.peers.lookup peerKey).getD 0 ≤ maxVisitsPerPeer
  own : ∀ visit : Visit, visit ∈ house.visits →
    ∀ peerKey, visit.stage.counted = some peerKey → peerKey = visit.dialler

theorem kept_new : Kept new where
  next := rfl
  numbered := by
    intro place visit found
    cases found
  controlled := by
    intro visit inside
    cases inside
  known := by
    intro id inside
    exact absurd inside (AList.notMem_empty id)
  room := rfl
  within := Nat.zero_le _
  counts _ := rfl
  positive := by
    intro peerKey found
    cases found
  capped _ := Nat.zero_le _
  own := by
    intro visit inside
    cases inside

/-- Setting one element moves a count by what the element counted before and counts now. -/
theorem countP_set_add {α : Type} (wanted : α → Bool) (list : List α) (place : Nat)
    (inside : place < list.length) (value : α) :
    (list.set place value).countP wanted + (if wanted list[place] then 1 else 0) =
      list.countP wanted + (if wanted value then 1 else 0) := by
  have exact : (list.set place value).countP wanted = list.countP wanted -
      (if wanted list[place] then 1 else 0) + (if wanted value then 1 else 0) :=
    List.countP_set inside
  have counted := List.boole_getElem_le_countP (p := wanted) inside
  omega

/-- How much of the peer's count a visit is that is charged so. -/
def charges (counted : Option Bytes32) (peerKey : Bytes32) : Nat :=
  if counted = some peerKey then 1 else 0

theorem charges_none (peerKey : Bytes32) : charges none peerKey = 0 := if_neg (by simp)

theorem charges_self (peerKey : Bytes32) : charges (some peerKey) peerKey = 1 := if_pos rfl

theorem charges_other {peerKey other : Bytes32} (differs : other ≠ peerKey) :
    charges (some peerKey) other = 0 := if_neg fun same => differs (Option.some.inj same).symm

/-- One visit goes to another stage, and the tables with it. -/
theorem Kept.move {house later : HouseRun} (kept : Kept house) {place : Nat} {visit : Visit}
    {stage : VisitStage} (found : house.visits[place]? = some visit)
    (visits : later.visits = house.visits.set place { visit with stage := stage })
    (nextVisit : later.nextVisit = house.nextVisit)
    (controls : later.controls =
      if visit.stage.controlled && !stage.controlled then house.controls.erase visit.id
      else house.controls)
    (goes : stage.controlled = true → visit.stage.controlled = true)
    (counted : ∀ peerKey, (later.peers.lookup peerKey).getD 0 + charges visit.stage.counted peerKey =
      (house.peers.lookup peerKey).getD 0 + charges stage.counted peerKey)
    (positive : ∀ peerKey, later.peers.lookup peerKey ≠ some 0)
    (capped : ∀ peerKey, (later.peers.lookup peerKey).getD 0 ≤ maxVisitsPerPeer)
    (own : ∀ peerKey, stage.counted = some peerKey → peerKey = visit.dialler) : Kept later := by
  obtain ⟨inside, isVisit⟩ := List.getElem?_eq_some_iff.mp found
  have member : visit ∈ house.visits := List.mem_of_getElem? found
  have isPlace := kept.numbered place visit found
  have lookedUp : ∀ id, id ∈ later.controls ↔ id ∈ house.controls ∧
      ¬(id = visit.id ∧ visit.stage.controlled = true ∧ stage.controlled = false) := by
    intro id
    rw [controls]
    split
    · next leaves =>
        rw [Bool.and_eq_true, Bool.not_eq_true'] at leaves
        rw [← AList.lookup_isSome, HashMap.lookup_erase]
        by_cases same : id = visit.id
        · rw [if_pos same]
          simp [same, leaves]
        · rw [if_neg same]
          simp [same, AList.lookup_isSome]
    · next stays =>
        rw [Bool.and_eq_true, Bool.not_eq_true'] at stays
        constructor
        · intro known
          exact ⟨known, fun leaves => stays leaves.2⟩
        · exact And.left
  have moved : ∀ index other, later.visits[index]? = some other →
      (index = place ∧ other = { visit with stage := stage }) ∨
        (index ≠ place ∧ house.visits[index]? = some other) := by
    intro index other isOther
    rw [visits, List.getElem?_set] at isOther
    split at isOther
    · next same =>
        exact Or.inl ⟨same.symm, (Option.some.inj isOther).symm⟩
    · next differs => exact Or.inr ⟨Ne.symm differs, isOther⟩
  constructor
  case next =>
    rw [nextVisit, visits, List.length_set]
    exact kept.next
  case numbered =>
    intro index other isOther
    rcases moved index other isOther with here | elsewhere
    · rw [here.1, here.2]
      exact isPlace
    · exact kept.numbered index other elsewhere.2
  case controlled =>
    intro other isMember
    obtain ⟨index, isOther⟩ := List.getElem?_of_mem isMember
    rw [lookedUp]
    rcases moved index other isOther with here | elsewhere
    · rw [here.2]
      show visit.id ∈ house.controls ∧ _ ↔ stage.controlled = true
      rw [kept.controlled visit member]
      cases isControlled : stage.controlled with
      | true => simp [goes isControlled]
      | false => simp
    · have isIndex := kept.numbered index other elsewhere.2
      have differs : other.id ≠ visit.id := by
        intro same
        rw [same, isPlace] at isIndex
        exact elsewhere.1 isIndex.symm
      rw [kept.controlled other (List.mem_of_getElem? elsewhere.2)]
      simp [differs]
  case known =>
    intro id isKnown
    rw [visits, List.length_set]
    exact kept.known id ((lookedUp id).mp isKnown).1
  case room =>
    have counting := countP_set_add (fun visit => visit.stage.controlled) house.visits place inside
      { visit with stage := stage }
    rw [isVisit] at counting
    simp only at counting
    have before := kept.room
    rw [visits, controls]
    split
    · next leaves =>
        rw [Bool.and_eq_true, Bool.not_eq_true'] at leaves
        have wasKnown := (kept.controlled visit member).mpr leaves.1
        have shorter := HashMap.length_erase_of_mem wasKnown
        rw [if_pos leaves.1, if_neg (by rw [leaves.2]; exact Bool.false_ne_true)] at counting
        omega
    · next stays =>
        have same : visit.stage.controlled = stage.controlled := by
          cases isControlled : stage.controlled with
          | true => exact goes isControlled
          | false =>
              rw [isControlled, Bool.not_false, Bool.and_true] at stays
              exact Bool.eq_false_of_not_eq_true stays
        rw [same] at counting
        omega
  case within =>
    rw [controls]
    split
    · exact (HashMap.length_erase_le _ _).trans kept.within
    · exact kept.within
  case counts =>
    intro peerKey
    have counting := countP_set_add (chargedTo peerKey) house.visits place inside
      { visit with stage := stage }
    rw [isVisit] at counting
    have before := kept.counts peerKey
    have balance := counted peerKey
    rw [visits]
    simp only [chargedTo, beq_iff_eq] at counting
    unfold charges at balance
    omega
  case positive => exact positive
  case capped => exact capped
  case own =>
    intro other isMember peerKey isCounted
    obtain ⟨index, isOther⟩ := List.getElem?_of_mem isMember
    rcases moved index other isOther with here | elsewhere
    · rw [here.2] at isCounted ⊢
      exact own peerKey isCounted
    · exact kept.own other (List.mem_of_getElem? elsewhere.2) peerKey isCounted

theorem Kept.of_same {house later : HouseRun} (kept : Kept house)
    (visits : later.visits = house.visits) (nextVisit : later.nextVisit = house.nextVisit)
    (controls : later.controls = house.controls) (peers : later.peers = house.peers) :
    Kept later where
  next := by
    rw [nextVisit, visits]
    exact kept.next
  numbered := by
    rw [visits]
    exact kept.numbered
  controlled := by
    rw [visits, controls]
    exact kept.controlled
  known := by
    rw [visits, controls]
    exact kept.known
  room := by
    rw [visits, controls]
    exact kept.room
  within := by
    rw [controls]
    exact kept.within
  counts := by
    rw [visits, peers]
    exact kept.counts
  positive := by
    rw [peers]
    exact kept.positive
  capped := by
    rw [peers]
    exact kept.capped
  own := by
    rw [visits]
    exact kept.own

/-- A visit goes to another stage with its control and its peer's count as they are. -/
theorem Kept.move_uncounted {house later : HouseRun} (kept : Kept house) {place : Nat}
    {visit : Visit} {stage : VisitStage} (found : house.visits[place]? = some visit)
    (visits : later.visits = house.visits.set place { visit with stage := stage })
    (nextVisit : later.nextVisit = house.nextVisit) (controls : later.controls = house.controls)
    (peers : later.peers = house.peers) (counted : stage.counted = visit.stage.counted)
    (stays : stage.controlled = visit.stage.controlled) : Kept later := by
  refine kept.move found visits nextVisit ?_ ?_ ?_ ?_ ?_ ?_
  · rw [stays, Bool.and_not_self]
    exact controls
  · intro isControlled
    rw [← stays]
    exact isControlled
  · intro peerKey
    rw [peers, counted]
  · rw [peers]
    exact kept.positive
  · rw [peers]
    exact kept.capped
  · rw [counted]
    exact kept.own visit (List.mem_of_getElem? found)

/-- The peer of a charged visit is in the table. -/
theorem Kept.counted {house : HouseRun} (kept : Kept house) {visit : Visit}
    (member : visit ∈ house.visits) {peerKey : Bytes32}
    (isCounted : visit.stage.counted = some peerKey) :
    ∃ held, house.peers.lookup peerKey = some held ∧ 0 < held := by
  have counts := kept.counts peerKey
  have some : 0 < house.visits.countP (chargedTo peerKey) := by
    apply List.countP_pos_iff.mpr
    exact ⟨visit, member, beq_iff_eq.mpr isCounted⟩
  cases found : house.peers.lookup peerKey with
  | none =>
      rw [found, Option.getD_none] at counts
      omega
  | some held =>
      rw [found, Option.getD_some] at counts
      exact ⟨held, rfl, by omega⟩

theorem kept_charge {house : HouseRun} (kept : Kept house) {place : Nat} {visit : Visit}
    (found : house.visits[place]? = some visit) (accepting : visit.stage = .accepting) :
    Kept (house.charge place visit visit.dialler) := by
  have heldBefore : ((house.peers.orInsert visit.dialler 0).lookup visit.dialler).getD 0 =
      (house.peers.lookup visit.dialler).getD 0 := by
    rw [HashMap.lookup_orInsert, if_pos rfl, Option.getD_some]
  unfold charge
  simp only
  rw [heldBefore]
  split
  · next full =>
      -- a peer at its cap is in the table already
      have same : ∀ peerKey, (house.peers.orInsert visit.dialler 0).lookup peerKey =
          house.peers.lookup peerKey := by
        intro peerKey
        rw [HashMap.lookup_orInsert]
        split
        · next isPeer =>
            rw [isPeer]
            cases isHeld : house.peers.lookup visit.dialler with
            | none =>
                rw [isHeld] at full
                cases full
            | some held => rfl
        · rfl
      refine kept.move found rfl rfl ?_ ?_ ?_ ?_ ?_ ?_
      · rw [accepting]
        rfl
      · rw [accepting]
        exact fun isControlled => isControlled
      · intro peerKey
        show ((house.peers.orInsert visit.dialler 0).lookup peerKey).getD 0 + _ = _
        rw [same, accepting]
        rfl
      · intro peerKey
        show (house.peers.orInsert visit.dialler 0).lookup peerKey ≠ _
        rw [same]
        exact kept.positive peerKey
      · intro peerKey
        show ((house.peers.orInsert visit.dialler 0).lookup peerKey).getD 0 ≤ _
        rw [same]
        exact kept.capped peerKey
      · intro peerKey isCounted
        cases isCounted
  · next below =>
      let counted := (house.peers.orInsert visit.dialler 0).put visit.dialler
        ((house.peers.lookup visit.dialler).getD 0 + 1)
      have now : ∀ peerKey, counted.lookup peerKey =
          if peerKey = visit.dialler then some ((house.peers.lookup visit.dialler).getD 0 + 1)
          else house.peers.lookup peerKey := by
        intro peerKey
        rw [HashMap.lookup_put, HashMap.lookup_orInsert]
        split
        · rfl
        · rfl
      refine kept.move found rfl rfl ?_ ?_ ?_ ?_ ?_ ?_
      · rw [accepting]
        rfl
      · rw [accepting]
        exact fun isControlled => isControlled
      · intro peerKey
        show (counted.lookup peerKey).getD 0 + _ = _ + charges (some visit.dialler) peerKey
        rw [now, accepting]
        show _ + charges none peerKey = _
        rw [charges_none]
        split
        · next isPeer => rw [isPeer, Option.getD_some, charges_self]
        · next differs => rw [charges_other differs]
      · intro peerKey
        show counted.lookup peerKey ≠ _
        rw [now]
        split
        · exact fun isZero => Nat.succ_ne_zero _ (Option.some.inj isZero)
        · exact kept.positive peerKey
      · intro peerKey
        show (counted.lookup peerKey).getD 0 ≤ _
        rw [now]
        split
        · rw [Option.getD_some]
          omega
        · exact kept.capped peerKey
      · intro peerKey isCounted
        exact (Option.some.inj isCounted).symm

theorem lookup_giveBack {peers : HashMap Bytes32 Nat} {peerKey : Bytes32} {held : Nat}
    (isHeld : peers.lookup peerKey = some held) (other : Bytes32) :
    (giveBack peers (some peerKey)).lookup other =
      if other = peerKey then (if held - 1 = 0 then none else some (held - 1))
      else peers.lookup other := by
  unfold giveBack
  simp only
  rw [isHeld]
  simp only
  split
  · exact HashMap.lookup_erase _ _ _
  · exact HashMap.lookup_put _ _ _ _

theorem kept_givesBack {house : HouseRun} (kept : Kept house) {place : Nat} {visit : Visit}
    {counted : Option Bytes32} (found : house.visits[place]? = some visit)
    (released : visit.stage = .released counted) :
    Kept { house.move place visit .ended with peers := giveBack house.peers counted } := by
  have isCounted : visit.stage.counted = counted := by
    rw [released]
    rfl
  cases counted with
  | none =>
      refine kept.move_uncounted found rfl rfl rfl rfl ?_ ?_
      · rw [isCounted]
        rfl
      · rw [released]
        rfl
  | some peerKey =>
      obtain ⟨held, isHeld, positive⟩ := kept.counted (List.mem_of_getElem? found) isCounted
      have atMost := kept.capped peerKey
      rw [isHeld, Option.getD_some] at atMost
      refine kept.move found rfl rfl ?_ ?_ ?_ ?_ ?_ ?_
      · rw [released]
        rfl
      · exact fun isControlled => absurd isControlled Bool.false_ne_true
      · intro other
        show ((giveBack house.peers (some peerKey)).lookup other).getD 0 + _ = _ + charges none other
        rw [lookup_giveBack isHeld, isCounted, charges_none]
        split
        · next isPeer =>
            rw [isPeer, isHeld, Option.getD_some, charges_self]
            split
            · rw [Option.getD_none]
              omega
            · rw [Option.getD_some]
              omega
        · next differs => rw [charges_other differs]
      · intro other
        show (giveBack house.peers (some peerKey)).lookup other ≠ _
        rw [lookup_giveBack isHeld]
        split
        · split
          · exact nofun
          · next some => exact fun isZero => some (Option.some.inj isZero)
        · exact kept.positive other
      · intro other
        show ((giveBack house.peers (some peerKey)).lookup other).getD 0 ≤ _
        rw [lookup_giveBack isHeld]
        split
        · split
          · exact Nat.zero_le _
          · rw [Option.getD_some]
            omega
        · exact kept.capped other
      · intro other isOther
        cases isOther

/-- A dial that is taken is one visit more, with a control of its own. -/
theorem kept_dials {house : HouseRun} (kept : Kept house) (dialler : Bytes32)
    (counts : house.overflows (.dials dialler) = false)
    (room : ¬maxLiveVisits ≤ house.controls.entries.length) :
    Kept { house with
      controls := house.controls.put house.nextVisit ()
      nextVisit := saturatingAddU64 house.nextVisit 1
      visits := house.visits ++ [⟨house.nextVisit, dialler, .accepting⟩] } := by
  have small := house.nextVisit.toNat_lt
  have more : house.nextVisit.toNat + 1 ≠ 2 ^ 64 := beq_eq_false_iff_ne.mp counts
  have next := kept.next
  have fresh : house.nextVisit ∉ house.controls := by
    intro known
    have before := kept.known _ known
    omega
  have isNew : ∀ visit, visit ∈ house.visits → visit.id ≠ house.nextVisit := by
    intro visit member same
    obtain ⟨place, found⟩ := List.getElem?_of_mem member
    have isPlace := kept.numbered place visit found
    obtain ⟨inside, _⟩ := List.getElem?_eq_some_iff.mp found
    rw [same] at isPlace
    omega
  constructor
  case next =>
    show (saturatingAddU64 house.nextVisit 1).toNat = (house.visits ++ [_]).length
    rw [saturatingAddU64, List.length_append, List.length_singleton, UInt64.toNat_ofNat']
    show min (house.nextVisit.toNat + 1) (2 ^ 64 - 1) % 2 ^ 64 = _
    omega
  case numbered =>
    intro place visit found
    rw [List.getElem?_append] at found
    split at found
    · exact kept.numbered place visit found
    · next past =>
        obtain ⟨inside, isVisit⟩ := List.getElem?_eq_some_iff.mp found
        rw [List.length_singleton] at inside
        have isPlace : place = house.visits.length := by omega
        rw [List.getElem_singleton] at isVisit
        rw [← isVisit, isPlace]
        exact next
  case controlled =>
    intro visit member
    show visit.id ∈ house.controls.put house.nextVisit () ↔ _
    rw [HashMap.mem_put]
    rcases List.mem_append.mp member with known | isLast
    · rw [kept.controlled visit known]
      exact or_iff_right (isNew visit known)
    · rw [List.mem_singleton.mp isLast]
      exact ⟨fun _ => rfl, fun _ => Or.inl rfl⟩
  case known =>
    intro id isKnown
    rw [HashMap.mem_put] at isKnown
    rw [List.length_append, List.length_singleton]
    rcases isKnown with isNext | before
    · rw [isNext]
      omega
    · have earlier := kept.known id before
      omega
  case room =>
    show (house.controls.put house.nextVisit ()).entries.length = _
    rw [HashMap.length_put, if_neg fresh, List.countP_append, kept.room]
    rfl
  case within =>
    show (house.controls.put house.nextVisit ()).entries.length ≤ _
    rw [HashMap.length_put, if_neg fresh]
    omega
  case counts =>
    intro peerKey
    rw [List.countP_append]
    exact kept.counts peerKey
  case positive => exact kept.positive
  case capped => exact kept.capped
  case own =>
    intro visit member peerKey isCounted
    rcases List.mem_append.mp member with known | isLast
    · exact kept.own visit known peerKey isCounted
    · rw [List.mem_singleton.mp isLast] at isCounted
      cases isCounted

theorem kept_step {house : HouseRun} (kept : Kept house) (action : HouseAction)
    (counts : house.overflows action = false) : Kept (house.step action) := by
  cases action with
  | knockAccepted peerKey => exact kept.of_same rfl rfl rfl rfl
  | introduced session peerKey => exact kept.of_same rfl rfl rfl rfl
  | stops => exact kept.of_same rfl rfl rfl rfl
  | dials dialler =>
      simp only [step]
      split
      · exact kept
      · split
        · exact kept.of_same rfl rfl rfl rfl
        · next room => exact kept_dials kept dialler counts room
  | accepts place error =>
      simp only [step]
      split
      · next visit found =>
          split
          · next accepting =>
              split
              · refine kept.move_uncounted found rfl rfl rfl rfl ?_ ?_
                · rw [accepting]
                  rfl
                · rw [accepting]
                  rfl
              · exact kept_charge kept found accepting
          · exact kept
      · exact kept
  | polls place late eventsDropped =>
      simp only [step]
      split
      · next visit found =>
          split
          · next peerKey waiting =>
              split
              · refine kept.move_uncounted found rfl rfl rfl rfl ?_ ?_
                · rw [waiting]
                  rfl
                · rw [waiting]
                  rfl
              · split
                · refine kept.move_uncounted found rfl rfl rfl rfl ?_ ?_
                  · rw [waiting]
                    rfl
                  · rw [waiting]
                    rfl
                · exact kept
          · exact kept
      · exact kept
  | doorbellEnds place error =>
      simp only [step]
      split
      · next visit found =>
          split
          · next peerKey session visiting =>
              have emitted : ∀ before : HouseRun, Kept before → Kept (before.emitError error) := by
                intro before keptBefore
                cases error with
                | none => exact keptBefore
                | some error => exact keptBefore.of_same rfl rfl rfl rfl
              apply emitted
              refine kept.move_uncounted found rfl rfl rfl rfl ?_ ?_
              · rw [visiting]
                rfl
              · rw [visiting]
                rfl
          · exact kept
      · exact kept
  | removesControl place =>
      simp only [step]
      split
      · next visit found =>
          split
          · next counted served =>
              refine kept.move found rfl rfl ?_ ?_ ?_ kept.positive kept.capped ?_
              · rw [served]
                rfl
              · exact fun isControlled => absurd isControlled Bool.false_ne_true
              · intro peerKey
                rw [served]
                rfl
              · have own := kept.own visit (List.mem_of_getElem? found)
                rw [served] at own
                exact own
          · exact kept
      · exact kept
  | givesBack place =>
      simp only [step]
      split
      · next visit found =>
          split
          · next counted released => exact kept_givesBack kept found released
          · exact kept
      · exact kept

/-! ## Room for another friend -/

theorem kept_run {actions : List HouseAction}
    (counts : Guarded step (fun house action => house.overflows action = false) new actions) :
    Kept (run step new actions) := by
  have preserved : ∀ house action, Kept house → house.overflows action = false →
      Kept (house.step action) := fun _ action kept counts => kept_step kept action counts
  exact run_preserves preserved kept_new counts

theorem length_held (house : HouseRun) :
    house.held.length = house.visits.countP fun visit => visit.stage.controlled :=
  List.countP_eq_length_filter.symm

/-- A peer's slots are those it is charged for and the others. -/
theorem uncharged_add_charged (house : HouseRun) (peerKey : Bytes32) :
    house.uncharged peerKey + house.charged peerKey =
      house.held.countP fun visit => visit.dialler == peerKey := by
  unfold uncharged charged held
  rw [List.countP_filter]
  induction house.visits with
  | nil => rfl
  | cons visit others ih =>
      rw [List.countP_cons, List.countP_cons, List.countP_cons, ← ih]
      cases visit.stage.controlled <;> cases visit.dialler == peerKey <;>
        cases visit.stage.counted <;> simp <;> omega

/-- Every slot is of connections of one peer when its slots are as many as there are. -/
theorem all_held_iff (house : HouseRun) (peerKey : Bytes32) :
    (∀ dialler ∈ house.held.map Visit.dialler, dialler = peerKey) ↔
      house.uncharged peerKey + house.charged peerKey = house.held.length := by
  rw [uncharged_add_charged, List.countP_eq_length, List.forall_mem_map]
  simp only [beq_iff_eq]

theorem uncharged_add_charged_le (house : HouseRun) (peerKey : Bytes32) :
    house.uncharged peerKey + house.charged peerKey ≤ house.held.length := by
  rw [uncharged_add_charged]
  exact List.countP_le_length

/-- No peer is charged for more slots than its cap. -/
theorem Kept.charged_le {house : HouseRun} (kept : Kept house) (peerKey : Bytes32) :
    house.charged peerKey ≤ maxVisitsPerPeer := by
  have capped := kept.capped peerKey
  rw [kept.counts] at capped
  refine (List.countP_mono_left ?_).trans capped
  intro visit member isCharged
  rw [Bool.and_eq_true, Bool.and_eq_true, beq_iff_eq] at isCharged
  obtain ⟨counted, isCounted⟩ := Option.isSome_iff_exists.mp isCharged.2
  rw [chargedTo, isCounted, kept.own visit member counted isCounted, isCharged.1.2]
  exact beq_self_eq_true _

/-- A dial is refused for lack of room by connections of one other peer alone exactly when
that peer crowds the house. -/
theorem Kept.fair_iff {house : HouseRun} (kept : Kept house) (dialler : Bytes32)
    (running : house.stopping = false) (full : maxLiveVisits ≤ house.controls.entries.length) :
    Refusal.Fair ⟨dialler, house.held.map Visit.dialler⟩ ↔ ¬house.Crowded (.dials dialler) := by
  have within := kept.within
  have room := kept.room
  rw [← length_held] at room
  unfold Refusal.Fair Crowded
  apply not_congr
  constructor
  · intro unfair
    obtain ⟨other, differs, all⟩ := unfair
    have whole := (house.all_held_iff other).mp all
    exact ⟨running, other, differs, by omega⟩
  · intro crowded
    obtain ⟨_, other, differs, rest⟩ := crowded
    have charged := kept.charged_le other
    have cap : maxVisitsPerPeer ≤ maxLiveVisits := by decide
    refine ⟨other, differs, (house.all_held_iff other).mpr ?_⟩
    omega

/-- Every dial that was refused for lack of room was refused fairly. -/
def Fair (house : HouseRun) : Prop := ∀ refusal ∈ house.refusals, refusal.Fair

theorem refusals_emitError (house : HouseRun) (error : Option String) :
    (house.emitError error).refusals = house.refusals := by
  cases error with
  | none => rfl
  | some error => rfl

/-- Only a dial is refused for lack of room. -/
theorem refusals_step (house : HouseRun) (action : HouseAction)
    (other : ∀ dialler, action ≠ .dials dialler) :
    (house.step action).refusals = house.refusals := by
  cases action with
  | dials dialler => exact absurd rfl (other dialler)
  | knockAccepted peerKey => rfl
  | introduced session peerKey => rfl
  | stops => rfl
  | accepts place error =>
      simp only [step]
      split
      · split
        · split
          · rfl
          · unfold charge
            simp only
            split
            · rfl
            · rfl
        · rfl
      · rfl
  | polls place late eventsDropped =>
      simp only [step]
      split
      · split
        · split
          · rfl
          · split
            · rfl
            · rfl
        · rfl
      · rfl
  | doorbellEnds place error =>
      simp only [step]
      split
      · split
        · rw [refusals_emitError]
          rfl
        · rfl
      · rfl
  | removesControl place =>
      simp only [step]
      split
      · split
        · rfl
        · rfl
      · rfl
  | givesBack place =>
      simp only [step]
      split
      · split
        · rfl
        · rfl
      · rfl

theorem fair_step {house : HouseRun} (kept : Kept house) (action : HouseAction) :
    Fair (house.step action) ↔ Fair house ∧ ¬house.Crowded action := by
  by_cases isDial : ∃ dialler, action = .dials dialler
  · obtain ⟨dialler, rfl⟩ := isDial
    simp only [step]
    split
    · next stopping =>
        refine (and_iff_left ?_).symm
        intro crowded
        rw [crowded.1] at stopping
        exact Bool.false_ne_true stopping
    · next running =>
        have isRunning : house.stopping = false := Bool.eq_false_of_not_eq_true running
        split
        · next full =>
            rw [← kept.fair_iff dialler isRunning full]
            unfold Fair
            show (∀ refusal ∈ house.refusals ++ [_], refusal.Fair) ↔ _
            rw [List.forall_mem_append, List.forall_mem_singleton]
        · next room =>
            refine (and_iff_left ?_).symm
            intro crowded
            obtain ⟨_, other, _, rest⟩ := crowded
            have atMost := house.uncharged_add_charged_le other
            rw [length_held, ← kept.room] at atMost
            omega
  · have differs : ∀ dialler, action ≠ .dials dialler := fun dialler same => isDial ⟨dialler, same⟩
    unfold Fair
    rw [refusals_step house action differs]
    refine (and_iff_left ?_).symm
    intro crowded
    cases action with
    | dials dialler => exact differs dialler rfl
    | _ => exact crowded

/-- Who crowds a house has six slots it is not charged for, at the least. -/
theorem Kept.uncharged_of_crowded {house : HouseRun} (kept : Kept house) {dialler : Bytes32}
    (crowded : house.Crowded (.dials dialler)) :
    ∃ other, other ≠ dialler ∧ maxLiveVisits - maxVisitsPerPeer ≤ house.uncharged other := by
  obtain ⟨_, other, differs, rest⟩ := crowded
  have charged := kept.charged_le other
  exact ⟨other, differs, by omega⟩

/-- Some other peer than the one that dials has six slots it is not charged for. -/
def Stalled (house : HouseRun) : HouseAction → Prop
  | .dials dialler =>
    ∃ other, other ≠ dialler ∧ maxLiveVisits - maxVisitsPerPeer ≤ house.uncharged other
  | _ => False

/-- Whatever dials, handshakes, introductions and ends of visits come in whatever order, and
until the counter of the visits is used up: the house holds at most eight visits, its table
of controls names exactly the visits that are held, its table of peers counts exactly the
visits charged to each, at most two, and names no peer with none. A dial is refused for lack
of room by connections of one other peer alone exactly where that peer's uncharged
connections take every slot but those of its charged visits, which six of them can do and
fewer cannot. -/
theorem house_slots (actions : List HouseAction)
    (counts : Guarded step (fun house action => house.overflows action = false) new actions) :
    (run step new actions).held.length ≤ maxLiveVisits ∧
    (∀ id, id ∈ (run step new actions).controls ↔
      ∃ visit ∈ (run step new actions).held, visit.id = id) ∧
    (∀ peerKey, ((run step new actions).peers.lookup peerKey).getD 0 =
        (run step new actions).visits.countP (chargedTo peerKey) ∧
      ((run step new actions).peers.lookup peerKey).getD 0 ≤ maxVisitsPerPeer) ∧
    (∀ peerKey, peerKey ∈ (run step new actions).peers ↔
      ∃ visit ∈ (run step new actions).visits, visit.stage.counted = some peerKey) ∧
    ((run step new actions).Fair ↔
      Guarded step (fun house action => ¬house.Crowded action) new actions) ∧
    (Guarded step (fun house action => ¬house.Stalled action) new actions →
      (run step new actions).Fair) := by
  have kept := kept_run counts
  have start : Fair new := by
    intro refusal inside
    cases inside
  have exact : (run step new actions).Fair ↔
      Guarded step (fun house action => ¬house.Crowded action) new actions := by
    have preserved : ∀ house action, Kept house → house.overflows action = false →
        Kept (house.step action) := fun _ action kept counts => kept_step kept action counts
    have stepExact : ∀ house action, Kept house → house.overflows action = false →
        (Fair (house.step action) ↔ Fair house ∧ ¬house.Crowded action) :=
      fun _ action kept _ => fair_step kept action
    rw [holds_run_iff_guarded preserved stepExact kept_new counts]
    exact and_iff_right start
  refine ⟨?_, ?_, ?_, ?_, exact, ?_⟩
  · rw [length_held, ← kept.room]
    exact kept.within
  · intro id
    constructor
    · intro known
      have inside := kept.known id known
      have found := List.getElem?_eq_getElem inside
      have isPlace := kept.numbered _ _ found
      have isId := UInt64.toNat_inj.mp isPlace
      have member := List.mem_of_getElem? found
      refine ⟨_, List.mem_filter.mpr ⟨member, ?_⟩, isId⟩
      apply (kept.controlled _ member).mp
      rw [isId]
      exact known
    · intro isHeld
      obtain ⟨visit, isHeld, rfl⟩ := isHeld
      obtain ⟨member, isControlled⟩ := List.mem_filter.mp isHeld
      exact (kept.controlled visit member).mpr isControlled
  · intro peerKey
    exact ⟨kept.counts peerKey, kept.capped peerKey⟩
  · intro peerKey
    constructor
    · intro known
      obtain ⟨held, isHeld⟩ := Option.isSome_iff_exists.mp (AList.lookup_isSome.mpr known)
      have positive := kept.positive peerKey
      have counts := kept.counts peerKey
      rw [isHeld] at positive counts
      rw [Option.getD_some] at counts
      have isSome : 0 < (run step new actions).visits.countP (chargedTo peerKey) := by
        rw [← counts]
        exact Nat.pos_of_ne_zero fun isZero => positive (congrArg some isZero)
      obtain ⟨visit, member, isCharged⟩ := List.countP_pos_iff.mp isSome
      exact ⟨visit, member, beq_iff_eq.mp isCharged⟩
    · intro charged
      obtain ⟨visit, member, isCounted⟩ := charged
      obtain ⟨held, isHeld, _⟩ := kept.counted member isCounted
      apply AList.lookup_isSome.mp
      rw [isHeld]
      rfl
  · intro few
    rw [exact]
    have both := guarded_and.mpr ⟨counts, few⟩
    have preserved : ∀ house action, Kept house →
        house.overflows action = false ∧ ¬house.Stalled action → Kept (house.step action) :=
      fun _ action kept met => kept_step kept action met.1
    refine guarded_imp preserved ?_ kept_new both
    intro house action kept met crowded
    cases action with
    | dials dialler => exact met.2 (kept.uncharged_of_crowded crowded)
    | _ => exact crowded

/-! ### One friend and eight dials -/

def stallingPeer : Bytes32 := List.Vector.replicate 32 1

def otherFriend : Bytes32 := List.Vector.replicate 32 2

/-- Where few slots are uncharged nobody stalls the house. -/
theorem not_stalled_of_few {house : HouseRun}
    (few : (house.visits.countP fun visit =>
      visit.stage.controlled && visit.stage.counted.isNone) < maxLiveVisits - maxVisitsPerPeer)
    (action : HouseAction) : ¬house.Stalled action := by
  intro stalled
  cases action with
  | dials dialler =>
      obtain ⟨other, -, enough⟩ := stalled
      have among : house.uncharged other ≤ house.visits.countP fun visit =>
          visit.stage.controlled && visit.stage.counted.isNone := by
        apply List.countP_mono_left
        intro visit _ isUncharged
        rw [Bool.and_eq_true, Bool.and_eq_true] at isUncharged
        rw [Bool.and_eq_true]
        exact ⟨isUncharged.1.1, isUncharged.2⟩
      omega
  | _ => exact stalled

def friend (number : UInt8) : Bytes32 := List.Vector.replicate 32 number

/-- A visit of the friend, started in this place, up to its doorbell. -/
def visitOf (place : Nat) (dialler : Bytes32) : List HouseAction :=
  [.introduced (UInt32.ofNat place) dialler, .dials dialler, .accepts place none,
    .polls place false 0]

/-- Three friends with two visits each, a third of one of them that is turned away, a peer that
finishes no handshake, a friend for whom there is no room, and the end of the first visit. -/
def busyHouse : List HouseAction :=
  visitOf 0 (friend 2) ++ visitOf 1 (friend 2) ++ visitOf 2 (friend 3) ++ visitOf 3 (friend 3) ++
    visitOf 4 (friend 4) ++ visitOf 5 (friend 4) ++
    [.dials (friend 2), .accepts 6 none, .dials stallingPeer, .dials (friend 5),
      .doorbellEnds 0 none, .removesControl 0, .givesBack 0]

/-- A busy house keeps its counts, and its one refusal is fair. -/
theorem house_slots_busy :
    let house := run step new busyHouse
    house.refusals.length = 1 ∧ house.held.length ≤ maxLiveVisits ∧
      (∀ id, id ∈ house.controls ↔ ∃ visit ∈ house.held, visit.id = id) ∧
      (∀ peerKey, (house.peers.lookup peerKey).getD 0 =
          house.visits.countP (chargedTo peerKey) ∧
        (house.peers.lookup peerKey).getD 0 ≤ maxVisitsPerPeer) ∧
      (∀ peerKey, peerKey ∈ house.peers ↔
        ∃ visit ∈ house.visits, visit.stage.counted = some peerKey) ∧
      Guarded step (fun house action => ¬house.Crowded action) new busyHouse ∧ house.Fair := by
  obtain ⟨held, controls, counts, peers, exact, unstalled⟩ :=
    house_slots busyHouse (by decide)
  have few : Guarded step (fun house _ => (house.visits.countP fun visit =>
      visit.stage.controlled && visit.stage.counted.isNone) < maxLiveVisits - maxVisitsPerPeer)
      new busyHouse := by
    decide
  have fair := unstalled (guarded_mono (fun _ action isFew => not_stalled_of_few isFew action) few)
  exact ⟨by decide, held, controls, counts, peers, exact.mp fair, fair⟩

/-- One peer dials eight times and finishes no handshake, and a friend is refused. -/
theorem friend_refused :
    let house := run step new (List.replicate 8 (.dials stallingPeer) ++ [.dials otherFriend])
    house.refusals = [⟨otherFriend, List.replicate 8 stallingPeer⟩] ∧ ¬house.Fair := by
  have refused : (run step new
      (List.replicate 8 (.dials stallingPeer) ++ [.dials otherFriend])).refusals =
        [⟨otherFriend, List.replicate 8 stallingPeer⟩] := by
    decide
  refine ⟨refused, ?_⟩
  intro fair
  apply fair ⟨otherFriend, List.replicate 8 stallingPeer⟩
  · rw [refused]
    exact List.mem_singleton_self _
  · exact ⟨stallingPeer, by decide, fun dialler inside => List.eq_of_mem_replicate inside⟩

end HouseRun

end Mosschat.Net
