import Mosschat.Net.Porch
import Mosschat.Net.Porch.Sources

/-!
Owns the gate's part of the addresses a porch socket lets through: `attach_gate`, which leases
the address of its connection, and `detach_gate`, which the reader of a connection calls when
it ends and anyone else may call as well.

Does not own a peer's queue, nor what is let through for another reason.
-/

namespace Mosschat.Net

open Mosschat.Library Mosschat.Library.Machine Mosschat.Net.Gate

/-- A call of `attach_gate`, and what became of the connection it attached. -/
structure Attachment where
  gate : GateId
  /-- `gate_addr`, which the reader keeps. -/
  addr : SocketAddr
  lease : Nat
  /-- The call has held the lock of the routes. -/
  seated : Bool
  /-- The reader saw the connection closed. -/
  closed : Bool
  /-- `detach_gate` was called for its address. -/
  detached : Bool
deriving DecidableEq

/-- The connection is attached. -/
def Attachment.live (attachment : Attachment) : Bool :=
  !attachment.closed && !attachment.detached

/-- A porch socket with the leases of its gates. -/
structure PorchGates (F : Type) where
  porch : Porch F
  /-- `RelayRoutes::gate_lease`. -/
  gateLease : Option Nat
  allowedSources : AllowedSources
  nextSourceLease : Nat
  /-- The leases other callers of `allow_source` were given. -/
  lent : List Nat
  /-- The leases a call of `detach_gate` took from the routes, and still has to give back. -/
  leaving : List Nat
  /-- Every call of `attach_gate` there was. -/
  attachments : HashMap Nat Attachment

/-- What happens to the socket. Every lock of it is one action. -/
inductive GateAction where
  /-- What neither attaches nor detaches. -/
  | porch (action : PorchAction)
  | allowSource (addr : SocketAddr)
  /-- `forget_source`, by whoever was given the lease. -/
  | forgetSource (lease : Nat)
  /-- `attach_gate` leases the address of its connection. -/
  | attachGate (call : Nat) (gate : GateId)
  /-- `attach_gate` takes the routes. -/
  | seat (call : Nat)
  /-- A reader finds its connection closed, and calls `detach_gate`. -/
  | readerEnds (call : Nat)
  | detachGate (gateAddr : SocketAddr)
  /-- `detach_gate` gives back the lease it took. -/
  | givesBack (lease : Nat)

/-- The action is about the gate that is attached. -/
def PorchAction.onGate : PorchAction → Bool
  | .attachGate .. | .readerEnds _ | .detachGate _ => true
  | _ => false

/-- The action closes or detaches a connection. -/
def GateAction.closes : GateAction → Bool
  | .readerEnds _ | .detachGate _ | .givesBack _ => true
  | _ => false

namespace PorchGates

variable {F : Type}

/-- `PorchSocket::new`. -/
def new : PorchGates F where
  porch := .new
  gateLease := none
  allowedSources := .empty
  nextSourceLease := 0
  lent := []
  leaving := []
  attachments := ∅

/-- `allow_source`. -/
def allowSource (world : PorchGates F) (addr : SocketAddr) : PorchGates F :=
  { world with
    allowedSources := world.allowedSources.allow world.nextSourceLease (unmapV4 addr)
    nextSourceLease := world.nextSourceLease + 1 }

/-- The first lock of `detach_gate`. -/
def detachGate (world : PorchGates F) (gateAddr : SocketAddr) : PorchGates F :=
  match world.porch.routes.gate.bind world.porch.gates.lookup with
  | none => world
  | some conn =>
    if conn.remoteAddress ≠ gateAddr then world
    else
      { world with
        porch := world.porch.detachGate gateAddr
        gateLease := none
        leaving := world.gateLease.toList ++ world.leaving }

/-- One action. What names nothing that is there changes nothing. -/
def step [F64 F] (world : PorchGates F) : GateAction → PorchGates F
  | .porch action =>
    if action.onGate then world else { world with porch := world.porch.step action }
  | .allowSource addr =>
    { world.allowSource addr with lent := world.nextSourceLease :: world.lent }
  | .forgetSource lease =>
    if lease ∈ world.lent then
      { world with allowedSources := world.allowedSources.forget lease }
    else world
  | .attachGate call gate =>
    match world.porch.gates.lookup gate with
    | none => world
    | some conn =>
      if call ∈ world.attachments then world
      else
        { world.allowSource conn.remoteAddress with
          attachments := world.attachments.put call
            ⟨gate, conn.remoteAddress, world.nextSourceLease, false, false, false⟩ }
  | .seat call =>
    match world.attachments.lookup call with
    | none => world
    | some attachment =>
      if attachment.seated then world
      else
        { world with
          porch := world.porch.attachGate call attachment.gate
          gateLease := some attachment.lease
          attachments := world.attachments.put call { attachment with seated := true } }
  | .readerEnds call =>
    match world.porch.readers.lookup call, world.attachments.lookup call with
    | some gate, some attachment =>
      if world.porch.alive gate then world
      else
        let ended : PorchGates F :=
          { world with
            porch := { world.porch with readers := world.porch.readers.erase call }
            attachments := world.attachments.put call { attachment with closed := true } }
        ended.detachGate attachment.addr
    | _, _ => world
  | .detachGate gateAddr =>
    let told : PorchGates F :=
      { world with
        attachments := world.attachments.mapValues fun attachment =>
          if attachment.seated && attachment.addr == gateAddr then
            { attachment with detached := true }
          else attachment }
    told.detachGate gateAddr
  | .givesBack lease =>
    if lease ∈ world.leaving then
      { world with
        allowedSources := world.allowedSources.forget lease
        leaving := world.leaving.filter fun other => other != lease }
    else world

/-! ## What the gates are owed -/

/-- The connection is attached, or its lease is on the way back. -/
def Held (world : PorchGates F) (attachment : Attachment) : Prop :=
  attachment.live = true ∨ attachment.lease ∈ world.leaving

instance decidableHeld (world : PorchGates F) (attachment : Attachment) :
    Decidable (world.Held attachment) :=
  inferInstanceAs (Decidable (_ ∨ _))

/-- Every attached connection has its address in the set, under its own lease, and no lease of
a gate is left in it for any other. -/
structure GateSet (world : PorchGates F) : Prop where
  leases : ∀ call attachment, world.attachments.lookup call = some attachment →
    world.allowedSources.byLease.lookup attachment.lease =
      if world.Held attachment then some [unmapV4 attachment.addr] else none
  addresses : ∀ addr,
    (∃ call attachment values, world.attachments.lookup call = some attachment ∧
      world.allowedSources.byLease.lookup attachment.lease = some values ∧ addr ∈ values) ↔
    ∃ call attachment, world.attachments.lookup call = some attachment ∧
      world.Held attachment ∧ unmapV4 attachment.addr = addr
  allowed : ∀ addr, world.allowedSources.contains addr = true ↔
    ∃ lease values, world.allowedSources.byLease.lookup lease = some values ∧ addr ∈ values

/-- The connection keeps its route, its lease and every mark of its drain tasks. -/
structure Stays (world next : PorchGates F) (attachment : Attachment) : Prop where
  gate : next.porch.routes.gate = some attachment.gate
  gateLease : next.gateLease = some attachment.lease
  leased : next.allowedSources.byLease.lookup attachment.lease =
    world.allowedSources.byLease.lookup attachment.lease
  drained : ∀ synthetic, synthetic ∈ world.porch.routes.drained →
    synthetic ∈ next.porch.routes.drained

/-- No close or detach of another connection takes anything from the one that is attached. -/
def Undisturbed [F64 F] (world : PorchGates F) (action : GateAction) : Prop :=
  action.closes = true → ∀ call attachment, world.attachments.lookup call = some attachment →
    (world.step action).attachments.lookup call = some attachment → attachment.live = true →
      world.porch.routes.gate = some attachment.gate → world.gateLease = some attachment.lease →
        world.Stays (world.step action) attachment

/-- A reader that ends has its own lease in the routes, or was detached before and finds no
gate at its address. Who calls `detach_gate` names an address where nothing is attached but
what holds the routes. -/
def ClosesOwn (world : PorchGates F) : GateAction → Prop
  | .readerEnds call => ∀ gate attachment, world.porch.readers.lookup call = some gate →
      world.attachments.lookup call = some attachment → world.porch.alive gate = false →
        if attachment.live then world.gateLease = some attachment.lease
        else ∀ conn, world.porch.routes.gate.bind world.porch.gates.lookup = some conn →
          conn.remoteAddress ≠ attachment.addr
  | .detachGate gateAddr => ∀ call attachment,
      world.attachments.lookup call = some attachment → attachment.live = true →
        attachment.seated = true → attachment.addr = gateAddr →
          world.gateLease = some attachment.lease
  | _ => True

end PorchGates

/-! ## What leaves the gate alone -/

namespace Porch

variable {F : Type}

/-- A step that leaves the attached gate, the address of every connection, and the calls of
`attach_gate`. -/
structure Elsewhere (world next : Porch F) : Prop where
  gate : next.routes.gate = world.routes.gate
  addresses : ∀ gate conn, world.gates.lookup gate = some conn →
    ∃ later, next.gates.lookup gate = some later ∧ later.remoteAddress = conn.remoteAddress
  calls : ∀ call, call ∈ next.readers ∨ call ∈ next.attaching →
    call ∈ world.readers ∨ call ∈ world.attaching

theorem Elsewhere.of_same {world next : Porch F} (gate : next.routes.gate = world.routes.gate)
    (gates : next.gates = world.gates) (readers : next.readers = world.readers)
    (attaching : ∀ call, call ∈ next.attaching → call ∈ world.attaching) :
    Elsewhere world next where
  gate := gate
  addresses := by
    intro other conn isThere
    rw [gates]
    exact ⟨conn, isThere, rfl⟩
  calls := by
    intro call isCall
    rw [readers] at isCall
    exact isCall.imp_right (attaching call)

theorem Elsewhere.of_eq {world next : Porch F} (gate : next.routes.gate = world.routes.gate)
    (gates : next.gates = world.gates) (readers : next.readers = world.readers)
    (attaching : next.attaching = world.attaching) : Elsewhere world next := by
  apply Elsewhere.of_same gate gates readers
  intro call isAttaching
  rw [attaching] at isAttaching
  exact isAttaching

theorem Elsewhere.startDrain {world seen : Porch F} (elsewhere : Elsewhere world seen)
    (gate : GateId) (synthetic : SocketAddr) :
    Elsewhere world (seen.startDrain gate synthetic) := by
  unfold Porch.startDrain
  split
  · exact elsewhere
  · exact ⟨elsewhere.gate, elsewhere.addresses, elsewhere.calls⟩

theorem elsewhere_gates {world : Porch F} {gate : GateId} {conn : GateConn}
    (same : ∀ old, world.gates.lookup gate = some old → conn.remoteAddress = old.remoteAddress) :
    Elsewhere world { world with gates := world.gates.put gate conn } where
  gate := rfl
  addresses := by
    intro other found isThere
    show ∃ later, (world.gates.put gate conn).lookup other = some later ∧ _
    rw [HashMap.lookup_put]
    split
    · next isGate =>
        rw [isGate] at isThere
        exact ⟨conn, rfl, same found isThere⟩
    · exact ⟨found, isThere, rfl⟩
  calls := fun _ isCall => isCall

theorem elsewhere_attachNext [F64 F] (world : Porch F) (call now : Nat) :
    Elsewhere world (world.step (.attachNext call now)) := by
  simp only [step]
  split
  · exact Elsewhere.of_eq rfl rfl rfl rfl
  · next isThere =>
      have attached : call ∈ world.attaching :=
        AList.lookup_isSome.mp (Option.isSome_of_mem isThere)
      refine ⟨rfl, fun _ conn found => ⟨conn, found, rfl⟩, ?_⟩
      intro other isCall
      rcases isCall with isReader | isAttaching
      · rcases (HashMap.mem_put _ _ _ _).mp isReader with same | before
        · rw [same]
          exact Or.inr attached
        · exact Or.inl before
      · exact Or.inr (AList.mem_erase.mp isAttaching).2
  · next isThere =>
      have attached : call ∈ world.attaching :=
        AList.lookup_isSome.mp (Option.isSome_of_mem isThere)
      apply Elsewhere.startDrain
      apply Elsewhere.of_same
      · rfl
      · rfl
      · rfl
      · intro other isAttaching
        rcases (HashMap.mem_put _ _ _ _).mp isAttaching with same | before
        · rw [same]
          exact attached
        · exact before

/-- Whatever neither attaches nor detaches leaves the gate alone. -/
theorem elsewhere_step [F64 F] (world : Porch F) {action : PorchAction}
    (off : action.onGate = false) : Elsewhere world (world.step action) := by
  have refl : Elsewhere world world := Elsewhere.of_eq rfl rfl rfl rfl
  cases action with
  | connects gate remoteAddress =>
      simp only [step]
      split
      · exact refl
      · next isFresh =>
          apply elsewhere_gates
          intro old isThere
          exact absurd (AList.lookup_isSome.mp (Option.isSome_of_mem isThere)) isFresh
  | gateLost gate =>
      simp only [step]
      split
      · exact refl
      · next conn isThere =>
          apply elsewhere_gates
          intro old isOld
          rw [isThere] at isOld
          rw [← Option.some.inj isOld]
  | attachGate call gate => cases off
  | attachNext call now => exact elsewhere_attachNext world call now
  | readerEnds call => cases off
  | detachGate gateAddr => cases off
  | registerRelaySession session syntheticPeer now =>
      simp only [step, registerRelaySession]
      split
      · exact Elsewhere.of_eq rfl rfl rfl rfl
      · apply Elsewhere.startDrain
        exact Elsewhere.of_eq rfl rfl rfl rfl
  | enqueue syntheticPeer payloads now =>
      simp only [step]
      split
      · exact refl
      · exact Elsewhere.of_eq rfl rfl rfl rfl
  | drain id now =>
      simp only [step]
      split
      · split
        · exact refl
        · split <;> exact Elsewhere.of_eq rfl rfl rfl rfl
      · exact refl
  | check id =>
      simp only [step]
      split
      · split <;> exact Elsewhere.of_eq rfl rfl rfl rfl
      · exact refl
  | send id refused =>
      simp only [step]
      split
      · exact Elsewhere.of_eq rfl rfl rfl rfl
      · split <;> exact Elsewhere.of_eq rfl rfl rfl rfl
      · exact refl

end Porch

namespace PorchGates

variable {F : Type}

/-! ## What every run keeps -/

/-- Leases are given out once, and a call of `attach_gate` keeps to its own connection. -/
structure Booked (world : PorchGates F) : Prop where
  counted : world.allowedSources.Counted
  fresh : ∀ lease, world.nextSourceLease ≤ lease →
    world.allowedSources.byLease.lookup lease = none
  numbered : ∀ call attachment, world.attachments.lookup call = some attachment →
    attachment.lease < world.nextSourceLease
  distinct : ∀ call other attachment otherAttachment,
    world.attachments.lookup call = some attachment →
      world.attachments.lookup other = some otherAttachment →
        attachment.lease = otherAttachment.lease → call = other
  lent : ∀ lease ∈ world.lent, lease < world.nextSourceLease ∧
    ∀ call attachment, world.attachments.lookup call = some attachment → attachment.lease ≠ lease
  leaving : ∀ lease ∈ world.leaving, lease < world.nextSourceLease
  young : ∀ call attachment, world.attachments.lookup call = some attachment →
    attachment.seated = false → attachment.live = true
  calls : ∀ call, call ∈ world.porch.readers ∨ call ∈ world.porch.attaching →
    ∃ attachment, world.attachments.lookup call = some attachment ∧ attachment.seated = true
  addressed : ∀ call attachment, world.attachments.lookup call = some attachment →
    ∃ conn, world.porch.gates.lookup attachment.gate = some conn ∧
      conn.remoteAddress = attachment.addr

/-- What holds of the socket as long as every connection closes its own. -/
structure Kept (world : PorchGates F) : Prop extends Booked world where
  leases : ∀ call attachment, world.attachments.lookup call = some attachment →
    world.allowedSources.byLease.lookup attachment.lease =
      if world.Held attachment then some [unmapV4 attachment.addr] else none
  gone : ∀ call attachment, world.attachments.lookup call = some attachment →
    attachment.lease ∈ world.leaving → attachment.live = false
  seat : ∀ gate, world.porch.routes.gate = some gate →
    ∃ call attachment, world.attachments.lookup call = some attachment ∧
      attachment.live = true ∧ attachment.seated = true ∧ attachment.gate = gate ∧
        world.gateLease = some attachment.lease
  vacant : world.porch.routes.gate = none → world.gateLease = none

theorem kept_new : Kept (new : PorchGates F) where
  counted := Leases.counted_empty
  leases := nofun
  fresh := fun _ _ => rfl
  numbered := nofun
  distinct := nofun
  lent := nofun
  leaving := nofun
  gone := nofun
  young := nofun
  calls := by
    intro call isCall
    rcases isCall with none | none
    · cases none
    · cases none
  seat := nofun
  vacant := fun _ => rfl
  addressed := nofun

section Steps

variable {world : PorchGates F}

theorem Kept.gateSet (kept : Kept world) : GateSet world where
  leases := kept.leases
  addresses := by
    intro addr
    constructor
    · rintro ⟨call, attachment, values, isThere, found, member⟩
      rw [kept.leases call attachment isThere] at found
      split at found
      · next held =>
          rw [← Option.some.inj found] at member
          exact ⟨call, attachment, isThere, held, (List.mem_singleton.mp member).symm⟩
      · cases found
    · rintro ⟨call, attachment, isThere, held, same⟩
      refine ⟨call, attachment, [unmapV4 attachment.addr], isThere, ?_, ?_⟩
      · rw [kept.leases call attachment isThere, if_pos held]
      · exact List.mem_singleton.mpr same.symm
  allowed := fun addr => kept.counted.contains_iff addr

/-- Whose lease is in the routes, that connection has them. -/
theorem Kept.routed (kept : Kept world) {call : Nat} {attachment : Attachment}
    (isThere : world.attachments.lookup call = some attachment)
    (own : world.gateLease = some attachment.lease) :
    world.porch.routes.gate = some attachment.gate ∧ attachment.live = true ∧
      attachment.seated = true := by
  cases isGate : world.porch.routes.gate with
  | none =>
      rw [kept.vacant isGate] at own
      cases own
  | some gate =>
      obtain ⟨other, found, isFound, live, seated, same, lease⟩ := kept.seat gate isGate
      rw [own, Option.some.injEq] at lease
      have isCall := kept.distinct call other attachment found isThere isFound lease
      rw [isCall, isFound, Option.some.injEq] at isThere
      rw [← isThere]
      exact ⟨congrArg some same.symm, live, seated⟩

theorem Kept.conn_of_own (kept : Kept world) {call : Nat} {attachment : Attachment}
    (isThere : world.attachments.lookup call = some attachment)
    (own : world.gateLease = some attachment.lease) :
    ∃ conn, world.porch.routes.gate.bind world.porch.gates.lookup = some conn ∧
      conn.remoteAddress = attachment.addr := by
  obtain ⟨conn, isConn, same⟩ := kept.addressed call attachment isThere
  refine ⟨conn, ?_, same⟩
  rw [(kept.routed isThere own).1, Option.bind_some, isConn]

theorem Kept.own_of_conn (kept : Kept world) {conn : GateConn}
    (found : world.porch.routes.gate.bind world.porch.gates.lookup = some conn) :
    ∃ call attachment, world.attachments.lookup call = some attachment ∧
      world.gateLease = some attachment.lease ∧ attachment.addr = conn.remoteAddress := by
  obtain ⟨gate, isGate, isConn⟩ := Option.bind_eq_some_iff.mp found
  obtain ⟨call, attachment, isThere, _, _, same, lease⟩ := kept.seat gate isGate
  obtain ⟨other, isOther, addr⟩ := kept.addressed call attachment isThere
  rw [same, isConn, Option.some.injEq] at isOther
  rw [← isOther] at addr
  exact ⟨call, attachment, isThere, lease, addr.symm⟩

/-- What leaves the gate alone leaves what holds. -/
theorem Kept.elsewhere (kept : Kept world) {next : Porch F}
    (elsewhere : Porch.Elsewhere world.porch next) : Kept { world with porch := next } where
  counted := kept.counted
  leases := kept.leases
  fresh := kept.fresh
  numbered := kept.numbered
  distinct := kept.distinct
  lent := kept.lent
  leaving := kept.leaving
  gone := kept.gone
  young := kept.young
  calls := fun call isCall => kept.calls call (elsewhere.calls call isCall)
  seat := by
    intro gate isGate
    rw [elsewhere.gate] at isGate
    exact kept.seat gate isGate
  vacant := by
    intro none
    rw [elsewhere.gate] at none
    exact kept.vacant none
  addressed := by
    intro call attachment isThere
    obtain ⟨conn, isConn, same⟩ := kept.addressed call attachment isThere
    obtain ⟨later, isLater, alsoSame⟩ := elsewhere.addresses _ conn isConn
    exact ⟨later, isLater, alsoSame.trans same⟩

/-- A new lease holds its address, and no other is changed. -/
theorem Kept.lookup_allow (kept : Kept world) (addr : SocketAddr) (lease : Nat) :
    (world.allowSource addr).allowedSources.byLease.lookup lease =
      if lease = world.nextSourceLease then some [unmapV4 addr]
      else world.allowedSources.byLease.lookup lease := by
  show (world.allowedSources.allow _ _).byLease.lookup lease = _
  rw [Leases.lookup_allow, kept.fresh _ (Nat.le_refl _)]
  rfl

theorem Kept.allowSource (kept : Kept world) (addr : SocketAddr) :
    Kept { world.allowSource addr with lent := world.nextSourceLease :: world.lent } where
  counted := kept.counted.allow _ _
  leases := by
    intro call attachment isThere
    have apart := Nat.ne_of_lt (kept.numbered call attachment isThere)
    show (world.allowSource addr).allowedSources.byLease.lookup _ = _
    rw [kept.lookup_allow, if_neg apart]
    exact kept.leases call attachment isThere
  fresh := by
    intro lease later
    have apart := Nat.ne_of_gt (Nat.lt_of_succ_le later)
    show (world.allowSource addr).allowedSources.byLease.lookup _ = _
    rw [kept.lookup_allow, if_neg apart]
    exact kept.fresh lease (Nat.le_of_succ_le later)
  numbered := fun call attachment isThere =>
    Nat.lt_succ_of_lt (kept.numbered call attachment isThere)
  distinct := kept.distinct
  lent := by
    intro lease member
    rcases List.mem_cons.mp member with isNew | old
    · rw [isNew]
      refine ⟨Nat.lt_succ_self _, ?_⟩
      intro call attachment isThere
      exact Nat.ne_of_lt (kept.numbered call attachment isThere)
    · exact ⟨Nat.lt_succ_of_lt (kept.lent lease old).1, (kept.lent lease old).2⟩
  leaving := fun lease member => Nat.lt_succ_of_lt (kept.leaving lease member)
  gone := kept.gone
  young := kept.young
  calls := kept.calls
  seat := kept.seat
  vacant := kept.vacant
  addressed := kept.addressed

/-- A lease that is no gate's is given back. -/
theorem Kept.forget (kept : Kept world) {lease : Nat}
    (apart : ∀ call attachment, world.attachments.lookup call = some attachment →
      attachment.lease ≠ lease) :
    Kept { world with allowedSources := world.allowedSources.forget lease } where
  counted := kept.counted.forget lease
  leases := by
    intro call attachment isThere
    show (world.allowedSources.forget lease).byLease.lookup _ = _
    rw [Leases.lookup_forget, if_neg (apart call attachment isThere)]
    exact kept.leases call attachment isThere
  fresh := by
    intro other later
    show (world.allowedSources.forget lease).byLease.lookup _ = _
    rw [Leases.lookup_forget, kept.fresh other later, ite_self]
  numbered := kept.numbered
  distinct := kept.distinct
  lent := kept.lent
  leaving := kept.leaving
  gone := kept.gone
  young := kept.young
  calls := kept.calls
  seat := kept.seat
  vacant := kept.vacant
  addressed := kept.addressed

/-- `attach_gate` leases the address of a connection. -/
theorem Kept.attachGate (kept : Kept world) {call : Nat} {gate : GateId} {conn : GateConn}
    (isConn : world.porch.gates.lookup gate = some conn) (isNew : call ∉ world.attachments) :
    Kept { world.allowSource conn.remoteAddress with
      attachments := world.attachments.put call
        ⟨gate, conn.remoteAddress, world.nextSourceLease, false, false, false⟩ } := by
  have other_ : ∀ other found, world.attachments.lookup other = some found → other ≠ call := by
    intro other found isFound same
    rw [same] at isFound
    exact isNew (AList.lookup_isSome.mp (Option.isSome_of_mem isFound))
  have isEither : ∀ other found, (world.attachments.put call
      ⟨gate, conn.remoteAddress, world.nextSourceLease, false, false, false⟩).lookup other =
        some found →
      (other = call ∧ found =
        ⟨gate, conn.remoteAddress, world.nextSourceLease, false, false, false⟩) ∨
        world.attachments.lookup other = some found := by
    intro other found isFound
    rw [HashMap.lookup_put] at isFound
    split at isFound
    · next same => exact Or.inl ⟨same, (Option.some.inj isFound).symm⟩
    · exact Or.inr isFound
  have isOld : ∀ other found, world.attachments.lookup other = some found →
      (world.attachments.put call
        ⟨gate, conn.remoteAddress, world.nextSourceLease, false, false, false⟩).lookup other =
          some found := by
    intro other found isFound
    rw [HashMap.lookup_put, if_neg (other_ other found isFound)]
    exact isFound
  have unheld : world.nextSourceLease ∉ world.leaving := fun member =>
    Nat.lt_irrefl _ (kept.leaving _ member)
  exact
    { counted := kept.counted.allow _ _
      leases := by
        intro other found isFound
        show (world.allowSource conn.remoteAddress).allowedSources.byLease.lookup _ = _
        rw [kept.lookup_allow]
        rcases isEither other found isFound with ⟨_, isThis⟩ | before
        · rw [isThis, if_pos rfl]
          exact (if_pos (Or.inl rfl)).symm
        · rw [if_neg (Nat.ne_of_lt (kept.numbered other found before))]
          exact kept.leases other found before
      fresh := by
        intro lease later
        have apart := Nat.ne_of_gt (Nat.lt_of_succ_le later)
        show (world.allowSource conn.remoteAddress).allowedSources.byLease.lookup _ = _
        rw [kept.lookup_allow, if_neg apart]
        exact kept.fresh lease (Nat.le_of_succ_le later)
      numbered := by
        intro other found isFound
        rcases isEither other found isFound with ⟨_, isThis⟩ | before
        · rw [isThis]
          exact Nat.lt_succ_self _
        · exact Nat.lt_succ_of_lt (kept.numbered other found before)
      distinct := by
        intro first second firstFound secondFound isFirst isSecond same
        rcases isEither first firstFound isFirst with ⟨firstCall, isThis⟩ | firstBefore
        · rcases isEither second secondFound isSecond with ⟨secondCall, _⟩ | secondBefore
          · rw [firstCall, secondCall]
          · rw [isThis] at same
            have below := kept.numbered second secondFound secondBefore
            exact absurd same.symm (Nat.ne_of_lt below)
        · rcases isEither second secondFound isSecond with ⟨_, isThis⟩ | secondBefore
          · rw [isThis] at same
            have below := kept.numbered first firstFound firstBefore
            exact absurd same (Nat.ne_of_lt below)
          · exact kept.distinct first second firstFound secondFound firstBefore secondBefore same
      lent := by
        intro lease member
        have lent := kept.lent lease member
        refine ⟨Nat.lt_succ_of_lt lent.1, ?_⟩
        intro other found isFound
        rcases isEither other found isFound with ⟨_, isThis⟩ | before
        · rw [isThis]
          exact Nat.ne_of_gt lent.1
        · exact lent.2 other found before
      leaving := fun lease member => Nat.lt_succ_of_lt (kept.leaving lease member)
      gone := by
        intro other found isFound member
        rcases isEither other found isFound with ⟨_, isThis⟩ | before
        · rw [isThis] at member
          exact absurd member unheld
        · exact kept.gone other found before member
      young := by
        intro other found isFound unseated
        rcases isEither other found isFound with ⟨_, isThis⟩ | before
        · rw [isThis]
          rfl
        · exact kept.young other found before unseated
      calls := by
        intro other isCall
        obtain ⟨found, isFound, seated⟩ := kept.calls other isCall
        exact ⟨found, isOld other found isFound, seated⟩
      seat := by
        intro held isGate
        obtain ⟨other, found, isFound, rest⟩ := kept.seat held isGate
        exact ⟨other, found, isOld other found isFound, rest⟩
      vacant := kept.vacant
      addressed := by
        intro other found isFound
        rcases isEither other found isFound with ⟨_, isThis⟩ | before
        · rw [isThis]
          exact ⟨conn, isConn, rfl⟩
        · exact kept.addressed other found before }

/-- `attach_gate` takes the routes. -/
theorem Kept.seats (kept : Kept world) {call : Nat} {attachment : Attachment}
    (isThere : world.attachments.lookup call = some attachment)
    (unseated : attachment.seated = false) :
    Kept { world with
      porch := world.porch.attachGate call attachment.gate
      gateLease := some attachment.lease
      attachments := world.attachments.put call { attachment with seated := true } } := by
  have was : ∀ other found,
      (world.attachments.put call { attachment with seated := true }).lookup other = some found →
      ∃ before, world.attachments.lookup other = some before ∧ found.gate = before.gate ∧
        found.addr = before.addr ∧ found.lease = before.lease ∧ found.live = before.live ∧
          (found.seated = false → before.seated = false) := by
    intro other found isFound
    rw [HashMap.lookup_put] at isFound
    split at isFound
    · next same =>
        rw [← Option.some.inj isFound, same]
        exact ⟨attachment, isThere, rfl, rfl, rfl, rfl, fun _ => unseated⟩
    · exact ⟨found, isFound, rfl, rfl, rfl, rfl, id⟩
  exact
    { counted := kept.counted
      leases := by
        intro other found isFound
        obtain ⟨before, isBefore, _, addr, lease, live, _⟩ := was other found isFound
        have held : world.Held found = world.Held before := by
          unfold Held
          rw [lease, live]
        have leases := kept.leases other before isBefore
        rw [lease, addr]
        show world.allowedSources.byLease.lookup _ = if world.Held found then _ else _
        simp only [held]
        exact leases
      fresh := kept.fresh
      numbered := by
        intro other found isFound
        obtain ⟨before, isBefore, _, _, lease, _⟩ := was other found isFound
        rw [lease]
        exact kept.numbered other before isBefore
      distinct := by
        intro first second firstFound secondFound isFirst isSecond same
        obtain ⟨firstBefore, isFirstBefore, _, _, firstLease, _⟩ := was first firstFound isFirst
        obtain ⟨secondBefore, isSecondBefore, _, _, secondLease, _⟩ :=
          was second secondFound isSecond
        rw [firstLease, secondLease] at same
        exact kept.distinct first second firstBefore secondBefore isFirstBefore isSecondBefore same
      lent := by
        intro lease member
        have lent := kept.lent lease member
        refine ⟨lent.1, ?_⟩
        intro other found isFound
        obtain ⟨before, isBefore, _, _, same, _⟩ := was other found isFound
        rw [same]
        exact lent.2 other before isBefore
      leaving := kept.leaving
      gone := by
        intro other found isFound member
        obtain ⟨before, isBefore, _, _, lease, live, _⟩ := was other found isFound
        rw [lease] at member
        rw [live]
        exact kept.gone other before isBefore member
      young := by
        intro other found isFound young
        obtain ⟨before, isBefore, _, _, _, live, seated⟩ := was other found isFound
        rw [live]
        exact kept.young other before isBefore (seated young)
      calls := by
        intro other isCall
        show ∃ found, (world.attachments.put call _).lookup other = some found ∧ _
        by_cases same : other = call
        · rw [same, HashMap.lookup_put, if_pos rfl]
          exact ⟨_, rfl, rfl⟩
        · rw [HashMap.lookup_put, if_neg same]
          apply kept.calls
          rcases isCall with isReader | isAttaching
          · exact Or.inl isReader
          · rcases (HashMap.mem_put _ _ _ _).mp isAttaching with isCall | before
            · exact absurd isCall same
            · exact Or.inr before
      seat := by
        intro gate isGate
        refine ⟨call, { attachment with seated := true }, ?_, ?_, rfl, ?_, rfl⟩
        · show (world.attachments.put call _).lookup call = _
          rw [HashMap.lookup_put, if_pos rfl]
        · exact kept.young call attachment isThere unseated
        · exact Option.some.inj isGate
      vacant := nofun
      addressed := by
        intro other found isFound
        obtain ⟨before, isBefore, gate, addr, _⟩ := was other found isFound
        rw [gate, addr]
        exact kept.addressed other before isBefore }

/-! ## Closes and detaches -/

/-- The connection stays what it was, or has ended. -/
structure Ends (before after : Attachment) : Prop where
  gate : after.gate = before.gate
  addr : after.addr = before.addr
  lease : after.lease = before.lease
  seated : after.seated = before.seated
  ended : after = before ∨ after.live = false ∧ before.seated = true

/-- Some connections have ended, and nothing else is different. -/
structure Tells (world told : PorchGates F) : Prop where
  allowedSources : told.allowedSources = world.allowedSources
  nextSourceLease : told.nextSourceLease = world.nextSourceLease
  lent : told.lent = world.lent
  leaving : told.leaving = world.leaving
  gateLease : told.gateLease = world.gateLease
  routes : told.porch.routes = world.porch.routes
  gates : told.porch.gates = world.porch.gates
  calls : ∀ call, call ∈ told.porch.readers ∨ call ∈ told.porch.attaching →
    call ∈ world.porch.readers ∨ call ∈ world.porch.attaching
  was : ∀ call after, told.attachments.lookup call = some after →
    ∃ before, world.attachments.lookup call = some before ∧ Ends before after
  still : ∀ call before, world.attachments.lookup call = some before →
    ∃ after, told.attachments.lookup call = some after ∧ Ends before after

/-- What ended holds the routes, and what holds the routes at the address has ended. -/
structure Own (world told : PorchGates F) (gateAddr : SocketAddr) : Prop where
  ended : ∀ call before after, world.attachments.lookup call = some before →
    told.attachments.lookup call = some after → before.live = true → after.live = false →
      world.gateLease = some before.lease ∧ before.addr = gateAddr
  route : ∀ call before after, world.attachments.lookup call = some before →
    told.attachments.lookup call = some after → world.gateLease = some before.lease →
      before.addr = gateAddr → after.live = false

theorem detachGate_of_conn {told : PorchGates F} {conn : GateConn}
    (found : told.porch.routes.gate.bind told.porch.gates.lookup = some conn) :
    told.detachGate conn.remoteAddress =
      { told with
        porch := { told.porch with
          routes := { told.porch.routes with gate := none, drained := ∅ } }
        gateLease := none
        leaving := told.gateLease.toList ++ told.leaving } := by
  unfold detachGate Porch.detachGate
  rw [found]
  simp only [ne_eq, not_true_eq_false, if_false]

theorem detachGate_of_apart {told : PorchGates F} {gateAddr : SocketAddr}
    (apart : ∀ conn, told.porch.routes.gate.bind told.porch.gates.lookup = some conn →
      conn.remoteAddress ≠ gateAddr) : told.detachGate gateAddr = told := by
  unfold detachGate
  split
  · rfl
  · next conn found => exact if_pos (apart conn found)

theorem Tells.booked {told : PorchGates F} (tells : Tells world told) (booked : Booked world) :
    Booked told where
  counted := by
    rw [tells.allowedSources]
    exact booked.counted
  fresh := by
    rw [tells.allowedSources, tells.nextSourceLease]
    exact booked.fresh
  numbered := by
    intro call after isAfter
    obtain ⟨before, isBefore, ends⟩ := tells.was call after isAfter
    rw [tells.nextSourceLease, ends.lease]
    exact booked.numbered call before isBefore
  distinct := by
    intro first second firstAfter secondAfter isFirst isSecond alike
    obtain ⟨firstBefore, isFirstBefore, firstEnds⟩ := tells.was first firstAfter isFirst
    obtain ⟨secondBefore, isSecondBefore, secondEnds⟩ := tells.was second secondAfter isSecond
    rw [firstEnds.lease, secondEnds.lease] at alike
    exact booked.distinct first second firstBefore secondBefore isFirstBefore isSecondBefore alike
  lent := by
    intro lease member
    rw [tells.lent] at member
    have lent := booked.lent lease member
    rw [tells.nextSourceLease]
    refine ⟨lent.1, ?_⟩
    intro call after isAfter
    obtain ⟨before, isBefore, ends⟩ := tells.was call after isAfter
    rw [ends.lease]
    exact lent.2 call before isBefore
  leaving := by
    rw [tells.leaving, tells.nextSourceLease]
    exact booked.leaving
  young := by
    intro call after isAfter unseated
    obtain ⟨before, isBefore, ends⟩ := tells.was call after isAfter
    rw [ends.seated] at unseated
    rcases ends.ended with same | ended
    · rw [same]
      exact booked.young call before isBefore unseated
    · rw [ended.2] at unseated
      cases unseated
  calls := by
    intro call isCall
    obtain ⟨before, isBefore, seated⟩ := booked.calls call (tells.calls call isCall)
    obtain ⟨after, isAfter, ends⟩ := tells.still call before isBefore
    exact ⟨after, isAfter, ends.seated.trans seated⟩
  addressed := by
    intro call after isAfter
    obtain ⟨before, isBefore, ends⟩ := tells.was call after isAfter
    rw [tells.gates, ends.gate, ends.addr]
    exact booked.addressed call before isBefore

/-- What ended and did not hold the routes would have left its lease behind. -/
theorem Own.same {told : PorchGates F} {gateAddr : SocketAddr} (own : Own world told gateAddr)
    (kept : Kept world)
    (apart : ∀ conn, world.porch.routes.gate.bind world.porch.gates.lookup = some conn →
      conn.remoteAddress ≠ gateAddr) {call : Nat} {before after : Attachment}
    (isBefore : world.attachments.lookup call = some before)
    (isAfter : told.attachments.lookup call = some after) (ends : Ends before after)
    (live : before.live = true) : after = before := by
  rcases ends.ended with same | ended
  · exact same
  · have lease := own.ended call before after isBefore isAfter live ended.1
    obtain ⟨conn, found, addr⟩ := kept.conn_of_own isBefore lease.1
    exact absurd (addr.trans lease.2) (apart conn found)

theorem Kept.detaches_apart (kept : Kept world) {told : PorchGates F} (tells : Tells world told)
    {gateAddr : SocketAddr} (own : Own world told gateAddr)
    (apart : ∀ conn, world.porch.routes.gate.bind world.porch.gates.lookup = some conn →
      conn.remoteAddress ≠ gateAddr) : Kept told where
  toBooked := tells.booked kept.toBooked
  leases := by
    intro call after isAfter
    obtain ⟨before, isBefore, ends⟩ := tells.was call after isAfter
    have live : after.live = before.live := by
      cases isLive : before.live with
      | true => rw [own.same kept apart isBefore isAfter ends isLive, isLive]
      | false =>
          rcases ends.ended with same | ended
          · rw [same, isLive]
          · exact ended.1
    have held : told.Held after = world.Held before := by
      unfold Held
      rw [live, ends.lease, tells.leaving]
    rw [tells.allowedSources, ends.lease, ends.addr]
    simp only [held]
    exact kept.leases call before isBefore
  gone := by
    intro call after isAfter member
    obtain ⟨before, isBefore, ends⟩ := tells.was call after isAfter
    rw [ends.lease, tells.leaving] at member
    have dead := kept.gone call before isBefore member
    rcases ends.ended with same | ended
    · rw [same]
      exact dead
    · exact ended.1
  seat := by
    intro gate isGate
    rw [tells.routes] at isGate
    obtain ⟨call, before, isBefore, live, seated, isOwn, lease⟩ := kept.seat gate isGate
    obtain ⟨after, isAfter, ends⟩ := tells.still call before isBefore
    have unchanged := own.same kept apart isBefore isAfter ends live
    rw [unchanged] at isAfter
    rw [tells.gateLease]
    exact ⟨call, before, isAfter, live, seated, isOwn, lease⟩
  vacant := by
    rw [tells.routes, tells.gateLease]
    exact kept.vacant

/-- The connection that holds the routes gives them up, and its lease is on the way back. -/
theorem Kept.detaches_own (kept : Kept world) {told : PorchGates F} (tells : Tells world told)
    {conn : GateConn} (own : Own world told conn.remoteAddress)
    (found : world.porch.routes.gate.bind world.porch.gates.lookup = some conn) :
    Kept { told with
      porch := { told.porch with
        routes := { told.porch.routes with gate := none, drained := ∅ } }
      gateLease := none
      leaving := told.gateLease.toList ++ told.leaving } := by
  obtain ⟨call, attachment, isThere, lease, addr⟩ := kept.own_of_conn found
  obtain ⟨_, live, _⟩ := kept.routed isThere lease
  have booked := tells.booked kept.toBooked
  have leaving : told.gateLease.toList ++ told.leaving = attachment.lease :: world.leaving := by
    rw [tells.gateLease, tells.leaving, lease]
    rfl
  rw [leaving]
  -- whoever's lease is the one that leaves is the connection that held the routes
  have isOwn : ∀ other before, world.attachments.lookup other = some before →
      before.lease = attachment.lease → other = call ∧ before = attachment := by
    intro other before isBefore same
    have isCall := kept.distinct other call before attachment isBefore isThere same
    rw [isCall, isThere] at isBefore
    exact ⟨isCall, (Option.some.inj isBefore).symm⟩
  exact
    { counted := booked.counted
      fresh := booked.fresh
      numbered := booked.numbered
      distinct := booked.distinct
      lent := booked.lent
      leaving := by
        intro other member
        rcases List.mem_cons.mp member with isThis | before
        · show other < told.nextSourceLease
          rw [isThis, tells.nextSourceLease]
          exact kept.numbered call attachment isThere
        · apply booked.leaving
          rw [tells.leaving]
          exact before
      young := booked.young
      calls := booked.calls
      addressed := booked.addressed
      leases := by
        intro other after isAfter
        obtain ⟨before, isBefore, ends⟩ := tells.was other after isAfter
        show told.allowedSources.byLease.lookup after.lease =
          if after.live = true ∨ after.lease ∈ attachment.lease :: world.leaving then _ else _
        rw [tells.allowedSources, ends.lease, ends.addr, kept.leases other before isBefore]
        unfold Held
        simp only [List.mem_cons]
        have same : (before.live = true ∨ before.lease ∈ world.leaving) ↔
            (after.live = true ∨ before.lease = attachment.lease ∨
              before.lease ∈ world.leaving) := by
          constructor
          · rintro (isLive | member)
            · rcases ends.ended with same | ended
              · rw [same]
                exact Or.inl isLive
              · have left := (own.ended other before after isBefore isAfter isLive ended.1).1
                rw [lease] at left
                exact Or.inr (Or.inl (Option.some.inj left).symm)
            · exact Or.inr (Or.inr member)
          · rintro (isLive | isThis | member)
            · rcases ends.ended with same | ended
              · rw [same] at isLive
                exact Or.inl isLive
              · rw [ended.1] at isLive
                cases isLive
            · rw [(isOwn other before isBefore isThis).2]
              exact Or.inl live
            · exact Or.inr member
        simp only [same]
      gone := by
        intro other after isAfter member
        obtain ⟨before, isBefore, ends⟩ := tells.was other after isAfter
        rw [ends.lease] at member
        rcases List.mem_cons.mp member with isThis | earlier
        · obtain ⟨_, isAttachment⟩ := isOwn other before isBefore isThis
          apply own.route other before after isBefore isAfter
          · rw [isAttachment]
            exact lease
          · rw [isAttachment]
            exact addr
        · have dead := kept.gone other before isBefore earlier
          rcases ends.ended with same | ended
          · rw [same]
            exact dead
          · exact ended.1
      seat := nofun
      vacant := fun _ => rfl }

theorem Kept.detaches (kept : Kept world) {told : PorchGates F} (tells : Tells world told)
    {gateAddr : SocketAddr} (own : Own world told gateAddr) :
    Kept (told.detachGate gateAddr) := by
  have same : told.porch.routes.gate.bind told.porch.gates.lookup =
      world.porch.routes.gate.bind world.porch.gates.lookup := by
    rw [tells.routes, tells.gates]
  by_cases isRoute : ∃ conn,
      world.porch.routes.gate.bind world.porch.gates.lookup = some conn ∧
        conn.remoteAddress = gateAddr
  · obtain ⟨conn, found, rfl⟩ := isRoute
    rw [detachGate_of_conn (same.trans found)]
    exact kept.detaches_own tells own found
  · have apart : ∀ conn, world.porch.routes.gate.bind world.porch.gates.lookup = some conn →
        conn.remoteAddress ≠ gateAddr := fun conn found addr => isRoute ⟨conn, found, addr⟩
    rw [detachGate_of_apart (by rw [same]; exact apart)]
    exact kept.detaches_apart tells own apart

theorem attachments_detachGate (told : PorchGates F) (gateAddr : SocketAddr) :
    (told.detachGate gateAddr).attachments = told.attachments ∧
      (told.detachGate gateAddr).allowedSources = told.allowedSources := by
  unfold detachGate
  split
  · exact ⟨rfl, rfl⟩
  · split <;> exact ⟨rfl, rfl⟩

theorem mem_leaving_detachGate {told : PorchGates F} {gateAddr : SocketAddr} {lease : Nat}
    (member : lease ∈ (told.detachGate gateAddr).leaving) :
    told.gateLease = some lease ∨ lease ∈ told.leaving := by
  unfold detachGate at member
  split at member
  · exact Or.inr member
  · split at member
    · exact Or.inr member
    · exact (List.mem_append.mp member).imp_left Option.mem_toList.mp

/-- Who holds the routes and has not ended finds no detach at its address. -/
theorem Kept.undisturbed (kept : Kept world) {told : PorchGates F} (tells : Tells world told)
    {gateAddr : SocketAddr} (own : Own world told gateAddr) {call : Nat} {attachment : Attachment}
    (isThere : world.attachments.lookup call = some attachment)
    (isAfter : (told.detachGate gateAddr).attachments.lookup call = some attachment)
    (live : attachment.live = true) (isGate : world.porch.routes.gate = some attachment.gate)
    (lease : world.gateLease = some attachment.lease) :
    world.Stays (told.detachGate gateAddr) attachment := by
  rw [(attachments_detachGate told gateAddr).1] at isAfter
  have apart : ∀ conn, told.porch.routes.gate.bind told.porch.gates.lookup = some conn →
      conn.remoteAddress ≠ gateAddr := by
    intro conn found isRoute
    rw [tells.routes, tells.gates] at found
    obtain ⟨own_, isOwn, addr⟩ := kept.conn_of_own isThere lease
    rw [found, Option.some.injEq] at isOwn
    rw [← isOwn, isRoute] at addr
    have ended := own.route call attachment attachment isThere isAfter lease addr.symm
    rw [live] at ended
    cases ended
  rw [detachGate_of_apart apart]
  constructor
  · rw [tells.routes]
    exact isGate
  · rw [tells.gateLease]
    exact lease
  · rw [tells.allowedSources]
  · rw [tells.routes]
    exact fun _ => id

/-- Where the set is right after a detach, what ended had its lease in the routes. -/
theorem Kept.own_of_gateSet (kept : Kept world) {told : PorchGates F} (tells : Tells world told)
    {gateAddr : SocketAddr} (set : GateSet (told.detachGate gateAddr)) {call : Nat}
    {before after : Attachment} (isBefore : world.attachments.lookup call = some before)
    (isAfter : told.attachments.lookup call = some after) (ends : Ends before after)
    (live : before.live = true) (ended : after.live = false) :
    world.gateLease = some before.lease := by
  have same := attachments_detachGate told gateAddr
  have held : world.Held before := Or.inl live
  rw [← same.1] at isAfter
  have leases := set.leases call after isAfter
  rw [same.2, tells.allowedSources, ends.lease, kept.leases call before isBefore,
    if_pos held] at leases
  by_cases held : (told.detachGate gateAddr).Held after
  · rcases held with still | member
    · rw [ended] at still
      cases still
    · rw [ends.lease] at member
      rcases mem_leaving_detachGate member with own | earlier
      · rw [← tells.gateLease]
        exact own
      · rw [tells.leaving] at earlier
        rw [kept.gone call before isBefore earlier] at live
        cases live
  · rw [if_neg held] at leases
    cases leases

/-! ### A reader ends -/

/-- The socket once the reader of a connection has ended. -/
def ended (world : PorchGates F) (call : Nat) (attachment : Attachment) : PorchGates F :=
  { world with
    porch := { world.porch with readers := world.porch.readers.erase call }
    attachments := world.attachments.put call { attachment with closed := true } }

theorem tells_ended {call : Nat} {attachment : Attachment}
    (isThere : world.attachments.lookup call = some attachment)
    (seated : attachment.seated = true) : Tells world (world.ended call attachment) where
  allowedSources := rfl
  nextSourceLease := rfl
  lent := rfl
  leaving := rfl
  gateLease := rfl
  routes := rfl
  gates := rfl
  calls := by
    intro other isCall
    rcases isCall with isReader | isAttaching
    · exact Or.inl (AList.mem_erase.mp isReader).2
    · exact Or.inr isAttaching
  was := by
    intro other after isAfter
    change (world.attachments.put call _).lookup other = _ at isAfter
    rw [HashMap.lookup_put] at isAfter
    split at isAfter
    · next same =>
        rw [← Option.some.inj isAfter, same]
        exact ⟨attachment, isThere, rfl, rfl, rfl, rfl, Or.inr ⟨rfl, seated⟩⟩
    · exact ⟨after, isAfter, rfl, rfl, rfl, rfl, Or.inl rfl⟩
  still := by
    intro other before isBefore
    show ∃ after, (world.attachments.put call _).lookup other = _ ∧ _
    rw [HashMap.lookup_put]
    split
    · next same =>
        rw [same, isThere, Option.some.injEq] at isBefore
        rw [← isBefore]
        exact ⟨_, rfl, rfl, rfl, rfl, rfl, Or.inr ⟨rfl, seated⟩⟩
    · exact ⟨before, isBefore, rfl, rfl, rfl, rfl, Or.inl rfl⟩

theorem lookup_ended {call other : Nat} {attachment : Attachment} :
    (world.ended call attachment).attachments.lookup other =
      if other = call then some { attachment with closed := true }
      else world.attachments.lookup other :=
  HashMap.lookup_put _ _ _ _

theorem Kept.readerEnds_eq [F64 F] (kept : Kept world) {call : Nat} {gate : GateId}
    {attachment : Attachment} (isReader : world.porch.readers.lookup call = some gate)
    (isThere : world.attachments.lookup call = some attachment)
    (lost : world.porch.alive gate = false) :
    attachment.seated = true ∧ world.step (.readerEnds call) =
      (world.ended call attachment).detachGate attachment.addr := by
  have isCall : call ∈ world.porch.readers :=
    AList.lookup_isSome.mp (Option.isSome_of_mem isReader)
  obtain ⟨found, isFound, seated⟩ := kept.calls call (Or.inl isCall)
  rw [isThere, Option.some.injEq] at isFound
  rw [← isFound] at seated
  refine ⟨seated, ?_⟩
  simp only [step]
  rw [isReader, isThere]
  simp only [lost, Bool.false_eq_true, if_false]
  rfl

/-- A reader ends where its connection is lost, and then it detaches it. -/
theorem Kept.readerEnds_cases [F64 F] (kept : Kept world) (call : Nat) :
    world.step (.readerEnds call) = world ∨
      ∃ gate attachment, world.porch.readers.lookup call = some gate ∧
        world.attachments.lookup call = some attachment ∧ world.porch.alive gate = false ∧
          attachment.seated = true ∧
            world.step (.readerEnds call) =
              (world.ended call attachment).detachGate attachment.addr := by
  have same : ∀ gate attachment, world.porch.readers.lookup call = some gate →
      world.attachments.lookup call = some attachment → world.porch.alive gate = true →
        world.step (.readerEnds call) = world := by
    intro gate attachment isReader isThere alive
    simp only [step]
    rw [isReader, isThere]
    exact if_pos alive
  cases isReader : world.porch.readers.lookup call with
  | none =>
      apply Or.inl
      simp only [step]
      rw [isReader]
  | some gate =>
      cases isThere : world.attachments.lookup call with
      | none =>
          apply Or.inl
          simp only [step]
          rw [isReader, isThere]
      | some attachment =>
          cases lost : world.porch.alive gate with
          | true => exact Or.inl (same gate attachment isReader isThere lost)
          | false =>
              obtain ⟨seated, stepped⟩ := kept.readerEnds_eq isReader isThere lost
              exact Or.inr ⟨gate, attachment, rfl, rfl, lost, seated, stepped⟩

theorem Kept.own_ended (kept : Kept world) {call : Nat} {attachment : Attachment}
    (isThere : world.attachments.lookup call = some attachment)
    (closes : if attachment.live then world.gateLease = some attachment.lease
      else ∀ conn, world.porch.routes.gate.bind world.porch.gates.lookup = some conn →
        conn.remoteAddress ≠ attachment.addr) :
    Own world (world.ended call attachment) attachment.addr where
  ended := by
    intro other before after isBefore isAfter live ended
    rw [lookup_ended] at isAfter
    split at isAfter
    · next same =>
        rw [same, isThere, Option.some.injEq] at isBefore
        rw [← isBefore] at live ⊢
        rw [if_pos live] at closes
        exact ⟨closes, rfl⟩
    · rw [isBefore, Option.some.injEq] at isAfter
      rw [← isAfter, live] at ended
      cases ended
  route := by
    intro other before after isBefore isAfter lease addr
    have isCall : other = call := by
      by_cases live : attachment.live = true
      · rw [if_pos live, lease, Option.some.injEq] at closes
        exact kept.distinct other call before attachment isBefore isThere closes
      · rw [if_neg live] at closes
        obtain ⟨conn, found, isAddr⟩ := kept.conn_of_own isBefore lease
        exact absurd (isAddr.trans addr) (closes conn found)
    rw [lookup_ended, if_pos isCall, Option.some.injEq] at isAfter
    rw [← isAfter]
    rfl

/-! ### Someone detaches -/

/-- The socket once a call of `detach_gate` was made. -/
def told (world : PorchGates F) (gateAddr : SocketAddr) : PorchGates F :=
  { world with
    attachments := world.attachments.mapValues fun attachment =>
      if attachment.seated && attachment.addr == gateAddr then
        { attachment with detached := true }
      else attachment }

theorem lookup_told {gateAddr : SocketAddr} {call : Nat} {before : Attachment}
    (isBefore : world.attachments.lookup call = some before) :
    (world.told gateAddr).attachments.lookup call =
      some (if before.seated && before.addr == gateAddr then { before with detached := true }
        else before) := by
  show (world.attachments.mapValues _).lookup call = _
  rw [HashMap.lookup_mapValues, isBefore]
  rfl

theorem ends_told (before : Attachment) (gateAddr : SocketAddr) :
    Ends before (if before.seated && before.addr == gateAddr then
      { before with detached := true } else before) := by
  split
  · next marked =>
      rw [Bool.and_eq_true] at marked
      refine ⟨rfl, rfl, rfl, rfl, Or.inr ⟨?_, marked.1⟩⟩
      simp [Attachment.live]
  · exact ⟨rfl, rfl, rfl, rfl, Or.inl rfl⟩

theorem tells_told (world : PorchGates F) (gateAddr : SocketAddr) :
    Tells world (world.told gateAddr) where
  allowedSources := rfl
  nextSourceLease := rfl
  lent := rfl
  leaving := rfl
  gateLease := rfl
  routes := rfl
  gates := rfl
  calls := fun _ => id
  was := by
    intro call after isAfter
    cases isBefore : world.attachments.lookup call with
    | none =>
        change (world.attachments.mapValues _).lookup call = _ at isAfter
        rw [HashMap.lookup_mapValues, isBefore] at isAfter
        cases isAfter
    | some before =>
        rw [lookup_told isBefore, Option.some.injEq] at isAfter
        rw [← isAfter]
        exact ⟨before, rfl, ends_told before gateAddr⟩
  still := fun call before isBefore => ⟨_, lookup_told isBefore, ends_told before gateAddr⟩

theorem Kept.own_told (kept : Kept world) {gateAddr : SocketAddr}
    (closes : ∀ call attachment, world.attachments.lookup call = some attachment →
      attachment.live = true → attachment.seated = true → attachment.addr = gateAddr →
        world.gateLease = some attachment.lease) : Own world (world.told gateAddr) gateAddr where
  ended := by
    intro call before after isBefore isAfter live ended
    rw [lookup_told isBefore, Option.some.injEq] at isAfter
    rw [← isAfter] at ended
    split at ended
    · next marked =>
        rw [Bool.and_eq_true] at marked
        have addr := eq_of_beq marked.2
        exact ⟨closes call before isBefore live marked.1 addr, addr⟩
    · rw [live] at ended
      cases ended
  route := by
    intro call before after isBefore isAfter lease addr
    have seated := (kept.routed isBefore lease).2.2
    rw [lookup_told isBefore, Option.some.injEq, if_pos] at isAfter
    · rw [← isAfter]
      simp [Attachment.live]
    · rw [seated, addr, beq_self_eq_true]
      rfl

end Steps

/-! ## Every run -/

section Runs

variable {F : Type} [F64 F] {world : PorchGates F}

omit [F64 F] in
/-- A lease on the way back is none of a connection that is attached. -/
theorem Kept.givesBack (kept : Kept world) {lease : Nat} (isLeaving : lease ∈ world.leaving) :
    Kept { world with
      allowedSources := world.allowedSources.forget lease
      leaving := world.leaving.filter fun other => other != lease } := by
  have mem_rest : ∀ other, other ∈ world.leaving.filter (fun other => other != lease) ↔
      other ∈ world.leaving ∧ other ≠ lease := by
    intro other
    rw [List.mem_filter, bne_iff_ne]
  exact
    { counted := kept.counted.forget lease
      fresh := by
        intro other later
        show (world.allowedSources.forget lease).byLease.lookup _ = _
        rw [Leases.lookup_forget, kept.fresh other later, ite_self]
      numbered := kept.numbered
      distinct := kept.distinct
      lent := kept.lent
      leaving := fun other member => kept.leaving other ((mem_rest other).mp member).1
      young := kept.young
      calls := kept.calls
      addressed := kept.addressed
      leases := by
        intro call attachment isThere
        show (world.allowedSources.forget lease).byLease.lookup attachment.lease =
          if attachment.live = true ∨ attachment.lease ∈ world.leaving.filter _ then _ else _
        rw [Leases.lookup_forget]
        by_cases same : attachment.lease = lease
        · have dead : attachment.live = false :=
            kept.gone call attachment isThere (same ▸ isLeaving)
          rw [if_pos same, if_neg]
          rintro (live | member)
          · rw [dead] at live
            cases live
          · exact ((mem_rest _).mp member).2 same
        · have alike : (attachment.live = true ∨
              attachment.lease ∈ world.leaving.filter fun other => other != lease) ↔
              world.Held attachment := by
            rw [mem_rest, and_iff_left same]
            exact Iff.rfl
          rw [if_neg same, kept.leases call attachment isThere]
          simp only [alike]
      gone := fun call attachment isThere member =>
        kept.gone call attachment isThere ((mem_rest _).mp member).1
      seat := kept.seat
      vacant := kept.vacant }

/-- A step on which every connection closes its own keeps what holds. -/
theorem kept_step (kept : Kept world) (action : GateAction) (closes : world.ClosesOwn action) :
    Kept (world.step action) := by
  cases action with
  | porch action =>
      simp only [step]
      split
      · exact kept
      · next off =>
          exact kept.elsewhere (Porch.elsewhere_step world.porch (Bool.eq_false_of_not_eq_true off))
  | allowSource addr => exact kept.allowSource addr
  | forgetSource lease =>
      simp only [step]
      split
      · next lent => exact kept.forget (kept.lent lease lent).2
      · exact kept
  | attachGate call gate =>
      simp only [step]
      split
      · exact kept
      · next conn isConn =>
          split
          · exact kept
          · next isNew => exact kept.attachGate isConn isNew
  | seat call =>
      simp only [step]
      split
      · exact kept
      · next attachment isThere =>
          split
          · exact kept
          · next unseated => exact kept.seats isThere (Bool.eq_false_of_not_eq_true unseated)
  | readerEnds call =>
      rcases kept.readerEnds_cases call with
        same | ⟨gate, attachment, isReader, isThere, lost, seated, stepped⟩
      · rw [same]
        exact kept
      · rw [stepped]
        exact kept.detaches (tells_ended isThere seated)
          (kept.own_ended isThere (closes gate attachment isReader isThere lost))
  | detachGate gateAddr => exact kept.detaches (tells_told world gateAddr) (kept.own_told closes)
  | givesBack lease =>
      simp only [step]
      split
      · next isLeaving => exact kept.givesBack isLeaving
      · exact kept

/-- Where every connection closes its own, none disturbs another. -/
theorem undisturbed_step (kept : Kept world) (action : GateAction)
    (closes : world.ClosesOwn action) : world.Undisturbed action := by
  intro isClose call attachment isThere isAfter live isGate lease
  have stays : world.Stays world attachment := ⟨isGate, lease, rfl, fun _ => id⟩
  cases action with
  | readerEnds ending =>
      rcases kept.readerEnds_cases ending with
        same | ⟨gate, closing, isReader, isClosing, lost, seated, stepped⟩
      · rw [same]
        exact stays
      · rw [stepped] at isAfter ⊢
        exact kept.undisturbed (tells_ended isClosing seated)
          (kept.own_ended isClosing (closes gate closing isReader isClosing lost))
          isThere isAfter live isGate lease
  | detachGate gateAddr =>
      exact kept.undisturbed (tells_told world gateAddr) (kept.own_told closes) isThere isAfter
        live isGate lease
  | givesBack returned =>
      simp only [step]
      split
      · next isLeaving =>
          have apart : attachment.lease ≠ returned := by
            intro same
            have dead := kept.gone call attachment isThere (same ▸ isLeaving)
            rw [live] at dead
            cases dead
          refine ⟨isGate, lease, ?_, fun _ => id⟩
          show (world.allowedSources.forget returned).byLease.lookup _ = _
          rw [Leases.lookup_forget, if_neg apart]
      · exact stays
  | _ => cases isClose

/-- A step that leaves the set right and disturbs nobody closes its own. -/
theorem closesOwn_of_gateSet (kept : Kept world) (action : GateAction)
    (set : GateSet (world.step action)) (undisturbed : world.Undisturbed action) :
    world.ClosesOwn action := by
  cases action with
  | readerEnds call =>
      intro gate attachment isReader isThere lost
      obtain ⟨seated, stepped⟩ := kept.readerEnds_eq isReader isThere lost
      have tells := tells_ended isThere seated
      by_cases live : attachment.live = true
      · rw [if_pos live]
        rw [stepped] at set
        apply kept.own_of_gateSet tells set isThere
        · rw [lookup_ended, if_pos rfl]
        · exact ⟨rfl, rfl, rfl, rfl, Or.inr ⟨rfl, seated⟩⟩
        · exact live
        · rfl
      · rw [if_neg live]
        intro conn isConn addr
        obtain ⟨other, holder, isHolder, lease, isAddr⟩ := kept.own_of_conn isConn
        obtain ⟨isGate, alive, _⟩ := kept.routed isHolder lease
        have apart : other ≠ call := by
          intro same
          rw [same, isThere, Option.some.injEq] at isHolder
          rw [isHolder] at live
          exact live alive
        have isAfter : (world.step (.readerEnds call)).attachments.lookup other = some holder := by
          rw [stepped, (attachments_detachGate _ _).1, lookup_ended, if_neg apart]
          exact isHolder
        have stays := (undisturbed rfl other holder isHolder isAfter alive isGate lease).gate
        have found : (world.ended call attachment).porch.routes.gate.bind
            (world.ended call attachment).porch.gates.lookup = some conn := isConn
        rw [stepped, ← addr, detachGate_of_conn found] at stays
        cases stays
  | detachGate gateAddr =>
      intro call attachment isThere live seated addr
      apply kept.own_of_gateSet (tells_told world gateAddr) set isThere (lookup_told isThere)
      · exact ends_told attachment gateAddr
      · exact live
      · rw [if_pos]
        · simp [Attachment.live]
        · rw [seated, addr, beq_self_eq_true]
          rfl
  | _ => trivial

/-- The gate's part of the set is right in every state of a run, and no close or detach takes
anything from another connection, exactly when every connection closes its own. -/
theorem gates_kept_iff (actions : List GateAction) :
    (Throughout step GateSet (new : PorchGates F) actions ∧
      Guarded step Undisturbed (new : PorchGates F) actions) ↔
    Guarded step ClosesOwn (new : PorchGates F) actions := by
  have preserved : ∀ (world : PorchGates F) action, Kept world → world.ClosesOwn action →
      Kept (world.step action) := fun _ action kept closes => kept_step kept action closes
  have exact_ : ∀ (world : PorchGates F) (inputs : List GateAction), Kept world →
      Throughout step GateSet world inputs → Guarded step Undisturbed world inputs →
        Guarded step ClosesOwn world inputs := by
    intro world inputs kept set undisturbed
    induction inputs generalizing world with
    | nil => trivial
    | cons action rest ih =>
        have onward := (throughout_cons.mp set).2
        have closes := closesOwn_of_gateSet kept action (onward [] List.nil_prefix) undisturbed.1
        exact ⟨closes, ih _ (kept_step kept action closes) onward undisturbed.2⟩
  constructor
  · rintro ⟨set, undisturbed⟩
    exact exact_ _ actions kept_new set undisturbed
  · intro closes
    constructor
    · intro front inside
      exact (guarded_throughout preserved kept_new closes front inside).gateSet
    · exact guarded_imp preserved (fun _ action kept closes => undisturbed_step kept action closes)
        kept_new closes

end Runs

/-! ### A second gate is attached before the first one closes -/

/-- Two connections are attached one after the other, and the first is lost. -/
def attachedTwice (first second : UInt8) : List GateAction :=
  [.porch (.connects 0 (Porch.gateAddr first)), .porch (.connects 1 (Porch.gateAddr second)),
    .attachGate 0 0, .seat 0, .porch (.attachNext 0 0),
    .attachGate 1 1, .seat 1, .porch (.attachNext 1 0), .porch (.gateLost 0)]

/-- At two addresses, that of the first one stays in the set when it closes. At one, its reader
detaches the second, which is alive. -/
theorem attached_twice :
    let orphaned := run step (new : PorchGates Nat) (attachedTwice 1 2 ++ [.readerEnds 0])
    let before := run step (new : PorchGates Nat) (attachedTwice 1 1)
    orphaned.allowedSources.contains (Porch.gateAddr 1) = true ∧
      (orphaned.attachments.values.all fun attachment =>
        !attachment.live || attachment.addr != Porch.gateAddr 1) = true ∧
      orphaned.leaving = [] ∧ ¬GateSet orphaned ∧
      before.porch.alive 1 = true ∧ before.porch.routes.gate = some 1 ∧
      (before.step (.readerEnds 0)).porch.routes.gate = none ∧
      ¬before.Undisturbed (.readerEnds 0) := by
  intro orphaned before
  have cut : (before.step (.readerEnds 0)).porch.routes.gate = none := by decide
  refine ⟨by decide, by decide, by decide, ?_, by decide,
    by decide, cut, ?_⟩
  · intro set
    have leases := set.leases 0 ⟨0, Porch.gateAddr 1, 0, true, true, false⟩ (by decide)
    have held : orphaned.allowedSources.byLease.lookup 0 = some [Porch.gateAddr 1] := by
      decide
    rw [held, if_neg (by decide)] at leases
    cases leases
  · intro undisturbed
    have stays := undisturbed rfl 1 ⟨1, Porch.gateAddr 1, 1, true, false, false⟩
      (by decide) (by decide) rfl (by decide) (by decide)
    have gate := stays.gate
    rw [cut] at gate
    cases gate

end PorchGates

end Mosschat.Net
