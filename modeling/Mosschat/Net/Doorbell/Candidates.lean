import Mathlib.Data.List.Induction
import Mosschat.Net.Doorbell.Attempt

/-!
Owns which addresses an attempt of the doorbell ever probes: the table holds few, pairwise
distinct addresses, each of them fit to be probed, and what a peer names of its own network
enters only where the attempt vouched for it before.

Does not own when an address is probed.
-/

namespace Mosschat.Net

open Mosschat.Core Mosschat.Library Mosschat.Library.Machine Mosschat.Net.Gate

/-- The address names something on this machine or inside its own network. -/
def IpAddr.isLocal : IpAddr → Bool
  | .v4 octets =>
    (IpAddr.v4 octets).isLoopback || IpAddr.isPrivateV4 octets || IpAddr.isLinkLocalV4 octets
  | .v6 octets =>
    (IpAddr.v6 octets).isLoopback || IpAddr.isLinkLocalV6 octets || IpAddr.isUniqueLocalV6 octets

/-- An address a probe may be aimed at. -/
structure Aimable (addr : SocketAddr) : Prop where
  unmapped : unmapV4 addr = addr
  port : addr.port ≠ 0 ∧ addr.port ≠ 1
  specified : addr.ip.isUnspecified = false
  unicast : addr.ip.isMulticast = false
  notBroadcast : addr.ip.isBroadcast = false

/-- The call hands on what a peer sent. -/
def AttemptCall.fromPeer : AttemptCall → Bool
  | .addPeerCandidates _ | .onPong .. => true
  | _ => false

/-- The call vouches for the address, in either spelling. -/
def AttemptCall.Vouches (addr : SocketAddr) (call : AttemptCall) : Prop :=
  ∃ spelling, (call = .vouch spelling ∨ call = .addDiscovered spelling) ∧ unmapV4 spelling = addr

theorem aimable_of_isProbeable {addr : SocketAddr} (unmapped : unmapV4 addr = addr)
    (probeable : isProbeable addr = true) : Aimable addr := by
  obtain ⟨ip, port⟩ := addr
  unfold isProbeable at probeable
  split at probeable
  · cases probeable
  · next notReserved =>
      rw [Bool.or_eq_true, beq_iff_eq, beq_iff_eq, not_or] at notReserved
      cases ip with
      | v4 octets =>
          simp only [Bool.and_eq_true, Bool.not_eq_true'] at probeable
          exact ⟨unmapped, notReserved, probeable.1.1, probeable.2, probeable.1.2⟩
      | v6 octets =>
          simp only [Bool.and_eq_true, Bool.not_eq_true'] at probeable
          exact ⟨unmapped, notReserved, probeable.1, probeable.2, rfl⟩

/-- What the wider internet could have routed is none of this house's own network. -/
theorem not_isLocal_of_isGloballyRoutable {addr : SocketAddr}
    (routable : isGloballyRoutable addr = true) : addr.ip.isLocal = false := by
  obtain ⟨ip, port⟩ := addr
  cases ip with
  | v4 octets =>
      simp only [isGloballyRoutable, Bool.and_eq_true, Bool.not_eq_true'] at routable
      simp only [IpAddr.isLocal, Bool.or_eq_false_iff]
      exact ⟨⟨routable.1.1.1.1.1, routable.1.1.1.2⟩, routable.1.1.1.1.2⟩
  | v6 octets =>
      simp only [isGloballyRoutable, Bool.and_eq_true, Bool.not_eq_true'] at routable
      simp only [IpAddr.isLocal, Bool.or_eq_false_iff]
      exact ⟨⟨routable.1.1.1.1, routable.1.2⟩, routable.2⟩

namespace Attempt

/-- The addresses of the table, each with the source it is from. -/
def table (attempt : Attempt) : List (SocketAddr × CandidateSource) :=
  attempt.candidates.map fun candidate => (candidate.addr, candidate.source)

/-- The addresses under probe. -/
def addrs (attempt : Attempt) : List SocketAddr := attempt.candidates.map Candidate.addr

/-- An attempt after its calls. -/
def after (id : Bytes16) (gateReflectedPeer : Option SocketAddr) (calls : List AttemptCall) :
    Attempt :=
  run step (new id gateReflectedPeer) calls

/-! ## What a call adds to the table -/

/-- The candidates that joined are few enough, new, fit to be probed, and where the peer
named them vetted. -/
structure Joined (before : Attempt) (more : List (SocketAddr × CandidateSource))
    (next : Attempt) : Prop where
  table : next.table = before.table ++ more
  few : before.candidates.length ≤ maxCandidates → next.candidates.length ≤ maxCandidates
  distinct : before.addrs.Nodup → next.addrs.Nodup
  fit : ∀ entry ∈ more, unmapV4 entry.1 = entry.1 ∧ isProbeable entry.1 = true
  vetted : ∀ entry ∈ more, entry.2 = .peerReported →
    isGloballyRoutable entry.1 = true ∨ entry.1 ∈ before.vouched

theorem addrs_eq (attempt : Attempt) : attempt.addrs = attempt.table.map Prod.fst := by
  rw [addrs, table, List.map_map]
  rfl

theorem length_candidates (attempt : Attempt) :
    attempt.candidates.length = attempt.table.length := (List.length_map _).symm

/-- A call that keeps the addresses and their sources adds nothing. -/
theorem Joined.none {before next : Attempt} (same : next.table = before.table) :
    Joined before [] next where
  table := by rw [same, List.append_nil]
  few := by
    rw [length_candidates, length_candidates, same]
    exact fun few => few
  distinct := by
    rw [addrs_eq, addrs_eq, same]
    exact fun distinct => distinct
  fit := nofun
  vetted := nofun

theorem addCandidate_cases (attempt : Attempt) (addr : SocketAddr) (source : CandidateSource) :
    attempt.addCandidate addr source = (attempt, false) ∨
      attempt.candidates.length < maxCandidates ∧ isProbeable (unmapV4 addr) = true ∧
        unmapV4 addr ∉ attempt.addrs ∧
        (source = .peerReported →
          isGloballyRoutable (unmapV4 addr) = true ∨ unmapV4 addr ∈ attempt.vouched) ∧
        attempt.addCandidate addr source =
          ({ attempt with
              candidates := attempt.candidates ++ [Candidate.fresh (unmapV4 addr) source] },
            true) := by
  unfold addCandidate
  simp only
  split
  · exact Or.inl rfl
  next open_ =>
    split
    · exact Or.inl rfl
    next admissible =>
      right
      simp only [Bool.or_eq_true, not_or, decide_eq_true_eq, Bool.not_eq_true',
        Bool.not_eq_false, List.any_eq_true, beq_iff_eq, not_exists, not_and] at open_
      refine ⟨Nat.lt_of_not_le open_.1.1, open_.1.2, ?_, ?_, rfl⟩
      · intro known
        obtain ⟨candidate, member, same⟩ := List.mem_map.mp known
        exact open_.2 candidate member same
      · intro named
        simp only [named, beq_self_eq_true, Bool.true_and, Bool.and_eq_true, Bool.not_eq_true',
          not_and, Bool.not_eq_false, List.contains_iff_mem] at admissible
        cases routable : isGloballyRoutable (unmapV4 addr) with
        | true => exact Or.inl rfl
        | false => exact Or.inr (admissible routable)

theorem joined_addCandidate (attempt : Attempt) (addr : SocketAddr) (source : CandidateSource) :
    (attempt.addCandidate addr source).1.vouched = attempt.vouched ∧
      ∃ more, Joined attempt more (attempt.addCandidate addr source).1 ∧
        ∀ entry ∈ more, entry.2 = source := by
  rcases addCandidate_cases attempt addr source with same | ⟨room, probeable, new, vetted, pushed⟩
  · rw [same]
    exact ⟨rfl, [], Joined.none rfl, nofun⟩
  · rw [pushed]
    refine ⟨rfl, [(unmapV4 addr, source)], ?_, ?_⟩
    · constructor
      · exact List.map_append
      · intro _
        rw [List.length_append, List.length_singleton]
        exact room
      · intro distinct
        show (List.map _ (_ ++ _)).Nodup
        rw [List.map_append, List.nodup_append]
        refine ⟨distinct, List.nodup_singleton _, ?_⟩
        intro old member other isNew same
        rw [List.map_singleton, List.mem_singleton] at isNew
        exact new (by rw [← show other = unmapV4 addr from isNew, ← same]; exact member)
      · intro entry member
        rw [List.mem_singleton.mp member]
        exact ⟨unmapV4_unmapV4 addr, probeable⟩
      · intro entry member named
        rw [List.mem_singleton.mp member] at named ⊢
        exact vetted named
    · intro entry member
      rw [List.mem_singleton.mp member]

/-- What two calls add, one after the other, where the first vouches for nothing. -/
theorem Joined.trans {before between next : Attempt}
    {first second : List (SocketAddr × CandidateSource)} (joined : Joined before first between)
    (later : Joined between second next) (vouched : between.vouched = before.vouched) :
    Joined before (first ++ second) next where
  table := by rw [later.table, joined.table, List.append_assoc]
  few := fun few => later.few (joined.few few)
  distinct := fun distinct => later.distinct (joined.distinct distinct)
  fit := by
    intro entry member
    rcases List.mem_append.mp member with old | new
    · exact joined.fit entry old
    · exact later.fit entry new
  vetted := by
    intro entry member named
    rcases List.mem_append.mp member with old | new
    · exact joined.vetted entry old named
    · rw [← vouched]
      exact later.vetted entry new named

theorem joined_addPeerCandidates (attempt : Attempt) (addrs : List Addr) :
    (attempt.addPeerCandidates addrs).1.vouched = attempt.vouched ∧
      ∃ more, Joined attempt more (attempt.addPeerCandidates addrs).1 ∧
        ∀ entry ∈ more, entry.2 = .peerReported := by
  induction addrs generalizing attempt with
  | nil => exact ⟨rfl, [], Joined.none rfl, nofun⟩
  | cons addr rest ih =>
      rw [addPeerCandidates]
      cases addr.toSocketAddr with
      | none => exact ih attempt
      | some addr =>
          obtain ⟨vouched, first, joined, named⟩ :=
            joined_addCandidate attempt addr .peerReported
          obtain ⟨laterVouched, second, later, laterNamed⟩ :=
            ih (attempt.addCandidate addr .peerReported).1
          refine ⟨laterVouched.trans vouched, first ++ second, joined.trans later vouched, ?_⟩
          intro entry member
          rcases List.mem_append.mp member with old | new
          · exact named entry old
          · exact laterNamed entry new

theorem table_vouch (attempt : Attempt) (addr : SocketAddr) :
    (attempt.vouch addr).table = attempt.table := by
  unfold vouch
  simp only
  split <;> rfl

theorem joined_addDiscovered (attempt : Attempt) (addr : SocketAddr) :
    ∃ more, Joined attempt more (attempt.addDiscovered addr).1 ∧
      ∀ entry ∈ more, entry.2 = .discovery := by
  have same := table_vouch attempt addr
  unfold addDiscovered
  simp only
  split
  · exact ⟨[], Joined.none same, nofun⟩
  · obtain ⟨-, more, joined, found⟩ :=
      joined_addCandidate (attempt.vouch addr) addr .discovery
    have fromStart : Joined attempt more ((attempt.vouch addr).addCandidate addr .discovery).1 :=
      { table := by rw [joined.table, same]
        few := by
          have few := joined.few
          rw [length_candidates, same, ← length_candidates] at few
          exact few
        distinct := by
          have distinct := joined.distinct
          rw [addrs_eq, same, ← addrs_eq] at distinct
          exact distinct
        fit := joined.fit
        vetted := by
          intro entry member named
          rw [found entry member] at named
          cases named }
    refine ⟨more, ?_, found⟩
    split
    · exact ⟨fromStart.table, fromStart.few, fromStart.distinct, fromStart.fit, fromStart.vetted⟩
    · exact fromStart

theorem table_probeEach (id : Bytes16) (now interval : Nat) (txIds : Nat → TxId) (drawn : Nat)
    (candidates : List Candidate) :
    (probeEach id now interval txIds drawn candidates).1.map (fun candidate =>
        (candidate.addr, candidate.source)) =
      candidates.map fun candidate => (candidate.addr, candidate.source) := by
  induction candidates generalizing drawn with
  | nil => rfl
  | cons candidate rest ih =>
      rw [probeEach]
      split
      · rw [List.map_cons, List.map_cons, ih]
      · rw [List.map_cons, List.map_cons, ih, Candidate.pinged_addr,
          Candidate.pinged_source]

theorem table_dueProbes (attempt : Attempt) (now : Nat) (txIds : Nat → TxId) :
    (attempt.dueProbes now txIds).1.table = attempt.table := by
  unfold dueProbes
  cases attempt.fireAt with
  | none => rfl
  | some fireAt =>
      simp only
      split
      · rfl
      · split
        · exact List.map_map
        · exact table_probeEach _ _ _ _ _ _

theorem table_onPong (attempt : Attempt) (source : SocketAddr) (pong : Probe) (now : Nat) :
    (attempt.onPong source pong now).1.table = attempt.table := by
  unfold onPong
  split
  · rfl
  · show List.map _ (List.map _ _) = _
    rw [List.map_map]
    apply List.map_congr_left
    intro candidate _
    show ((candidate.answer source pong.tx now).1.addr,
      (candidate.answer source pong.tx now).1.source) = _
    rw [Candidate.answer_addr, Candidate.answer_source]

theorem table_decide (attempt : Attempt) : attempt.decide.1.table = attempt.table := by
  unfold Attempt.decide
  split
  · rfl
  · split <;> rfl

/-- What any call adds to the table. -/
theorem joined_step (attempt : Attempt) (call : AttemptCall) :
    ∃ more, Joined attempt more (attempt.step call) ∧
      (call.fromPeer → ∀ entry ∈ more, entry.2 = .peerReported) := by
  cases call with
  | addCandidate addr source =>
      obtain ⟨-, more, joined, -⟩ := joined_addCandidate attempt addr source
      exact ⟨more, joined, nofun⟩
  | addDiscovered addr =>
      obtain ⟨more, joined, -⟩ := joined_addDiscovered attempt addr
      exact ⟨more, joined, nofun⟩
  | addPeerCandidates addrs =>
      obtain ⟨-, more, joined, named⟩ := joined_addPeerCandidates attempt addrs
      exact ⟨more, joined, fun _ => named⟩
  | vouch addr => exact ⟨[], Joined.none (table_vouch attempt addr), fun _ => nofun⟩
  | startSignalReceived receivedAt => exact ⟨[], Joined.none rfl, fun _ => nofun⟩
  | dueProbes now txIds => exact ⟨[], Joined.none (table_dueProbes attempt now txIds), fun _ => nofun⟩
  | onPong source pong now =>
      exact ⟨[], Joined.none (table_onPong attempt source pong now), fun _ => nofun⟩
  | decide => exact ⟨[], Joined.none (table_decide attempt), fun _ => nofun⟩
  | pathFailed => exact ⟨[], Joined.none rfl, fun _ => nofun⟩

/-! ## What a call vouches for -/

theorem vouched_dueProbes (attempt : Attempt) (now : Nat) (txIds : Nat → TxId) :
    (attempt.dueProbes now txIds).1.vouched = attempt.vouched := by
  unfold dueProbes
  cases attempt.fireAt with
  | none => rfl
  | some fireAt =>
      simp only
      split
      · rfl
      · split <;> rfl

theorem vouched_onPong (attempt : Attempt) (source : SocketAddr) (pong : Probe) (now : Nat) :
    (attempt.onPong source pong now).1.vouched = attempt.vouched := by
  unfold onPong
  split <;> rfl

theorem vouched_decide (attempt : Attempt) : attempt.decide.1.vouched = attempt.vouched := by
  unfold Attempt.decide
  split
  · rfl
  · split <;> rfl

theorem mem_vouch {attempt : Attempt} {addr vouched : SocketAddr}
    (member : vouched ∈ (attempt.vouch addr).vouched) :
    vouched ∈ attempt.vouched ∨ vouched = unmapV4 addr := by
  unfold vouch at member
  simp only at member
  split at member
  · exact Or.inl member
  · exact (List.mem_append.mp member).imp_right List.mem_singleton.mp

theorem vouched_addDiscovered (attempt : Attempt) (addr : SocketAddr) :
    (attempt.addDiscovered addr).1.vouched = (attempt.vouch addr).vouched := by
  unfold addDiscovered
  simp only
  split
  · rfl
  · have same := (joined_addCandidate (attempt.vouch addr) addr .discovery).1
    split
    · exact same
    · exact same

/-- Only what is discovered or vouched for by name joins the vouched addresses. -/
theorem vouched_step {attempt : Attempt} {call : AttemptCall} {addr : SocketAddr}
    (member : addr ∈ (attempt.step call).vouched) :
    addr ∈ attempt.vouched ∨ call.Vouches addr := by
  cases call with
  | addCandidate added source =>
      exact Or.inl ((joined_addCandidate attempt added source).1 ▸ member)
  | addDiscovered spelling =>
      rw [step, vouched_addDiscovered] at member
      exact (mem_vouch member).imp_right fun same => ⟨spelling, Or.inr rfl, same.symm⟩
  | vouch spelling =>
      exact (mem_vouch member).imp_right fun same => ⟨spelling, Or.inl rfl, same.symm⟩
  | addPeerCandidates addrs =>
      exact Or.inl ((joined_addPeerCandidates attempt addrs).1 ▸ member)
  | startSignalReceived receivedAt => exact Or.inl member
  | dueProbes now txIds => exact Or.inl (vouched_dueProbes attempt now txIds ▸ member)
  | onPong source pong now => exact Or.inl (vouched_onPong attempt source pong now ▸ member)
  | decide => exact Or.inl (vouched_decide attempt ▸ member)
  | pathFailed => exact Or.inl member

/-! ## Runs -/

/-- The address a call of `add_discovered` adds. -/
def discovers (attempt : Attempt) : AttemptCall → List SocketAddr
  | .addDiscovered addr => if (attempt.addDiscovered addr).2 then [unmapV4 addr] else []
  | _ => []

section Runs

variable {id : Bytes16} {gateReflectedPeer : Option SocketAddr} {calls : List AttemptCall}

variable (id gateReflectedPeer calls) in
/-- The address joined the table at a call before which the gate had reflected it or the
attempt had vouched for it. -/
def VouchedBefore (addr : SocketAddr) : Prop :=
  ∃ front entry rest, calls = front ++ entry :: rest ∧
    addr ∉ (after id gateReflectedPeer front).addrs ∧
    addr ∈ (after id gateReflectedPeer (front ++ [entry])).addrs ∧
    (gateReflectedPeer.map unmapV4 = some addr ∨ ∃ call ∈ front, call.Vouches addr)

theorem VouchedBefore.append {addr : SocketAddr}
    (vouched : VouchedBefore id gateReflectedPeer calls addr) (more : List AttemptCall) :
    VouchedBefore id gateReflectedPeer (calls ++ more) addr := by
  obtain ⟨front, entry, rest, rfl, joined⟩ := vouched
  exact ⟨front, entry, rest ++ more, by rw [List.append_assoc, List.cons_append], joined⟩

theorem after_concat (call : AttemptCall) :
    after id gateReflectedPeer (calls ++ [call]) = (after id gateReflectedPeer calls).step call :=
  run_concat _ _ _

/-- What is vouched for was reflected by the gate or vouched for in a call. -/
theorem vouched_after {addr : SocketAddr}
    (member : addr ∈ (after id gateReflectedPeer calls).vouched) :
    gateReflectedPeer.map unmapV4 = some addr ∨ ∃ call ∈ calls, call.Vouches addr := by
  induction calls using List.reverseRecOn with
  | nil => exact Or.inl (Option.mem_toList.mp member)
  | append_singleton calls call ih =>
      rw [after_concat] at member
      rcases vouched_step member with before | vouches
      · rcases ih before with reflected | ⟨earlier, isCall, vouches⟩
        · exact Or.inl reflected
        · exact Or.inr ⟨earlier, List.mem_append_left _ isCall, vouches⟩
      · exact Or.inr ⟨call, List.mem_append_right _ (List.mem_singleton_self call), vouches⟩

variable (id gateReflectedPeer calls) in
/-- What an attempt's table keeps to, whatever it is told. -/
structure Vetted : Prop where
  few : (after id gateReflectedPeer calls).candidates.length ≤ maxCandidates
  distinct : (after id gateReflectedPeer calls).addrs.Nodup
  fit : ∀ entry ∈ (after id gateReflectedPeer calls).table,
    unmapV4 entry.1 = entry.1 ∧ isProbeable entry.1 = true
  named : ∀ entry ∈ (after id gateReflectedPeer calls).table, entry.2 = .peerReported →
    isGloballyRoutable entry.1 = true ∨ VouchedBefore id gateReflectedPeer calls entry.1

theorem vetted_after (id : Bytes16) (gateReflectedPeer : Option SocketAddr)
    (calls : List AttemptCall) : Vetted id gateReflectedPeer calls := by
  induction calls using List.reverseRecOn with
  | nil => exact ⟨Nat.zero_le _, List.nodup_nil, nofun, nofun⟩
  | append_singleton calls call ih =>
      obtain ⟨more, joined, -⟩ := joined_step (after id gateReflectedPeer calls) call
      have isAfter : after id gateReflectedPeer (calls ++ [call]) =
          (after id gateReflectedPeer calls).step call := after_concat call
      have distinct := joined.distinct ih.distinct
      constructor
      · rw [isAfter]
        exact joined.few ih.few
      · rw [isAfter]
        exact distinct
      · intro entry member
        rw [isAfter, joined.table] at member
        rcases List.mem_append.mp member with old | new
        · exact ih.fit entry old
        · exact joined.fit entry new
      · intro entry member named
        rw [isAfter, joined.table] at member
        rcases List.mem_append.mp member with old | new
        · exact (ih.named entry old named).imp_right fun vouched =>
            vouched.append [call]
        · refine (joined.vetted entry new named).imp_right fun vouched => ?_
          rw [addrs_eq, joined.table, List.map_append, List.nodup_append, ← addrs_eq] at distinct
          refine ⟨calls, call, [], rfl, ?_, ?_, vouched_after vouched⟩
          · intro known
            exact distinct.2.2 _ known _ (List.mem_map_of_mem new) rfl
          · rw [isAfter, addrs_eq, joined.table]
            exact List.mem_map_of_mem (List.mem_append_right _ new)

theorem mem_probeEach {id : Bytes16} {now interval : Nat} {txIds : Nat → TxId} {drawn : Nat}
    {candidates : List Candidate} {probe : SocketAddr × Probe}
    (sent : probe ∈ (probeEach id now interval txIds drawn candidates).2) :
    probe.1 ∈ candidates.map Candidate.addr := by
  induction candidates generalizing drawn with
  | nil => cases sent
  | cons candidate rest ih =>
      rw [probeEach] at sent
      split at sent
      · exact List.mem_cons_of_mem _ (ih sent)
      · rcases List.mem_cons.mp sent with here | later
        · rw [here]
          exact List.mem_cons_self
        · exact List.mem_cons_of_mem _ (ih later)

/-- A probe is aimed at a candidate. -/
theorem mem_sends {attempt : Attempt} {call : AttemptCall} {probe : SocketAddr × Probe}
    (sent : probe ∈ attempt.sends call) : probe.1 ∈ attempt.addrs := by
  cases call with
  | dueProbes now txIds =>
      unfold sends dueProbes at sent
      cases isFire : attempt.fireAt with
      | none =>
          rw [isFire] at sent
          cases sent
      | some fireAt =>
          rw [isFire] at sent
          simp only at sent
          split at sent
          · cases sent
          · split at sent
            · cases sent
            · exact mem_probeEach sent
  | _ => cases sent

theorem sourceOf_eq (attempt : Attempt) (addr : SocketAddr) :
    attempt.sourceOf addr =
      (attempt.table.find? fun entry => entry.1 == addr).map Prod.snd := by
  rw [sourceOf, table, List.find?_map, Option.map_map]
  rfl

theorem mem_table_of_sourceOf {attempt : Attempt} {addr : SocketAddr} {source : CandidateSource}
    (isSource : attempt.sourceOf addr = some source) : (addr, source) ∈ attempt.table := by
  rw [sourceOf_eq, Option.map_eq_some_iff] at isSource
  obtain ⟨entry, found, isSource⟩ := isSource
  have isAddr := List.find?_some found
  rw [beq_iff_eq] at isAddr
  rw [← isAddr, ← isSource]
  exact List.mem_of_find?_eq_some found

theorem slots_addCandidate (attempt : Attempt) (addr : SocketAddr) (source : CandidateSource) :
    (attempt.addCandidate addr source).1.discoveryCandidates = attempt.discoveryCandidates := by
  rcases addCandidate_cases attempt addr source with same | ⟨-, -, -, -, pushed⟩
  · rw [same]
  · rw [pushed]

theorem slots_addPeerCandidates (attempt : Attempt) (addrs : List Addr) :
    (attempt.addPeerCandidates addrs).1.discoveryCandidates = attempt.discoveryCandidates := by
  induction addrs generalizing attempt with
  | nil => rfl
  | cons addr rest ih =>
      rw [addPeerCandidates]
      cases addr.toSocketAddr with
      | none => exact ih attempt
      | some addr => exact (ih _).trans (slots_addCandidate attempt addr _)

theorem slots_addDiscovered (attempt : Attempt) (addr : SocketAddr) :
    (attempt.addDiscovered addr).1.discoveryCandidates =
        attempt.discoveryCandidates + (attempt.discovers (.addDiscovered addr)).length ∧
      (attempt.discoveryCandidates ≤ discoveryCandidateSlots →
        (attempt.addDiscovered addr).1.discoveryCandidates ≤ discoveryCandidateSlots) := by
  have same : (attempt.vouch addr).discoveryCandidates = attempt.discoveryCandidates := by
    unfold vouch
    simp only
    split <;> rfl
  have added := (slots_addCandidate (attempt.vouch addr) addr .discovery).trans same
  unfold discovers addDiscovered
  simp only [same]
  split
  · exact ⟨same, fun slots => same ▸ slots⟩
  next free =>
    split
    · show _ + 1 = _ + 1 ∧ (_ → _ + 1 ≤ _)
      rw [added]
      exact ⟨rfl, fun _ => Nat.lt_of_not_le free⟩
    · exact ⟨added, fun slots => added ▸ slots⟩

/-- The slots discovery took are those its calls filled, and no more than it has. -/
theorem slots_step (attempt : Attempt) (call : AttemptCall) :
    (attempt.step call).discoveryCandidates =
        attempt.discoveryCandidates + (attempt.discovers call).length ∧
      (attempt.discoveryCandidates ≤ discoveryCandidateSlots →
        (attempt.step call).discoveryCandidates ≤ discoveryCandidateSlots) := by
  have kept : ∀ next : Attempt, next.discoveryCandidates = attempt.discoveryCandidates →
      next.discoveryCandidates = attempt.discoveryCandidates + 0 ∧
        (attempt.discoveryCandidates ≤ discoveryCandidateSlots →
          next.discoveryCandidates ≤ discoveryCandidateSlots) := by
    intro next same
    exact ⟨same, fun slots => same ▸ slots⟩
  cases call with
  | addDiscovered addr => exact slots_addDiscovered attempt addr
  | addCandidate addr source => exact kept _ (slots_addCandidate attempt addr source)
  | addPeerCandidates addrs => exact kept _ (slots_addPeerCandidates attempt addrs)
  | vouch addr =>
      apply kept
      show (attempt.vouch addr).discoveryCandidates = _
      unfold vouch
      simp only
      split <;> rfl
  | startSignalReceived receivedAt => exact kept _ rfl
  | dueProbes now txIds =>
      apply kept
      show (attempt.dueProbes now txIds).1.discoveryCandidates = _
      unfold dueProbes
      cases attempt.fireAt with
      | none => rfl
      | some fireAt =>
          simp only
          split
          · rfl
          · split <;> rfl
  | onPong source pong now =>
      apply kept
      show (attempt.onPong source pong now).1.discoveryCandidates = _
      unfold onPong
      split <;> rfl
  | decide =>
      apply kept
      show attempt.decide.1.discoveryCandidates = _
      unfold Attempt.decide
      split
      · rfl
      · split <;> rfl
  | pathFailed => exact kept _ rfl

theorem discovered_slots (id : Bytes16) (gateReflectedPeer : Option SocketAddr)
    (calls : List AttemptCall) :
    (outputs step discovers (new id gateReflectedPeer) calls).length ≤
      discoveryCandidateSlots := by
  have tells : ∀ (attempt : Attempt) call (seen : List SocketAddr),
      attempt.discoveryCandidates = seen.length ∧
          attempt.discoveryCandidates ≤ discoveryCandidateSlots →
        (attempt.step call).discoveryCandidates = (seen ++ attempt.discovers call).length ∧
          (attempt.step call).discoveryCandidates ≤ discoveryCandidateSlots := by
    intro attempt call seen told
    have stepped := slots_step attempt call
    rw [List.length_append, ← told.1]
    exact ⟨stepped.1, stepped.2 told.2⟩
  have initial : (new id gateReflectedPeer).discoveryCandidates = ([] : List SocketAddr).length ∧
      (new id gateReflectedPeer).discoveryCandidates ≤ discoveryCandidateSlots :=
    ⟨rfl, Nat.zero_le _⟩
  have told := outputs_track tells initial calls
  rw [List.nil_append] at told
  exact told.1 ▸ told.2

end Runs

/-- Whatever is added to an attempt and in whatever order, its probes are aimed at addresses
fit for them, of its own network only where the attempt had vouched for them; its candidates
are few and distinct; and what a peer sends vouches for nothing and names no other source. -/
theorem candidates_safe (id : Bytes16) (gateReflectedPeer : Option SocketAddr)
    (calls : List AttemptCall) :
    (∀ call, ∀ probe ∈ (after id gateReflectedPeer calls).sends call, Aimable probe.1 ∧
        ((after id gateReflectedPeer calls).sourceOf probe.1 = some .peerReported →
          probe.1.ip.isLocal = false ∨ VouchedBefore id gateReflectedPeer calls probe.1)) ∧
      (after id gateReflectedPeer calls).candidates.length ≤ maxCandidates ∧
      (after id gateReflectedPeer calls).addrs.Nodup ∧
      (outputs step discovers (new id gateReflectedPeer) calls).length ≤ discoveryCandidateSlots ∧
      ∀ call : AttemptCall, call.fromPeer →
        ((after id gateReflectedPeer calls).step call).vouched =
            (after id gateReflectedPeer calls).vouched ∧
          ∀ addr source, ((after id gateReflectedPeer calls).step call).sourceOf addr =
              some source →
            (after id gateReflectedPeer calls).sourceOf addr = some source ∨
              source = .peerReported := by
  have vetted := vetted_after id gateReflectedPeer calls
  refine ⟨?_, vetted.few, vetted.distinct, ?_, ?_⟩
  · intro call probe sent
    have member := mem_sends sent
    rw [addrs_eq] at member
    obtain ⟨entry, isEntry, isAddr⟩ := List.mem_map.mp member
    have fit := vetted.fit entry isEntry
    rw [isAddr] at fit
    refine ⟨aimable_of_isProbeable fit.1 fit.2, ?_⟩
    intro isSource
    exact (vetted.named _ (mem_table_of_sourceOf isSource) rfl).imp_left
      not_isLocal_of_isGloballyRoutable
  · exact discovered_slots id gateReflectedPeer calls
  · intro call fromPeer
    obtain ⟨more, joined, named⟩ := joined_step (after id gateReflectedPeer calls) call
    constructor
    · cases call with
      | addPeerCandidates addrs => exact (joined_addPeerCandidates _ addrs).1
      | onPong source pong now => exact vouched_onPong _ source pong now
      | _ => cases fromPeer
    · intro addr source isSource
      rw [sourceOf_eq, joined.table, List.find?_append] at isSource
      rw [sourceOf_eq]
      cases found : (after id gateReflectedPeer calls).table.find? fun entry => entry.1 == addr with
      | some entry =>
          rw [found] at isSource
          exact Or.inl isSource
      | none =>
          rw [found, Option.none_or, Option.map_eq_some_iff] at isSource
          obtain ⟨entry, isNew, isSource⟩ := isSource
          right
          rw [← isSource]
          exact named fromPeer entry (List.mem_of_find?_eq_some isNew)

end Attempt

end Mosschat.Net
