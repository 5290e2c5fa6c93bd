/-!
Owns links kept in two places at once: a table that gives every link its ends, and the
parties that stand for an end and hold the link. A removal takes several moves, with
other moves between any two of them. Owns what the two places then still agree on.

Does not own how a party is found, or who makes the moves.
-/

namespace Mosschat.Library

universe u v w

/-- The two places, and what the moves still under way are to do to them. -/
structure Links (κ : Type u) (ρ : Type v) (σ : Type w) where
  /-- The party stands for the end. -/
  slot : κ → ρ → Prop
  /-- The party holds the link. -/
  holds : ρ → σ → Prop
  /-- The table has the link, with this for one of its ends. -/
  joins : σ → κ → Prop
  /-- Somebody may yet take the party from the end. -/
  torn : κ → ρ → Prop
  /-- A party was taken from the end, and the link is to leave the table for it. -/
  doomed : κ → σ → Prop
  /-- The link left the table, and is to leave the parties of the end. -/
  orphaned : κ → σ → Prop
  /-- The link came into the table, and the party of the end is to hold it. -/
  noting : σ → κ → ρ → Prop

namespace Links

variable {κ : Type u} {ρ : Type v} {σ : Type w}

/-- What the two places agree on while moves are under way. -/
structure Consistent (links : Links κ ρ σ) : Prop where
  slotKey : ∀ key other party, links.slot key party → links.slot other party → key = other
  tornKey : ∀ key other party, links.torn key party → links.slot other party → key = other
  sole : ∀ key link party other, links.slot key party → links.slot key other →
    links.holds party link → links.holds other link → party = other
  joined : ∀ key link party, links.slot key party → links.holds party link →
    links.orphaned key link ∨ links.joins link key
  listed : ∀ key link, links.joins link key →
    links.doomed key link ∨ (∃ party, links.noting link key party) ∨
      ∃ party, links.slot key party ∧ links.holds party link
  doomed : ∀ key link other, links.doomed key link → links.joins link other →
    links.joins link key ∧ ∀ party, links.slot key party → ¬links.holds party link
  orphaned : ∀ key link other, links.orphaned key link → ¬links.joins link other
  torn : ∀ key link other party, links.torn key party → links.holds party link →
    links.joins link other → links.slot key party ∨ links.doomed key link
  noting : ∀ link key party, links.noting link key party →
    links.joins link key ∧ links.slot key party ∧
      (∀ other, links.slot key other → ¬links.holds other link) ∧
      ∀ other, ¬links.doomed other link
  notingSole : ∀ link key party other, links.noting link key party →
    links.noting link key other → party = other

/-! ## The moves -/

/-- Nothing moves, but a party that stands for an end may come to be torn. -/
structure Idle (before after : Links κ ρ σ) : Prop where
  slot : ∀ key party, after.slot key party ↔ before.slot key party
  holds : ∀ party link, after.holds party link ↔ before.holds party link
  joins : ∀ link key, after.joins link key ↔ before.joins link key
  torn : ∀ key party, after.torn key party → before.torn key party ∨ before.slot key party
  doomed : ∀ key link, after.doomed key link ↔ before.doomed key link
  orphaned : ∀ key link, after.orphaned key link ↔ before.orphaned key link
  noting : ∀ link key party, after.noting link key party ↔ before.noting link key party

/-- A new party comes, and stands for the end where it is `seated`. -/
structure Seat (before after : Links κ ρ σ) (fresh : ρ) (seat : κ) (seated : Prop) :
    Prop where
  unslotted : ∀ key, ¬before.slot key fresh
  untorn : ∀ key, ¬before.torn key fresh
  slot : ∀ key party, after.slot key party ↔
    before.slot key party ∨ (seated ∧ key = seat ∧ party = fresh)
  holds : ∀ party link, after.holds party link ↔ before.holds party link ∧ party ≠ fresh
  joins : ∀ link key, after.joins link key ↔ before.joins link key
  torn : ∀ key party, after.torn key party →
    before.torn key party ∨ (key = seat ∧ party = fresh)
  doomed : ∀ key link, after.doomed key link ↔ before.doomed key link
  orphaned : ∀ key link, after.orphaned key link ↔ before.orphaned key link
  noting : ∀ link key party, after.noting link key party ↔ before.noting link key party

/-- A party is taken from its end. -/
structure Unlist (before after : Links κ ρ σ) (gone : ρ) (seat : κ) : Prop where
  mayTear : before.torn seat gone
  settled : ∀ link key party, ¬before.noting link key party
  slot : ∀ key party, after.slot key party ↔
    before.slot key party ∧ ¬(key = seat ∧ party = gone)
  holds : ∀ party link, after.holds party link ↔ before.holds party link
  joins : ∀ link key, after.joins link key ↔ before.joins link key
  torn : ∀ key party, after.torn key party → before.torn key party
  doomed : ∀ key link, after.doomed key link ↔
    before.doomed key link ∨ (key = seat ∧ before.holds gone link)
  orphaned : ∀ key link, after.orphaned key link ↔ before.orphaned key link
  noting : ∀ link key party, after.noting link key party ↔ before.noting link key party

/-- Doomed links leave the table for one end, and are orphans at the other. -/
structure Remove (before after : Links κ ρ σ) (seat : κ) (removed : σ → Prop) : Prop where
  wasDoomed : ∀ link, removed link → before.doomed seat link
  slot : ∀ key party, after.slot key party ↔ before.slot key party
  holds : ∀ party link, after.holds party link ↔ before.holds party link
  joins : ∀ link key, after.joins link key ↔ before.joins link key ∧ ¬removed link
  torn : ∀ key party, after.torn key party → before.torn key party
  doomed : ∀ key link, after.doomed key link → before.doomed key link
  stays : ∀ key link, before.doomed key link → removed link ∨ after.doomed key link
  orphaned : ∀ key link, after.orphaned key link → before.orphaned key link ∨ removed link
  remains : ∀ key link, before.orphaned key link → after.orphaned key link
  orphans : ∀ key link, removed link → before.joins link key → key ≠ seat →
    after.orphaned key link
  noting : ∀ link key party, after.noting link key party ↔ before.noting link key party

/-- Orphans leave the parties of their ends. -/
structure Clear (before after : Links κ ρ σ) (cleared : κ → σ → Prop) : Prop where
  wasOrphaned : ∀ key link, cleared key link → before.orphaned key link
  slot : ∀ key party, after.slot key party ↔ before.slot key party
  holds : ∀ party link, after.holds party link ↔
    before.holds party link ∧ ¬∃ key, before.slot key party ∧ cleared key link
  joins : ∀ link key, after.joins link key ↔ before.joins link key
  torn : ∀ key party, after.torn key party → before.torn key party
  doomed : ∀ key link, after.doomed key link ↔ before.doomed key link
  orphaned : ∀ key link, after.orphaned key link → before.orphaned key link
  remains : ∀ key link, before.orphaned key link → cleared key link ∨ after.orphaned key link
  noting : ∀ link key party, after.noting link key party ↔ before.noting link key party

/-- A link that nothing names comes into the table. -/
structure Create (before after : Links κ ρ σ) (fresh : σ) (left right : κ)
    (leftParty rightParty : ρ) : Prop where
  free : ∀ key, ¬before.joins fresh key
  undoomed : ∀ key, ¬before.doomed key fresh
  unorphaned : ∀ key, ¬before.orphaned key fresh
  unheld : ∀ key party, before.torn key party → ¬before.holds party fresh
  leftSlot : before.slot left leftParty
  rightSlot : before.slot right rightParty
  oneParty : left = right → leftParty = rightParty
  slot : ∀ key party, after.slot key party ↔ before.slot key party
  holds : ∀ party link, after.holds party link ↔ before.holds party link
  joins : ∀ link key, after.joins link key ↔
    before.joins link key ∨ (link = fresh ∧ (key = left ∨ key = right))
  torn : ∀ key party, after.torn key party → before.torn key party
  doomed : ∀ key link, after.doomed key link ↔ before.doomed key link
  orphaned : ∀ key link, after.orphaned key link ↔ before.orphaned key link
  noting : ∀ link key party, after.noting link key party ↔
    before.noting link key party ∨
      (link = fresh ∧ ((key = left ∧ party = leftParty) ∨ (key = right ∧ party = rightParty)))

/-- The parties of a new link come to hold it. -/
structure Note (before after : Links κ ρ σ) (noted : σ) : Prop where
  slot : ∀ key party, after.slot key party ↔ before.slot key party
  holds : ∀ party link, after.holds party link ↔
    before.holds party link ∨ (link = noted ∧ ∃ key, before.noting noted key party)
  joins : ∀ link key, after.joins link key ↔ before.joins link key
  torn : ∀ key party, after.torn key party → before.torn key party
  doomed : ∀ key link, after.doomed key link ↔ before.doomed key link
  orphaned : ∀ key link, after.orphaned key link ↔ before.orphaned key link
  noting : ∀ link key party, after.noting link key party ↔
    before.noting link key party ∧ link ≠ noted

/-- One move. -/
inductive Move (before after : Links κ ρ σ) : Prop where
  | idle (move : Idle before after)
  | seat (fresh : ρ) (seat : κ) (seated : Prop) (move : Seat before after fresh seat seated)
  | unlist (gone : ρ) (seat : κ) (move : Unlist before after gone seat)
  | remove (seat : κ) (removed : σ → Prop) (move : Remove before after seat removed)
  | clear (cleared : κ → σ → Prop) (move : Clear before after cleared)
  | create (fresh : σ) (left right : κ) (leftParty rightParty : ρ)
      (move : Create before after fresh left right leftParty rightParty)
  | note (noted : σ) (move : Note before after noted)

variable {before after : Links κ ρ σ}

/-- A doomed link stays doomed until it leaves the table. -/
theorem Move.doomed_or (move : Move before after) {key : κ} {link : σ}
    (isDoomed : before.doomed key link) :
    after.doomed key link ∨ ∀ other, ¬after.joins link other := by
  cases move with
  | idle move => exact Or.inl ((move.doomed key link).mpr isDoomed)
  | seat _ _ _ move => exact Or.inl ((move.doomed key link).mpr isDoomed)
  | unlist _ _ move => exact Or.inl ((move.doomed key link).mpr (Or.inl isDoomed))
  | remove _ removed move =>
      rcases move.stays key link isDoomed with isRemoved | still
      · right
        intro other isJoined
        exact ((move.joins link other).mp isJoined).2 isRemoved
      · exact Or.inl still
  | clear _ move => exact Or.inl ((move.doomed key link).mpr isDoomed)
  | create _ _ _ _ _ move => exact Or.inl ((move.doomed key link).mpr isDoomed)
  | note _ move => exact Or.inl ((move.doomed key link).mpr isDoomed)

/-- A party that may be torn holds a link for as long as the table has it. -/
theorem Move.holds_of_joins (move : Move before after) (links : Consistent before) {key other : κ}
    {party : ρ} {link : σ} (isTorn : before.torn key party) (held : before.holds party link)
    (isJoined : after.joins link other) : after.holds party link := by
  cases move with
  | idle move => exact (move.holds party link).mpr held
  | seat fresh _ _ move =>
      apply (move.holds party link).mpr
      refine ⟨held, ?_⟩
      intro isFresh
      rw [isFresh] at isTorn
      exact move.untorn key isTorn
  | unlist _ _ move => exact (move.holds party link).mpr held
  | remove _ _ move => exact (move.holds party link).mpr held
  | clear cleared move =>
      apply (move.holds party link).mpr
      refine ⟨held, ?_⟩
      rintro ⟨seat, _, isCleared⟩
      have isOrphan := move.wasOrphaned seat link isCleared
      exact links.orphaned seat link other isOrphan ((move.joins link other).mp isJoined)
  | create _ _ _ _ _ move => exact (move.holds party link).mpr held
  | note _ move => exact (move.holds party link).mpr (Or.inl held)

/-! ## What every move keeps -/

theorem Consistent.idle (links : Consistent before) (move : Idle before after) :
    Consistent after := by
  constructor
  · intro key other party here there
    rw [move.slot] at here there
    exact links.slotKey key other party here there
  · intro key other party isTorn there
    rw [move.slot] at there
    rcases move.torn key party isTorn with before | here
    · exact links.tornKey key other party before there
    · exact links.slotKey key other party here there
  · intro key link party other here there held alsoHeld
    rw [move.slot] at here there
    rw [move.holds] at held alsoHeld
    exact links.sole key link party other here there held alsoHeld
  · intro key link party here held
    rw [move.slot] at here
    rw [move.holds] at held
    rw [move.orphaned, move.joins]
    exact links.joined key link party here held
  · intro key link isJoined
    rw [move.joins] at isJoined
    simp only [move.doomed, move.noting, move.slot, move.holds]
    exact links.listed key link isJoined
  · intro key link other isDoomed isJoined
    rw [move.doomed] at isDoomed
    rw [move.joins] at isJoined
    simp only [move.joins, move.slot, move.holds]
    exact links.doomed key link other isDoomed isJoined
  · intro key link other isOrphan
    rw [move.orphaned] at isOrphan
    rw [move.joins]
    exact links.orphaned key link other isOrphan
  · intro key link other party isTorn held isJoined
    rw [move.holds] at held
    rw [move.joins] at isJoined
    rw [move.slot, move.doomed]
    rcases move.torn key party isTorn with before | here
    · exact links.torn key link other party before held isJoined
    · exact Or.inl here
  · intro link key party isNoting
    rw [move.noting] at isNoting
    simp only [move.joins, move.slot, move.holds, move.doomed]
    exact links.noting link key party isNoting
  · intro link key party other isNoting alsoNoting
    rw [move.noting] at isNoting alsoNoting
    exact links.notingSole link key party other isNoting alsoNoting

theorem Consistent.seat (links : Consistent before) {fresh : ρ} {seat : κ} {seated : Prop}
    (move : Seat before after fresh seat seated) : Consistent after := by
  have old : ∀ key party, after.slot key party → party ≠ fresh → before.slot key party := by
    intro key party here isOld
    rcases (move.slot key party).mp here with before | ⟨_, _, isFresh⟩
    · exact before
    · exact absurd isFresh isOld
  have atSeat : ∀ key, after.slot key fresh → key = seat := by
    intro key here
    rcases (move.slot key fresh).mp here with before | ⟨_, isSeat, _⟩
    · exact absurd before (move.unslotted key)
    · exact isSeat
  have held : ∀ key party link, after.slot key party → after.holds party link →
      before.slot key party ∧ before.holds party link := by
    intro key party link here isHeld
    have both := (move.holds party link).mp isHeld
    exact ⟨old key party here both.2, both.1⟩
  constructor
  · intro key other party here there
    by_cases isFresh : party = fresh
    · rw [isFresh] at here there
      rw [atSeat key here, atSeat other there]
    · exact links.slotKey key other party (old key party here isFresh)
        (old other party there isFresh)
  · intro key other party isTorn there
    rcases move.torn key party isTorn with before | ⟨isSeat, isFresh⟩
    · have isOld : party ≠ fresh := by
        intro isFresh
        rw [isFresh] at before
        exact move.untorn key before
      exact links.tornKey key other party before (old other party there isOld)
    · rw [isFresh] at there
      rw [isSeat, atSeat other there]
  · intro key link party other here there isHeld alsoHeld
    have left := held key party link here isHeld
    have right := held key other link there alsoHeld
    exact links.sole key link party other left.1 right.1 left.2 right.2
  · intro key link party here isHeld
    have left := held key party link here isHeld
    rw [move.orphaned, move.joins]
    exact links.joined key link party left.1 left.2
  · intro key link isJoined
    rw [move.joins] at isJoined
    simp only [move.doomed, move.noting, move.slot, move.holds]
    rcases links.listed key link isJoined with isDoomed | isNoting | ⟨party, here, isHeld⟩
    · exact Or.inl isDoomed
    · exact Or.inr (Or.inl isNoting)
    · right
      right
      refine ⟨party, Or.inl here, isHeld, ?_⟩
      intro isFresh
      rw [isFresh] at here
      exact move.unslotted key here
  · intro key link other isDoomed isJoined
    rw [move.doomed] at isDoomed
    rw [move.joins] at isJoined
    have before := links.doomed key link other isDoomed isJoined
    rw [move.joins]
    refine ⟨before.1, ?_⟩
    intro party here isHeld
    have left := held key party link here isHeld
    exact before.2 party left.1 left.2
  · intro key link other isOrphan
    rw [move.orphaned] at isOrphan
    rw [move.joins]
    exact links.orphaned key link other isOrphan
  · intro key link other party isTorn isHeld isJoined
    rw [move.joins] at isJoined
    rw [move.doomed]
    have both := (move.holds party link).mp isHeld
    rcases move.torn key party isTorn with before | ⟨_, isFresh⟩
    · rcases links.torn key link other party before both.1 isJoined with here | isDoomed
      · exact Or.inl ((move.slot key party).mpr (Or.inl here))
      · exact Or.inr isDoomed
    · exact absurd isFresh both.2
  · intro link key party isNoting
    rw [move.noting] at isNoting
    obtain ⟨isJoined, here, unheld, undoomed⟩ := links.noting link key party isNoting
    rw [move.joins]
    refine ⟨isJoined, (move.slot key party).mpr (Or.inl here), ?_, ?_⟩
    · intro other there alsoHeld
      have left := held key other link there alsoHeld
      exact unheld other left.1 left.2
    · intro other
      rw [move.doomed]
      exact undoomed other
  · intro link key party other isNoting alsoNoting
    rw [move.noting] at isNoting alsoNoting
    exact links.notingSole link key party other isNoting alsoNoting

theorem Consistent.unlist (links : Consistent before) {gone : ρ} {seat : κ}
    (move : Unlist before after gone seat) : Consistent after := by
  have old : ∀ key party, after.slot key party → before.slot key party := by
    intro key party here
    exact ((move.slot key party).mp here).1
  constructor
  · intro key other party here there
    exact links.slotKey key other party (old key party here) (old other party there)
  · intro key other party isTorn there
    exact links.tornKey key other party (move.torn key party isTorn) (old other party there)
  · intro key link party other here there held alsoHeld
    rw [move.holds] at held alsoHeld
    exact links.sole key link party other (old key party here) (old key other there) held alsoHeld
  · intro key link party here held
    rw [move.holds] at held
    rw [move.orphaned, move.joins]
    exact links.joined key link party (old key party here) held
  · intro key link isJoined
    rw [move.joins] at isJoined
    rw [move.doomed]
    rcases links.listed key link isJoined with isDoomed | ⟨party, isNoting⟩ | ⟨party, here, held⟩
    · exact Or.inl (Or.inl isDoomed)
    · exact absurd isNoting (move.settled link key party)
    · by_cases isGone : key = seat ∧ party = gone
      · rw [isGone.2] at held
        exact Or.inl (Or.inr ⟨isGone.1, held⟩)
      · right
        right
        exact ⟨party, (move.slot key party).mpr ⟨here, isGone⟩, (move.holds party link).mpr held⟩
  · intro key link other isDoomed isJoined
    rw [move.joins] at isJoined
    rw [move.doomed] at isDoomed
    have settled : before.doomed key link →
        before.joins link key ∧ ∀ party, before.slot key party → ¬before.holds party link := by
      intro already
      exact links.doomed key link other already isJoined
    rw [move.joins]
    by_cases already : before.doomed key link
    · refine ⟨(settled already).1, ?_⟩
      intro party here held
      rw [move.holds] at held
      exact (settled already).2 party (old key party here) held
    · rcases isDoomed with isDoomed | ⟨isSeat, held⟩
      · exact absurd isDoomed already
      · rw [isSeat] at already ⊢
        -- the party was still listed, or its sessions would be doomed already
        rcases links.torn seat link other gone move.mayTear held isJoined with listed | isDoomed
        · rcases links.joined seat link gone listed held with isOrphan | joinsSeat
          · exact absurd isJoined (links.orphaned seat link other isOrphan)
          · refine ⟨joinsSeat, ?_⟩
            intro party here alsoHeld
            rw [move.holds] at alsoHeld
            have both := (move.slot seat party).mp here
            have isGone := links.sole seat link party gone both.1 listed alsoHeld held
            exact both.2 ⟨rfl, isGone⟩
        · exact absurd isDoomed already
  · intro key link other isOrphan
    rw [move.orphaned] at isOrphan
    rw [move.joins]
    exact links.orphaned key link other isOrphan
  · intro key link other party isTorn held isJoined
    have wasTorn := move.torn key party isTorn
    rw [move.holds] at held
    rw [move.joins] at isJoined
    rw [move.doomed, move.slot]
    rcases links.torn key link other party wasTorn held isJoined with here | isDoomed
    · by_cases isGone : key = seat ∧ party = gone
      · rw [isGone.2] at held
        exact Or.inr (Or.inr ⟨isGone.1, held⟩)
      · exact Or.inl ⟨here, isGone⟩
    · exact Or.inr (Or.inl isDoomed)
  · intro link key party isNoting
    rw [move.noting] at isNoting
    exact absurd isNoting (move.settled link key party)
  · intro link key party other isNoting alsoNoting
    rw [move.noting] at isNoting alsoNoting
    exact links.notingSole link key party other isNoting alsoNoting

theorem Consistent.remove (links : Consistent before) {seat : κ} {removed : σ → Prop}
    (move : Remove before after seat removed) : Consistent after := by
  constructor
  · intro key other party here there
    rw [move.slot] at here there
    exact links.slotKey key other party here there
  · intro key other party isTorn there
    rw [move.slot] at there
    exact links.tornKey key other party (move.torn key party isTorn) there
  · intro key link party other here there held alsoHeld
    rw [move.slot] at here there
    rw [move.holds] at held alsoHeld
    exact links.sole key link party other here there held alsoHeld
  · intro key link party here held
    rw [move.slot] at here
    rw [move.holds] at held
    rcases links.joined key link party here held with isOrphan | isJoined
    · exact Or.inl (move.remains key link isOrphan)
    · by_cases isRemoved : removed link
      · left
        apply move.orphans key link isRemoved isJoined
        -- at the end it is removed for, nobody listed holds it
        intro isSeat
        rw [isSeat] at here
        exact (links.doomed seat link key (move.wasDoomed link isRemoved) isJoined).2 party here held
      · exact Or.inr ((move.joins link key).mpr ⟨isJoined, isRemoved⟩)
  · intro key link isJoined
    have both := (move.joins link key).mp isJoined
    simp only [move.noting, move.slot, move.holds]
    rcases links.listed key link both.1 with isDoomed | others
    · rcases move.stays key link isDoomed with isRemoved | still
      · exact absurd isRemoved both.2
      · exact Or.inl still
    · exact Or.inr others
  · intro key link other isDoomed isJoined
    have both := (move.joins link other).mp isJoined
    have wasDoomed := move.doomed key link isDoomed
    have before := links.doomed key link other wasDoomed both.1
    simp only [move.slot, move.holds]
    exact ⟨(move.joins link key).mpr ⟨before.1, both.2⟩, before.2⟩
  · intro key link other isOrphan isJoined
    have both := (move.joins link other).mp isJoined
    rcases move.orphaned key link isOrphan with before | isRemoved
    · exact links.orphaned key link other before both.1
    · exact both.2 isRemoved
  · intro key link other party isTorn held isJoined
    rw [move.holds] at held
    have both := (move.joins link other).mp isJoined
    rw [move.slot]
    rcases links.torn key link other party (move.torn key party isTorn) held both.1 with
      here | isDoomed
    · exact Or.inl here
    · rcases move.stays key link isDoomed with isRemoved | still
      · exact absurd isRemoved both.2
      · exact Or.inr still
  · intro link key party isNoting
    rw [move.noting] at isNoting
    obtain ⟨isJoined, here, unheld, undoomed⟩ := links.noting link key party isNoting
    simp only [move.slot, move.holds]
    refine ⟨(move.joins link key).mpr ⟨isJoined, ?_⟩, here, unheld, ?_⟩
    · intro isRemoved
      exact undoomed seat (move.wasDoomed link isRemoved)
    · intro other isDoomed
      exact undoomed other (move.doomed other link isDoomed)
  · intro link key party other isNoting alsoNoting
    rw [move.noting] at isNoting alsoNoting
    exact links.notingSole link key party other isNoting alsoNoting

theorem Consistent.clear (links : Consistent before) {cleared : κ → σ → Prop}
    (move : Clear before after cleared) : Consistent after := by
  have old : ∀ party link, after.holds party link → before.holds party link := by
    intro party link held
    exact ((move.holds party link).mp held).1
  constructor
  · intro key other party here there
    rw [move.slot] at here there
    exact links.slotKey key other party here there
  · intro key other party isTorn there
    rw [move.slot] at there
    exact links.tornKey key other party (move.torn key party isTorn) there
  · intro key link party other here there held alsoHeld
    rw [move.slot] at here there
    exact links.sole key link party other here there (old party link held) (old other link alsoHeld)
  · intro key link party here held
    rw [move.slot] at here
    rw [move.joins]
    have both := (move.holds party link).mp held
    rcases links.joined key link party here both.1 with isOrphan | isJoined
    · rcases move.remains key link isOrphan with isCleared | still
      · exact absurd ⟨key, here, isCleared⟩ both.2
      · exact Or.inl still
    · exact Or.inr isJoined
  · intro key link isJoined
    rw [move.joins] at isJoined
    simp only [move.doomed, move.noting, move.slot]
    rcases links.listed key link isJoined with isDoomed | isNoting | ⟨party, here, held⟩
    · exact Or.inl isDoomed
    · exact Or.inr (Or.inl isNoting)
    · right
      right
      refine ⟨party, here, (move.holds party link).mpr ⟨held, ?_⟩⟩
      -- what is cleared is in the table no more
      rintro ⟨other, _, isCleared⟩
      exact links.orphaned other link key (move.wasOrphaned other link isCleared) isJoined
  · intro key link other isDoomed isJoined
    rw [move.doomed] at isDoomed
    rw [move.joins] at isJoined
    have before := links.doomed key link other isDoomed isJoined
    simp only [move.joins, move.slot]
    refine ⟨before.1, ?_⟩
    intro party here held
    exact before.2 party here (old party link held)
  · intro key link other isOrphan
    rw [move.joins]
    exact links.orphaned key link other (move.orphaned key link isOrphan)
  · intro key link other party isTorn held isJoined
    rw [move.joins] at isJoined
    rw [move.slot, move.doomed]
    exact links.torn key link other party (move.torn key party isTorn) (old party link held)
      isJoined
  · intro link key party isNoting
    rw [move.noting] at isNoting
    obtain ⟨isJoined, here, unheld, undoomed⟩ := links.noting link key party isNoting
    simp only [move.joins, move.slot, move.doomed]
    refine ⟨isJoined, here, ?_, undoomed⟩
    intro other there held
    exact unheld other there (old other link held)
  · intro link key party other isNoting alsoNoting
    rw [move.noting] at isNoting alsoNoting
    exact links.notingSole link key party other isNoting alsoNoting

theorem Consistent.create (links : Consistent before) {fresh : σ} {left right : κ}
    {leftParty rightParty : ρ}
    (move : Create before after fresh left right leftParty rightParty) : Consistent after := by
  have unlisted : ∀ key party, before.slot key party → ¬before.holds party fresh := by
    intro key party here held
    rcases links.joined key fresh party here held with isOrphan | isJoined
    · exact move.unorphaned key isOrphan
    · exact move.free key isJoined
  have old : ∀ link key, after.joins link key → link ≠ fresh → before.joins link key := by
    intro link key isJoined isOld
    rcases (move.joins link key).mp isJoined with before | ⟨isFresh, _⟩
    · exact before
    · exact absurd isFresh isOld
  have settled : ∀ link key party, before.noting link key party → link ≠ fresh := by
    intro link key party isNoting isFresh
    have isJoined := (links.noting link key party isNoting).1
    rw [isFresh] at isJoined
    exact move.free key isJoined
  constructor
  · intro key other party here there
    rw [move.slot] at here there
    exact links.slotKey key other party here there
  · intro key other party isTorn there
    rw [move.slot] at there
    exact links.tornKey key other party (move.torn key party isTorn) there
  · intro key link party other here there held alsoHeld
    rw [move.slot] at here there
    rw [move.holds] at held alsoHeld
    exact links.sole key link party other here there held alsoHeld
  · intro key link party here held
    rw [move.slot] at here
    rw [move.holds] at held
    rw [move.orphaned, move.joins]
    rcases links.joined key link party here held with isOrphan | isJoined
    · exact Or.inl isOrphan
    · exact Or.inr (Or.inl isJoined)
  · intro key link isJoined
    simp only [move.doomed, move.noting, move.slot, move.holds]
    rcases (move.joins link key).mp isJoined with before | ⟨isFresh, isLeft | isRight⟩
    · rcases links.listed key link before with isDoomed | ⟨party, isNoting⟩ | held
      · exact Or.inl isDoomed
      · exact Or.inr (Or.inl ⟨party, Or.inl isNoting⟩)
      · exact Or.inr (Or.inr held)
    · exact Or.inr (Or.inl ⟨leftParty, Or.inr ⟨isFresh, Or.inl ⟨isLeft, rfl⟩⟩⟩)
    · exact Or.inr (Or.inl ⟨rightParty, Or.inr ⟨isFresh, Or.inr ⟨isRight, rfl⟩⟩⟩)
  · intro key link other isDoomed isJoined
    rw [move.doomed] at isDoomed
    have isOld : link ≠ fresh := by
      intro isFresh
      rw [isFresh] at isDoomed
      exact move.undoomed key isDoomed
    have before := links.doomed key link other isDoomed (old link other isJoined isOld)
    simp only [move.slot, move.holds]
    exact ⟨(move.joins link key).mpr (Or.inl before.1), before.2⟩
  · intro key link other isOrphan isJoined
    rw [move.orphaned] at isOrphan
    have isOld : link ≠ fresh := by
      intro isFresh
      rw [isFresh] at isOrphan
      exact move.unorphaned key isOrphan
    exact links.orphaned key link other isOrphan (old link other isJoined isOld)
  · intro key link other party isTorn held isJoined
    have wasTorn := move.torn key party isTorn
    rw [move.holds] at held
    have isOld : link ≠ fresh := by
      intro isFresh
      rw [isFresh] at held
      exact move.unheld key party wasTorn held
    rw [move.slot, move.doomed]
    exact links.torn key link other party wasTorn held (old link other isJoined isOld)
  · intro link key party isNoting
    simp only [move.slot, move.holds, move.doomed]
    rcases (move.noting link key party).mp isNoting with before | ⟨isFresh, atEnd⟩
    · obtain ⟨isJoined, others⟩ := links.noting link key party before
      exact ⟨(move.joins link key).mpr (Or.inl isJoined), others⟩
    · rw [isFresh, move.joins]
      have isEnd : key = left ∨ key = right := by
        rcases atEnd with ⟨isLeft, _⟩ | ⟨isRight, _⟩
        · exact Or.inl isLeft
        · exact Or.inr isRight
      have here : before.slot key party := by
        rcases atEnd with ⟨isLeft, isParty⟩ | ⟨isRight, isParty⟩
        · rw [isLeft, isParty]
          exact move.leftSlot
        · rw [isRight, isParty]
          exact move.rightSlot
      exact ⟨Or.inr ⟨rfl, isEnd⟩, here, unlisted key, move.undoomed⟩
  · intro link key party other isNoting alsoNoting
    rcases (move.noting link key party).mp isNoting with before | ⟨isFresh, atEnd⟩
    · rcases (move.noting link key other).mp alsoNoting with alsoBefore | ⟨isFresh, _⟩
      · exact links.notingSole link key party other before alsoBefore
      · exact absurd isFresh (settled link key party before)
    · rcases (move.noting link key other).mp alsoNoting with alsoBefore | ⟨_, alsoAtEnd⟩
      · exact absurd isFresh (settled link key other alsoBefore)
      · rcases atEnd with ⟨isLeft, isParty⟩ | ⟨isRight, isParty⟩
        · rcases alsoAtEnd with ⟨_, isOther⟩ | ⟨isRight, isOther⟩
          · rw [isParty, isOther]
          · rw [isParty, isOther]
            exact move.oneParty (isLeft.symm.trans isRight)
        · rcases alsoAtEnd with ⟨isLeft, isOther⟩ | ⟨_, isOther⟩
          · rw [isParty, isOther]
            exact (move.oneParty (isLeft.symm.trans isRight)).symm
          · rw [isParty, isOther]

theorem Consistent.note (links : Consistent before) {noted : σ} (move : Note before after noted) :
    Consistent after := by
  -- a listed party that holds a link held it, or just came to
  have held : ∀ key party link, before.slot key party → after.holds party link →
      before.holds party link ∨ (link = noted ∧ before.noting noted key party) := by
    intro key party link here isHeld
    rcases (move.holds party link).mp isHeld with before | ⟨isNoted, other, isNoting⟩
    · exact Or.inl before
    · have there := (links.noting noted other party isNoting).2.1
      have isKey := links.slotKey key other party here there
      rw [← isKey] at isNoting
      exact Or.inr ⟨isNoted, isNoting⟩
  constructor
  · intro key other party here there
    rw [move.slot] at here there
    exact links.slotKey key other party here there
  · intro key other party isTorn there
    rw [move.slot] at there
    exact links.tornKey key other party (move.torn key party isTorn) there
  · intro key link party other here there isHeld alsoHeld
    rw [move.slot] at here there
    rcases held key party link here isHeld with before | ⟨isNoted, isNoting⟩
    · rcases held key other link there alsoHeld with alsoBefore | ⟨isNoted, alsoNoting⟩
      · exact links.sole key link party other here there before alsoBefore
      · rw [isNoted] at before
        exact absurd before ((links.noting noted key other alsoNoting).2.2.1 party here)
    · rcases held key other link there alsoHeld with alsoBefore | ⟨_, alsoNoting⟩
      · rw [isNoted] at alsoBefore
        exact absurd alsoBefore ((links.noting noted key party isNoting).2.2.1 other there)
      · exact links.notingSole noted key party other isNoting alsoNoting
  · intro key link party here isHeld
    rw [move.slot] at here
    rw [move.orphaned, move.joins]
    rcases held key party link here isHeld with before | ⟨isNoted, isNoting⟩
    · exact links.joined key link party here before
    · rw [isNoted]
      exact Or.inr (links.noting noted key party isNoting).1
  · intro key link isJoined
    rw [move.joins] at isJoined
    simp only [move.doomed, move.noting, move.slot, move.holds]
    rcases links.listed key link isJoined with isDoomed | ⟨party, isNoting⟩ | ⟨party, here, isHeld⟩
    · exact Or.inl isDoomed
    · right
      by_cases isNoted : link = noted
      · right
        rw [isNoted] at isNoting
        have here := (links.noting noted key party isNoting).2.1
        exact ⟨party, here, Or.inr ⟨isNoted, key, isNoting⟩⟩
      · exact Or.inl ⟨party, isNoting, isNoted⟩
    · exact Or.inr (Or.inr ⟨party, here, Or.inl isHeld⟩)
  · intro key link other isDoomed isJoined
    rw [move.doomed] at isDoomed
    rw [move.joins] at isJoined
    have before := links.doomed key link other isDoomed isJoined
    simp only [move.joins, move.slot]
    refine ⟨before.1, ?_⟩
    intro party here isHeld
    rcases held key party link here isHeld with alreadyHeld | ⟨isNoted, isNoting⟩
    · exact before.2 party here alreadyHeld
    · rw [isNoted] at isDoomed
      exact (links.noting noted key party isNoting).2.2.2 key isDoomed
  · intro key link other isOrphan
    rw [move.orphaned] at isOrphan
    rw [move.joins]
    exact links.orphaned key link other isOrphan
  · intro key link other party isTorn isHeld isJoined
    have wasTorn := move.torn key party isTorn
    rw [move.joins] at isJoined
    rw [move.slot, move.doomed]
    rcases (move.holds party link).mp isHeld with before | ⟨_, there, isNoting⟩
    · exact links.torn key link other party wasTorn before isJoined
    · have slotted := (links.noting noted there party isNoting).2.1
      rw [links.tornKey key there party wasTorn slotted]
      exact Or.inl slotted
  · intro link key party isNoting
    have both := (move.noting link key party).mp isNoting
    obtain ⟨isJoined, here, unheld, undoomed⟩ := links.noting link key party both.1
    simp only [move.joins, move.slot, move.doomed]
    refine ⟨isJoined, here, ?_, undoomed⟩
    intro other there isHeld
    rcases held key other link there isHeld with before | ⟨isNoted, _⟩
    · exact unheld other there before
    · exact both.2 isNoted
  · intro link key party other isNoting alsoNoting
    rw [move.noting] at isNoting alsoNoting
    exact links.notingSole link key party other isNoting.1 alsoNoting.1

/-- Every move keeps what the two places agree on. -/
theorem Consistent.move (links : Consistent before) (move : Move before after) :
    Consistent after := by
  cases move with
  | idle move => exact links.idle move
  | seat _ _ _ move => exact links.seat move
  | unlist _ _ move => exact links.unlist move
  | remove _ _ move => exact links.remove move
  | clear _ move => exact links.clear move
  | create _ _ _ _ _ move => exact links.create move
  | note _ move => exact links.note move

/-! ## Where no move is under way -/

/-- Both ends of a link in the table are held, where none is still to be put there or
taken out. -/
theorem Consistent.held (links : Consistent before)
    (undoomed : ∀ key link, ¬before.doomed key link)
    (unnoted : ∀ link key party, ¬before.noting link key party) {link : σ} {key : κ}
    (isJoined : before.joins link key) :
    ∃ party, before.slot key party ∧ before.holds party link := by
  rcases links.listed key link isJoined with isDoomed | ⟨party, isNoting⟩ | held
  · exact absurd isDoomed (undoomed key link)
  · exact absurd isNoting (unnoted link key party)
  · exact held

/-- What is held is in the table, where nothing is still to leave the parties. -/
theorem Consistent.inTable (links : Consistent before)
    (unorphaned : ∀ key link, ¬before.orphaned key link) {link : σ} {key : κ} {party : ρ}
    (here : before.slot key party) (isHeld : before.holds party link) :
    before.joins link key :=
  (links.joined key link party here isHeld).resolve_left (unorphaned key link)

end Links

end Mosschat.Library
