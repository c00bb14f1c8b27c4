import Mathlib.Data.List.Nodup
import Mathlib.Data.Set.Function

/-!
# Hash chains

The entries of a log are numbered, and the hash of an entry covers the hash of the entry
before it, its number and its event.  What is appended leaves the entries before it as they
are, and two logs of one length that end in one hash have the same events, as far as the
hash distinguishes the texts that the two have hashed.
-/

namespace GoatCitadel.Support

/-- An entry of a chained log. -/
structure ChainEntry (ε δ : Type*) where
  sequence : Nat
  previousHash : δ
  entryHash : δ
  event : ε

section Chains

variable {ε τ δ : Type*} (hash : τ → δ) (text : δ → Nat → ε → τ)

/-- The entries of events, from a hash and a number on. -/
def chainFrom (previousHash : δ) (sequence : Nat) : List ε → List (ChainEntry ε δ)
  | [] => []
  | event :: events =>
      let entryHash := hash (text previousHash sequence event)
      ⟨sequence, previousHash, entryHash, event⟩ :: chainFrom entryHash (sequence + 1) events

/-- The hash of the last entry. -/
def chainHead (previousHash : δ) (sequence : Nat) : List ε → δ
  | [] => previousHash
  | event :: events => chainHead (hash (text previousHash sequence event)) (sequence + 1) events

/-- What is hashed. -/
def chainTexts (previousHash : δ) (sequence : Nat) : List ε → List τ
  | [] => []
  | event :: events =>
      text previousHash sequence event ::
        chainTexts (hash (text previousHash sequence event)) (sequence + 1) events

variable {hash text} {previousHash : δ} {sequence : Nat} {events more : List ε}

theorem chainHead_append :
    chainHead hash text previousHash sequence (events ++ more) =
      chainHead hash text (chainHead hash text previousHash sequence events)
        (sequence + events.length) more := by
  induction events generalizing previousHash sequence with
  | nil => rfl
  | cons event events ih =>
      rw [List.cons_append, chainHead, ih, List.length_cons, Nat.add_right_comm, Nat.add_assoc]
      rfl

theorem chainFrom_append :
    chainFrom hash text previousHash sequence (events ++ more) =
      chainFrom hash text previousHash sequence events ++
        chainFrom hash text (chainHead hash text previousHash sequence events)
          (sequence + events.length) more := by
  induction events generalizing previousHash sequence with
  | nil => rfl
  | cons event events ih =>
      rw [List.cons_append, chainFrom, ih, List.length_cons, Nat.add_right_comm, Nat.add_assoc]
      rfl

@[simp] theorem length_chainFrom :
    (chainFrom hash text previousHash sequence events).length = events.length := by
  induction events generalizing previousHash sequence with
  | nil => rfl
  | cons event events ih => rw [chainFrom, List.length_cons, ih, List.length_cons]

/-- What a chain is without its first entries. -/
theorem drop_chainFrom (count : Nat) :
    (chainFrom hash text previousHash sequence events).drop count =
      chainFrom hash text (chainHead hash text previousHash sequence (events.take count))
        (sequence + count) (events.drop count) := by
  induction events generalizing previousHash sequence count with
  | nil => rw [chainFrom, List.drop_nil, List.drop_nil, chainFrom]
  | cons event events ih =>
      cases count with
      | zero => rfl
      | succ count =>
          rw [chainFrom, List.drop_succ_cons, ih, List.drop_succ_cons, List.take_succ_cons,
            chainHead, Nat.add_right_comm, Nat.add_assoc]

/-- The numbers of a chain start at its first and go up. -/
theorem sequence_of_mem_chainFrom {entry : ChainEntry ε δ}
    (h : entry ∈ chainFrom hash text previousHash sequence events) :
    sequence ≤ entry.sequence ∧ entry.sequence < sequence + events.length := by
  induction events generalizing previousHash sequence with
  | nil => cases h
  | cons event events ih =>
      rw [List.length_cons]
      obtain rfl | hrest := List.mem_cons.mp h
      · exact ⟨le_rfl, Nat.lt_add_of_pos_right (Nat.succ_pos _)⟩
      · have hbounds := ih hrest
        omega

theorem map_sequence_chainFrom :
    (chainFrom hash text previousHash sequence events).map ChainEntry.sequence =
      List.range' sequence events.length := by
  induction events generalizing previousHash sequence with
  | nil => rfl
  | cons event events ih => rw [chainFrom, List.map_cons, ih, List.length_cons, List.range'_succ]

/-- A number is the number of one entry. -/
theorem eq_of_sequence_eq {entry other : ChainEntry ε δ}
    (h : entry ∈ chainFrom hash text previousHash sequence events)
    (h' : other ∈ chainFrom hash text previousHash sequence events)
    (hsame : entry.sequence = other.sequence) : entry = other := by
  refine List.inj_on_of_nodup_map ?_ h h' hsame
  rw [map_sequence_chainFrom]
  exact List.nodup_range'

/-- The entries after a number are what is left when as many are dropped. -/
theorem filter_chainFrom {count : Nat} :
    (chainFrom hash text previousHash sequence events).filter
        (fun entry => sequence + count ≤ entry.sequence) =
      (chainFrom hash text previousHash sequence events).drop count := by
  induction events generalizing previousHash sequence count with
  | nil => rw [chainFrom, List.filter_nil, List.drop_nil]
  | cons event events ih =>
      cases count with
      | zero =>
          rw [List.drop_zero, List.filter_eq_self]
          intro entry hentry
          exact decide_eq_true (sequence_of_mem_chainFrom hentry).1
      | succ count =>
          rw [chainFrom, List.drop_succ_cons, ← ih, List.filter_cons_of_neg]
          · simp only [Nat.add_right_comm sequence 1 count, Nat.add_assoc]
          · simp

/-- An entry continues the entry before it. -/
theorem isChain_chainFrom :
    (chainFrom hash text previousHash sequence events).IsChain fun entry next =>
      next.sequence = entry.sequence + 1 ∧ next.previousHash = entry.entryHash := by
  induction events generalizing previousHash sequence with
  | nil => exact .nil
  | cons event events ih =>
      cases events with
      | nil => exact .singleton _
      | cons next events => exact .cons_cons ⟨rfl, rfl⟩ ih

/-- The last entry has the last number and the hash of the chain. -/
theorem getLast?_chainFrom (h : events ≠ []) :
    ∃ entry, (chainFrom hash text previousHash sequence events).getLast? = some entry ∧
      entry.sequence + 1 = sequence + events.length ∧
      entry.entryHash = chainHead hash text previousHash sequence events := by
  induction events generalizing previousHash sequence with
  | nil => exact absurd rfl h
  | cons event events ih =>
      by_cases hlast : events = []
      · rw [hlast]
        exact ⟨_, rfl, rfl, rfl⟩
      · obtain ⟨entry, hentry, hsequence, hhash⟩ :=
          @ih (hash (text previousHash sequence event)) (sequence + 1) hlast
        refine ⟨entry, ?_, ?_, hhash⟩
        · rw [chainFrom, List.getLast?_cons, hentry]
          rfl
        · rw [hsequence, List.length_cons, Nat.add_right_comm, Nat.add_assoc]

/-- The hash of an entry covers what it carries. -/
theorem entryHash_of_mem_chainFrom {entry : ChainEntry ε δ}
    (h : entry ∈ chainFrom hash text previousHash sequence events) :
    entry.entryHash = hash (text entry.previousHash entry.sequence entry.event) := by
  induction events generalizing previousHash sequence with
  | nil => cases h
  | cons event events ih =>
      obtain rfl | hrest := List.mem_cons.mp h
      · rfl
      · exact ih hrest

/-- Logs of one length that end in one hash have the same events. -/
theorem forall₂_of_chainHead_eq {R : ε → ε → Prop} {previousHash' : δ} {events' : List ε}
    (hlength : events.length = events'.length)
    (htext : ∀ event ∈ events, ∀ event' ∈ events', ∀ previous previous' number,
      text previous number event = text previous' number event' →
        previous = previous' ∧ R event event')
    (hhash : Set.InjOn hash
      {t | t ∈ chainTexts hash text previousHash sequence events ∨
        t ∈ chainTexts hash text previousHash' sequence events'})
    (hhead : chainHead hash text previousHash sequence events =
      chainHead hash text previousHash' sequence events') :
    previousHash = previousHash' ∧ List.Forall₂ R events events' := by
  induction events generalizing previousHash previousHash' sequence events' with
  | nil =>
      obtain rfl := List.length_eq_zero_iff.mp hlength.symm
      exact ⟨hhead, .nil⟩
  | cons event events ih =>
      obtain ⟨event', events', rfl⟩ := List.exists_cons_of_length_eq_add_one hlength.symm
      have hrest := ih (Nat.succ.inj hlength)
        (fun a ha b hb => htext a (List.mem_cons_of_mem _ ha) b (List.mem_cons_of_mem _ hb))
        (hhash.mono fun t ht => ht.imp (List.mem_cons_of_mem _) (List.mem_cons_of_mem _)) hhead
      have hsame := hhash (.inl List.mem_cons_self) (.inr List.mem_cons_self) hrest.1
      obtain ⟨hprevious, hevent⟩ :=
        htext event List.mem_cons_self event' List.mem_cons_self _ _ _ hsame
      exact ⟨hprevious, .cons hevent hrest.2⟩

end Chains

end GoatCitadel.Support
