import Mathlib.Data.List.Perm.Subperm
import FlowGraph.Program.Scheduler
import FlowGraph.Proofs.Program.Transcript

/-!
The books of a machine: on each channel, what has arrived and the branches that still run never exceed what a
ledger has left. Every operation of the machine keeps them, and receiving a report takes it off the ledger.
-/

namespace FlowGraph

def Owner.sends (channel : Nat) (name : NodeId) : Owner → Bool
  | .branch other sender => other = channel && sender = name
  | .main => false

variable {W R : Type}

def unread (mailboxes : List (Mailbox R)) (channel : Nat) (name : NodeId) : Nat :=
  (mailboxes[channel]?.getD ⟨[], 0⟩).reports.countP fun report => report.1 = name

/-- The books are right for the mailboxes and the owners of all strands. -/
structure Accounts (ledger : Ledger) (mailboxes : List (Mailbox R)) (owners : List Owner) : Prop where
  launched : ∀ channel name, Owner.branch channel name ∈ owners → channel < mailboxes.length
  opened : ∀ channel names, ledger channel = some names → channel < mailboxes.length
  atMost : ∀ channel names, ledger channel = some names → ∀ name,
    unread mailboxes channel name + owners.countP (Owner.sends channel name) ≤ names.count name

theorem unread_append (mailboxes : List (Mailbox R)) (senders channel : Nat) (name : NodeId) :
    unread (mailboxes ++ [⟨[], senders⟩]) channel name = unread mailboxes channel name := by
  unfold unread
  rcases Nat.lt_trichotomy channel mailboxes.length with below | rfl | above
  · rw [List.getElem?_append_left below]
  · simp
  · rw [List.getElem?_eq_none (by simp; omega), List.getElem?_eq_none (by omega)]

theorem unread_set (mailboxes : List (Mailbox R)) (reports : List (NodeId × R)) (senders : Nat)
    {channel : Nat} (known : channel < mailboxes.length) (other : Nat) (name : NodeId) :
    unread (mailboxes.set channel ⟨reports, senders⟩) other name =
      if channel = other then reports.countP fun report => report.1 = name
      else unread mailboxes other name := by
  unfold unread
  rw [List.getElem?_set]
  by_cases same : channel = other
  · subst same
    simp [known]
  · simp [same]

theorem countP_sends_of_fresh {owners : List Owner} {channel : Nat}
    (fresh : ∀ name, Owner.branch channel name ∉ owners) (name : NodeId) :
    owners.countP (Owner.sends channel name) = 0 := by
  rw [List.countP_eq_zero]
  rintro (_ | ⟨other, sender⟩) member sends
  · cases sends
  · simp only [Owner.sends, Bool.and_eq_true, decide_eq_true_eq] at sends
    exact fresh sender (sends.1 ▸ member)

theorem countP_sends_launch (names : List NodeId) (place channel : Nat) (name : NodeId) :
    (names.map (Owner.branch place)).countP (Owner.sends channel name) =
      if place = channel then names.count name else 0 := by
  rw [List.countP_map]
  by_cases same : place = channel
  · simp only [same, ↓reduceIte, List.count]
    congr 1
    funext sender
    simp [Owner.sends, Function.comp, beq_eq_decide]
  · simp [Owner.sends, Function.comp_def, same]

namespace Accounts
variable {ledger : Ledger} {mailboxes : List (Mailbox R)} {owners : List Owner}

theorem subperm (accounts : Accounts ledger mailboxes owners) {fewer : List Owner}
    (kept : fewer.Subperm owners) : Accounts ledger mailboxes fewer := by
  refine ⟨?_, accounts.opened, ?_⟩
  · intro channel name member
    exact accounts.launched channel name (kept.subset member)
  · intro channel names found name
    have before := accounts.atMost channel names found name
    have fewerSend := kept.countP_le (Owner.sends channel name)
    omega

theorem blank (mailboxes : List (Mailbox R)) (mains : ∀ channel name, Owner.branch channel name ∉ owners) :
    Accounts Ledger.blank mailboxes owners := by
  refine ⟨?_, ?_, ?_⟩
  · intro channel name member
    exact (mains channel name member).elim
  · intro channel names found
    cases found
  · intro channel names found
    cases found

theorem launch (accounts : Accounts ledger mailboxes owners) (names : List NodeId) (senders : Nat) :
    Accounts ledger (mailboxes ++ [⟨[], senders⟩])
      (names.map (Owner.branch mailboxes.length) ++ owners) := by
  refine ⟨?_, ?_, ?_⟩
  · intro channel name member
    simp only [List.length_append, List.length_singleton]
    rcases List.mem_append.mp member with new | old
    · obtain ⟨sender, _, same⟩ := List.mem_map.mp new
      cases same
      omega
    · have := accounts.launched channel name old
      omega
  · intro channel list found
    have := accounts.opened channel list found
    simp only [List.length_append, List.length_singleton]
    omega
  · intro channel list found name
    have before := accounts.atMost channel list found name
    have below := accounts.opened channel list found
    rw [unread_append, List.countP_append, countP_sends_launch, if_neg (by omega)]
    omega

theorem launch_own (accounts : Accounts ledger mailboxes owners) (names : List NodeId) (senders : Nat) :
    Accounts (ledger.opened mailboxes.length names) (mailboxes ++ [⟨[], senders⟩])
      (names.map (Owner.branch mailboxes.length) ++ owners) := by
  have others := accounts.launch names senders
  refine ⟨others.launched, ?_, ?_⟩
  · intro channel list found
    simp only [Ledger.opened] at found
    split at found
    · simp only [List.length_append, List.length_singleton]
      omega
    · exact others.opened channel list found
  · intro channel list found name
    simp only [Ledger.opened] at found
    split at found
    · rename_i same
      cases found
      subst same
      have fresh : ∀ sender, Owner.branch mailboxes.length sender ∉ owners := by
        intro sender member
        exact absurd (accounts.launched _ sender member) (Nat.lt_irrefl _)
      have nothing : unread mailboxes mailboxes.length name = 0 := by simp [unread]
      rw [unread_append, List.countP_append, countP_sends_launch, if_pos rfl, nothing,
        countP_sends_of_fresh fresh]
      omega
    · exact others.atMost channel list found name

variable {channel : Nat} {branch : NodeId} {result : R} {rest : List (NodeId × R)}

theorem known_of_reports (waiting : (mailboxes[channel]?.getD ⟨[], 0⟩).reports = (branch, result) :: rest) :
    channel < mailboxes.length := by
  by_contra beyond
  rw [List.getElem?_eq_none (by omega)] at waiting
  cases waiting

theorem take (accounts : Accounts ledger mailboxes owners)
    (waiting : (mailboxes[channel]?.getD ⟨[], 0⟩).reports = (branch, result) :: rest) (senders : Nat) :
    Accounts ledger (mailboxes.set channel ⟨rest, senders⟩) owners := by
  have known := known_of_reports waiting
  refine ⟨?_, ?_, ?_⟩
  · simpa only [List.length_set] using accounts.launched
  · simpa only [List.length_set] using accounts.opened
  · intro other names found name
    have before := accounts.atMost other names found name
    rw [unread_set mailboxes _ _ known]
    split
    · rename_i same
      subst same
      simp only [unread, waiting, List.countP_cons] at before
      omega
    · exact before

theorem take_own (accounts : Accounts ledger mailboxes owners)
    (waiting : (mailboxes[channel]?.getD ⟨[], 0⟩).reports = (branch, result) :: rest) (senders : Nat) :
    ledger.mayReport channel branch = true ∧
      Accounts (ledger.reported channel branch) (mailboxes.set channel ⟨rest, senders⟩) owners := by
  have known := known_of_reports waiting
  have others := accounts.take waiting senders
  constructor
  · unfold Ledger.mayReport
    split
    · rename_i names found
      have before := accounts.atMost channel names found branch
      simp only [unread, waiting, List.countP_cons, decide_true, ↓reduceIte] at before
      simpa using List.count_pos_iff.mp (by omega : 0 < names.count branch)
    · rfl
  · refine ⟨others.launched, ?_, ?_⟩
    · intro other names found
      simp only [Ledger.reported] at found
      split at found
      · rename_i same
        obtain ⟨old, had, _⟩ := Option.map_eq_some_iff.mp found
        exact others.opened other old (same ▸ had)
      · exact others.opened other names found
    · intro other names found name
      simp only [Ledger.reported] at found
      split at found
      · rename_i same
        subst same
        obtain ⟨old, had, rfl⟩ := Option.map_eq_some_iff.mp found
        have before := accounts.atMost other old had name
        rw [unread_set mailboxes _ _ known, if_pos rfl]
        simp only [unread, waiting, List.countP_cons] at before
        by_cases reporter : branch = name
        · subst reporter
          rw [List.count_erase_self]
          simp only [decide_true, ↓reduceIte] at before
          omega
        · rw [List.count_erase_of_ne (Ne.symm reporter)]
          simp only [reporter, decide_false, Bool.false_eq_true, ↓reduceIte] at before
          omega
      · exact others.atMost other names found name

theorem arrive {owner : Owner} (accounts : Accounts ledger mailboxes (owner :: owners))
    (sender : owner = .branch channel branch) (result : Option R) (senders : Nat) :
    Accounts ledger
      (mailboxes.set channel
        ⟨(mailboxes[channel]?.getD ⟨[], 0⟩).reports ++ (result.map (branch, ·)).toList, senders⟩)
      owners := by
  subst sender
  have known := accounts.launched channel branch List.mem_cons_self
  refine ⟨?_, ?_, ?_⟩
  · intro other name member
    simpa only [List.length_set] using accounts.launched other name (List.mem_cons_of_mem _ member)
  · simpa only [List.length_set] using accounts.opened
  · intro other names found name
    have before := accounts.atMost other names found name
    rw [unread_set mailboxes _ _ known]
    rw [List.countP_cons] at before
    split
    · rename_i same
      subst same
      cases result with
      | none =>
          simp only [Option.map_none, Option.toList_none, List.append_nil]
          unfold unread at before
          omega
      | some result =>
          simp only [Option.map_some, Option.toList_some, List.countP_append, List.countP_singleton]
          simp only [unread, Owner.sends, decide_true, Bool.true_and] at before
          omega
    · omega

end Accounts

end FlowGraph
