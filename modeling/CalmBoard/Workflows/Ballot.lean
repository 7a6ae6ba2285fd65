import CalmBoard.Workflows.Repository

/-!
# CalmBoard.Workflows.Ballot — what an approval request is for

An approval request without its task and its times is a ballot: a mode, a status and one vote for
each reviewer.  A vote is cast when it is its turn; the ballot closes when the mode is served, when a
vote rejects, or when it is canceled, and then the open votes are skipped.

* `Ballot.Step`: a vote or a cancellation.
* `Ballot.Sound`, `sound_step`: the invariant.
* `Sound.approved_iff`, `Sound.rejected_iff`, `Sound.turn_after`: outcome and order.
-/

namespace CalmBoard.Workflows

structure Vote where
  id : Uuid
  sequence : ℕ
  status : ReviewerStatus

structure Ballot where
  mode : ApprovalMode
  status : ApprovalStatus
  votes : List Vote

/-- An open vote is skipped. -/
def Vote.skip (v : Vote) : Vote := if v.status = .pending then { v with status := .skipped } else v

/-- The decision of one voter is written. -/
def Vote.mark (id : Uuid) (decision : TaskApprovalDecision) (v : Vote) : Vote :=
  if v.id = id then { v with status := decision.status } else v

variable {decision : TaskApprovalDecision} {v : Vote}

namespace Vote

@[simp] theorem skip_id (v : Vote) : v.skip.id = v.id := by
  unfold skip
  split <;> rfl

@[simp] theorem skip_sequence (v : Vote) : v.skip.sequence = v.sequence := by
  unfold skip
  split <;> rfl

theorem skip_status (v : Vote) :
    v.skip.status = if v.status = .pending then .skipped else v.status := by
  unfold skip
  split <;> rfl

theorem mark_id (id : Uuid) (decision : TaskApprovalDecision) (v : Vote) :
    (mark id decision v).id = v.id := by
  unfold mark
  split <;> rfl

theorem mark_sequence (id : Uuid) (decision : TaskApprovalDecision) (v : Vote) :
    (mark id decision v).sequence = v.sequence := by
  unfold mark
  split <;> rfl

theorem mark_of_ne {id : Uuid} (h : v.id ≠ id) :
    mark id decision v = v := if_neg h

theorem mark_self (decision : TaskApprovalDecision) (v : Vote) :
    mark v.id decision v = { v with status := decision.status } := if_pos rfl

theorem skip_ne_pending (v : Vote) : v.skip.status ≠ .pending := by
  rw [skip_status]
  split
  · decide
  · assumption

end Vote

variable {status : ApprovalStatus} {votes : List Vote} {mode : ApprovalMode}

namespace Ballot

/-- The status a vote brings, given the votes after it. -/
def outcome (mode : ApprovalMode) (decision : TaskApprovalDecision) (votes : List Vote) :
    Option ApprovalStatus :=
  if decision = .rejected then some .rejected
  else if mode = .any then some .approved
  else if ∃ v ∈ votes, v.status = .pending then none
  else some .approved

def close (b : Ballot) (status : ApprovalStatus) : Ballot :=
  { b with status, votes := b.votes.map Vote.skip }

/-- The votes after a decision. -/
def marked (b : Ballot) (id : Uuid) (decision : TaskApprovalDecision) : Ballot :=
  { b with votes := b.votes.map (Vote.mark id decision) }

def cast (b : Ballot) (id : Uuid) (decision : TaskApprovalDecision) : Ballot :=
  match outcome b.mode decision (b.marked id decision).votes with
  | none => b.marked id decision
  | some status => (b.marked id decision).close status

theorem cast_of_none {b : Ballot} {id : Uuid}
    (h : outcome b.mode decision (b.marked id decision).votes = none) :
    b.cast id decision = b.marked id decision := by
  unfold cast
  rw [h]

theorem cast_of_some {b : Ballot} {id : Uuid}
    (h : outcome b.mode decision (b.marked id decision).votes = some status) :
    b.cast id decision = (b.marked id decision).close status := by
  unfold cast
  rw [h]

/-- An open vote whose turn it is. -/
structure Turn (b : Ballot) (v : Vote) : Prop where
  mem : v ∈ b.votes
  pending : v.status = .pending
  first : b.mode = .sequential → ∀ w ∈ b.votes, w.status = .pending → v.sequence ≤ w.sequence

/-- What can happen to a ballot. -/
inductive Step (b : Ballot) : Ballot → Prop
  | cast {v : Vote} (hopen : b.status = .pending) (hturn : b.Turn v)
      (decision : TaskApprovalDecision) : Step b (b.cast v.id decision)
  | cancel (hopen : b.status = .pending) : Step b (b.close .canceled)

/-- A ballot that came about by votes and cancellation. -/
structure Sound (b : Ballot) : Prop where
  ids : (b.votes.map Vote.id).Nodup
  sequences : (b.votes.map Vote.sequence).Nodup
  /-- while it is open, votes are open or approvals, some are open, and one approval ends `any` -/
  opened : b.status = .pending → (∃ v ∈ b.votes, v.status = .pending) ∧
    ∀ v ∈ b.votes, v.status = .pending ∨ v.status = .approved ∧ b.mode ≠ .any
  ordered : b.mode = .sequential → ∀ v ∈ b.votes, ∀ w ∈ b.votes,
    v.status.decided = true → w.status = .pending → v.sequence < w.sequence
  closed : b.status ≠ .pending → ∀ v ∈ b.votes, v.status ≠ .pending
  approved : b.status = .approved → (∀ v ∈ b.votes, v.status ≠ .rejected) ∧
    ((b.mode = .any ∧ ∃ v ∈ b.votes, v.status = .approved) ∨
      ∀ v ∈ b.votes, v.status = .approved)
  rejected : b.status = .rejected → ∃ v ∈ b.votes, v.status = .rejected
  canceled : b.status = .canceled → (∃ v ∈ b.votes, v.status = .skipped) ∧
    ∀ v ∈ b.votes, v.status = .skipped ∨ v.status = .approved ∧ b.mode ≠ .any

variable {b b' : Ballot}

/-! ### The invariant -/

theorem nodup_map {α : Type} {f : Vote → α} {g : Vote → Vote} (hg : ∀ v, f (g v) = f v)
    (h : (votes.map f).Nodup) : ((votes.map g).map f).Nodup := by
  have hmap : (votes.map g).map f = votes.map f := by
    rw [List.map_map]
    exact List.map_congr_left fun v _ => hg v
  exact hmap ▸ h

theorem Sound.closing (h : b.Sound) {g : Vote → Vote} (hid : ∀ v, (g v).id = v.id)
    (hsequence : ∀ v, (g v).sequence = v.sequence) (hstatus : status ≠ .pending)
    (hclosed : ∀ v ∈ b.votes, (g v).status ≠ .pending)
    (happroved : status = .approved → (∀ v ∈ b.votes, (g v).status ≠ .rejected) ∧
      ((b.mode = .any ∧ ∃ v ∈ b.votes, (g v).status = .approved) ∨
        ∀ v ∈ b.votes, (g v).status = .approved))
    (hrejected : status = .rejected → ∃ v ∈ b.votes, (g v).status = .rejected)
    (hcanceled : status = .canceled → (∃ v ∈ b.votes, (g v).status = .skipped) ∧
      ∀ v ∈ b.votes, (g v).status = .skipped ∨ (g v).status = .approved ∧ b.mode ≠ .any) :
    Sound { b with status, votes := b.votes.map g } where
  ids := nodup_map hid h.ids
  sequences := nodup_map hsequence h.sequences
  opened hopen := absurd hopen hstatus
  ordered _ _ _ w hw _ hpending := by
    obtain ⟨v, hv, rfl⟩ := List.mem_map.mp hw
    exact absurd hpending (hclosed v hv)
  closed _ := by simpa using hclosed
  approved hs := by simpa using happroved hs
  rejected hs := by simpa using hrejected hs
  canceled hs := by simpa using hcanceled hs

theorem Sound.marked_cases (h : b.Sound) {w : Vote} (hv : v ∈ b.votes) (hw : w ∈ b.votes)
    (decision : TaskApprovalDecision) :
    w = v ∨ w.id ≠ v.id ∧ w.sequence ≠ v.sequence ∧ Vote.mark v.id decision w = w := by
  by_cases hid : w.id = v.id
  · exact Or.inl (List.inj_on_of_nodup_map h.ids hw hv hid)
  · refine Or.inr ⟨hid, fun hs => hid ?_, Vote.mark_of_ne hid⟩
    rw [List.inj_on_of_nodup_map h.sequences hw hv hs]

theorem Sound.marking (h : b.Sound) (hopen : b.status = .pending) (hturn : b.Turn v)
    (hmode : b.mode ≠ .any) (hleft : ∃ w ∈ (b.marked v.id .approved).votes, w.status = .pending) :
    (b.marked v.id .approved).Sound where
  ids := nodup_map (Vote.mark_id v.id .approved) h.ids
  sequences := nodup_map (Vote.mark_sequence v.id .approved) h.sequences
  opened _ := by
    refine ⟨hleft, fun w' hw' => ?_⟩
    obtain ⟨w, hw, rfl⟩ := List.mem_map.mp hw'
    rcases h.marked_cases hturn.mem hw .approved with rfl | ⟨hid, -, -⟩
    · rw [Vote.mark_self]
      exact Or.inr ⟨rfl, hmode⟩
    · rw [Vote.mark_of_ne hid]
      exact (h.opened hopen).2 w hw
  ordered hsequential u' hu' w' hw' hdecided hpending := by
    obtain ⟨u, hu, rfl⟩ := List.mem_map.mp hu'
    obtain ⟨w, hw, rfl⟩ := List.mem_map.mp hw'
    rcases h.marked_cases hturn.mem hw .approved with rfl | ⟨hwid, hwseq, -⟩
    · rw [Vote.mark_self] at hpending
      cases hpending
    · rw [Vote.mark_of_ne hwid] at hpending ⊢
      rcases h.marked_cases hturn.mem hu .approved with rfl | ⟨huid, -, -⟩
      · have hle := hturn.first hsequential w hw hpending
        rw [Vote.mark_self]
        show u.sequence < w.sequence
        omega
      · rw [Vote.mark_of_ne huid] at hdecided ⊢
        exact h.ordered hsequential u hu w hw hdecided hpending
  closed hstatus := absurd hopen hstatus
  approved hs := by
    have : b.status = .approved := hs
    rw [hopen] at this
    cases this
  rejected hs := by
    have : b.status = .rejected := hs
    rw [hopen] at this
    cases this
  canceled hs := by
    have : b.status = .canceled := hs
    rw [hopen] at this
    cases this

theorem marked_close (b : Ballot) (id : Uuid) (decision : TaskApprovalDecision)
    (status : ApprovalStatus) : (b.marked id decision).close status =
      { b with status, votes := b.votes.map fun v => (Vote.mark id decision v).skip } := by
  unfold marked close
  simp only [List.map_map]
  rfl

theorem outcome_eq_none (h : outcome mode decision votes = none) :
    decision = .approved ∧ mode ≠ .any ∧ ∃ v ∈ votes, v.status = .pending := by
  unfold outcome at h
  split_ifs at h with hd hm hv
  refine ⟨?_, hm, hv⟩
  cases decision with
  | approved => rfl
  | rejected => exact absurd rfl hd

theorem outcome_eq_some (h : outcome mode decision votes = some status) :
    decision = .rejected ∧ status = .rejected ∨
      decision = .approved ∧ status = .approved ∧
        (mode = .any ∨ ∀ v ∈ votes, v.status ≠ .pending) := by
  unfold outcome at h
  split_ifs at h with hd hm hv
  · exact Or.inl ⟨hd, (Option.some.inj h).symm⟩
  · refine Or.inr ⟨?_, (Option.some.inj h).symm, Or.inl hm⟩
    cases decision with
    | approved => rfl
    | rejected => exact absurd rfl hd
  · refine Or.inr ⟨?_, (Option.some.inj h).symm, Or.inr fun v hm hp => hv ⟨v, hm, hp⟩⟩
    cases decision with
    | approved => rfl
    | rejected => exact absurd rfl hd

theorem Sound.deciding (h : b.Sound) (hopen : b.status = .pending) (hturn : b.Turn v)
    (houtcome : outcome b.mode decision (b.marked v.id decision).votes = some status) :
    ((b.marked v.id decision).close status).Sound := by
  have hself : (Vote.mark v.id decision v).skip.status = decision.status := by
    rw [Vote.mark_self]
    cases decision <;> rfl
  have hother : ∀ w ∈ b.votes, w = v ∨ w.id ≠ v.id ∧ (Vote.mark v.id decision w).skip = w.skip := by
    intro w hw
    rcases h.marked_cases hturn.mem hw decision with rfl | ⟨hid, -, hw⟩
    · exact Or.inl rfl
    · exact Or.inr ⟨hid, by rw [hw]⟩
  rw [marked_close]
  refine h.closing (fun w => by rw [Vote.skip_id, Vote.mark_id])
    (fun w => by rw [Vote.skip_sequence, Vote.mark_sequence]) ?_
    (fun w _ => Vote.skip_ne_pending _) ?_ ?_ ?_
  · rcases outcome_eq_some houtcome with ⟨-, rfl⟩ | ⟨-, rfl, -⟩ <;> decide
  · intro hs
    rcases outcome_eq_some houtcome with ⟨-, rfl⟩ | ⟨rfl, -, hwhy⟩
    · cases hs
    · refine ⟨fun w hw => ?_, ?_⟩
      · rcases hother w hw with rfl | ⟨-, he⟩
        · rw [hself]
          decide
        · rw [he, Vote.skip_status]
          rcases (h.opened hopen).2 w hw with hp | ⟨hp, -⟩
          · rw [if_pos hp]
            decide
          · rw [hp]
            decide
      · rcases hwhy with hany | hnone
        · exact Or.inl ⟨hany, v, hturn.mem, hself⟩
        · refine Or.inr fun w hw => ?_
          rcases hother w hw with rfl | ⟨hid, he⟩
          · exact hself
          · have hmarked : w ∈ (b.marked v.id .approved).votes :=
              List.mem_map.mpr ⟨w, hw, Vote.mark_of_ne hid⟩
            have hp := hnone w hmarked
            rw [he, Vote.skip_status, if_neg hp]
            exact ((h.opened hopen).2 w hw).resolve_left hp |>.1
  · intro hs
    rcases outcome_eq_some houtcome with ⟨rfl, -⟩ | ⟨-, rfl, -⟩
    · exact ⟨v, hturn.mem, hself⟩
    · cases hs
  · intro hs
    rcases outcome_eq_some houtcome with ⟨-, rfl⟩ | ⟨-, rfl, -⟩ <;> cases hs

theorem Sound.canceling (h : b.Sound) (hopen : b.status = .pending) :
    (b.close .canceled).Sound := by
  obtain ⟨⟨v, hv, hp⟩, hall⟩ := h.opened hopen
  refine h.closing Vote.skip_id Vote.skip_sequence (by decide)
    (fun w _ => Vote.skip_ne_pending w) nofun nofun fun _ => ⟨⟨v, hv, ?_⟩, fun w hw => ?_⟩
  · rw [Vote.skip_status, if_pos hp]
  · rw [Vote.skip_status]
    rcases hall w hw with hp | ⟨hp, hmode⟩
    · exact Or.inl (if_pos hp)
    · rw [if_neg (by rw [hp]; decide)]
      exact Or.inr ⟨hp, hmode⟩

/-- **Step**: the invariant is kept. -/
theorem sound_step (h : b.Sound) (hstep : b.Step b') : b'.Sound := by
  cases hstep with
  | cancel hopen => exact h.canceling hopen
  | @cast v hopen hturn decision =>
    cases houtcome : outcome b.mode decision (b.marked v.id decision).votes with
    | none =>
      obtain ⟨rfl, hmode, hleft⟩ := outcome_eq_none houtcome
      rw [cast_of_none houtcome]
      exact h.marking hopen hturn hmode hleft
    | some status =>
      rw [cast_of_some houtcome]
      exact h.deciding hopen hturn houtcome

theorem sound_new (hids : (votes.map Vote.id).Nodup) (hsequences : (votes.map Vote.sequence).Nodup)
    (hne : votes ≠ []) (hpending : ∀ v ∈ votes, v.status = .pending) :
    Sound ⟨mode, .pending, votes⟩ where
  ids := hids
  sequences := hsequences
  opened _ := by
    obtain ⟨v, hv⟩ := List.exists_mem_of_ne_nil votes hne
    exact ⟨⟨v, hv, hpending v hv⟩, fun w hw => Or.inl (hpending w hw)⟩
  ordered _ v hv _ _ hdecided := by
    rw [hpending v hv] at hdecided
    cases hdecided
  closed h := absurd rfl h
  approved := nofun
  rejected := nofun
  canceled := nofun

/-! ### Outcome and order -/

theorem Sound.approved_iff (h : b.Sound) : b.status = .approved ↔
    b.status ≠ .pending ∧ (∀ v ∈ b.votes, v.status ≠ .rejected) ∧
      ((b.mode = .any ∧ ∃ v ∈ b.votes, v.status = .approved) ∨
        ∀ v ∈ b.votes, v.status = .approved) := by
  constructor
  · intro hs
    exact ⟨by rw [hs]; decide, h.approved hs⟩
  · rintro ⟨hclosed, hnone, hwhy⟩
    cases hs : b.status with
    | pending => exact absurd hs hclosed
    | approved => rfl
    | rejected =>
      obtain ⟨v, hv, hr⟩ := h.rejected hs
      exact absurd hr (hnone v hv)
    | canceled =>
      obtain ⟨⟨v, hv, hskipped⟩, hall⟩ := h.canceled hs
      rcases hwhy with ⟨hany, w, hw, ha⟩ | happroved
      · rcases hall w hw with hw | ⟨-, hmode⟩
        · rw [ha] at hw
          cases hw
        · exact absurd hany hmode
      · have := happroved v hv
        rw [hskipped] at this
        cases this

theorem cast_status (b : Ballot) (hopen : b.status = .pending) (id : Uuid)
    (decision : TaskApprovalDecision) : (b.cast id decision).status = .pending ∨
      (b.cast id decision).status = match decision with
        | .approved => .approved
        | .rejected => .rejected := by
  cases houtcome : outcome b.mode decision (b.marked id decision).votes with
  | none =>
    rw [cast_of_none houtcome]
    exact Or.inl hopen
  | some status =>
    rw [cast_of_some houtcome]
    rcases outcome_eq_some houtcome with ⟨rfl, rfl⟩ | ⟨rfl, rfl, -⟩ <;> exact Or.inr rfl

theorem mem_cast {id : Uuid} {v' : Vote} (hv' : v' ∈ (b.cast id decision).votes) : ∃ v ∈ b.votes,
      v' = v.mark id decision ∨ v' = (v.mark id decision).skip := by
  cases houtcome : outcome b.mode decision (b.marked id decision).votes with
  | none =>
    rw [cast_of_none houtcome] at hv'
    obtain ⟨v, hv, rfl⟩ := List.mem_map.mp hv'
    exact ⟨v, hv, Or.inl rfl⟩
  | some status =>
    rw [cast_of_some houtcome, marked_close] at hv'
    obtain ⟨v, hv, rfl⟩ := List.mem_map.mp hv'
    exact ⟨v, hv, Or.inr rfl⟩

theorem Step.keeps (h : b.Step b') (hv : v ∈ b.votes) : ∃ v' ∈ b'.votes, v'.id = v.id := by
  cases h with
  | cancel => exact ⟨v.skip, List.mem_map_of_mem hv, v.skip_id⟩
  | @cast w _ _ decision =>
    cases houtcome : outcome b.mode decision (b.marked w.id decision).votes with
    | none =>
      rw [cast_of_none houtcome]
      exact ⟨_, List.mem_map_of_mem hv, Vote.mark_id w.id decision v⟩
    | some status =>
      rw [cast_of_some houtcome, marked_close]
      exact ⟨_, List.mem_map_of_mem hv, (Vote.skip_id _).trans (Vote.mark_id w.id decision v)⟩

theorem skip_undecided (h : v.status = .pending) : v.skip.status.decided = false := by
  rw [Vote.skip_status, if_pos h]
  rfl

theorem Sound.decided_by (h : b.Sound) {v' : Vote} (hstep : b.Step b') (hv : v ∈ b.votes)
    (hpending : v.status = .pending) (hv' : v' ∈ b'.votes) (hid : v'.id = v.id)
    (hdecided : v'.status.decided = true) : b.Turn v := by
  have hsame : ∀ u ∈ b.votes, u.id = v.id → u = v := fun u hu =>
    List.inj_on_of_nodup_map h.ids hu hv
  cases hstep with
  | cancel =>
    obtain ⟨u, hu, rfl⟩ := List.mem_map.mp hv'
    rw [Vote.skip_id] at hid
    rw [hsame u hu hid, skip_undecided hpending] at hdecided
    cases hdecided
  | @cast w hopen hturn decision =>
    by_cases hvw : v.id = w.id
    · exact List.inj_on_of_nodup_map h.ids hv hturn.mem hvw ▸ hturn
    · obtain ⟨u, hu, rfl | rfl⟩ := mem_cast hv'
      · rw [Vote.mark_id] at hid
        rw [hsame u hu hid, Vote.mark_of_ne hvw, hpending] at hdecided
        cases hdecided
      · rw [Vote.skip_id, Vote.mark_id] at hid
        rw [hsame u hu hid, Vote.mark_of_ne hvw, skip_undecided hpending] at hdecided
        cases hdecided

theorem Sound.turn_after (h : b.Sound) (hmode : b.mode = .sequential) {w : Vote} (hturn : b.Turn v)
    (hw : w ∈ b.votes) (hdecided : w.status.decided = true) :
    w.sequence < v.sequence := h.ordered hmode w hw v hturn.mem hdecided hturn.pending

end Ballot

end CalmBoard.Workflows
