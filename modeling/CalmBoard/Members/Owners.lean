import CalmBoard.Members.Repository
import CalmBoard.Lib.Fallible

/-!
# CalmBoard.Members.Owners — the last owner of an organization

* `move_cases`: what one statement of `updateRole` does.
* `Unraced`: the role of an owner is not taken away while another call is about to do the same.
* `Knows`: a call past its checks leaves another owner.
* `owner_remains`: an organization keeps an owner in every run without such races.
-/

namespace CalmBoard.Members.Role

open Sessions

variable {s s' : Memberships} {l l' m : Local} {a : Action}

/-- The organization has an active owner. -/
def Owned (s : Memberships) : Prop := ∃ m ∈ s.rows, m.isOwner = true

instance (s : Memberships) : Decidable (Owned s) :=
  inferInstanceAs (Decidable (∃ m ∈ s.rows, m.isOwner = true))

/-- Somebody else than this membership is an active owner. -/
def OtherOwner (s : Memberships) (id : Uuid) : Prop := ∃ m ∈ s.rows, m.isOwner = true ∧ m.id ≠ id

/-- What a call knows: whose membership it is about, and past its checks that it leaves another owner.
The row it has written differs from the committed one in the role alone. -/
def Knows (s : Memberships) : Local → Prop
  | .owners call target => ∃ row, s.find? call.membershipId = some row ∧ row.userId = target.userId
  | .update call => call.role ≠ .owner → OtherOwner s call.membershipId
  | .written call row => (∃ old, s.find? row.id = some old ∧ row = { old with role := call.role }) ∧
    (call.role ≠ .owner → OtherOwner s row.id)
  | _ => True

theorem knows_settle {x : Except RepoError Local}
    (h : ∀ l, x = .ok l → Knows s l) : Knows s (settle x) := by
  cases x with
  | ok l => exact h l rfl
  | error e => trivial

/-- Who is no owner leaves the others; an owner is asked about them next. -/
theorem knows_checkTarget {call : Call} {actor target : MembershipRow} (hs : Owned s)
    (htarget : call.target? s = some target) (h : checkTarget call actor target = .ok l) :
    Knows s l := by
  have hfind : s.find? call.membershipId = some target := (Option.filter_eq_some_iff.mp htarget).1
  unfold checkTarget at h
  simp only [Fallible.throw_bind, Fallible.guard_ok] at h
  obtain ⟨-, -, h⟩ := h
  split at h
  · cases Fallible.pure_ok.mp h
    exact ⟨target, hfind, rfl⟩
  · next hplain =>
    cases Fallible.pure_ok.mp h
    intro hrole
    obtain ⟨m, hm, howner⟩ := hs
    refine ⟨m, hm, howner, fun hid => hplain ⟨?_, hrole⟩⟩
    rw [← hid, Table.find?_of_mem hm] at hfind
    cases hfind
    simp only [MembershipRow.isOwner, Bool.and_eq_true, decide_eq_true_eq] at howner
    exact howner.1

/-- The owners check: an owner who is another user holds another membership. -/
theorem otherOwner_of_any {call : Call} {target : MembershipRow}
    (hk : Knows s (.owners call target)) (h : s.rows.any (otherOwner call target) = true) :
    OtherOwner s call.membershipId := by
  obtain ⟨row, hfind, huser⟩ := hk
  obtain ⟨m, hm, hother⟩ := List.any_eq_true.mp h
  simp only [otherOwner, Bool.and_eq_true, decide_eq_true_eq] at hother
  refine ⟨m, hm, hother.1.1, fun hid => hother.2 ?_⟩
  rw [← hid, Table.find?_of_mem hm] at hfind
  cases hfind
  exact huser

/-- **Statements** of a call: all but the commit leave the store. -/
theorem move_cases (hs : Owned s) (hk : Knows s l) (h : move a s l = some (s', l')) :
    (s' = s ∧ Knows s l') ∨ ∃ call row pick, l = .written call row ∧ a = .next pick ∧
      s' = s.put row ∧ l' = .returned (.ok row) := by
  unfold move at h
  split at h
  · cases h
  · cases h
    exact Or.inl ⟨rfl, trivial⟩
  · obtain ⟨found, -, hp⟩ := Option.map_eq_some_iff.mp h
    cases hp
    refine Or.inl ⟨rfl, knows_settle fun l hl => ?_⟩
    obtain ⟨actor, -, rfl⟩ := Fallible.map_ok.mp hl
    trivial
  · split at h
    · cases h
      exact Or.inl ⟨rfl, trivial⟩
    · next target htarget =>
      cases h
      exact Or.inl ⟨rfl, knows_settle fun l hl => knows_checkTarget hs htarget hl⟩
  · split at h
    · next hany =>
      cases h
      exact Or.inl ⟨rfl, fun _ => otherOwner_of_any hk hany⟩
    · cases h
      exact Or.inl ⟨rfl, trivial⟩
  · next call pick =>
    split at h
    · cases h
      exact Or.inl ⟨rfl, trivial⟩
    · next row hrow =>
      cases h
      have hfind : s.find? call.membershipId = some row := (Option.filter_eq_some_iff.mp hrow).1
      have hid : row.id = call.membershipId := Table.key_of_find? hfind
      refine Or.inl ⟨rfl, ⟨row, ?_, rfl⟩, fun hrole => ?_⟩
      · show s.find? row.id = some row
        rw [hid, hfind]
      · show OtherOwner s row.id
        rw [hid]
        exact hk hrole
  · next call row pick =>
    cases h
    exact Or.inr ⟨call, row, pick, rfl, rfl, rfl, rfl⟩

theorem clash_written {call call' : Call} {row row' : MembershipRow}
    (h : program.clash (.written call row) (.written call' row') = false) : row.id ≠ row'.id := by
  rintro he
  have hclash : program.clash (.written call row) (.written call' row') = true :=
    List.any_eq_true.mpr ⟨.membership row.id, List.mem_cons_self,
      List.any_eq_true.mpr ⟨.membership row'.id, List.mem_cons_self, by simp [program, he]⟩⟩
  rw [h] at hclash
  cases hclash

/-- The row takes the role of an active owner away. -/
def demotes (s : Memberships) (row : MembershipRow) : Bool :=
  (s.find? row.id).any MembershipRow.isOwner && !row.isOwner

/-- The call has passed its checks and is about to take the role of an active owner away. -/
def endangers (s : Memberships) : Local → Bool
  | .update call => call.role ≠ .owner && (s.find? call.membershipId).any MembershipRow.isOwner
  | .written _ row => demotes s row
  | _ => false

/-- The next statement commits a row that takes the role of an active owner away. -/
def commitsDemotion (s : Memberships) : Local → Bool
  | .written _ row => demotes s row
  | _ => false

/-- No such commit while another call is about to do the same. -/
def Unraced (w : World Memberships Local) : Event Call Action → Prop
  | .act i (.next _) => w.sessions[i]?.any (commitsDemotion w.store) = true →
    ∀ m ∈ w.sessions.eraseIdx i, endangers w.store m = false
  | _ => True

instance (w : World Memberships Local) : ∀ e, Decidable (Unraced w e)
  | .act _ (.next _) => inferInstanceAs (Decidable (_ → _))
  | .act _ (.abort _) | .enter _ => .isTrue trivial

theorem mem_put_of_ne {m row : MembershipRow} (hm : m ∈ s.rows) (hne : m.id ≠ row.id) :
    m ∈ (s.put row).rows :=
  Table.rows_put s row ▸ List.mem_map.mpr ⟨m, hm, if_neg hne⟩

/-- A row that takes nobody's ownership away leaves the owners. -/
theorem owner_put {m old row : MembershipRow} (hm : m ∈ s.rows) (howner : m.isOwner = true)
    (hfind : s.find? row.id = some old) (hkeeps : demotes s row = false) :
    ∃ k ∈ (s.put row).rows, k.isOwner = true ∧ k.id = m.id := by
  by_cases hid : m.id = row.id
  · have hsame : m = old := Table.eq_of_mem hm (Table.mem_of_find? hfind)
      (hid.trans (Table.key_of_find? hfind).symm)
    have hrow : row.isOwner = true := by
      simpa [demotes, hfind, ← hsame, howner] using hkeeps
    exact ⟨row, Table.rows_put s row ▸ List.mem_map.mpr ⟨m, hm, if_pos hid⟩, hrow, hid.symm⟩
  · exact ⟨m, mem_put_of_ne hm hid, howner, rfl⟩

theorem Knows.otherOwner {call : Call} {row : MembershipRow} (hk : Knows s (.written call row))
    (hdemotes : demotes s row = true) : OtherOwner s row.id := by
  obtain ⟨⟨old, hfind, hrow⟩, hother⟩ := hk
  refine hother fun hrole => ?_
  have hold : row.isOwner = old.isOwner ∨ row.isOwner = true := by
    rw [hrow, MembershipRow.isOwner, MembershipRow.isOwner, hrole]
    cases decide (old.status = some "active") <;> simp
  simp only [demotes, hfind, Option.any_some, Bool.and_eq_true, Bool.not_eq_true'] at hdemotes
  rcases hold with hsame | howner
  · rw [hsame, hdemotes.1] at hdemotes
    cases hdemotes.2
  · rw [hdemotes.2] at howner
    cases howner

theorem Owned.put (h : Owned s) {call : Call} {row : MembershipRow} (hk : Knows s (.written call row)) :
    Owned (s.put row) := by
  by_cases hdemotes : demotes s row = true
  · obtain ⟨m, hm, howner, hne⟩ := hk.otherOwner hdemotes
    exact ⟨m, mem_put_of_ne hm hne, howner⟩
  · obtain ⟨m, hm, howner⟩ := h
    obtain ⟨old, hfind, -⟩ := hk.1
    obtain ⟨k, hmem, hkowner, -⟩ := owner_put hm howner hfind (Bool.not_eq_true _ ▸ hdemotes)
    exact ⟨k, hmem, hkowner⟩

/-- Another owner stays, unless the commit and this membership are both about an active owner. -/
theorem OtherOwner.put {call : Call} {row : MembershipRow} {id : Uuid} (h : OtherOwner s id)
    (hk : Knows s (.written call row))
    (hraced : demotes s row = true → (s.find? id).any MembershipRow.isOwner = false) :
    OtherOwner (s.put row) id := by
  by_cases hdemotes : demotes s row = true
  · obtain ⟨m, hm, howner, hne⟩ := hk.otherOwner hdemotes
    refine ⟨m, mem_put_of_ne hm hne, howner, fun hid => ?_⟩
    have hplain := hraced hdemotes
    rw [← hid, Table.find?_of_mem hm, Option.any_some, howner] at hplain
    cases hplain
  · obtain ⟨m, hm, howner, hne⟩ := h
    obtain ⟨old, hfind, -⟩ := hk.1
    obtain ⟨k, hmem, hkowner, hid⟩ := owner_put hm howner hfind (Bool.not_eq_true _ ▸ hdemotes)
    exact ⟨k, hmem, hkowner, hid ▸ hne⟩

/-- **Commits** leave what another call knows, unless both take an active owner's role away. -/
theorem Knows.put {call : Call} {row : MembershipRow} (hk : Knows s (.written call row))
    (hm : Knows s m) (hclash : program.clash (.written call row) m = false)
    (hraced : demotes s row = true → endangers s m = false) : Knows (s.put row) m := by
  obtain ⟨old, hfind, hrow⟩ := hk.1
  cases m with
  | owners call' target =>
    obtain ⟨row', hfind', huser⟩ := hm
    rw [Knows, Table.find?_put hfind]
    split
    · next hid =>
      refine ⟨row, rfl, ?_⟩
      rw [hid, hfind'] at hfind
      cases hfind
      rw [hrow]
      exact huser
    · exact ⟨row', hfind', huser⟩
  | update call' =>
    refine fun hrole => (hm hrole).put hk fun hdemotes => ?_
    simpa [endangers, hrole] using hraced hdemotes
  | written call' row' =>
    obtain ⟨⟨old', hfind', hrow'⟩, hother⟩ := hm
    refine ⟨⟨old', ?_, hrow'⟩, fun hrole => (hother hrole).put hk fun hdemotes => ?_⟩
    · rw [Table.find?_put hfind, if_neg (clash_written hclash), hfind']
    · have hplain : row'.isOwner = false := by
        rw [hrow', MembershipRow.isOwner]
        simp [hrole]
      simpa [endangers, demotes, hplain] using hraced hdemotes
  | actor | target | returned => trivial

theorem rules : JointRules program Unraced Owned Knows fun _ _ => True where
  symm _ _ _ := trivial
  enter _ _ _ := trivial
  apart _ _ := trivial
  own w i l a s l' _ _ hI hL hmove := by
    rcases move_cases hI hL hmove with ⟨rfl, hk⟩ | ⟨call, row, pick, rfl, rfl, rfl, rfl⟩
    · exact ⟨hI, hk⟩
    · exact ⟨hI.put hL, trivial⟩
  other w i l a s l' j m hg hi hij hj hI hL hm _ hclash _ hmove := by
    rcases move_cases hI hL hmove with ⟨rfl, -⟩ | ⟨call, row, pick, rfl, rfl, rfl, rfl⟩
    · exact ⟨hm, trivial⟩
    · refine ⟨hL.put hm hclash fun hdemotes => ?_, trivial⟩
      have hmem : m ∈ w.sessions.eraseIdx i := List.mem_eraseIdx_iff_getElem?.mpr ⟨j, hij, hj⟩
      exact hg (by rw [hi]; exact hdemotes) m hmem

/-- **The last owner**: an organization with an active owner has one after every run in which no commit
takes the role of an active owner away while another call is about to do the same. -/
theorem owner_remains (s : Memberships) (events : List (Event Call Action)) (h : Owned s)
    (hunraced : Runs.Guarded (step program) Unraced (.closed s) events) :
    Owned (run program (.closed s) events).store :=
  (run_joint rules events (World.holds_closed h) World.pairs_closed hunraced).1.store

def twoOwners : Memberships :=
  ⟨[{ id := 11, userId := 1, role := .owner }, { id := 12, userId := 2, role := .owner }], by decide⟩

def demote (actorId membershipId : Uuid) : Call where
  workspaceId := 5
  actorId := some actorId
  membershipId := membershipId
  role := .member

/-- A call from its first statement to the owners check, or from the update to the commit. -/
def checks (session : ℕ) (pick : Uuid) : List (Event Call Action) :=
  [.act session (.next (some pick)), .act session (.next none), .act session (.next none)]

def writes (session : ℕ) : List (Event Call Action) :=
  [.act session (.next none), .act session (.next none)]

theorem owner_remains_sequential :
    Owned (run program (.closed twoOwners) (.enter (demote 1 12) :: .enter (demote 2 11) ::
      checks 0 11 ++ writes 0 ++ checks 1 12 ++ writes 1)).store :=
  owner_remains twoOwners _ (by decide) (by decide)

/-- Both checks see two owners. -/
theorem owners_demote_each_other : Owned twoOwners ∧
    ¬Owned (run program (.closed twoOwners) (.enter (demote 1 12) :: .enter (demote 2 11) ::
      checks 0 11 ++ checks 1 12 ++ writes 0 ++ writes 1)).store := by
  decide

end CalmBoard.Members.Role
