import CalmBoard.Auth.Tokens

/-!
# CalmBoard.Auth.OneLive — one open token of each purpose

* `Issuing`, `Consuming`, `Facts`: what a call knows of the tokens it has locked.
* `Single`: a user has at most one open token of a purpose.
* `one_live`: that holds in every state; a token is consumed once, and not after another one of its
  purpose has been issued.
-/

namespace CalmBoard.Tokens

open Requests Sessions

variable {H : Hashes} {s s' : Store} {x : Issue} {c : Consumption} {p p' q : Point}
  {ks ks' : List Lock} {ws ws' : List Write} {r : Result}

/-- A user has at most one open token of a purpose. -/
def Single (s : Store) : Prop :=
  ∀ t ∈ s.tokens.rows, ∀ t' ∈ s.tokens.rows, t.userId = t'.userId → t.purpose = t'.purpose →
    t.isOpen = true → t'.isOpen = true → t = t'

/-- The call has inserted its token, and is about to close the others. -/
structure Issuing (H : Hashes) (s : Store) (x : Issue) (ks : List Lock) (ws : List Write) : Prop where
  active : Lock.active x.userId x.purpose ∈ ks
  token : Lock.token (x.row H).tokenHash ∈ ks
  fresh : s.tokens.find? (x.row H).tokenHash = none
  writes : ∃ hs rest, ws = .invalidate hs x.now :: .insertToken (x.row H) :: rest ∧
    (∀ t, .insertToken t ∉ rest) ∧ ∀ t ∈ s.tokens.rows, t.userId = x.userId →
      t.purpose = x.purpose → t.isOpen = true → t.tokenHash ∈ hs

/-- The call has consumed an open token. -/
structure Consuming (H : Hashes) (s : Store) (c : Consumption) (ks : List Lock) (ws : List Write) :
    Prop where
  token : Lock.token (c.hash H) ∈ ks
  isOpen : ∃ t, s.tokens.find? (c.hash H) = some t ∧ t.isOpen = true
  writes : ∃ rest, ws = .consume (c.hash H) c.now :: rest ∧ ∀ t, .insertToken t ∉ rest

def Facts (H : Hashes) (s : Store) : Point → List Lock → List Write → Prop
  | .advisoryLock _, _, ws | .invalidate _, _, ws | .consume .., _, ws => ws = []
  | .insertToken x, _, ws => ∃ hs, ws = [.invalidate hs x.now]
  | .insertOutbox x _, ks, ws | .commitIssue x, ks, ws => Issuing H s x ks ws
  | .verifyUser c _, ks, ws | .resetUser c _ _, ks, ws | .revokeSessions c _, ks, ws
  | .commitConsumed c _, ks, ws => Consuming H s c ks ws

structure Knows (H : Hashes) (s : Store) (p : Point) (ks : List Lock) (ws : List Write) : Prop where
  covered : Covered Write.locks ks ws
  facts : Facts H s p ks ws

/-- What a call that has returned has left in the store. -/
def Brought (H : Hashes) (s : Store) : Result → Prop
  | .issued x => ∃ t, s.tokens.find? (x.row H).tokenHash = some t ∧ t.userId = x.userId ∧
      t.purpose = x.purpose
  | .accepted c | .missing c => ∃ t, s.tokens.find? (c.hash H) = some t ∧ t.isOpen = false
  | .rejected | .failed => True

/-- The token that a call has consumed. -/
def Result.consumed : Result → Option Consumption
  | .accepted c | .missing c => some c
  | _ => none

/-! ### Statements -/

variable {t : AuthToken}

theorem Issuing.next (h : Issuing H s x ks ws) (ks' : List Lock) (email : OutboxEmail) :
    Issuing H s x (ks ++ ks') (ws ++ [.insertOutbox email]) := by
  obtain ⟨hs, rest, rfl, hrest, hall⟩ := h.writes
  refine ⟨List.mem_append_left ks' h.active, List.mem_append_left ks' h.token, h.fresh, hs,
    rest ++ [.insertOutbox email], rfl, fun t ht => ?_, hall⟩
  rcases List.mem_append.mp ht with ht | ht
  · exact hrest t ht
  · cases List.mem_singleton.mp ht

theorem Consuming.next (h : Consuming H s c ks ws) (ks' : List Lock) {w : Write}
    (hw : ∀ t, w ≠ .insertToken t) : Consuming H s c (ks ++ ks') (ws ++ [w]) := by
  obtain ⟨rest, rfl, hrest⟩ := h.writes
  refine ⟨List.mem_append_left ks' h.token, h.isOpen, rest ++ [w], rfl, fun t ht => ?_⟩
  rcases List.mem_append.mp ht with ht | ht
  · exact hrest t ht
  · exact hw t (List.mem_singleton.mp ht).symm

theorem mem_openTokens {userId : Uuid} {purpose : AuthTokenPurpose} (ht : t ∈ s.tokens.rows)
    (huser : t.userId = userId) (hpurpose : t.purpose = purpose) (hopen : t.isOpen = true) :
    t ∈ openTokens userId purpose s :=
  List.mem_filter.mpr ⟨ht, by simp [huser, hpurpose, hopen]⟩

theorem issuing_of_insert {hs : List String}
    (hfresh : (Write.apply (.invalidate hs x.now) s).tokens.find? (x.row H).tokenHash = none)
    (hnone : openTokens x.userId x.purpose (Write.apply (.invalidate hs x.now) s) = []) :
    Issuing H s x (ks ++ [.token (x.row H).tokenHash, .active x.userId x.purpose])
      [.invalidate hs x.now, .insertToken (x.row H)] := by
  refine ⟨by simp, by simp, ?_, hs, [], rfl, fun t ht => (by cases ht), ?_⟩
  · simp only [Write.apply, Table.find?_update, Option.map_eq_none_iff] at hfresh
    exact hfresh
  · intro t ht huser hpurpose hopen
    by_contra hmem
    have hkept : t ∈ (Write.apply (.invalidate hs x.now) s).tokens.rows := by
      simp only [Write.apply, Table.mem_update]
      exact ⟨t, ht, if_neg (by simpa using hmem)⟩
    have hlive := mem_openTokens hkept huser hpurpose hopen
    rw [hnone] at hlive
    cases hlive

theorem Knows.next (h : Knows H s p ks ws) (hnext : Nexts H ((script H).view s ws) p p' ks' ws') :
    Knows H s p' (ks ++ ks') (ws ++ ws') := by
  refine ⟨h.covered.append hnext.covered, ?_⟩
  have hfacts := h.facts
  cases hnext with
  | advisoryLock x =>
    cases hfacts
    exact rfl
  | invalidate x =>
    cases hfacts
    exact ⟨_, rfl⟩
  | insertToken x hp hfresh hnone =>
    obtain ⟨hs, rfl⟩ := hfacts
    rcases hp with rfl | ⟨id, rfl⟩ <;> exact issuing_of_insert hfresh hnone
  | insertOutbox x outboxId email => exact Issuing.next hfacts _ email
  | consume c use ht hadmits =>
    cases hfacts
    have hopen : ∃ t, s.tokens.find? (c.hash H) = some t ∧ t.isOpen = true := by
      refine ⟨_, ht, ?_⟩
      simp only [Consumption.admits, Bool.and_eq_true] at hadmits
      exact hadmits.1.2
    have hconsuming : Consuming H s c (ks ++ [.token (c.hash H)]) [.consume (c.hash H) c.now] :=
      ⟨by simp, hopen, [], rfl, fun t ht => by cases ht⟩
    cases use <;> exact hconsuming
  | verifyUser c userId found => exact Consuming.next hfacts _ fun t ht => by cases ht
  | resetUser c userId passwordHash => exact Consuming.next hfacts _ fun t ht => by cases ht
  | revokeSessions c userId ids => exact Consuming.next hfacts _ fun t ht => by cases ht

theorem inserts_active (h : Knows H s p ks ws) (ht : .insertToken t ∈ ws) :
    Lock.active t.userId t.purpose ∈ ks := by
  refine h.covered _ ht _ ?_
  simp [Write.locks]

/-! ### What is committed -/

theorem Issuing.open_cases (h : Issuing H s x ks ws) (ht : t ∈ ((script H).view s ws).tokens.rows)
    (hopen : t.isOpen = true) :
    t = x.row H ∨ (t ∈ s.tokens.rows ∧ ¬ (t.userId = x.userId ∧ t.purpose = x.purpose)) := by
  obtain ⟨hs, rest, rfl, hrest, hall⟩ := h.writes
  rcases open_view (s := (Write.apply (.invalidate hs x.now) s)) ht hopen with ht | ht
  · obtain ⟨ht, hmem⟩ := open_update (AuthToken.invalidate_hash x.now) (not_open_invalidate x.now)
      ht hopen
    refine Or.inr ⟨ht, fun hkey => ?_⟩
    have := hall t ht hkey.1 hkey.2 hopen
    simp [this] at hmem
  · rcases List.mem_cons.mp ht with ht | ht
    · cases ht
      exact Or.inl rfl
    · exact absurd ht (hrest t)

theorem Issuing.single (h : Issuing H s x ks ws) (hs : Single s) :
    Single ((script H).view s ws) := by
  intro t ht t' ht' huser hpurpose hopen hopen'
  rcases h.open_cases ht hopen with rfl | ⟨ht, hother⟩
  · rcases h.open_cases ht' hopen' with rfl | ⟨-, hother⟩
    · rfl
    · exact absurd ⟨huser.symm, hpurpose.symm⟩ hother
  · rcases h.open_cases ht' hopen' with rfl | ⟨ht', -⟩
    · exact absurd ⟨huser, hpurpose⟩ hother
    · exact hs t ht t' ht' huser hpurpose hopen hopen'

theorem find?_insertToken (h : s.tokens.find? t.tokenHash = none) :
    (Write.apply (.insertToken t) s).tokens.find? t.tokenHash = some t := by
  simp only [Write.apply]
  cases hi : s.tokens.insert? t with
  | none =>
    obtain ⟨u, hu⟩ := Table.insert?_eq_none hi
    rw [h] at hu
    cases hu
  | some T => rw [Option.getD_some, Table.find?_insert? hi, if_pos rfl]

theorem Issuing.brought (h : Issuing H s x ks ws) :
    Brought H ((script H).view s ws) (.issued x) := by
  obtain ⟨hs, rest, rfl, -, -⟩ := h.writes
  have hfresh : (Write.apply (.invalidate hs x.now) s).tokens.find? (x.row H).tokenHash = none := by
    simp only [Write.apply, Table.find?_update, h.fresh, Option.map_none]
  obtain ⟨t, ht, huser, hpurpose, -⟩ := later_view (H := H) _ rest _ _ (find?_insertToken hfresh)
  exact ⟨t, ht, huser, hpurpose⟩

theorem Consuming.single (h : Consuming H s c ks ws) (hs : Single s) :
    Single ((script H).view s ws) := by
  obtain ⟨rest, rfl, hrest⟩ := h.writes
  have hold : ∀ t ∈ ((script H).view s (.consume (c.hash H) c.now :: rest)).tokens.rows,
      t.isOpen = true → t ∈ s.tokens.rows := by
    intro t ht hopen
    rcases open_view ht hopen with ht | ht
    · exact ht
    · rcases List.mem_cons.mp ht with ht | ht
      · cases ht
      · exact absurd ht (hrest t)
  intro t ht t' ht' huser hpurpose hopen hopen'
  exact hs t (hold t ht hopen) t' (hold t' ht' hopen') huser hpurpose hopen hopen'

theorem Consuming.closed (h : Consuming H s c ks ws) :
    ∃ t, ((script H).view s ws).tokens.find? (c.hash H) = some t ∧ t.isOpen = false := by
  obtain ⟨rest, rfl, -⟩ := h.writes
  obtain ⟨t, ht, -⟩ := h.isOpen
  have hkey := Table.key_of_find? ht
  have hconsumed : (Write.apply (.consume (c.hash H) c.now) s).tokens.find? (c.hash H) =
      some (t.consume c.now) := by
    simp [Write.apply, ht, hkey]
  obtain ⟨u, hu, -, -, hclosed⟩ := later_view (H := H) _ rest _ _ hconsumed
  exact ⟨u, hu, hclosed (not_open_consume c.now t)⟩

theorem Brought.later (h : Brought H s r) (hlater : Later s s') : Brought H s' r := by
  cases r with
  | issued x =>
    obtain ⟨t, ht, huser, hpurpose⟩ := h
    obtain ⟨t', ht', huser', hpurpose', -⟩ := hlater _ t ht
    exact ⟨t', ht', huser'.trans huser, hpurpose'.trans hpurpose⟩
  | accepted c | missing c =>
    obtain ⟨t, ht, hclosed⟩ := h
    obtain ⟨t', ht', -, -, hclosed'⟩ := hlater _ t ht
    exact ⟨t', ht', hclosed' hclosed⟩
  | rejected | failed => trivial

theorem Knows.other (h : Knows H s q ks' ws') (hp : Knows H s p ks ws)
    (hapart : (script H).Apart ks ks') : Knows H ((script H).view s ws) q ks' ws' := by
  refine ⟨h.covered, ?_⟩
  have hfree : ∀ k ∈ ks', k ∉ ks := fun k hk' hk =>
    hapart.not_mem (decide_eq_true rfl) hk hk'
  have htoken : ∀ h, Lock.token h ∈ ks' →
      ((script H).view s ws).tokens.find? h = s.tokens.find? h := fun h hk =>
    token_view hp.covered (hfree _ hk) s
  have hissuing : ∀ x, Issuing H s x ks' ws' → Issuing H ((script H).view s ws) x ks' ws' := by
    intro x hx
    obtain ⟨hs, rest, hws, hrest, hall⟩ := hx.writes
    refine ⟨hx.active, hx.token, (htoken _ hx.token).trans hx.fresh, hs, rest, hws, hrest, ?_⟩
    intro t ht huser hpurpose hopen
    rcases open_view ht hopen with ht | ht
    · exact hall t ht huser hpurpose hopen
    · have hlock := inserts_active hp ht
      rw [huser, hpurpose] at hlock
      exact absurd hlock (hfree _ hx.active)
  have hconsuming : ∀ c, Consuming H s c ks' ws' → Consuming H ((script H).view s ws) c ks' ws' := by
    intro c hx
    obtain ⟨t, ht, hopen⟩ := hx.isOpen
    exact ⟨hx.token, ⟨t, (htoken _ hx.token).trans ht, hopen⟩, hx.writes⟩
  have hfacts := h.facts
  cases q with
  | advisoryLock | invalidate | insertToken | consume => exact hfacts
  | insertOutbox x | commitIssue x => exact hissuing x hfacts
  | verifyUser c | resetUser c | revokeSessions c | commitConsumed c => exact hconsuming c hfacts

theorem token_laws (H : Hashes) :
    Laws (script H) (fun _ _ _ => True) Single (Knows H) (Brought H) where
  first _ call _ := by
    refine ⟨covered_nil _ _, ?_⟩
    cases call <;> rfl
  next _ _ _ _ _ _ _ _ _ hL _ h := hL.next (nexts_of_next h)
  commit _ _ _ _ _ _ _ _ _ h := (not_commit h).elim
  finish s a p ks ws r hI hL _ h := by
    have hfacts := hL.facts
    cases finishing_of_finish h with
    | issued x => exact ⟨Issuing.single hfacts hI, Issuing.brought hfacts⟩
    | accepted c => exact ⟨Consuming.single hfacts hI, Consuming.closed hfacts⟩
    | missing c => exact ⟨Consuming.single hfacts hI, Consuming.closed hfacts⟩
  fail _ _ _ _ _ r _ _ _ h := by
    rcases fail_result h with rfl | rfl <;> trivial
  other _ _ _ _ _ _ _ _ _ hL _ hq hapart := hq.other hL hapart
  kept _ _ _ _ _ _ _ _ _ hr := hr.later (later_view _ _)

/-! ### Runs -/

abbrev TokenEvent := Event Call (Action ℤ)
abbrev TokenWorld := World Store (Local Point Lock Write Result)

def after (H : Hashes) (w : TokenWorld) (events : List TokenEvent) : TokenWorld :=
  run (script H).program w events

/-- The world as the invariants have it. -/
def TokenWorld.Sound (H : Hashes) (w : TokenWorld) : Prop :=
  w.Holds (script H).program Single (Local.Knows (Knows H) (Brought H))

theorem TokenWorld.Sound.after {w : TokenWorld} (h : TokenWorld.Sound H w) (events : List TokenEvent) :
    TokenWorld.Sound H (after H w events) := run_always (rules_always (token_laws H)) events h

theorem later_step {e : TokenEvent} {w w' : TokenWorld} (h : step (script H).program e w = .ok w') :
    Later w.store w'.store := by
  cases e with
  | enter call =>
    cases h
    exact Later.refl _
  | act i a =>
    obtain ⟨l, l', s, -, hmove, -, rfl⟩ := step_act h
    cases moves_of_move hmove with
    | crash | next | fail => exact Later.refl _
    | commit | finish => exact later_view _ _

theorem later_after (w : TokenWorld) (events : List TokenEvent) :
    Later w.store (after H w events).store :=
  Runs.run_invariant (I := fun v : TokenWorld => Later w.store v.store)
    (fun _ _ _ hv hok => hv.trans (later_step hok)) events w (Later.refl _)

theorem consumes_open {a : Action ℤ} {l : Local Point Lock Write Result}
    (hL : Local.Knows (Knows H) (Brought H) s l)
    (hmove : (script H).program.move a s l = some (s', .returned r)) (hc : r.consumed = some c) :
    ∃ t, s.tokens.find? (c.hash H) = some t ∧ t.isOpen = true := by
  cases moves_of_move hmove with
  | fail ks h => rcases fail_result h with rfl | rfl <;> cases hc
  | finish ks h =>
    have hfacts := hL.facts
    cases finishing_of_finish h with
    | issued x => cases hc
    | accepted d =>
      cases hc
      exact Consuming.isOpen hfacts
    | missing d =>
      cases hc
      exact Consuming.isOpen hfacts

theorem brought_consumed (h : Brought H s r) (hc : r.consumed = some c) :
    ∃ t, s.tokens.find? (c.hash H) = some t ∧ t.isOpen = false := by
  cases r with
  | accepted d | missing d =>
    cases hc
    exact h
  | issued | rejected | failed => cases hc

/-- Two calls have not consumed one token. -/
def OtherToken (H : Hashes) (l m : Local Point Lock Write Result) : Prop :=
  ∀ r r' c c', l = .returned r → m = .returned r' → r.consumed = some c → r'.consumed = some c' →
    c.hash H ≠ c'.hash H

theorem other_token_rules (H : Hashes) : PairRules (script H).program Single
    (Local.Knows (Knows H) (Brought H)) (OtherToken H) where
  symm l m h r r' c c' hl hm hc hc' he := h r' r c' c hm hl hc' hc he.symm
  enter call m r r' c c' hl := by cases hl
  act s l a s' l' m _ hL hm _ hmove := by
    rintro r r' c c' rfl rfl hc hc' he
    obtain ⟨t, ht, hopen⟩ := consumes_open hL hmove hc
    obtain ⟨t', ht', hclosed⟩ := brought_consumed hm hc'
    rw [he, ht', Option.some.injEq] at ht
    rw [ht, hopen] at hclosed
    cases hclosed

theorem not_consumed_later {w : TokenWorld} (hw : TokenWorld.Sound H w) {h : String}
    (ht : w.store.tokens.find? h = some t) (hclosed : t.isOpen = false) (events : List TokenEvent)
    {k : ℕ} (hk : (after H w events).sessions[k]? = some (.returned r)) (hc : r.consumed = some c)
    (hh : c.hash H = h) : w.sessions[k]? = some (.returned r) := by
  by_contra hnew
  obtain ⟨before, a, rest, l₀, l₁, s', -, hl₀, -, rfl, hmove, -⟩ :=
    moment_of (Q := fun l => l = .returned r) (fun _ h => by cases h)
      (fun l hl he => hnew (hl.trans (congrArg some he))) events hk rfl
  obtain ⟨u, hu, hopen⟩ := consumes_open ((hw.after before).sessions k l₀ hl₀) hmove hc
  obtain ⟨t', ht', -, -, hclosed'⟩ := later_after (H := H) w before h t ht
  have htu : some t' = some u := by
    rw [← hu, hh]
    exact ht'.symm
  cases htu
  rw [hclosed' hclosed] at hopen
  cases hopen

theorem closed_of_issued {a : Action ℤ} {l : Local Point Lock Write Result} {h : String}
    (hL : Local.Knows (Knows H) (Brought H) s l)
    (hmove : (script H).program.move a s l = some (s', .returned (.issued x)))
    (ht : s.tokens.find? h = some t) (huser : t.userId = x.userId)
    (hpurpose : t.purpose = x.purpose) : ∃ t', s'.tokens.find? h = some t' ∧ t'.isOpen = false := by
  generalize hr : Result.issued x = r at hmove
  cases moves_of_move hmove with
  | fail ks h => rcases fail_result h with rfl | rfl <;> cases hr
  | finish ks h =>
    have hfacts := hL.facts
    cases finishing_of_finish h with
    | accepted | missing => cases hr
    | issued y =>
      cases hr
      obtain ⟨t', ht', huser', hpurpose', -⟩ := later_view (H := H) s _ _ t ht
      refine ⟨t', ht', ?_⟩
      by_contra hopen
      rw [Bool.not_eq_false] at hopen
      rcases Issuing.open_cases hfacts (Table.mem_of_find? ht') hopen with rfl | ⟨-, hother⟩
      · have hfresh := Issuing.fresh hfacts
        rw [Table.key_of_find? ht', ht] at hfresh
        cases hfresh
      · exact hother ⟨huser'.trans huser, hpurpose'.trans hpurpose⟩

/-- **Tokens**: whatever calls do in whatever order, a user has at most one open token of a purpose,
a token is consumed at most once, and never after a later token of its user and purpose has been
issued. -/
theorem one_live (H : Hashes) (s : Store) (hs : Single s) (events more later : List TokenEvent) :
    let w := after H (World.closed s) events
    let w' := after H w more
    Single w.store ∧
    (∀ (i j : ℕ) (r r' : Result) (c c' : Consumption), i ≠ j →
      w.sessions[i]? = some (.returned r) → w.sessions[j]? = some (.returned r') →
      r.consumed = some c → r'.consumed = some c' → c.hash H ≠ c'.hash H) ∧
    ∀ (i j : ℕ) (x x' : Issue), x.userId = x'.userId → x.purpose = x'.purpose →
      w.sessions[i]? = some (.returned (.issued x)) →
      w.sessions[j]? ≠ some (.returned (.issued x')) →
      w'.sessions[j]? = some (.returned (.issued x')) →
      ∀ (k : ℕ) (r : Result) (c : Consumption), r.consumed = some c →
        c.hash H = H.hashAuthToken x.token →
        (after H w' later).sessions[k]? = some (.returned r) →
          w'.sessions[k]? = some (.returned r) := by
  intro w w'
  have hstart : TokenWorld.Sound H (World.closed s) := World.holds_closed hs
  have hw : TokenWorld.Sound H w := hstart.after events
  have hw' : TokenWorld.Sound H w' := hw.after more
  refine ⟨hw.store, fun i j r r' c c' hij hi hj hc hc' => ?_, ?_⟩
  · exact run_pairs (rules_always (token_laws H)) (other_token_rules H) events hstart
      (fun _ _ _ _ _ hi => by cases hi) i j _ _ hij hi hj r r' c c' rfl rfl hc hc'
  · intro i j x x' huser hpurpose hi hj hj' k r c hc hh hk
    obtain ⟨before, a, rest, l₀, l₁, s', rfl, hl₀, -, rfl, hmove, hok⟩ :=
      moment_of (Q := fun l => l = .returned (.issued x')) (fun _ h => by cases h)
        (fun l hl he => hj (hl.trans (congrArg some he))) more hj' rfl
    -- the earlier token, when the later one is issued
    have hearlier : Brought H (after H w before).store (.issued x) :=
      (hw.after before).sessions i _ (run_stuck (P := (script H).program)
        (fun a s => move_returned a s _) before hi)
    obtain ⟨t, ht, htuser, htpurpose⟩ := hearlier
    obtain ⟨t', ht', hclosed⟩ := closed_of_issued ((hw.after before).sessions j l₀ hl₀) hmove ht
      (htuser.trans huser) (htpurpose.trans hpurpose)
    -- it stays closed up to `w'`
    have hlater : Later s' w'.store := by
      have hrun : w' = after H ⟨s', (after H w before).sessions.set j (.returned (.issued x'))⟩ rest := by
        show run (script H).program w (before ++ .act j a :: rest) = _
        rw [List.append_cons, run_append, run_concat, Runs.exec_of_ok hok]
        rfl
      rw [hrun]
      exact later_after (H := H) ⟨s', (after H w before).sessions.set j (.returned (.issued x'))⟩ rest
    obtain ⟨u, hu, -, -, hclosed'⟩ := hlater _ t' ht'
    exact not_consumed_later hw' hu (hclosed' hclosed) later hk hc hh

/-! A second reset token is issued while the first is being presented. -/

def sampleHashes : Hashes := { hashAuthToken := id, hashtext := fun _ _ => 7 }

def sampleIssue (token : String) (now : ℤ) : Issue :=
  { userId := 1, purpose := .passwordReset, token, now }

def issueCall (token : String) (now : ℤ) : TokenEvent := .enter (.issue 1 .passwordReset token now)

/-- These statements of a session. -/
def turns (i n : ℕ) : List TokenEvent := List.replicate n (.act i (.statement 5))

def resetEvents : List TokenEvent :=
  [.enter (.resetPassword "t1" "h1" 30), .enter (.resetPassword "t2" "h2" 30)] ++ turns 2 4 ++ turns 3 4

theorem one_live_reissued :
    let w := after sampleHashes (World.closed {}) (issueCall "t1" 10 :: turns 0 4)
    let w' := after sampleHashes w (issueCall "t2" 20 :: turns 1 4)
    (after sampleHashes w' resetEvents).sessions.drop 2 =
        [.returned .rejected,
          .returned (.accepted { token := "t2", purpose := .passwordReset, now := 30 })] ∧
      ∀ (k : ℕ) (r : Result) (c : Consumption), r.consumed = some c → c.hash sampleHashes = "t1" →
        (after sampleHashes w' resetEvents).sessions[k]? = some (.returned r) →
          w'.sessions[k]? = some (.returned r) :=
  ⟨by decide,
    (one_live sampleHashes {} (fun t ht => by cases ht) (issueCall "t1" 10 :: turns 0 4)
      (issueCall "t2" 20 :: turns 1 4) resetEvents).2.2 0 1 (sampleIssue "t1" 10)
      (sampleIssue "t2" 20) rfl rfl (by decide) (by decide) (by decide)⟩

end CalmBoard.Tokens
