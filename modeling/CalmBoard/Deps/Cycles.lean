import CalmBoard.Deps.Repository

/-!
# CalmBoard.Deps.Cycles — the depth-first search finds a cycle if there is one

* `Visits`, `Tries`, `Starts`: the calls of the search that return, without a bound on their depth.
* `Marked`: the marks `visiting` are those of the stack, which is a walk, and no cycle can be
  reached from a node with the mark `visited`.
* `dfs_explored`: a call finds a closed walk, or marks its node and keeps the stack as it was.
* `detects_cycles`: the search returns, with a closed walk if and only if there is a cycle.
-/

namespace CalmBoard.Deps

open Relation CalmBoard.Digraph

/-- The edges of the source, from the blocking to the dependent task. -/
def Blocks (edges : List DependencyEdge) (a b : Uuid) : Prop := ⟨a, b⟩ ∈ edges

/-! ### Calls that return -/

def DfsState.enter (st : DfsState) (current : Uuid) : DfsState where
  marks := (current, .visiting) :: st.marks
  stack := st.stack ++ [current]

def DfsState.leave (st : DfsState) (current : Uuid) : DfsState where
  marks := (current, .visited) :: st.marks
  stack := st.stack.dropLast

section Calls

variable (edges : List DependencyEdge)

mutual

/-- `dfs` returns. -/
inductive Visits : Uuid → DfsState → Option (List Uuid) × DfsState → Prop where
  | found {current : Uuid} {st st' : DfsState} {cycle : List Uuid}
      (h : Tries (neighbors edges current) (st.enter current) (some cycle, st')) :
      Visits current st (some cycle, st')
  | explored {current : Uuid} {st st' : DfsState}
      (h : Tries (neighbors edges current) (st.enter current) (none, st')) :
      Visits current st (none, st'.leave current)

/-- The loop over the neighbours ends. -/
inductive Tries : List Uuid → DfsState → Option (List Uuid) × DfsState → Prop where
  | nil {st : DfsState} : Tries [] st (none, st)
  | back {neighbor : Uuid} {rest : List Uuid} {st : DfsState}
      (hmark : st.marks.lookup neighbor = some .visiting) :
      Tries (neighbor :: rest) st (some (st.stack.drop (st.stack.idxOf neighbor) ++ [neighbor]), st)
  | skip {neighbor : Uuid} {rest : List Uuid} {st : DfsState} {r : Option (List Uuid) × DfsState}
      (hmark : st.marks.lookup neighbor = some .visited) (h : Tries rest st r) :
      Tries (neighbor :: rest) st r
  | found {neighbor : Uuid} {rest : List Uuid} {st st' : DfsState} {cycle : List Uuid}
      (hmark : st.marks.lookup neighbor = none) (h : Visits neighbor st (some cycle, st')) :
      Tries (neighbor :: rest) st (some cycle, st')
  | next {neighbor : Uuid} {rest : List Uuid} {st st' : DfsState}
      {r : Option (List Uuid) × DfsState} (hmark : st.marks.lookup neighbor = none)
      (hvisit : Visits neighbor st (none, st')) (h : Tries rest st' r) :
      Tries (neighbor :: rest) st r

end

/-- The loop over the nodes ends. -/
inductive Starts : List Uuid → DfsState → Option (List Uuid) → Prop where
  | nil {st : DfsState} : Starts [] st none
  | skip {node : Uuid} {rest : List Uuid} {st : DfsState} {r : Option (List Uuid)} {m : Mark}
      (hmark : st.marks.lookup node = some m) (h : Starts rest st r) : Starts (node :: rest) st r
  | found {node : Uuid} {rest : List Uuid} {st st' : DfsState} {cycle : List Uuid}
      (hmark : st.marks.lookup node = none) (h : Visits edges node st (some cycle, st')) :
      Starts (node :: rest) st (some cycle)
  | next {node : Uuid} {rest : List Uuid} {st st' : DfsState} {r : Option (List Uuid)}
      (hmark : st.marks.lookup node = none) (hvisit : Visits edges node st (none, st'))
      (h : Starts rest st' r) : Starts (node :: rest) st r

/-! ### The invariant -/

structure Marked (st : DfsState) : Prop where
  walk : st.stack.IsChain (Blocks edges)
  nodup : st.stack.Nodup
  visiting : ∀ n, st.marks.lookup n = some .visiting ↔ n ∈ st.stack
  visited : ∀ n, st.marks.lookup n = some .visited → Settled (Blocks edges) n

/-- What is left of a search through `targets` that has found no cycle. -/
structure Explored (st : DfsState) (targets : List Uuid) (st' : DfsState) : Prop where
  marked : Marked edges st'
  stack : st'.stack = st.stack
  kept : ∀ n, st.marks.lookup n = some .visited → st'.marks.lookup n = some .visited
  visited : ∀ n ∈ targets, st'.marks.lookup n = some .visited

/-- The answer to a search through `targets`. -/
def Answers (st : DfsState) (targets : List Uuid) : Option (List Uuid) × DfsState → Prop
  | (some cycle, _) => ClosedWalk (Blocks edges) cycle
  | (none, st') => Explored edges st targets st'

/-- The nodes that have no mark. -/
def unmarked (st : DfsState) : List Uuid :=
  (nodes edges).filter fun n => (st.marks.lookup n).isNone

end Calls

variable {edges : List DependencyEdge} {st st' : DfsState} {current : Uuid}

theorem mem_neighbors {a b : Uuid} : b ∈ neighbors edges a ↔ Blocks edges a b := by
  simp only [neighbors, List.mem_map, List.mem_filter, decide_eq_true_eq, Blocks]
  constructor
  · rintro ⟨e, ⟨he, rfl⟩, rfl⟩
    exact he
  · intro h
    exact ⟨⟨a, b⟩, ⟨h, rfl⟩, rfl⟩

theorem mem_nodes {a b : Uuid} (h : Blocks edges a b) : a ∈ nodes edges ∧ b ∈ nodes edges := by
  simp only [nodes, List.mem_reverse, List.mem_dedup, List.mem_flatMap]
  exact ⟨⟨_, h, by simp⟩, ⟨_, h, by simp⟩⟩

theorem lookup_mark (a n : Uuid) (m : Mark) (marks : List (Uuid × Mark)) :
    ((a, m) :: marks).lookup n = if n = a then some m else marks.lookup n := by
  rw [List.lookup_cons]
  by_cases h : n = a
  · rw [if_pos h, beq_iff_eq.mpr h]
  · rw [if_neg h, beq_eq_false_iff_ne.mpr h]

/-! ### One call -/

theorem Marked.enter (h : Marked edges st) (hmark : st.marks.lookup current = none)
    (hlast : ∀ last ∈ st.stack.getLast?, Blocks edges last current) :
    Marked edges (st.enter current) := by
  have hout : current ∉ st.stack := fun hin => by
    rw [← h.visiting, hmark] at hin
    cases hin
  refine ⟨?_, ?_, fun n => ?_, fun n hn => ?_⟩
  · refine h.walk.append (List.isChain_singleton current) fun last hl first hf => ?_
    rw [List.head?_singleton, Option.mem_some_iff] at hf
    exact hf ▸ hlast last hl
  · exact List.nodup_append.mpr ⟨h.nodup, List.nodup_singleton current, fun a ha b hb hab => by
      rw [List.mem_singleton] at hb
      exact hout (hb ▸ hab ▸ ha)⟩
  · show ((current, Mark.visiting) :: st.marks).lookup n = _ ↔ n ∈ st.stack ++ [current]
    rw [lookup_mark, List.mem_append, List.mem_singleton]
    split
    · next heq => exact ⟨fun _ => Or.inr heq, fun _ => rfl⟩
    · next hne => exact (h.visiting n).trans ⟨Or.inl, fun hn => hn.resolve_right hne⟩
  · rw [DfsState.enter, lookup_mark] at hn
    split at hn
    · cases hn
    · exact h.visited n hn

theorem Explored.leave (h : Explored edges (st.enter current) (neighbors edges current) st')
    (hmarked : Marked edges (st.enter current)) :
    Explored edges st [current] (st'.leave current) := by
  have hstack : st'.stack = st.stack ++ [current] := h.stack
  have hleft : (st'.leave current).stack = st.stack := by
    show st'.stack.dropLast = st.stack
    rw [hstack, List.dropLast_concat]
  have hout : current ∉ st.stack := fun hin =>
    (List.nodup_append.mp hmarked.nodup).2.2 _ hin _ (List.mem_singleton_self current) rfl
  have hvisited : (st'.leave current).marks.lookup current = some .visited := by
    rw [DfsState.leave, lookup_mark, if_pos rfl]
  refine ⟨⟨?_, ?_, fun n => ?_, fun n hn => ?_⟩, hleft, fun n hn => ?_, fun n hn => ?_⟩
  · rw [hleft]
    exact hmarked.walk.left_of_append
  · rw [hleft]
    exact (List.nodup_append.mp hmarked.nodup).1
  · rw [hleft, DfsState.leave, lookup_mark]
    split
    · next heq => exact ⟨fun hn => (by cases hn), fun hn => absurd (heq ▸ hn) hout⟩
    · next hne =>
      rw [h.marked.visiting, hstack, List.mem_append, List.mem_singleton, or_iff_left hne]
  · by_cases heq : n = current
    · subst heq
      exact Settled.of_next fun b hb => h.marked.visited b (h.visited b (mem_neighbors.mpr hb))
    · rw [DfsState.leave, lookup_mark, if_neg heq] at hn
      exact h.marked.visited n hn
  · rw [DfsState.leave, lookup_mark]
    split
    · rfl
    · next hne =>
      refine h.kept n ?_
      rw [DfsState.enter, lookup_mark, if_neg hne]
      exact hn
  · rw [List.mem_singleton.mp hn]
    exact hvisited

theorem Explored.unmarked_le {targets : List Uuid} (h : Explored edges st targets st')
    (hmarked : Marked edges st) : (unmarked edges st').length ≤ (unmarked edges st).length := by
  refine (List.monotone_filter_right _ fun n hn => ?_).length_le
  rw [Option.isNone_iff_eq_none] at hn ⊢
  cases hmark : st.marks.lookup n with
  | none => rfl
  | some m =>
    cases m with
    | visiting =>
      rw [hmarked.visiting, ← h.stack, ← h.marked.visiting, hn] at hmark
      cases hmark
    | visited =>
      have hkept := h.kept n hmark
      rw [hn] at hkept
      cases hkept

theorem unmarked_enter (hnode : current ∈ nodes edges) (hmark : st.marks.lookup current = none) :
    (unmarked edges (st.enter current)).length < (unmarked edges st).length := by
  have hfilter : unmarked edges (st.enter current) =
      (unmarked edges st).filter fun n => n ≠ current := by
    unfold unmarked
    rw [List.filter_filter]
    refine List.filter_congr fun n _ => ?_
    rw [DfsState.enter, lookup_mark]
    by_cases heq : n = current <;> simp [heq]
  rw [hfilter, List.length_filter_lt_length_iff_exists]
  refine ⟨current, List.mem_filter.mpr ⟨hnode, ?_⟩, ?_⟩
  · rw [hmark]
    rfl
  · simp

/-! ### The search -/

theorem Answers.skip {n : Uuid} {rest : List Uuid} {r : Option (List Uuid) × DfsState}
    (h : Answers edges st rest r) (hmark : st.marks.lookup n = some .visited) :
    Answers edges st (n :: rest) r := by
  match r, h with
  | (some _, _), h => exact h
  | (none, st'), h => exact ⟨h.marked, h.stack, h.kept, List.forall_mem_cons.mpr ⟨h.kept n hmark, h.visited⟩⟩

theorem Answers.next {n : Uuid} {rest : List Uuid} {r : Option (List Uuid) × DfsState}
    (hfirst : Explored edges st [n] st') (h : Answers edges st' rest r) :
    Answers edges st (n :: rest) r := by
  match r, h with
  | (some _, _), h => exact h
  | (none, st''), h =>
    have hn : st''.marks.lookup n = some .visited :=
      h.kept n (hfirst.visited n (List.mem_singleton_self n))
    exact ⟨h.marked, h.stack.trans hfirst.stack, fun m hm => h.kept m (hfirst.kept m hm),
      List.forall_mem_cons.mpr ⟨hn, h.visited⟩⟩

/-- What a call needs: a node without a mark, after the last one of the stack, and enough fuel. -/
structure Ready (edges : List DependencyEdge) (fuel : ℕ) (current : Uuid) (st : DfsState) : Prop where
  marked : Marked edges st
  mark : st.marks.lookup current = none
  node : current ∈ nodes edges
  last : ∀ last ∈ st.stack.getLast?, Blocks edges last current
  fuel : (unmarked edges st).length < fuel

theorem dfsNeighbors_explored {fuel : ℕ} {visit : Uuid → DfsState → Option (List Uuid) × DfsState}
    (hvisit : ∀ n st, Ready edges fuel n st →
      Answers edges st [n] (visit n st) ∧ Visits edges n st (visit n st))
    (targets : List Uuid) (htargets : ∀ n ∈ targets, Blocks edges current n)
    (hmarked : Marked edges st) (hlast : st.stack.getLast? = some current)
    (hfuel : (unmarked edges st).length < fuel) :
    Answers edges st targets (dfsNeighbors visit targets st) ∧
      Tries edges targets st (dfsNeighbors visit targets st) := by
  induction targets generalizing st with
  | nil => exact ⟨⟨hmarked, rfl, fun _ h => h, fun _ h => absurd h List.not_mem_nil⟩, Tries.nil⟩
  | cons neighbor rest ih =>
    have hrest : ∀ n ∈ rest, Blocks edges current n := fun n hn =>
      htargets n (List.mem_cons_of_mem _ hn)
    have hedge : Blocks edges current neighbor := htargets neighbor List.mem_cons_self
    cases hmark : st.marks.lookup neighbor with
    | some m =>
      cases m with
      | visiting =>
        simp only [dfsNeighbors, hmark]
        exact ⟨closedWalk_of_back hmarked.walk hlast ((hmarked.visiting neighbor).mp hmark) hedge,
          Tries.back hmark⟩
      | visited =>
        simp only [dfsNeighbors, hmark]
        obtain ⟨hanswers, htries⟩ := ih hrest hmarked hlast hfuel
        exact ⟨hanswers.skip hmark, Tries.skip hmark htries⟩
    | none =>
      have hready : Ready edges fuel neighbor st :=
        ⟨hmarked, hmark, (mem_nodes hedge).2, fun last hl => by
          rw [hlast, Option.mem_some_iff] at hl
          exact hl ▸ hedge, hfuel⟩
      obtain ⟨hanswers, hvisits⟩ := hvisit neighbor st hready
      match hv : visit neighbor st with
      | (some cycle, st') =>
        rw [hv] at hanswers hvisits
        simp only [dfsNeighbors, hmark, hv]
        exact ⟨hanswers, Tries.found hmark hvisits⟩
      | (none, st') =>
        rw [hv] at hanswers hvisits
        simp only [dfsNeighbors, hmark, hv]
        have hexplored : Explored edges st [neighbor] st' := hanswers
        obtain ⟨hnext, htries⟩ := ih hrest hexplored.marked
          (by rw [hexplored.stack, hlast])
          (lt_of_le_of_lt (hexplored.unmarked_le hmarked) hfuel)
        exact ⟨Answers.next hexplored hnext, Tries.next hmark hvisits htries⟩

theorem dfs_succ (fuel : ℕ) (current : Uuid) (st : DfsState) :
    dfs edges (fuel + 1) current st =
      match dfsNeighbors (dfs edges fuel) (neighbors edges current) (st.enter current) with
      | (some cycle, st') => (some cycle, st')
      | (none, st') => (none, st'.leave current) :=
  rfl

/-- **One call**, by induction on the fuel; entering a node takes it from those without a mark. -/
theorem dfs_explored (fuel : ℕ) {current : Uuid} {st : DfsState} (h : Ready edges fuel current st) :
    Answers edges st [current] (dfs edges fuel current st) ∧
      Visits edges current st (dfs edges fuel current st) := by
  induction fuel generalizing current st with
  | zero => exact absurd h.fuel (Nat.not_lt_zero _)
  | succ fuel ih =>
    have hmarked := h.marked.enter h.mark h.last
    have hless := unmarked_enter h.node h.mark
    have hfuel := h.fuel
    obtain ⟨hanswers, htries⟩ := dfsNeighbors_explored (fun n st => ih) (neighbors edges current)
      (fun n hn => mem_neighbors.mp hn) hmarked List.getLast?_concat (by omega)
    rw [dfs_succ]
    match hloop : dfsNeighbors (dfs edges fuel) (neighbors edges current) (st.enter current) with
    | (some cycle, st') =>
      rw [hloop] at hanswers htries
      exact ⟨hanswers, Visits.found htries⟩
    | (none, st') =>
      rw [hloop] at hanswers htries
      exact ⟨Explored.leave hanswers hmarked, Visits.explored htries⟩

theorem dfsRoots_explored (fuel : ℕ) (targets : List Uuid) (htargets : ∀ n ∈ targets, n ∈ nodes edges)
    {st : DfsState} (hmarked : Marked edges st) (hstack : st.stack = [])
    (hfuel : (unmarked edges st).length < fuel) :
    (∃ st', Answers edges st targets (dfsRoots edges fuel targets st, st')) ∧
      Starts edges targets st (dfsRoots edges fuel targets st) := by
  induction targets generalizing st with
  | nil =>
    exact ⟨⟨st, hmarked, rfl, fun _ h => h, fun _ h => absurd h List.not_mem_nil⟩, Starts.nil⟩
  | cons node rest ih =>
    have hrest : ∀ n ∈ rest, n ∈ nodes edges := fun n hn => htargets n (List.mem_cons_of_mem _ hn)
    cases hmark : st.marks.lookup node with
    | some m =>
      simp only [dfsRoots, hmark]
      obtain ⟨⟨st', hanswers⟩, hstarts⟩ := ih hrest hmarked hstack hfuel
      refine ⟨⟨st', hanswers.skip ?_⟩, Starts.skip hmark hstarts⟩
      cases m with
      | visited => exact hmark
      | visiting =>
        rw [hmarked.visiting, hstack] at hmark
        exact absurd hmark List.not_mem_nil
    | none =>
      have hready : Ready edges fuel node st :=
        ⟨hmarked, hmark, htargets node List.mem_cons_self,
          fun last hl => absurd (hstack ▸ hl) (by simp), hfuel⟩
      obtain ⟨hanswers, hvisits⟩ := dfs_explored fuel hready
      match hv : dfs edges fuel node st with
      | (some cycle, st') =>
        rw [hv] at hanswers hvisits
        simp only [dfsRoots, hmark, hv]
        exact ⟨⟨st', hanswers⟩, Starts.found hmark hvisits⟩
      | (none, st') =>
        rw [hv] at hanswers hvisits
        simp only [dfsRoots, hmark, hv]
        have hexplored : Explored edges st [node] st' := hanswers
        obtain ⟨⟨st'', hnext⟩, hstarts⟩ := ih hrest hexplored.marked
          (hexplored.stack.trans hstack) (lt_of_le_of_lt (hexplored.unmarked_le hmarked) hfuel)
        exact ⟨⟨st'', Answers.next hexplored hnext⟩, Starts.next hmark hvisits hstarts⟩

/-! ### Cycles -/

/-- What `detectDependencyCycle` does: it answers at an edge from a task to itself, else it
searches. -/
inductive Returns (edges : List DependencyEdge) : Option (List Uuid) → Prop where
  | self {e : DependencyEdge}
      (h : (edges.find? fun e => e.blockingTaskId = e.dependentTaskId) = some e) :
      Returns edges (some [e.blockingTaskId, e.dependentTaskId])
  | searched {r : Option (List Uuid)}
      (h : (edges.find? fun e => e.blockingTaskId = e.dependentTaskId) = none)
      (hstarts : Starts edges (nodes edges) ⟨[], []⟩ r) : Returns edges r

theorem marked_init (edges : List DependencyEdge) : Marked edges ⟨[], []⟩ :=
  ⟨List.isChain_nil, List.nodup_nil, fun _ => ⟨fun h => (by cases h), fun h => absurd h List.not_mem_nil⟩,
    fun _ h => by cases h⟩

theorem detectDependencyCycle_returns (edges : List DependencyEdge) :
    Returns edges (detectDependencyCycle edges) ∧
      match detectDependencyCycle edges with
      | some cycle => ClosedWalk (Blocks edges) cycle
      | none => Acyclic (Blocks edges) := by
  unfold detectDependencyCycle
  split
  · next e he =>
    have hself : e.blockingTaskId = e.dependentTaskId := by simpa using List.find?_some he
    refine ⟨Returns.self he, congrArg some hself, le_rfl, List.isChain_pair.mpr ?_⟩
    exact List.mem_of_find?_eq_some he
  · next hself =>
    obtain ⟨⟨st', hanswers⟩, hstarts⟩ := dfsRoots_explored ((nodes edges).length + 1)
      (nodes edges) (fun _ h => h) (marked_init edges) rfl
      (Nat.lt_succ_of_le (List.length_filter_le _ _))
    refine ⟨Returns.searched hself hstarts, ?_⟩
    generalize dfsRoots edges ((nodes edges).length + 1) (nodes edges) ⟨[], []⟩ = r at hanswers
    cases r with
    | some cycle => exact hanswers
    | none =>
      have hexplored : Explored edges ⟨[], []⟩ (nodes edges) st' := hanswers
      exact acyclic_of_settled fun a b hab =>
        hexplored.marked.visited a (hexplored.visited a (mem_nodes hab).1)

/-- **Cycles**: the recursion ends, with a path if and only if there is a cycle, and the path is one. -/
theorem detects_cycles (edges : List DependencyEdge) :
    Returns edges (detectDependencyCycle edges) ∧
      ((detectDependencyCycle edges).isSome = true ↔ ∃ a, TransGen (Blocks edges) a a) ∧
      ∀ cyclePath, detectDependencyCycle edges = some cyclePath →
        ClosedWalk (Blocks edges) cyclePath := by
  obtain ⟨hreturns, hanswer⟩ := detectDependencyCycle_returns edges
  refine ⟨hreturns, ?_, fun cyclePath h => ?_⟩
  · cases hd : detectDependencyCycle edges with
    | some cyclePath =>
      rw [hd] at hanswer
      exact ⟨fun _ => ClosedWalk.cycle hanswer, fun _ => rfl⟩
    | none =>
      rw [hd] at hanswer
      exact ⟨fun h => (by cases h), fun ⟨a, ha⟩ => absurd ha (hanswer a)⟩
  · rw [h] at hanswer
    exact hanswer

end CalmBoard.Deps
