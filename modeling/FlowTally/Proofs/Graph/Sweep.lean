import FlowTally.Proofs.Graph.Trails
import Mathlib

/-!
# Anchors searched for breadth first and trail by trail

`upstreamAnchors` goes through the ends of all walks layer by layer, or down every
trail. Here both searches keep a state. A `Sweep` goes breadth first: a node waits
once for each number of hops that leads to it, so the search ends on every graph
(`Sweep.cost_meet`), and what has waited by then are exactly the ends of the walks
in range (`Sweep.mem_seen_run`). `walkAnchors` goes down the trails and ends since
each hop takes an edge that was not used before.

Where a walk leads, a trail leads in no more hops. So without a least hop count
both searches find the same anchors (`sweep_eq_walk`).
-/

namespace FlowTally.Graph

/-- A state that each step extends by what the step adds has, after all steps, what any of them
adds. -/
theorem foldl_extends (holds : σ → Prop) {adds : α → Prop} {step : σ → α → σ} {xs : List α}
    (h : ∀ s, ∀ x ∈ xs, holds (step s x) ↔ holds s ∨ adds x) (s : σ) :
    holds (xs.foldl step s) ↔ holds s ∨ ∃ x ∈ xs, adds x := by
  induction xs generalizing s with
  | nil => simp
  | cons x xs ih =>
    obtain ⟨hx, hxs⟩ := List.forall_mem_cons.mp fun x hx s => h s x hx
    rw [List.foldl_cons, ih fun s x hx => hxs x hx s, hx, List.exists_mem_cons_iff, or_assoc]

theorem card_sdiff_insert [DecidableEq α] {s t : Finset α} {x : α} (hs : x ∈ s) (ht : x ∉ t) :
    (s \ insert x t).card + 1 = (s \ t).card := by
  rw [Finset.sdiff_insert, Finset.card_erase_add_one (Finset.mem_sdiff.mpr ⟨hs, ht⟩)]

variable {g : Graph} {q : FlowQuery} {u id entry : Int} {hops : List Hop} {used : List Nat}
  {depth left : Nat}

def note (g : Graph) (q : FlowQuery) (id : Int) (depth : Nat) (found : Finset Int) : Finset Int :=
  if g.isUpstream q id depth then insert id found else found

theorem mem_note {found : Finset Int} :
    u ∈ g.note q id depth found ↔ u ∈ found ∨ g.isUpstream q id depth = true ∧ u = id := by
  unfold note
  split
  · rename_i h
    rw [Finset.mem_insert, or_comm, and_iff_right h]
  · rename_i h
    rw [or_iff_left fun hu => h hu.1]

-- ---------------------------------------------------------------------------
-- Trail by trail
-- ---------------------------------------------------------------------------

/-- Adds the anchors at the ends of the trails that continue `used` from `id`. Each hop uses an
edge that is not used yet. -/
def walkAnchors (g : Graph) (q : FlowQuery) (used : List Nat) (id : Int) (depth : Nat)
    (found : Finset Int) : Finset Int :=
  let noted := g.note q id depth found
  if depth = q.upstream.max then noted
  else (g.hops q id).attach.foldl (fun found hop =>
    if hop.1.place ∈ used then found
    else walkAnchors g q (hop.1.place :: used) hop.1.edge.target (depth + 1) found) noted
termination_by (Finset.range g.edges.length \ used.toFinset).card
decreasing_by
  rename_i hunused
  have hplace := (List.getElem?_eq_some_iff.mp (mem_hops.mp hop.2).1).1
  have hcard := card_sdiff_insert (Finset.mem_range.mpr hplace) (mt List.mem_toFinset.mp hunused)
  rw [List.toFinset_cons]
  omega

theorem mem_walkAnchors (hdepth : depth + left = q.upstream.max) {found : Finset Int} :
    u ∈ g.walkAnchors q used id depth found ↔
      u ∈ found ∨ u ∈ g.trailAnchors q used id depth left := by
  induction left generalizing used id depth found with
  | zero =>
    obtain rfl : depth = q.upstream.max := hdepth
    rw [walkAnchors, if_pos rfl, mem_note, trailAnchors, List.mem_ite_nil_right, List.mem_singleton]
  | succ left ih =>
    have hmax : depth ≠ q.upstream.max := by omega
    have hstep (found : Finset Int) (hop : {hop // hop ∈ g.hops q id}) :
        (u ∈ if hop.1.place ∈ used then found
          else g.walkAnchors q (hop.1.place :: used) hop.1.edge.target (depth + 1) found) ↔
        u ∈ found ∨ hop.1.place ∉ used ∧
          u ∈ g.trailAnchors q (hop.1.place :: used) hop.1.edge.target (depth + 1) left := by
      split
      · rename_i hused
        simp [hused]
      · rename_i hused
        rw [ih (by omega), and_iff_right hused]
    rw [walkAnchors, if_neg hmax, foldl_extends (u ∈ ·) fun found hop _ => hstep found hop,
      mem_note, trailAnchors, List.mem_append, List.mem_ite_nil_right, List.mem_singleton, or_assoc]
    simp [and_assoc, and_left_comm]

-- ---------------------------------------------------------------------------
-- Breadth first
-- ---------------------------------------------------------------------------

/-- A node with a number of hops that leads to it and is in range. -/
abbrev Stop (q : FlowQuery) := Int × Fin (q.upstream.max + 1)

/-- A search from an entry: the stops that wait to be visited, the next one first, all that were
ever queued, and the anchors found so far. -/
structure Sweep (q : FlowQuery) where
  queue : List (Stop q)
  seen : Finset (Stop q)
  found : Finset Int

namespace Sweep

variable {s : Sweep q} {stop next : Stop q}

def start (q : FlowQuery) (entry : Int) : Sweep q := ⟨[(entry, 0)], {(entry, 0)}, ∅⟩

def meet (s : Sweep q) (stop : Stop q) : Sweep q :=
  if stop ∈ s.seen then s
  else { s with queue := s.queue ++ [stop], seen := insert stop s.seen }

/-- The stops one hop on, none from a stop that is as many hops away as an anchor may be. -/
def onward (g : Graph) (stop : Stop q) : List (Stop q) :=
  if hmax : stop.2 = q.upstream.max then []
  else (g.hops q stop.1).map fun hop => (hop.edge.target, ⟨stop.2 + 1, by omega⟩)

def visit (g : Graph) (s : Sweep q) (stop : Stop q) : Sweep q :=
  (onward g stop).foldl meet { s with found := g.note q stop.1 stop.2 s.found }

theorem mem_onward :
    next ∈ onward g stop ↔
      ∃ hop ∈ g.hops q stop.1, hop.edge.target = next.1 ∧ (stop.2 : Nat) + 1 = next.2 := by
  unfold onward
  split
  · rename_i hmax
    have hfar : (stop.2 : Nat) + 1 ≠ next.2 := by omega
    simp [hfar]
  · simp [Prod.ext_iff, Fin.ext_iff]

def missing (g : Graph) (s : Sweep q) : Finset (Stop q) :=
  (g.edges.map (·.target)).toFinset ×ˢ Finset.univ \ s.seen

def cost (g : Graph) (s : Sweep q) : Nat := (s.missing g).card + s.queue.length

theorem cost_meet (h : stop.1 ∈ g.edges.map (·.target)) (s : Sweep q) :
    (s.meet stop).cost g ≤ s.cost g := by
  unfold meet
  split
  · exact Nat.le_refl _
  · rename_i hnew
    have hend : stop ∈ (g.edges.map (·.target)).toFinset ×ˢ Finset.univ :=
      Finset.mem_product.mpr ⟨List.mem_toFinset.mpr h, Finset.mem_univ _⟩
    have hcard := card_sdiff_insert hend hnew
    simp only [cost, missing, List.length_append, List.length_singleton]
    omega

theorem cost_visit (g : Graph) (s : Sweep q) (stop : Stop q) :
    (s.visit g stop).cost g ≤ s.cost g := by
  refine List.foldlRecOn (motive := fun s' : Sweep q => s'.cost g ≤ s.cost g) _ _
    (Nat.le_refl _) fun s' hle next hnext => ?_
  obtain ⟨hop, hhop, htarget, -⟩ := mem_onward.mp hnext
  have hedge : hop.edge ∈ g.edges := List.mem_of_getElem? (mem_hops.mp hhop).1
  exact Nat.le_trans (cost_meet (htarget ▸ List.mem_map_of_mem hedge) s') hle

def run (g : Graph) (s : Sweep q) : Sweep q :=
  match s with
  | ⟨[], seen, found⟩ => ⟨[], seen, found⟩
  | ⟨stop :: rest, seen, found⟩ => run g (visit g ⟨rest, seen, found⟩ stop)
termination_by s.cost g
decreasing_by
  refine Nat.lt_of_le_of_lt (cost_visit g ⟨rest, seen, found⟩ stop) ?_
  simp only [cost, missing, List.length_cons]
  omega

-- ---------------------------------------------------------------------------
-- One visit
-- ---------------------------------------------------------------------------

def Visited (s : Sweep q) (stop : Stop q) : Prop := stop ∈ s.seen ∧ stop ∉ s.queue

theorem mem_seen_meet : next ∈ (s.meet stop).seen ↔ next ∈ s.seen ∨ stop = next := by
  unfold meet
  split
  · rename_i hold
    rw [or_iff_left_of_imp]
    rintro rfl
    exact hold
  · rw [Finset.mem_insert, or_comm, eq_comm]

theorem visited_meet : (s.meet stop).Visited next ↔ s.Visited next := by
  unfold meet
  split
  · exact Iff.rfl
  · rename_i hnew
    have hne : next ∈ s.seen → next ≠ stop := by
      rintro hold rfl
      exact hnew hold
    simp only [Visited, Finset.mem_insert, List.mem_append, List.mem_singleton]
    tauto

theorem found_meet : (s.meet stop).found = s.found := by
  unfold meet
  split <;> rfl

theorem waits_meet (h : ∀ other ∈ s.queue, other ∈ s.seen) :
    ∀ other ∈ (s.meet stop).queue, other ∈ (s.meet stop).seen := by
  unfold meet
  split
  · exact h
  · intro other ho
    rw [List.mem_append, List.mem_singleton] at ho
    exact Finset.mem_insert.mpr (ho.symm.imp_right (h other))

theorem mem_seen_visit : next ∈ (s.visit g stop).seen ↔ next ∈ s.seen ∨ next ∈ onward g stop := by
  have hstep (s : Sweep q) (other : Stop q) (_ : other ∈ onward g stop) :
      next ∈ (s.meet other).seen ↔ next ∈ s.seen ∨ other = next := mem_seen_meet
  rw [visit, foldl_extends (fun s : Sweep q => next ∈ s.seen) hstep, exists_eq_right]

theorem visited_visit : (s.visit g stop).Visited next ↔ s.Visited next :=
  List.foldlRecOn (motive := fun s' : Sweep q => s'.Visited next ↔ s.Visited next) _ _ Iff.rfl
    fun _ ih _ _ => visited_meet.trans ih

theorem found_visit : (s.visit g stop).found = g.note q stop.1 stop.2 s.found :=
  List.foldlRecOn (motive := fun s' : Sweep q => s'.found = g.note q stop.1 stop.2 s.found) _ _ rfl
    fun _ ih _ _ => found_meet.trans ih

theorem waits_visit (h : ∀ other ∈ s.queue, other ∈ s.seen) :
    ∀ other ∈ (s.visit g stop).queue, other ∈ (s.visit g stop).seen :=
  List.foldlRecOn (motive := fun s' : Sweep q => ∀ other ∈ s'.queue, other ∈ s'.seen) _ _ h
    fun _ ih _ _ => waits_meet ih

/-- What holds between two visits: stops are queued for walks, anchors found at stops, and once a
stop is visited, its node is found if it is an anchor, and all stops one hop on have been queued. -/
structure Sound (g : Graph) (entry : Int) (s : Sweep q) : Prop where
  start : (entry, 0) ∈ s.seen
  waits : ∀ stop ∈ s.queue, stop ∈ s.seen
  walked : ∀ stop ∈ s.seen, ∃ hops, g.Walk q.kinds entry hops stop.1 ∧ hops.length = stop.2
  anchor : ∀ u ∈ s.found, ∃ stop ∈ s.seen, stop.1 = u ∧ g.isUpstream q u stop.2 = true
  noted : ∀ stop, s.Visited stop → g.isUpstream q stop.1 stop.2 = true → stop.1 ∈ s.found
  expanded : ∀ stop, s.Visited stop → ∀ next ∈ onward g stop, next ∈ s.seen

theorem sound_start (g : Graph) (q : FlowQuery) (entry : Int) : Sound g entry (start q entry) := by
  have hnone (stop : Stop q) : ¬ (start q entry).Visited stop := by simp [Visited, start]
  refine ⟨by simp [start], by simp [start], fun stop hs => ?_, by simp [start],
    fun stop hv => absurd hv (hnone stop), fun stop hv => absurd hv (hnone stop)⟩
  obtain rfl := Finset.mem_singleton.mp hs
  exact ⟨[], .nil, rfl⟩

theorem Sound.visit {rest : List (Stop q)} {seen : Finset (Stop q)} {found : Finset Int}
    (h : Sound g entry ⟨stop :: rest, seen, found⟩) :
    Sound g entry (Sweep.visit g ⟨rest, seen, found⟩ stop) := by
  have hstop : stop ∈ seen := h.waits stop (List.mem_cons_self ..)
  -- The stop is the only one that is visited now and was not before.
  have hvisited (other : Stop q) (hv : (Sweep.visit g ⟨rest, seen, found⟩ stop).Visited other) :
      other = stop ∨ Visited ⟨stop :: rest, seen, found⟩ other := by
    obtain ⟨hseen, hrest⟩ := visited_visit.mp hv
    refine or_iff_not_imp_left.mpr fun hne => ⟨hseen, ?_⟩
    exact fun hm => (List.mem_cons.mp hm).elim hne hrest
  refine ⟨mem_seen_visit.mpr (.inl h.start), ?_, fun next hn => ?_, fun u hu => ?_,
    fun other hv hup => ?_, fun other hv next hn => ?_⟩
  · exact waits_visit fun other ho => h.waits other (List.mem_cons_of_mem _ ho)
  · rcases mem_seen_visit.mp hn with hn | hn
    · exact h.walked next hn
    · obtain ⟨hops, hw, hlen⟩ := h.walked stop hstop
      obtain ⟨hop, hhop, htarget, hnext⟩ := mem_onward.mp hn
      refine ⟨hops ++ [hop], htarget ▸ hw.concat hhop, ?_⟩
      rw [List.length_append, hlen, ← hnext, List.length_singleton]
  · rw [found_visit, mem_note] at hu
    rcases hu with hu | ⟨hup, rfl⟩
    · obtain ⟨other, ho, hother⟩ := h.anchor u hu
      exact ⟨other, mem_seen_visit.mpr (.inl ho), hother⟩
    · exact ⟨stop, mem_seen_visit.mpr (.inl hstop), rfl, hup⟩
  · rw [found_visit, mem_note]
    rcases hvisited other hv with rfl | hv
    · exact .inr ⟨hup, rfl⟩
    · exact .inl (h.noted other hv hup)
  · rw [mem_seen_visit]
    rcases hvisited other hv with rfl | hv
    · exact .inr hn
    · exact .inl (h.expanded other hv next hn)

-- ---------------------------------------------------------------------------
-- Whole searches
-- ---------------------------------------------------------------------------

theorem Sound.run (h : Sound g entry s) : Sound g entry (s.run g) ∧ (s.run g).queue = [] := by
  fun_induction Sweep.run g s with
  | case1 => exact ⟨h, rfl⟩
  | case2 stop rest seen found ih => exact ih h.visit

/-- When no stop waits, a walk in range from a stop that was queued leads to another one. -/
theorem Sound.seen_of_walk (h : Sound g entry s) (hdone : s.queue = []) (hstop : stop ∈ s.seen)
    (hw : g.Walk q.kinds stop.1 hops next.1) (hlen : stop.2 + hops.length = (next.2 : Nat)) :
    next ∈ s.seen := by
  induction hops generalizing stop with
  | nil =>
    obtain rfl : stop = next := Prod.ext (walk_nil.mp hw) (Fin.ext hlen)
    exact hstop
  | cons hop hops ih =>
    obtain ⟨hhop, hw⟩ := walk_cons.mp hw
    rw [List.length_cons] at hlen
    have hvisited : s.Visited stop := ⟨hstop, by simp [hdone]⟩
    have hmid := h.expanded stop hvisited (hop.edge.target, ⟨stop.2 + 1, by omega⟩)
      (mem_onward.mpr ⟨hop, hhop, rfl, rfl⟩)
    exact ih hmid hw (by simp only; omega)

/-- What has been queued in the end are the ends of the walks in range. -/
theorem mem_seen_run :
    stop ∈ ((start q entry).run g).seen ↔
      ∃ hops, g.Walk q.kinds entry hops stop.1 ∧ hops.length = stop.2 := by
  obtain ⟨hsound, hdone⟩ := (sound_start g q entry).run
  constructor
  · exact hsound.walked stop
  · rintro ⟨hops, hw, hlen⟩
    exact hsound.seen_of_walk hdone hsound.start hw (by simpa using hlen)

theorem mem_found_run :
    u ∈ ((start q entry).run g).found ↔
      ∃ stop ∈ ((start q entry).run g).seen, stop.1 = u ∧ g.isUpstream q u stop.2 = true := by
  obtain ⟨hsound, hdone⟩ := (sound_start g q entry).run
  constructor
  · exact hsound.anchor u
  · rintro ⟨stop, hs, rfl, hup⟩
    exact hsound.noted stop ⟨hs, by simp [hdone]⟩ hup

end Sweep

def sweepAnchors (g : Graph) (q : FlowQuery) (entry : Int) : Finset Int :=
  ((Sweep.start q entry).run g).found

/-- The search by layers finds the same. -/
theorem mem_sweepAnchors :
    u ∈ g.sweepAnchors q entry ↔ u ∈ g.layerAnchors q [entry] 0 q.upstream.max := by
  simp only [sweepAnchors, Sweep.mem_found_run, Sweep.mem_seen_run, mem_layerAnchors,
    List.mem_singleton, exists_eq_left, Nat.zero_add]
  constructor
  · rintro ⟨⟨_, depth⟩, ⟨hops, hw, hlen⟩, rfl, hup⟩
    rw [← hlen] at hup
    exact ⟨hops, hw, (isUpstream_iff.mp hup).1.2, hup⟩
  · rintro ⟨hops, hw, hle, hup⟩
    exact ⟨(u, ⟨hops.length, Nat.lt_succ_of_le hle⟩), ⟨hops, hw, rfl⟩, rfl, hup⟩

/-- Without a least hop count both searches find the same anchors: the labelled nodes at the ends of
the trails that are not too long. They are the anchors of the query. -/
theorem sweep_eq_walk (g : Graph) (q : FlowQuery) (hmin : q.upstream.min = 0) (entry : Int) :
    g.sweepAnchors q entry = g.walkAnchors q [] entry 0 ∅ ∧
      (∀ u, u ∈ g.sweepAnchors q entry ↔ g.hasLabel q.upstreamLabel u = true ∧
        ∃ hops, g.Trail q.kinds entry hops u ∧ hops.length ≤ q.upstream.max) ∧
      ∀ u, u ∈ g.upstreamAnchors q entry ↔ u ∈ g.sweepAnchors q entry := by
  have hsweep (u : Int) : u ∈ g.sweepAnchors q entry ↔
      u ∈ g.trailAnchors q [] entry 0 q.upstream.max :=
    mem_sweepAnchors.trans (mem_layerAnchors_entry hmin)
  have hwalk (u : Int) : u ∈ g.walkAnchors q [] entry 0 ∅ ↔
      u ∈ g.trailAnchors q [] entry 0 q.upstream.max := by
    rw [mem_walkAnchors (Nat.zero_add _), or_iff_right (Finset.notMem_empty u)]
  refine ⟨Finset.ext fun u => (hsweep u).trans (hwalk u).symm, fun u => ?_, fun u => ?_⟩
  · rw [hsweep, mem_trailAnchors_entry]
    simp [hmin]
  · rw [mem_upstreamAnchors_trail, hsweep]

def roundaboutGraph : Graph where
  nodes := [{ id := 1, type := "CFGEntryNode", labels := ["UpstreamNode"] },
    { id := 2, type := "Condition" },
    { id := 3, type := "CallExpression", labels := ["UpstreamNode"] },
    { id := 4, type := "ReturnStatement", labels := ["UpstreamNode"] }]
  edges := [⟨1, 2, .flowsTo⟩, ⟨1, 2, .reaches⟩, ⟨2, 1, .controls⟩, ⟨2, 2, .flowsTo⟩,
    ⟨2, 3, .flowsTo⟩, ⟨3, 4, .flowsTo⟩, ⟨1, 4, .isAstParent⟩]

theorem sweep_eq_walk_roundaboutGraph :
    roundaboutGraph.upstreamAnchors { upstream := ⟨0, 2⟩ } 1 = [1, 3] ∧
      roundaboutGraph.sweepAnchors { upstream := ⟨0, 2⟩ } 1 = {1, 3} ∧
      roundaboutGraph.walkAnchors { upstream := ⟨0, 2⟩ } [] 1 0 ∅ = {1, 3} := by
  obtain ⟨heq, -, hquery⟩ := sweep_eq_walk roundaboutGraph { upstream := ⟨0, 2⟩ } rfl 1
  have hanchors : roundaboutGraph.upstreamAnchors { upstream := ⟨0, 2⟩ } 1 = [1, 3] := by cbv
  have hset : roundaboutGraph.sweepAnchors { upstream := ⟨0, 2⟩ } 1 = {1, 3} := by
    ext u
    rw [← hquery, hanchors]
    simp
  exact ⟨hanchors, hset, heq ▸ hset⟩

-- With a least hop count the end of a walk that uses an edge twice may not be the end of a trail.
example :
    roundaboutGraph.sweepAnchors { kinds := [.reaches, .controls], upstream := ⟨4, 4⟩ } 1 = {1} ∧
      roundaboutGraph.walkAnchors { kinds := [.reaches, .controls], upstream := ⟨4, 4⟩ } [] 1 0 ∅ =
        ∅ := by
  decide +kernel

end FlowTally.Graph
