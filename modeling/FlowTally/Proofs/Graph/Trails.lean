import FlowTally.Graph.Flow
import FlowTally.Proofs.Graph.Built

/-!
# Walks and trails

A *walk* follows edges of given kinds from one node to another, a *trail* is a
walk that uses no edge twice. Three searches enumerate them: `trailAnchors` and
`trailFlows` go down every trail, `layerAnchors` goes through the ends of all
walks of one length after the other. Each has one lemma here that says which
walks or trails it finds. Every walk can be shortened to a trail
(`Walk.exists_trail`), so without a least hop count both searches for anchors
find the same ones, and a query has the anchors of its trails
(`mem_upstreamAnchors_trail`).
-/

namespace FlowTally.Graph

inductive Walk (g : Graph) (kinds : List EdgeKind) : Int → List Hop → Int → Prop
  | nil : Walk g kinds a [] a
  | cons {hop : Hop} {hops : List Hop} : g.edges[hop.place]? = some hop.edge →
      hop.edge.source = a → hop.edge.kind ∈ kinds → Walk g kinds hop.edge.target hops b →
      Walk g kinds a (hop :: hops) b

/-- A walk that uses no edge twice. -/
structure Trail (g : Graph) (kinds : List EdgeKind) (a : Int) (hops : List Hop) (b : Int) : Prop where
  walk : g.Walk kinds a hops b
  distinct : (hops.map (·.place)).Nodup

variable {g : Graph} {q : FlowQuery} {kinds f : List EdgeKind} {a b u d id anchor : Int}
  {hop : Hop} {hops : List Hop} {used : List Nat} {layer : List Int} {depth left : Nat}

theorem mem_hops :
    hop ∈ g.hops q id ↔
      g.edges[hop.place]? = some hop.edge ∧ hop.edge.source = id ∧ hop.edge.kind ∈ q.kinds := by
  simp only [hops, List.mem_mergeSort, List.mem_filter, List.mem_map, Prod.exists, Bool.and_eq_true,
    beq_iff_eq, List.contains_iff_mem]
  refine and_congr_left fun _ => ?_
  constructor
  · rintro ⟨edge, place, hmem, rfl⟩
    exact List.mem_zipIdx_iff_getElem?.mp hmem
  · intro h
    exact ⟨hop.edge, hop.place, List.mem_zipIdx_iff_getElem?.mpr h, rfl⟩

@[simp] theorem walk_nil : g.Walk kinds a [] b ↔ a = b :=
  ⟨fun h => by cases h; rfl, fun h => h ▸ .nil⟩

theorem walk_cons :
    g.Walk q.kinds a (hop :: hops) b ↔ hop ∈ g.hops q a ∧ g.Walk q.kinds hop.edge.target hops b := by
  rw [mem_hops]
  constructor
  · rintro (_ | ⟨he, hs, hk, hw⟩)
    exact ⟨⟨he, hs, hk⟩, hw⟩
  · rintro ⟨⟨he, hs, hk⟩, hw⟩
    exact .cons he hs hk hw

theorem Walk.concat (h : g.Walk q.kinds a hops b) (hhop : hop ∈ g.hops q b) :
    g.Walk q.kinds a (hops ++ [hop]) hop.edge.target := by
  induction hops generalizing a with
  | nil =>
    obtain rfl := walk_nil.mp h
    exact walk_cons.mpr ⟨hhop, .nil⟩
  | cons first rest ih =>
    obtain ⟨hfirst, hrest⟩ := walk_cons.mp h
    exact walk_cons.mpr ⟨hfirst, ih hrest⟩

-- ---------------------------------------------------------------------------
-- Shortening
-- ---------------------------------------------------------------------------

theorem Walk.edge (h : g.Walk kinds a hops b) (hm : hop ∈ hops) :
    g.edges[hop.place]? = some hop.edge := by
  induction h with
  | nil => cases hm
  | cons he _ _ _ ih =>
    rcases List.mem_cons.mp hm with rfl | hm
    · exact he
    · exact ih hm

theorem Walk.hop_eq {other : Hop} (h : g.Walk kinds a hops b) (hm : hop ∈ hops)
    (ho : g.edges[other.place]? = some other.edge) (hp : hop.place = other.place) : hop = other := by
  have he : some hop.edge = some other.edge := by rw [← h.edge hm, ← ho, hp]
  cases hop
  cases other
  cases hp
  cases he
  rfl

theorem Walk.suffix {before after : List Hop} (h : g.Walk kinds a (before ++ hop :: after) b) :
    g.Walk kinds hop.edge.source (hop :: after) b := by
  induction before generalizing a with
  | nil =>
    obtain _ | ⟨he, rfl, hk, hw⟩ := h
    exact .cons he rfl hk hw
  | cons _ before ih =>
    obtain _ | ⟨-, -, -, hw⟩ := h
    exact ih hw

/-- Every walk shortens to a trail: when its first edge returns in the trail that the rest
shortens to, the part of that trail from there on is one itself. -/
theorem Walk.exists_trail (h : g.Walk kinds a hops b) :
    ∃ short, g.Trail kinds a short b ∧ short.length ≤ hops.length := by
  induction h with
  | nil => exact ⟨[], ⟨.nil, List.nodup_nil⟩, Nat.le_refl _⟩
  | @cons a b hop hops he hs hk hw ih =>
    obtain ⟨short, ht, hle⟩ := ih
    by_cases hm : hop.place ∈ short.map (·.place)
    · obtain ⟨other, ho, hp⟩ := List.mem_map.mp hm
      obtain rfl : other = hop := ht.walk.hop_eq ho he hp
      obtain ⟨before, after, rfl⟩ := List.append_of_mem ho
      refine ⟨other :: after, ⟨hs ▸ ht.walk.suffix, ?_⟩, ?_⟩
      · refine ht.distinct.sublist (List.Sublist.map _ ?_)
        exact List.sublist_append_right before (other :: after)
      · simp only [List.length_append, List.length_cons] at hle ⊢
        omega
    · exact ⟨hop :: short, ⟨.cons he hs hk ht.walk, List.nodup_cons.mpr ⟨hm, ht.distinct⟩⟩,
        Nat.succ_le_succ hle⟩

-- ---------------------------------------------------------------------------
-- Trails that continue others
-- ---------------------------------------------------------------------------

structure Continues (g : Graph) (q : FlowQuery) (used : List Nat) (a : Int) (hops : List Hop)
    (b : Int) : Prop extends g.Trail q.kinds a hops b where
  fresh : ∀ hop ∈ hops, hop.place ∉ used

@[simp] theorem continues_nil : g.Continues q used a [] b ↔ a = b :=
  ⟨fun h => walk_nil.mp h.walk, fun h => ⟨⟨walk_nil.mpr h, List.nodup_nil⟩, by simp⟩⟩

theorem continues_cons :
    g.Continues q used a (hop :: hops) b ↔
      hop ∈ (g.hops q a).filter (fun hop => !used.contains hop.place) ∧
        g.Continues q (hop.place :: used) hop.edge.target hops b := by
  simp only [List.mem_filter, Bool.not_eq_true', List.contains_eq_mem, decide_eq_false_iff_not]
  constructor
  · rintro ⟨⟨hw, hd⟩, hf⟩
    obtain ⟨hhop, hw⟩ := walk_cons.mp hw
    obtain ⟨hne, hd⟩ := List.nodup_cons.mp hd
    refine ⟨⟨hhop, hf hop (List.mem_cons_self ..)⟩, ⟨hw, hd⟩, fun other ho hmem => ?_⟩
    rcases List.mem_cons.mp hmem with heq | hmem
    · exact hne (List.mem_map.mpr ⟨other, ho, heq⟩)
    · exact hf other (List.mem_cons_of_mem _ ho) hmem
  · rintro ⟨⟨hhop, hu⟩, ⟨hw, hd⟩, hf⟩
    refine ⟨⟨walk_cons.mpr ⟨hhop, hw⟩, List.nodup_cons.mpr ⟨fun hm => ?_, hd⟩⟩, fun other ho => ?_⟩
    · obtain ⟨other, ho, heq⟩ := List.mem_map.mp hm
      exact hf other ho (heq ▸ List.mem_cons_self ..)
    · rcases List.mem_cons.mp ho with rfl | ho
      · exact hu
      · exact fun hmem => hf other ho (List.mem_cons_of_mem _ hmem)

theorem trail_iff_continues : g.Trail q.kinds a hops b ↔ g.Continues q [] a hops b :=
  ⟨fun h => ⟨h, by simp⟩, fun h => h.toTrail⟩

-- ---------------------------------------------------------------------------
-- What the searches find
-- ---------------------------------------------------------------------------

theorem mem_trailAnchors :
    u ∈ g.trailAnchors q used id depth left ↔
      ∃ hops, g.Continues q used id hops u ∧ hops.length ≤ left ∧
        g.isUpstream q u (depth + hops.length) = true := by
  induction left generalizing used id depth with
  | zero =>
    rw [trailAnchors, List.mem_ite_nil_right, List.mem_singleton]
    constructor
    · rintro ⟨hup, rfl⟩
      exact ⟨[], by simp, Nat.le_refl _, hup⟩
    · rintro ⟨hops, hc, hle, hup⟩
      obtain rfl := List.length_eq_zero_iff.mp (Nat.le_zero.mp hle)
      obtain rfl := continues_nil.mp hc
      exact ⟨hup, rfl⟩
  | succ left ih =>
    rw [trailAnchors, List.mem_append, List.mem_ite_nil_right, List.mem_singleton, List.mem_flatMap]
    constructor
    · rintro (⟨hup, rfl⟩ | ⟨hop, hhop, hu⟩)
      · exact ⟨[], by simp, Nat.zero_le _, hup⟩
      · obtain ⟨hops, hc, hle, hup⟩ := ih.mp hu
        refine ⟨hop :: hops, continues_cons.mpr ⟨hhop, hc⟩, Nat.succ_le_succ hle, ?_⟩
        rwa [List.length_cons, Nat.add_comm hops.length, ← Nat.add_assoc]
    · rintro ⟨_ | ⟨hop, hops⟩, hc, hle, hup⟩
      · obtain rfl := continues_nil.mp hc
        exact .inl ⟨hup, rfl⟩
      · obtain ⟨hhop, hc⟩ := continues_cons.mp hc
        refine .inr ⟨hop, hhop, ih.mpr ⟨hops, hc, Nat.le_of_succ_le_succ hle, ?_⟩⟩
        rwa [List.length_cons, Nat.add_comm hops.length, ← Nat.add_assoc] at hup

theorem layerAnchors_nil : g.layerAnchors q [] depth left = [] := by
  cases left <;> simp [layerAnchors]

/-- Ending the search at an empty layer loses nothing. -/
theorem layerAnchors_succ :
    g.layerAnchors q layer depth (left + 1) = layer.filter (g.isUpstream q · depth) ++
      g.layerAnchors q (sortIds (layer.flatMap fun id => (g.hops q id).map (·.edge.target)))
        (depth + 1) left := by
  simp only [layerAnchors]
  split
  · rename_i h
    rw [List.isEmpty_iff.mp h, layerAnchors_nil]
  · rfl

theorem mem_layerAnchors :
    u ∈ g.layerAnchors q layer depth left ↔
      ∃ a ∈ layer, ∃ hops, g.Walk q.kinds a hops u ∧ hops.length ≤ left ∧
        g.isUpstream q u (depth + hops.length) = true := by
  induction left generalizing layer depth with
  | zero =>
    rw [layerAnchors, List.mem_filter]
    constructor
    · rintro ⟨hm, hup⟩
      exact ⟨u, hm, [], .nil, Nat.le_refl _, hup⟩
    · rintro ⟨a, hm, hops, hw, hle, hup⟩
      obtain rfl := List.length_eq_zero_iff.mp (Nat.le_zero.mp hle)
      obtain rfl := walk_nil.mp hw
      exact ⟨hm, hup⟩
  | succ left ih =>
    simp only [layerAnchors_succ, List.mem_append, List.mem_filter, ih, mem_sortIds,
      List.mem_flatMap, List.mem_map]
    constructor
    · rintro (⟨hm, hup⟩ | ⟨_, ⟨a, ha, hop, hhop, rfl⟩, hops, hw, hle, hup⟩)
      · exact ⟨u, hm, [], .nil, Nat.zero_le _, hup⟩
      · refine ⟨a, ha, hop :: hops, walk_cons.mpr ⟨hhop, hw⟩, Nat.succ_le_succ hle, ?_⟩
        rwa [List.length_cons, Nat.add_comm hops.length, ← Nat.add_assoc]
    · rintro ⟨a, ha, _ | ⟨hop, hops⟩, hw, hle, hup⟩
      · obtain rfl := walk_nil.mp hw
        exact .inl ⟨ha, hup⟩
      · obtain ⟨hhop, hw⟩ := walk_cons.mp hw
        refine .inr ⟨_, ⟨a, ha, hop, hhop, rfl⟩, hops, hw, Nat.le_of_succ_le_succ hle, ?_⟩
        rwa [List.length_cons, Nat.add_comm hops.length, ← Nat.add_assoc] at hup

theorem range_contains {range : HopRange} :
    range.contains n = true ↔ range.min ≤ n ∧ n ≤ range.max := by
  simp [HopRange.contains]

theorem isUpstream_iff :
    g.isUpstream q u depth = true ↔
      (q.upstream.min ≤ depth ∧ depth ≤ q.upstream.max) ∧ g.hasLabel q.upstreamLabel u = true := by
  rw [isUpstream, Bool.and_eq_true, range_contains]

theorem mem_trailAnchors_entry :
    u ∈ g.trailAnchors q [] a 0 q.upstream.max ↔
      g.hasLabel q.upstreamLabel u = true ∧ ∃ hops, g.Trail q.kinds a hops u ∧
        q.upstream.min ≤ hops.length ∧ hops.length ≤ q.upstream.max := by
  simp only [mem_trailAnchors, ← trail_iff_continues, Nat.zero_add, isUpstream_iff]
  constructor
  · rintro ⟨hops, ht, -, hrange, hl⟩
    exact ⟨hl, hops, ht, hrange⟩
  · rintro ⟨hl, hops, ht, hrange⟩
    exact ⟨hops, ht, hrange.2, hrange, hl⟩

/-- Without a least hop count a walk in range leads to no anchor that its trail does not lead to. -/
theorem mem_layerAnchors_entry (hmin : q.upstream.min = 0) :
    u ∈ g.layerAnchors q [a] 0 q.upstream.max ↔ u ∈ g.trailAnchors q [] a 0 q.upstream.max := by
  simp only [mem_trailAnchors_entry, mem_layerAnchors, List.mem_singleton, exists_eq_left,
    Nat.zero_add, isUpstream_iff]
  constructor
  · rintro ⟨hops, hw, hle, -, hl⟩
    obtain ⟨short, ht, hs⟩ := hw.exists_trail
    exact ⟨hl, short, ht, hmin ▸ Nat.zero_le _, Nat.le_trans hs hle⟩
  · rintro ⟨hl, hops, ht, hrange⟩
    exact ⟨hops, ht.walk, hrange.2, hrange, hl⟩

theorem mem_upstreamAnchors_trail :
    u ∈ g.upstreamAnchors q a ↔ u ∈ g.trailAnchors q [] a 0 q.upstream.max := by
  rw [upstreamAnchors, mem_sortIds]
  split
  · rename_i hmin
    exact mem_layerAnchors_entry hmin
  · exact Iff.rfl

def EndsFlow (g : Graph) (q : FlowQuery) (anchor d : Int) (f : List EdgeKind) : Prop :=
  q.downstream.contains f.length = true ∧ d ≠ anchor ∧ g.hasLabel q.downstreamLabel d = true

theorem mem_trailFlows :
    (d, f) ∈ g.trailFlows q anchor used kinds id left ↔
      ∃ hop hops, g.Continues q used id (hop :: hops) d ∧ hops.length < left ∧
        f = kinds ++ (hop :: hops).map (·.edge.kind) ∧ g.EndsFlow q anchor d f := by
  induction left generalizing used kinds id with
  | zero => simp [trailFlows]
  | succ left ih =>
    simp only [trailFlows, List.mem_flatMap, List.mem_append, List.mem_ite_nil_right,
      List.mem_singleton, Prod.mk.injEq, Bool.and_eq_true, bne_iff_ne, ih]
    constructor
    · rintro ⟨hop, hhop, ⟨⟨⟨hr, hne⟩, hl⟩, rfl, rfl⟩ | ⟨next, hops, hc, hlt, rfl, he⟩⟩
      · exact ⟨hop, [], continues_cons.mpr ⟨hhop, continues_nil.mpr rfl⟩, Nat.succ_pos _, rfl,
          hr, hne, hl⟩
      · exact ⟨hop, next :: hops, continues_cons.mpr ⟨hhop, hc⟩, Nat.succ_lt_succ hlt, by simp, he⟩
    · rintro ⟨hop, _ | ⟨next, hops⟩, hc, hlt, hf, he⟩
      · obtain ⟨hhop, hc⟩ := continues_cons.mp hc
        obtain rfl := continues_nil.mp hc
        subst hf
        exact ⟨hop, hhop, .inl ⟨⟨⟨he.1, he.2.1⟩, he.2.2⟩, rfl, rfl⟩⟩
      · obtain ⟨hhop, hc⟩ := continues_cons.mp hc
        exact ⟨hop, hhop, .inr ⟨next, hops, hc, Nat.lt_of_succ_lt_succ hlt, by simp [hf], he⟩⟩

end FlowTally.Graph
